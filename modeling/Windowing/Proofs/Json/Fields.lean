import Windowing.Json.Basic
import Mathlib.Data.List.Basic

/-!
# Records read by name and by order

An object is read by its names and an array by its order, and the two readers never look at the
same thing. They agree on an array whose items are given the names of the first fields, as long as
no two fields share a name, for then the entry that one finds by its name is the item that the other
has come to.

Results:
1. `Fields.inOrder?_eq_byName?`, `Fields.read?_arr`: what an array is read as.
2. `Fields.gives_field`, `Fields.Gives.of_read?`: what holds of every record that is read.
3. `Fields.byName?_overlay`: fallbacks that are written down and then written over are as good as
   those that are left to the reader.
-/

namespace Windowing

namespace Json

variable {α β : Type} {entries base : List (String × Json)} {name : String} {json : Json}

/-! ## Entries -/

/-- Items that are named one after the other: the names that come later go to the items left. -/
theorem zip_append_names (names later : List String) (items : List Json) :
    (names ++ later).zip items = names.zip items ++ later.zip (items.drop names.length) := by
  induction names generalizing items with
  | nil => rfl
  | cons name names ih =>
    cases items with
    | nil => rw [List.drop_nil, List.zip_nil_right, List.zip_nil_right, List.zip_nil_right]; rfl
    | cons item items => exact congrArg ((name, item) :: ·) (ih items)

/-- No item is found by a name that none was given. -/
theorem lookup_zip_of_not_mem {names : List String} (fresh : name ∉ names) (items : List Json) :
    (names.zip items).lookup name = none := by
  refine List.lookup_eq_none_iff.mpr fun entry mem => ?_
  exact bne_iff_ne.mpr fun same => fresh (same ▸ (List.of_mem_zip mem).1)

/-- One more name does not change what the names before it find. -/
theorem lookup_zip_concat_of_mem {names : List String} {last : String} (fresh : last ∉ names)
    (mem : name ∈ names) (items : List Json) :
    ((names ++ [last]).zip items).lookup name = (names.zip items).lookup name := by
  have other : name ∉ [last] := fun same => fresh (List.mem_singleton.mp same ▸ mem)
  rw [zip_append_names, List.lookup_append, lookup_zip_of_not_mem other, Option.or_none]

/-- The last of the names finds the first item that is left by those before it. -/
theorem lookup_zip_concat_self {names : List String} {last : String} (fresh : last ∉ names)
    (items : List Json) :
    ((names ++ [last]).zip items).lookup last = (items.drop names.length).head? := by
  rw [zip_append_names, List.lookup_append, lookup_zip_of_not_mem fresh, Option.none_or]
  cases items.drop names.length with
  | nil => rfl
  | cons item left => exact List.lookup_cons_self

/-- The entries `base`, each with the value that `entries` have under its name, if they have one. -/
def overlay (entries base : List (String × Json)) : List (String × Json) :=
  base.map fun entry => (entry.1, (entries.lookup entry.1).getD entry.2)

theorem lookup_overlay (entries base : List (String × Json)) (name : String) :
    (overlay entries base).lookup name =
      (base.lookup name).map fun json => (entries.lookup name).getD json := by
  induction base with
  | nil => rfl
  | cons entry base ih =>
    obtain ⟨key, json⟩ := entry
    show ((key, (entries.lookup key).getD json) :: overlay entries base).lookup name = _
    rw [List.lookup_cons, List.lookup_cons]
    cases same : name == key with
    | true => rw [eq_of_beq same]; rfl
    | false => exact ih

@[simp] theorem found?_some (read : Json → Option α) (fallback : Option α) (json : Json) :
    found? read fallback (some json) = read json :=
  rfl

/-- What holds of all that is read and of the fallback holds of what is found. -/
theorem of_found? {P : α → Prop} {read : Json → Option α} {fallback : Option α}
    {entry : Option Json} {value : α} (reads : ∀ {json value}, read json = some value → P value)
    (falls_back : ∀ value ∈ fallback, P value) (found : found? read fallback entry = some value) :
    P value := by
  cases entry with
  | none => exact falls_back value found
  | some json => exact reads found

namespace Fields

variable {fields : Fields α} {rest : Fields (β → α)} {read : Json → Option β}
  {fallback : Option β}

/-! ## Reading by name -/

@[simp] theorem byName?_make (value : α) : (make value).byName? entries = some value := rfl

@[simp] theorem byName?_field :
    (rest.field name read fallback).byName? entries =
      (rest.byName? entries).bind fun build =>
        (found? read fallback (entries.lookup name)).bind fun value => some (build value) :=
  rfl

@[simp] theorem read?_obj : fields.read? (obj entries) = fields.byName? entries := rfl

/-- Only the entries under the names of the fields count. -/
theorem byName?_congr {others : List (String × Json)}
    (same : ∀ name ∈ fields.names, entries.lookup name = others.lookup name) :
    fields.byName? entries = fields.byName? others := by
  induction fields with
  | make value => rfl
  | field rest name read fallback ih =>
    have before := ih fun name mem => same name (List.mem_append_left _ mem)
    have here := same name (List.mem_append_right _ List.mem_cons_self)
    rw [byName?_field, byName?_field, before, here]

/-! ## Reading in order -/

theorem inOrder?_field {items : List Json} :
    (rest.field name read fallback).inOrder? items =
      (rest.inOrder? items).bind fun (build, left) =>
        (found? read fallback left.head?).bind fun value => some (build value, left.tail) :=
  rfl

/-- The reader that looks at no name reads what the other reads from the items under the names of
the first fields, and leaves the items that come after as many as there are fields. -/
theorem inOrder?_eq_byName? (distinct : fields.names.Nodup) (items : List Json) :
    fields.inOrder? items =
      (fields.byName? (fields.names.zip items)).map
        fun value => (value, items.drop fields.names.length) := by
  induction fields with
  | make value => rfl
  | field rest name read fallback ih =>
    obtain ⟨distinct, -, apart⟩ := List.nodup_append.mp distinct
    have fresh : name ∉ rest.names := fun mem => apart name mem name List.mem_cons_self rfl
    have before : rest.byName? ((rest.names ++ [name]).zip items) =
        rest.byName? (rest.names.zip items) :=
      byName?_congr fun _ mem => lookup_zip_concat_of_mem fresh mem items
    have here := lookup_zip_concat_self fresh items
    have left : (items.drop rest.names.length).tail =
        items.drop (rest.names ++ [name]).length := by
      rw [List.tail_drop, List.length_append]
      rfl
    rw [inOrder?_field, ih distinct, byName?_field, names, before, here, ← left]
    cases rest.byName? (rest.names.zip items) with
    | none => rfl
    | some build =>
      rw [Option.bind_some, Option.map_bind, Option.map_some, Option.bind_some]
      rfl

/-- An array is read as the object that gives its items to the first fields. -/
theorem read?_arr (distinct : fields.names.Nodup) (items : List Json) :
    fields.read? (arr items) =
      if items.length ≤ fields.names.length then fields.read? (obj (fields.names.zip items))
      else none := by
  rw [read?_obj, read?, inOrder?_eq_byName? distinct]
  cases fields.byName? (fields.names.zip items) with
  | none => exact (ite_self none).symm
  | some value =>
    split_ifs with short
    · rw [Option.map_some, List.drop_eq_nil_of_le short]
    · cases left : items.drop fields.names.length with
      | nil => exact absurd (List.drop_eq_nil_iff.mp left) short
      | cons item left => rfl

/-! ## Records that are read -/

/-- Every record that is read by name has the property `P`. -/
def Gives (P : α → Prop) (fields : Fields α) : Prop :=
  ∀ ⦃entries record⦄, fields.byName? entries = some record → P record

theorem gives_make {P : α → Prop} {value : α} (holds : P value) : (make value).Gives P := by
  intro entries record reads
  cases reads
  exact holds

/-- The last value is known by what holds of all that its reader gives and of its fallback. -/
theorem gives_field {P : α → Prop} {Q : β → Prop}
    (before : rest.Gives fun build => ∀ value, Q value → P (build value))
    (reads : ∀ {json value}, read json = some value → Q value)
    (falls_back : ∀ value ∈ fallback, Q value) :
    (rest.field name read fallback).Gives P := by
  intro entries record given
  obtain ⟨build, built, given⟩ := Option.bind_eq_some_iff.mp given
  obtain ⟨value, found, given⟩ := Option.bind_eq_some_iff.mp given
  cases given
  exact before built value (of_found? reads falls_back found)

/-- What holds of the records that are read by name holds of those that are read from arrays. -/
theorem Gives.of_read? {P : α → Prop} (gives : fields.Gives P) (distinct : fields.names.Nodup)
    {record : α} (reads : fields.read? json = some record) : P record := by
  cases json with
  | obj entries => exact gives reads
  | arr items =>
    rw [read?_arr distinct] at reads
    exact gives (Option.ite_none_right_eq_some.mp reads).2
  | _ => cases reads

/-! ## Fallbacks -/

/-- Every field may be left out, and `base` has its fallback written down under its name. -/
def FallsBackTo (base : List (String × Json)) : {α : Type} → Fields α → Prop
  | _, make _ => True
  | _, field rest name read fallback =>
    rest.FallsBackTo base ∧ ∃ json, base.lookup name = some json ∧ read json = fallback

/-- A fallback that is written down and then written over is as good as one that is left to the
reader. -/
theorem byName?_overlay (written : fields.FallsBackTo base) (entries : List (String × Json)) :
    fields.byName? (overlay entries base) = fields.byName? entries := by
  induction fields with
  | make value => rfl
  | field rest name read fallback ih =>
    obtain ⟨before, json, found, reads⟩ := written
    have here : found? read fallback ((overlay entries base).lookup name) =
        found? read fallback (entries.lookup name) := by
      rw [lookup_overlay, found, Option.map_some]
      cases entries.lookup name with
      | none => exact reads
      | some _ => rfl
    rw [byName?_field, byName?_field, ih before, here]

end Fields

end Json

end Windowing
