import Windowing.Json.Codec
import Windowing.Proofs.Json.Fields

/-!
# Values that come back from JSON

What a host has stored comes back as it was, and what it sends in another form is read as if it had
been stored. An array stands for the object that gives its items to the first fields. A
configuration may leave fields out, for each of them stands for what a new configuration would have
written there.

Numbers have the width of the fields they are stored in. A value whose numbers have it is
`InRange`. Readers give no other values, and those are the values that come back.

Results:
1. `ofJson?_toJson`, `gives_inRange` for each type: reading undoes writing, and gives values in
   range.
2. `Config.ofJson?_overwrite`: the defaults of a configuration.
3. `json_roundTrips`: all of it together.
-/

namespace Windowing

/-! ## Values in range -/

/-- The range of a signed integer of 64 bits. -/
def IsSigned (value : Int) : Prop := -0x8000000000000000 ≤ value ∧ value < 0x8000000000000000

/-- A viewport whose numbers have the width of its fields. -/
def Viewport.InRange (view : Viewport) : Prop := view.offset ≤ Offset.limit

/-- A range whose numbers have the width of its fields. -/
structure RowRange.InRange (range : RowRange) : Prop where
  start_le : range.start ≤ Offset.limit
  stop_le : range.stop ≤ Offset.limit

/-- A window whose numbers have the width of its fields. -/
structure Window.InRange (window : Window) : Prop where
  range : window.range.InRange
  top_le : window.top ≤ Offset.limit
  extent_le : window.extent ≤ Offset.limit

/-- A configuration whose numbers have the width of its fields. -/
structure Config.InRange (config : Config) : Prop where
  rowHeight : ∀ height ∈ config.rowHeight, IsSigned height
  estimatedHeight : ∀ height ∈ config.estimatedHeight, IsSigned height
  overscan : IsSigned config.overscan
  settleDelay_le : config.settleDelay ≤ Offset.limit

/-! ## Names of fields -/

/-- The names that a viewport is stored under, in order. -/
def Viewport.fieldNames : List String := ["scroll_offset", "height"]

/-- The names that a range is stored under, in order. -/
def RowRange.fieldNames : List String := ["start_index", "end_index"]

/-- The names that a window is stored under, in order. -/
def Window.fieldNames : List String := ["start_index", "end_index", "offset_y", "total_height"]

/-- The names that a configuration is stored under, in order. -/
def Config.fieldNames : List String :=
  ["itemHeight", "estimatedItemHeight", "overscan", "emptyMessage", "isScrollingResetDelayMs"]

namespace Json

/-! ## Single values -/

theorem offset?_int {value : Nat} (le : value ≤ Offset.limit) :
    offset? (.int value) = some value :=
  if_pos ⟨Int.natCast_nonneg value, le⟩

theorem le_of_offset? {json : Json} {value : Nat} (read : offset? json = some value) :
    value ≤ Offset.limit := by
  unfold offset? natUpTo? at read
  split at read
  · split at read
    · next within =>
      cases read
      exact within.2
    · cases read
  · cases read

/-- The widest height is the limit of what is read as one. -/
theorem height?_int (height : UInt32) : height? (.int height.toNat) = some height := by
  have within : natUpTo? 4294967295 (.int height.toNat) = some height.toNat :=
    if_pos ⟨Int.natCast_nonneg _, Nat.le_of_lt_succ height.toNat_lt⟩
  rw [height?, within]
  exact congrArg some (UInt32.ofNat_toNat)

theorem signed?_int {value : Int} (signed : IsSigned value) : signed? (.int value) = some value :=
  if_pos signed

theorem isSigned_of_signed? {json : Json} {value : Int} (read : signed? json = some value) :
    IsSigned value := by
  unfold signed? at read
  split at read
  · split at read
    · next within =>
      cases read
      exact within
    · cases read
  · cases read

theorem nullable?_ofOption {value : Option Int} (signed : ∀ number ∈ value, IsSigned number) :
    nullable? signed? (ofOption .int value) = some value := by
  cases value with
  | none => rfl
  | some number => exact congrArg (Option.map some) (signed?_int (signed number rfl))

theorem isSigned_of_nullable? {json : Json} {value : Option Int}
    (read : nullable? signed? json = some value) : ∀ number ∈ value, IsSigned number := by
  rintro number rfl
  unfold nullable? at read
  split at read
  · cases read
  · obtain ⟨_, read, same⟩ := Option.map_eq_some_iff.mp read
    cases same
    exact isSigned_of_signed? read

/-! ## Records -/

/-- The fields of an object. -/
def fieldsOf : Json → List (String × Json)
  | obj fields => fields
  | _ => []

/-- An object whose fields take the values that `fields` have for them. -/
def overwrite (json : Json) (fields : List (String × Json)) : Json :=
  obj (overlay fields json.fieldsOf)

/-- A type of records with the field names `names`, as it is written to JSON and read from there. -/
structure Stores {α : Type} (names : List String) (write : α → Json) (read : Json → Option α)
    (InRange : α → Prop) : Prop where
  /-- All fields are written, in order. -/
  writes : ∀ value, ∃ fields, write value = obj fields ∧ fields.map Prod.fst = names
  reads_back : ∀ value, InRange value → read (write value) = some value
  inRange : ∀ {json value}, read json = some value → InRange value
  /-- An array is read as the object that gives its items to the first fields. -/
  reads_array : ∀ items, read (arr items) =
    if items.length ≤ names.length then read (obj (names.zip items)) else none

end Json

/-! ## Viewports, ranges and windows -/

namespace Viewport

theorem names_nodup : fields.names.Nodup := by decide

theorem ofJson?_toJson {view : Viewport} (inRange : view.InRange) :
    ofJson? view.toJson = some view := by
  have offset := Json.offset?_int inRange
  have height := Json.height?_int view.height
  simp [ofJson?, toJson, fields, List.lookup_cons, offset, height]

theorem gives_inRange : fields.Gives InRange := by
  refine Json.Fields.gives_field (Q := fun _ => True) ?_ (fun _ => trivial) nofun
  refine Json.Fields.gives_field ?_ Json.le_of_offset? nofun
  exact Json.Fields.gives_make fun offset le height _ => le

theorem stores : Json.Stores fieldNames toJson ofJson? InRange where
  writes _ := ⟨_, rfl, rfl⟩
  reads_back _ := ofJson?_toJson
  inRange := gives_inRange.of_read? names_nodup
  reads_array := Json.Fields.read?_arr names_nodup

end Viewport

namespace RowRange

theorem names_nodup : fields.names.Nodup := by decide

theorem ofJson?_toJson {range : RowRange} (inRange : range.InRange) :
    ofJson? range.toJson = some range := by
  have start := Json.offset?_int inRange.start_le
  have stop := Json.offset?_int inRange.stop_le
  simp [ofJson?, toJson, fields, List.lookup_cons, start, stop]

theorem gives_inRange : fields.Gives InRange := by
  refine Json.Fields.gives_field ?_ Json.le_of_offset? nofun
  refine Json.Fields.gives_field ?_ Json.le_of_offset? nofun
  exact Json.Fields.gives_make fun start start_le stop stop_le => { start_le, stop_le }

theorem stores : Json.Stores fieldNames toJson ofJson? InRange where
  writes _ := ⟨_, rfl, rfl⟩
  reads_back _ := ofJson?_toJson
  inRange := gives_inRange.of_read? names_nodup
  reads_array := Json.Fields.read?_arr names_nodup

end RowRange

namespace Window

theorem names_nodup : fields.names.Nodup := by decide

theorem ofJson?_toJson {window : Window} (inRange : window.InRange) :
    ofJson? window.toJson = some window := by
  have start := Json.offset?_int inRange.range.start_le
  have stop := Json.offset?_int inRange.range.stop_le
  have top := Json.offset?_int inRange.top_le
  have extent := Json.offset?_int inRange.extent_le
  simp [ofJson?, toJson, fields, List.lookup_cons, start, stop, top, extent]

theorem gives_inRange : fields.Gives InRange := by
  refine Json.Fields.gives_field ?_ Json.le_of_offset? nofun
  refine Json.Fields.gives_field ?_ Json.le_of_offset? nofun
  refine Json.Fields.gives_field ?_ Json.le_of_offset? nofun
  refine Json.Fields.gives_field ?_ Json.le_of_offset? nofun
  exact Json.Fields.gives_make fun start start_le stop stop_le top top_le extent extent_le =>
    { range := { start_le, stop_le }, top_le, extent_le }

theorem stores : Json.Stores fieldNames toJson ofJson? InRange where
  writes _ := ⟨_, rfl, rfl⟩
  reads_back _ := ofJson?_toJson
  inRange := gives_inRange.of_read? names_nodup
  reads_array := Json.Fields.read?_arr names_nodup

end Window

/-! ## Alignments and directions -/

theorem Align.ofJson?_toJson (align : Align) : Align.ofJson? align.toJson = some align := by
  cases align <;> rfl

theorem Direction.ofJson?_toJson (direction : Direction) :
    Direction.ofJson? direction.toJson = some direction := by
  cases direction <;> rfl

/-! ## Configurations -/

namespace Config

theorem names_nodup : fields.names.Nodup := by decide

theorem ofJson?_toJson {config : Config} (inRange : config.InRange) :
    ofJson? config.toJson = some config := by
  have rowHeight := Json.nullable?_ofOption inRange.rowHeight
  have estimatedHeight := Json.nullable?_ofOption inRange.estimatedHeight
  have overscan := Json.signed?_int inRange.overscan
  have emptyMessage : Json.text? (.str config.emptyMessage) = some config.emptyMessage := rfl
  have settleDelay := Json.offset?_int inRange.settleDelay_le
  simp [ofJson?, toJson, fields, List.lookup_cons, rowHeight, estimatedHeight, overscan,
    emptyMessage, settleDelay]

theorem inRange_default : ({} : Config).InRange where
  rowHeight := fun _ => nofun
  estimatedHeight := fun _ => nofun
  overscan := ⟨by decide, by decide⟩
  settleDelay_le := by decide

theorem gives_inRange : fields.Gives InRange := by
  have default := inRange_default
  refine Json.Fields.gives_field ?_ Json.le_of_offset?
    (by rintro _ ⟨⟩; exact default.settleDelay_le)
  refine Json.Fields.gives_field (Q := fun _ => True) ?_ (fun _ => trivial) fun _ _ => trivial
  refine Json.Fields.gives_field ?_ Json.isSigned_of_signed?
    (by rintro _ ⟨⟩; exact default.overscan)
  refine Json.Fields.gives_field ?_ Json.isSigned_of_nullable?
    (by rintro _ ⟨⟩; exact default.estimatedHeight)
  refine Json.Fields.gives_field ?_ Json.isSigned_of_nullable?
    (by rintro _ ⟨⟩; exact default.rowHeight)
  exact Json.Fields.gives_make
    fun _ rowHeight _ estimatedHeight _ overscan _ _ settleDelay settleDelay_le =>
      { rowHeight, estimatedHeight, overscan, settleDelay_le }

theorem stores : Json.Stores fieldNames toJson ofJson? InRange where
  writes _ := ⟨_, rfl, rfl⟩
  reads_back _ := ofJson?_toJson
  inRange := gives_inRange.of_read? names_nodup
  reads_array := Json.Fields.read?_arr names_nodup

/-- A new configuration writes what is taken for a field that is left out. -/
theorem fallsBackTo_default : fields.FallsBackTo ({} : Config).toJson.fieldsOf :=
  ⟨⟨⟨⟨⟨trivial, _, rfl, rfl⟩, _, rfl, rfl⟩, _, rfl, rfl⟩, _, rfl, rfl⟩, _, rfl, rfl⟩

/-- A field that is left out counts for what a new configuration writes there. -/
theorem ofJson?_overwrite (entries : List (String × Json)) :
    ofJson? (({} : Config).toJson.overwrite entries) = ofJson? (.obj entries) :=
  Json.Fields.byName?_overlay fallsBackTo_default entries

/-- Fields that are not known are passed over, and `null` is no number. -/
example :
    Config.ofJson? (.obj [("rowHeight", .int 9), ("itemHeight", .int 65)]) =
        some { rowHeight := some 65 } ∧
      Config.ofJson? (.obj [("itemHeight", .int 65), ("overscan", .null)]) = none :=
  ⟨rfl, rfl⟩

end Config

/-! ## All types -/

/-- Viewports, ranges, windows, alignments, directions and configurations come back from JSON as
they were. An array gives a record the fields it begins with. An object gives a configuration what
a new one would have written, with the values of the object in the place of those that it has under
the same names. -/
theorem json_roundTrips :
    Json.Stores Viewport.fieldNames Viewport.toJson Viewport.ofJson? Viewport.InRange ∧
      Json.Stores RowRange.fieldNames RowRange.toJson RowRange.ofJson? RowRange.InRange ∧
      Json.Stores Window.fieldNames Window.toJson Window.ofJson? Window.InRange ∧
      Json.Stores Config.fieldNames Config.toJson Config.ofJson? Config.InRange ∧
      (∀ align : Align, Align.ofJson? align.toJson = some align) ∧
      (∀ direction : Direction, Direction.ofJson? direction.toJson = some direction) ∧
      ∀ fields : List (String × Json),
        Config.ofJson? (.obj fields) = Config.ofJson? (({} : Config).toJson.overwrite fields) :=
  ⟨Viewport.stores, RowRange.stores, Window.stores, Config.stores, Align.ofJson?_toJson,
    Direction.ofJson?_toJson, fun fields => (Config.ofJson?_overwrite fields).symm⟩

end Windowing
