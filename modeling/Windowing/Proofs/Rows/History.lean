import Mathlib.Data.List.Induction
import Windowing.Proofs.Rows.Edit

/-!
# Measured rows and their history

Measured rows keep sizes, flags and sums, and change them in five different
ways. What they answer depends on their history alone: on the measurements that
are still standing, and on the estimates of the other rows.

* `plainRows` is the account without any sums: a list of sizes with their flags.
* `Standing count edits i size` says that the history `edits` left a measurement
  of row `i` in force.

Results:
1. `getElem?_plainRows_iff`: the flagged rows are those with a standing
   measurement.
2. `editAll_follows`: after any run of edits, measured rows answer every question
   as their history says.
-/

namespace Windowing

/-! ## The plain account -/

/-- The row that stands for row `i` while it has no measurement. -/
def estimatedRow (estimate : Nat → UInt32) (i : Nat) : Row :=
  ⟨if estimate i = 0 then 1 else estimate i, false⟩

namespace Edit

/-- The change that an edit makes to a plain list of rows. -/
def applyTo (estimate : Nat → UInt32) (rows : List Row) : Edit → List Row
  | measure i size => rows.set i ⟨size, true⟩
  | forget i => rows.set i (estimatedRow estimate i)
  | forgetAll => (List.range rows.length).map (estimatedRow estimate)
  | resize count =>
    rows.take count ++
      (List.range' rows.length (count - rows.length)).map (estimatedRow estimate)

/-- The number of rows after an edit. -/
def countAfter (count : Nat) : Edit → Nat
  | resize count => count
  | _ => count

/-- The edit ends an earlier measurement of row `i`. -/
def Ends (i : Nat) : Edit → Prop
  | measure j _ => j = i
  | forget j => j = i
  | forgetAll => True
  | resize count => count ≤ i

end Edit

/-- The plain list of rows after a sequence of edits. -/
def plainRows (estimate : Nat → UInt32) (count : Nat) (edits : List Edit) : List Row :=
  edits.foldl (Edit.applyTo estimate) ((List.range count).map (estimatedRow estimate))

/-- The number of rows after a sequence of edits. -/
def countAfter (count : Nat) (edits : List Edit) : Nat := edits.foldl Edit.countAfter count

/-- Row `i` was measured while it was in range, and nothing since has ended that
measurement: no other measurement of the row, no dropping of it or of all
measurements, and no cut that took the row away. -/
def Standing (count : Nat) (edits : List Edit) (i : Nat) (size : UInt32) : Prop :=
  ∃ before after, edits = before ++ Edit.measure i size :: after ∧
    i < countAfter count before ∧ ∀ e ∈ after, ¬ e.Ends i

/-! ## The plain account and the history -/

theorem standing_append_iff {count i : Nat} {edits : List Edit} {e : Edit} {size : UInt32} :
    Standing count (edits ++ [e]) i size ↔
      (e = Edit.measure i size ∧ i < countAfter count edits) ∨
        (¬ e.Ends i ∧ Standing count edits i size) := by
  constructor
  · rintro ⟨before, after, split, inside, keeps⟩
    rcases List.eq_nil_or_concat after with rfl | ⟨after, last, rfl⟩
    · obtain ⟨rfl, last⟩ := List.append_inj' split rfl
      exact Or.inl ⟨(List.cons.inj last).1, inside⟩
    · rw [List.concat_eq_append] at split keeps
      rw [← List.cons_append, ← List.append_assoc] at split
      obtain ⟨rfl, same⟩ := List.append_inj' split rfl
      obtain rfl := (List.cons.inj same).1
      exact Or.inr ⟨keeps e (by simp), before, after, rfl, inside,
        fun e' mem => keeps e' (List.mem_append_left _ mem)⟩
  · rintro (⟨rfl, inside⟩ | ⟨keeps, before, after, rfl, inside, kept⟩)
    · exact ⟨edits, [], rfl, inside, fun e mem => absurd mem List.not_mem_nil⟩
    · refine ⟨before, after ++ [e], by simp, inside, fun e' mem => ?_⟩
      rcases List.mem_append.mp mem with old | last
      · exact kept e' old
      · rw [List.mem_singleton.mp last]
        exact keeps

theorem length_applyTo (estimate : Nat → UInt32) (rows : List Row) (e : Edit) :
    (e.applyTo estimate rows).length = e.countAfter rows.length := by
  cases e with
  | measure i size => exact List.length_set
  | forget i => exact List.length_set
  | forgetAll => simp [Edit.applyTo, Edit.countAfter]
  | resize count =>
    simp only [Edit.applyTo, Edit.countAfter, List.length_append, List.length_take,
      List.length_map, List.length_range']
    omega

theorem plainRows_append (estimate : Nat → UInt32) (count : Nat) (edits : List Edit) (e : Edit) :
    plainRows estimate count (edits ++ [e]) = e.applyTo estimate (plainRows estimate count edits) :=
  List.foldl_append

theorem length_plainRows (estimate : Nat → UInt32) (count : Nat) (edits : List Edit) :
    (plainRows estimate count edits).length = countAfter count edits := by
  induction edits using List.reverseRecOn with
  | nil => simp [plainRows, countAfter]
  | append_singleton edits e ih =>
    rw [plainRows_append, length_applyTo, ih, countAfter, countAfter, List.foldl_append]
    rfl

/-- What an edit does to row `i`: it measures the row, or keeps it as it is, or
leaves an estimate. -/
theorem getElem?_applyTo (estimate : Nat → UInt32) (rows : List Row) (e : Edit) {i : Nat}
    (inside : i < e.countAfter rows.length) :
    (∃ size, e = .measure i size ∧ (e.applyTo estimate rows)[i]? = some ⟨size, true⟩) ∨
      (¬ e.Ends i ∧ i < rows.length ∧ (e.applyTo estimate rows)[i]? = rows[i]?) ∨
      ((e.Ends i ∨ rows.length ≤ i) ∧ (∀ size, e ≠ .measure i size) ∧
        (e.applyTo estimate rows)[i]? = some (estimatedRow estimate i)) := by
  cases e with
  | measure j size =>
    have inside : i < rows.length := inside
    by_cases same : j = i
    · subst same
      exact Or.inl ⟨size, rfl, List.getElem?_set_self inside⟩
    · exact Or.inr (Or.inl ⟨same, inside, List.getElem?_set_ne same⟩)
  | forget j =>
    have inside : i < rows.length := inside
    by_cases same : j = i
    · subst same
      exact Or.inr (Or.inr ⟨Or.inl rfl, nofun, List.getElem?_set_self inside⟩)
    · exact Or.inr (Or.inl ⟨same, inside, List.getElem?_set_ne same⟩)
  | forgetAll =>
    have inside : i < rows.length := inside
    refine Or.inr (Or.inr ⟨Or.inl trivial, nofun, ?_⟩)
    rw [Edit.applyTo, List.getElem?_map, List.getElem?_range inside, Option.map_some]
  | resize count =>
    have inside : i < count := inside
    rcases Nat.lt_or_ge i rows.length with old | new
    · refine Or.inr (Or.inl ⟨Nat.not_le.mpr inside, old, ?_⟩)
      rw [Edit.applyTo, List.getElem?_append_left (by rw [List.length_take]; omega),
        List.getElem?_take_of_lt inside]
    · refine Or.inr (Or.inr ⟨Or.inr new, nofun, ?_⟩)
      rw [Edit.applyTo, List.take_of_length_le (by omega), List.getElem?_append_right new,
        List.getElem?_map, List.getElem?_range' (by omega), Option.map_some]
      congr 2
      omega

/-- The flagged rows of the plain account are the rows with a standing
measurement, at the size that was measured. -/
theorem getElem?_plainRows_iff (estimate : Nat → UInt32) {count i : Nat} {edits : List Edit}
    {size : UInt32} :
    (plainRows estimate count edits)[i]? = some ⟨size, true⟩ ↔ Standing count edits i size := by
  induction edits using List.reverseRecOn with
  | nil =>
    constructor
    · intro h
      obtain ⟨j, _, row⟩ := List.mem_map.mp (List.mem_of_getElem? h)
      cases row
    · rintro ⟨before, after, split, _⟩
      exact absurd split.symm (by simp)
  | append_singleton edits e ih =>
    rw [plainRows_append, standing_append_iff, ← ih, ← length_plainRows estimate]
    have length := length_applyTo estimate (plainRows estimate count edits) e
    generalize plainRows estimate count edits = rows at *
    rcases Nat.lt_or_ge i (e.countAfter rows.length) with inside | outside
    · rcases getElem?_applyTo estimate rows e inside with
        ⟨new, rfl, row⟩ | ⟨keeps, old, row⟩ | ⟨ends, other, row⟩
      · have inside : i < rows.length := inside
        rw [row]
        constructor
        · intro h
          cases h
          exact Or.inl ⟨rfl, inside⟩
        · rintro (⟨same, _⟩ | ⟨keeps, _⟩)
          · cases same
            rfl
          · exact absurd rfl keeps
      · rw [row]
        refine ⟨fun h => Or.inr ⟨keeps, h⟩, ?_⟩
        rintro (⟨rfl, _⟩ | ⟨_, h⟩)
        · exact absurd rfl keeps
        · exact h
      · rw [row]
        constructor
        · intro h
          cases h
        · rintro (⟨same, _⟩ | ⟨keeps, h⟩)
          · exact absurd same (other size)
          rcases ends with ends | new
          · exact absurd ends keeps
          · rw [List.getElem?_eq_none new] at h
            cases h
    · -- The row is past the new end: it was past the old one, or the cut ends it.
      rw [List.getElem?_eq_none (length ▸ outside)]
      refine ⟨nofun, ?_⟩
      rintro (⟨rfl, inside⟩ | ⟨keeps, h⟩)
      · exact absurd inside (Nat.not_lt.mpr outside)
      · have inside := (List.getElem?_eq_some_iff.mp h).1
        cases e with
        | resize => exact absurd outside keeps
        | measure | forget | forgetAll => exact absurd inside (Nat.not_lt.mpr outside)

theorem eq_estimatedRow {estimate : Nat → UInt32} {count i : Nat} {edits : List Edit} {row : Row}
    (found : (plainRows estimate count edits)[i]? = some row) (unmeasured : row.measured = false) :
    row = estimatedRow estimate i := by
  induction edits using List.reverseRecOn with
  | nil =>
    simp only [plainRows, List.foldl_nil, List.getElem?_map, Option.map_eq_some_iff] at found
    obtain ⟨j, hj, rfl⟩ := found
    obtain ⟨_, rfl⟩ := List.getElem?_eq_some_iff.mp hj
    rw [List.getElem_range]
  | append_singleton edits e ih =>
    rw [plainRows_append] at found
    have inside := (List.getElem?_eq_some_iff.mp found).1
    rw [length_applyTo] at inside
    rcases getElem?_applyTo estimate _ e inside with
      ⟨new, _, same⟩ | ⟨_, _, same⟩ | ⟨_, _, same⟩
    · rw [same] at found
      cases found
      cases unmeasured
    · exact ih (same ▸ found)
    · exact (Option.some.inj (same.symm.trans found)).symm

/-! ## Measured rows and the plain account -/

namespace MeasuredRows

theorem editAll_append (r : MeasuredRows) (edits : List Edit) (e : Edit) :
    r.editAll (edits ++ [e]) = (r.editAll edits).edit e :=
  List.foldl_append

theorem estimate_edit (r : MeasuredRows) (e : Edit) : (r.edit e).estimate = r.estimate := by
  have replace (i : Nat) (row : Row) : (r.replace i row).1.estimate = r.estimate := by
    unfold MeasuredRows.replace
    split <;> rfl
  cases e with
  | measure i size => exact replace i _
  | forget i => exact replace i _
  | forgetAll => rfl
  | resize count =>
    show (r.resize count).estimate = _
    unfold resize
    split
    · rfl
    · exact (rows_repeat_grow r _).2

theorem estimate_record (r : MeasuredRows) (row : Nat) (size : Option UInt32) :
    (r.record row size).1.estimate = r.estimate := by
  cases size with
  | none => exact estimate_edit r (.forget row)
  | some size => exact estimate_edit r (.measure row size)

theorem rows_edit (r : MeasuredRows) (e : Edit) :
    (r.edit e).rows.toList = e.applyTo r.estimate r.rows.toList := by
  cases e with
  | measure i size => exact rows_replace r i _
  | forget i => exact rows_replace r i _
  | forgetAll => exact rows_forgetAll r
  | resize count => exact rows_resize r count

theorem rows_editAll (r : MeasuredRows) (edits : List Edit) :
    (r.editAll edits).rows.toList = edits.foldl (Edit.applyTo r.estimate) r.rows.toList ∧
      (r.editAll edits).estimate = r.estimate := by
  induction edits generalizing r with
  | nil => exact ⟨rfl, rfl⟩
  | cons e edits ih =>
    have rest := ih (r.edit e)
    rwa [estimate_edit, rows_edit] at rest

theorem exists_ofEstimate {count : Nat} {estimate : Nat → UInt32}
    (positive : ∀ i, i < count → estimate i ≠ 0) :
    ∃ start, MeasuredRows.ofEstimate count estimate = .ok start ∧ start.estimate = estimate ∧
      start.rows.toList = plainRows estimate count [] := by
  have none : (List.range count).find? (estimate · == 0) = none := by
    rw [List.find?_eq_none]
    intro i mem
    simpa using positive i (List.mem_range.mp mem)
  refine ⟨_, by rw [MeasuredRows.ofEstimate, none], rfl, ?_⟩
  rw [plainRows, List.foldl_nil, List.map_map]
  apply List.map_congr_left
  intro i mem
  rw [estimatedRow, if_neg (positive i (List.mem_range.mp mem)), Function.comp]

theorem ne_zero_of_ofEstimate {count : Nat} {estimate : Nat → UInt32} {r : MeasuredRows}
    (built : MeasuredRows.ofEstimate count estimate = .ok r) {i : Nat} (inside : i < count) :
    estimate i ≠ 0 := by
  unfold ofEstimate at built
  split at built
  · cases built
  · next checked =>
    have nonzero := List.find?_eq_none.mp checked i (List.mem_range.mpr inside)
    exact fun zero => nonzero (beq_iff_eq.mpr zero)

theorem Reached.exists_history {r : MeasuredRows} (reached : r.Reached) :
    ∃ count edits, r.rows.toList = plainRows r.estimate count edits := by
  induction reached with
  | @ofEstimate count estimate r built _ =>
    obtain ⟨start, started, same, rows⟩ := exists_ofEstimate fun _ => ne_zero_of_ofEstimate built
    cases started.symm.trans built
    exact ⟨count, [], same ▸ rows⟩
  | edit e _ _ ih =>
    obtain ⟨count, edits, rows⟩ := ih
    exact ⟨count, edits ++ [e], by rw [rows_edit, estimate_edit, plainRows_append, rows]⟩

/-- The answers of `r` are those of the history `edits` of `count` rows that
began at their estimates. -/
structure Follows (r : MeasuredRows) (estimate : Nat → UInt32) (count : Nat)
    (edits : List Edit) : Prop where
  rows_eq : r.rows.toList = plainRows estimate count edits
  count_eq : RowLayout.count r = countAfter count edits
  /-- A row with a standing measurement has the measured size. -/
  size_standing : ∀ i size, Standing count edits i size → RowLayout.size r i = size
  /-- Any other row in range has its estimate, raised to at least one. -/
  size_estimated : ∀ i, i < RowLayout.count r → (∀ size, ¬ Standing count edits i size) →
    (RowLayout.size r i).toNat = max (estimate i).toNat 1
  size_past_end : ∀ i, RowLayout.count r ≤ i → RowLayout.size r i = 0
  isMeasured_iff : ∀ i, r.isMeasured i = true ↔ ∃ size, Standing count edits i size
  measuredCount_eq : r.measuredCount = (List.range (RowLayout.count r)).countP r.isMeasured
  extent_eq : RowLayout.extent r =
    ((List.range (RowLayout.count r)).map fun i => (RowLayout.size r i).toNat).sum
  start_eq : ∀ i, RowLayout.start r i =
    ((List.range (min i (RowLayout.count r))).map fun j => (RowLayout.size r j).toNat).sum
  /-- Recording a size, or dropping one, returns the change of the row's size. -/
  change_eq : ∀ i size, (r.record i size).2 =
    (RowLayout.size (r.record i size).1 i).toNat - (RowLayout.size r i).toNat
  record_past_end : ∀ i size, RowLayout.count r ≤ i → r.record i size = (r, 0)

theorem measuredCount_eq (r : MeasuredRows) :
    r.measuredCount = (List.range (RowLayout.count r)).countP r.isMeasured := by
  have flags : r.rows.toList.map Row.measured =
      (List.range (RowLayout.count r)).map r.isMeasured := by
    apply List.ext_getElem
    · simp [RowLayout.count, count]
    · intro i inside _
      have inside : i < r.rows.size := by simpa using inside
      simp [isMeasured, inside]
  rw [measuredCount, ← Array.countP_toList]
  have counts := congrArg (List.countP id) flags
  rwa [List.countP_map, List.countP_map] at counts

section

variable {r : MeasuredRows} {estimate : Nat → UInt32} {count : Nat} {edits : List Edit}

theorem getElem?_rows (rows : r.rows.toList = plainRows estimate count edits) (i : Nat) :
    r.rows[i]? = (plainRows estimate count edits)[i]? := by
  rw [← rows, Array.getElem?_toList]

/-- A flagged row is one with a standing measurement, once the rows are those of
the plain account. -/
theorem isMeasured_iff (rows : r.rows.toList = plainRows estimate count edits) (i : Nat) :
    r.isMeasured i = true ↔ ∃ size, Standing count edits i size := by
  simp only [← getElem?_plainRows_iff estimate, ← getElem?_rows rows, isMeasured]
  rcases r.rows[i]? with _ | ⟨size, measured⟩ <;> simp

theorem size_of_standing (rows : r.rows.toList = plainRows estimate count edits) {i : Nat}
    {size : UInt32} (standing : Standing count edits i size) : RowLayout.size r i = size := by
  show (r.rows[i]?.map Row.size).getD 0 = size
  rw [getElem?_rows rows, (getElem?_plainRows_iff estimate).mpr standing, Option.map_some,
    Option.getD_some]

theorem toNat_estimatedRow (estimate : Nat → UInt32) (i : Nat) :
    (estimatedRow estimate i).size.toNat = max (estimate i).toNat 1 := by
  show (if estimate i = 0 then 1 else estimate i).toNat = _
  split
  · next zero =>
    rw [zero]
    rfl
  · next positive =>
    have : (estimate i).toNat ≠ 0 := fun zero => positive (UInt32.toNat_inj.mp zero)
    omega

theorem size_of_not_standing (rows : r.rows.toList = plainRows estimate count edits) {i : Nat}
    (inside : i < RowLayout.count r) (none : ∀ size, ¬ Standing count edits i size) :
    (RowLayout.size r i).toNat = max (estimate i).toNat 1 := by
  obtain ⟨⟨size, measured⟩, found⟩ : ∃ row, r.rows[i]? = some row :=
    ⟨_, Array.getElem?_eq_getElem inside⟩
  have plain := getElem?_rows rows i ▸ found
  cases measured with
  | true => exact absurd ((getElem?_plainRows_iff estimate).mp plain) (none size)
  | false =>
    show ((r.rows[i]?.map Row.size).getD 0).toNat = _
    rw [found, eq_estimatedRow plain rfl, Option.map_some, Option.getD_some, toNat_estimatedRow]

theorem Reached.follows (h : r.Reached) (rows : r.rows.toList = plainRows estimate count edits) :
    r.Follows estimate count edits := by
  have count_eq : RowLayout.count r = r.sizes.length := (length_sizes r).symm
  refine
    { rows_eq := rows
      count_eq := ?_
      size_standing := fun i size standing => size_of_standing rows standing
      size_estimated := fun i inside none => size_of_not_standing rows inside none
      size_past_end := ?_
      isMeasured_iff := isMeasured_iff rows
      measuredCount_eq := measuredCount_eq r
      extent_eq := ?_
      start_eq := ?_
      change_eq := ?_
      record_past_end := ?_ }
  · rw [← length_plainRows estimate count edits, ← rows]
    rfl
  · intro i outside
    rw [size_eq_sizeAt, sizeAt_eq_zero (count_eq ▸ outside)]
  · rw [h.extent_eq, count_eq, ← startOf_of_length_le (Nat.le_refl _), startOf_eq_sum]
    simp only [size_eq_sizeAt]
  · intro i
    rw [h.start_eq, count_eq, ← startOf_min, startOf_eq_sum]
    simp only [size_eq_sizeAt]
  · intro i size
    obtain ⟨row, replaced⟩ := record_eq_replace r i size
    rw [size_eq_sizeAt, size_eq_sizeAt, replaced, change_replace]
  · intro i size outside
    obtain ⟨row, replaced⟩ := record_eq_replace r i size
    rw [replaced, replace_of_count_le outside]

end

theorem Reached.editAll {start : MeasuredRows} (reached : start.Reached) (edits : List Edit)
    (fits : ∀ n, Fits (start.editAll (edits.take n)).sizes) : (start.editAll edits).Reached := by
  induction edits using List.reverseRecOn with
  | nil => exact reached
  | append_singleton edits e ih =>
    have last := fits (edits.length + 1)
    rw [List.take_of_length_le (by simp), editAll_append] at last
    rw [editAll_append]
    refine .edit e (ih fun n => ?_) last
    have before := fits (min n edits.length)
    rwa [List.take_append_of_le_length (Nat.min_le_right _ _), ← List.take_eq_take_min] at before

theorem reached_editAll {count : Nat} {estimate : Nat → UInt32} {start : MeasuredRows}
    (built : MeasuredRows.ofEstimate count estimate = .ok start) (edits : List Edit)
    (fits : ∀ n, Fits (start.editAll (edits.take n)).sizes) : (start.editAll edits).Reached :=
  (Reached.ofEstimate built (fits 0)).editAll edits fits

/-- Measured rows built from positive estimates and edited in any way answer as
the history of the edits says, as long as the sizes always fit. -/
theorem editAll_follows {count : Nat} {estimate : Nat → UInt32}
    (positive : ∀ i, i < count → estimate i ≠ 0) (edits : List Edit)
    (fits : ∀ n, Fits ((plainRows estimate count (edits.take n)).map Row.size)) :
    ∃ start, MeasuredRows.ofEstimate count estimate = .ok start ∧
      (start.editAll edits).Follows estimate count edits := by
  obtain ⟨start, built, same, rows⟩ := exists_ofEstimate positive
  have plain (edits : List Edit) :
      (start.editAll edits).rows.toList = plainRows estimate count edits := by
    rw [(rows_editAll start edits).1, same, rows]
    rfl
  refine ⟨start, built, (reached_editAll built edits fun n => ?_).follows (plain edits)⟩
  rw [sizes, plain]
  exact fits n

/-- Two rows of size `5`, the first measured; a cut and a growth whose new rows
have a zero estimate; a measurement past the end. -/
theorem editAll_follows_regrown :
    ∃ start, MeasuredRows.ofEstimate 2 (fun i => if i < 2 then 5 else 0) = .ok start ∧
      (start.editAll [.measure 0 9, .resize 1, .resize 3, .measure 7 4]).Follows
        (fun i => if i < 2 then 5 else 0) 2 [.measure 0 9, .resize 1, .resize 3, .measure 7 4] := by
  refine editAll_follows (by decide) _ fun n => ?_
  match n with
  | 0 | 1 | 2 | 3 => decide
  | n + 4 =>
    simp only [List.take_succ_cons, List.take_nil]
    decide

end MeasuredRows

end Windowing
