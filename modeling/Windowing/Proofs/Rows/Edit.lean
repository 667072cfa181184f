import Windowing.Proofs.SumTree
import Windowing.Rows.Measured

/-!
# Edits of measured rows

The changes of measured rows as data, and what they leave behind. Each edit
keeps the sums in step with the sizes, so after any run of edits in which the
sizes always fit, the tree of sums is the tree of the current sizes
(`Reached.sums`).
-/

namespace Windowing

/-- A change of measured rows, with its arguments. -/
inductive Edit where
  | measure (row : Nat) (size : UInt32)
  | forget (row : Nat)
  | forgetAll
  | resize (count : Nat)
  deriving DecidableEq, Repr

namespace MeasuredRows

/-- The rows after one edit. -/
def edit (r : MeasuredRows) : Edit → MeasuredRows
  | .measure row size => (r.measure row size).1
  | .forget row => (r.forget row).1
  | .forgetAll => r.forgetAll
  | .resize count => r.resize count

/-- The rows after a sequence of edits. -/
def editAll (r : MeasuredRows) (edits : List Edit) : MeasuredRows := edits.foldl edit r

/-- Rows built from positive estimates and edited, the sizes fitting all the way. -/
inductive Reached : MeasuredRows → Prop
  | ofEstimate {count : Nat} {estimate : Nat → UInt32} {r : MeasuredRows} :
      MeasuredRows.ofEstimate count estimate = .ok r → Fits r.sizes → Reached r
  | edit {r : MeasuredRows} (e : Edit) : Reached r → Fits (r.edit e).sizes → Reached (r.edit e)

/-! ## Sizes after an edit -/

theorem length_sizes (r : MeasuredRows) : r.sizes.length = r.count := by
  rw [sizes, List.length_map, Array.length_toList, count]

theorem size_eq_sizeAt (r : MeasuredRows) (i : Nat) : RowLayout.size r i = sizeAt r.sizes i := by
  show (r.rows[i]?.map Row.size).getD 0 = _
  rw [sizeAt, sizes, List.getElem?_map, Array.getElem?_toList]

theorem replace_of_count_le {r : MeasuredRows} {i : Nat} (h : r.count ≤ i) (row : Row) :
    r.replace i row = (r, 0) := by
  rw [replace, Array.getElem?_eq_none h]

theorem replace_of_lt_count {r : MeasuredRows} {i : Nat} (h : i < r.count) (row : Row) :
    r.replace i row =
      let delta : Int := row.size.toNat - (sizeAt r.sizes i).toNat
      ({ r with rows := r.rows.setIfInBounds i row, sums := r.sums.adjust i delta }, delta) := by
  have size : sizeAt r.sizes i = r.rows[i].size := by
    rw [← size_eq_sizeAt]
    show (r.rows[i]?.map Row.size).getD 0 = _
    rw [Array.getElem?_eq_getElem h, Option.map_some, Option.getD_some]
  rw [replace, Array.getElem?_eq_getElem h, size]

theorem record_eq_replace (r : MeasuredRows) (i : Nat) (size : Option UInt32) :
    ∃ row, r.record i size = r.replace i row := by
  cases size with
  | some size => exact ⟨⟨size, true⟩, rfl⟩
  | none => exact ⟨r.unmeasured i, rfl⟩

theorem rows_replace (r : MeasuredRows) (i : Nat) (row : Row) :
    (r.replace i row).1.rows.toList = r.rows.toList.set i row := by
  rcases Nat.lt_or_ge i r.count with h | h
  · rw [replace_of_lt_count h, Array.toList_setIfInBounds]
  · rw [replace_of_count_le h, List.set_eq_of_length_le h]

theorem sizes_replace (r : MeasuredRows) (i : Nat) (row : Row) :
    (r.replace i row).1.sizes = r.sizes.set i row.size := by
  rw [sizes, rows_replace, List.map_set, sizes]

theorem change_replace (r : MeasuredRows) (i : Nat) (row : Row) :
    (r.replace i row).2 =
      (sizeAt (r.replace i row).1.sizes i).toNat - (sizeAt r.sizes i).toNat := by
  rw [sizes_replace]
  rcases Nat.lt_or_ge i r.count with inside | outside
  · rw [replace_of_lt_count inside]
    rw [← length_sizes] at inside
    rw [sizeAt_set_self inside]
  · rw [replace_of_count_le outside]
    rw [← length_sizes] at outside
    rw [List.set_eq_of_length_le outside]
    omega

theorem rows_forgetAll (r : MeasuredRows) :
    r.forgetAll.rows.toList = (List.range r.count).map r.unmeasured := by
  apply List.ext_getElem
  · simp [forgetAll, count]
  · intro i _ _
    simp [forgetAll]

theorem rows_grow (r : MeasuredRows) :
    r.grow.rows.toList = r.rows.toList ++ [r.unmeasured r.count] :=
  Array.toList_push

theorem sizes_grow (r : MeasuredRows) : r.grow.sizes = r.sizes ++ [(r.unmeasured r.count).size] := by
  rw [sizes, rows_grow, List.map_append, List.map_singleton, sizes]

theorem rows_repeat_grow (r : MeasuredRows) (n : Nat) :
    (Nat.repeat grow n r).rows.toList =
        r.rows.toList ++ (List.range' r.count n).map r.unmeasured ∧
      (Nat.repeat grow n r).estimate = r.estimate := by
  induction n with
  | zero => exact ⟨(List.append_nil _).symm, rfl⟩
  | succ n ih =>
    obtain ⟨rows, estimate⟩ := ih
    refine ⟨?_, estimate⟩
    rw [Nat.repeat, rows_grow, rows, count_repeat_grow, List.range'_concat, List.map_append,
      List.map_singleton, List.append_assoc, Nat.one_mul]
    unfold unmeasured
    rw [estimate]

theorem rows_resize (r : MeasuredRows) (count : Nat) :
    (r.resize count).rows.toList =
      r.rows.toList.take count ++ (List.range' r.count (count - r.count)).map r.unmeasured := by
  unfold resize
  split
  · next h =>
    rw [Nat.sub_eq_zero_of_le (Nat.le_of_lt h), List.range'_zero, List.map_nil, List.append_nil]
    show (r.rows.take count).toList = _
    rw [Array.take_eq_extract, Array.toList_extract, List.extract_eq_take_drop, List.drop_zero,
      Nat.sub_zero]
  · next h => rw [(rows_repeat_grow r _).1, List.take_of_length_le (Nat.not_lt.mp h)]

/-! ## Sums after an edit -/

theorem sums_replace {r : MeasuredRows} (h : r.sums.Sums r.sizes) (i : Nat) (row : Row)
    (fits : Fits (r.replace i row).1.sizes) :
    (r.replace i row).1.sums.Sums (r.replace i row).1.sizes := by
  rw [sizes_replace] at fits ⊢
  rcases Nat.lt_or_ge i r.count with inside | outside
  · rw [replace_of_lt_count inside]
    exact h.adjust (by rwa [length_sizes]) fits rfl
  · rw [replace_of_count_le outside, List.set_eq_of_length_le (by rwa [length_sizes])]
    exact h

theorem sums_repeat_grow {r : MeasuredRows} (h : r.sums.Sums r.sizes) (n : Nat)
    (fits : Fits (Nat.repeat grow n r).sizes) :
    (Nat.repeat grow n r).sums.Sums (Nat.repeat grow n r).sizes := by
  induction n with
  | zero => exact h
  | succ n ih =>
    rw [Nat.repeat, sizes_grow] at fits ⊢
    exact (ih fits.of_append).push fits

theorem sums_resize {r : MeasuredRows} (h : r.sums.Sums r.sizes) (old : Fits r.sizes) (count : Nat)
    (fits : Fits (r.resize count).sizes) : (r.resize count).sums.Sums (r.resize count).sizes := by
  by_cases cut : count < r.count
  · have sizes : (r.resize count).sizes = r.sizes.take count := by
      rw [MeasuredRows.sizes, rows_resize, Nat.sub_eq_zero_of_le (Nat.le_of_lt cut),
        List.range'_zero, List.map_nil, List.append_nil, List.map_take, MeasuredRows.sizes]
    rw [sizes, resize, if_pos cut]
    exact h.take old count
  · rw [resize, if_neg cut] at fits ⊢
    exact sums_repeat_grow h _ fits

theorem sums_edit {r : MeasuredRows} (h : r.sums.Sums r.sizes) (old : Fits r.sizes) (e : Edit)
    (fits : Fits (r.edit e).sizes) : (r.edit e).sums.Sums (r.edit e).sizes := by
  cases e with
  | measure row size => exact sums_replace h row ⟨size, true⟩ fits
  | forget row => exact sums_replace h row (r.unmeasured row) fits
  | forgetAll => exact SumTree.sums_ofSizes fits
  | resize count => exact sums_resize h old count fits

theorem sums_ofEstimate {count : Nat} {estimate : Nat → UInt32} {r : MeasuredRows}
    (h : MeasuredRows.ofEstimate count estimate = .ok r) (fits : Fits r.sizes) :
    r.sums.Sums r.sizes := by
  unfold MeasuredRows.ofEstimate at h
  split at h
  · cases h
  · cases h
    have sizes : (((List.range count).map estimate).map (Row.mk · false)).map Row.size =
        (List.range count).map estimate := by
      rw [List.map_map]
      exact List.map_id' _
    have fits : Fits ((List.range count).map estimate) := sizes ▸ fits
    show (SumTree.ofSizes ((List.range count).map estimate)).Sums (List.map Row.size _)
    rw [sizes]
    exact SumTree.sums_ofSizes fits

theorem Reached.sums {r : MeasuredRows} (h : r.Reached) : r.sums.Sums r.sizes ∧ Fits r.sizes := by
  induction h with
  | ofEstimate built fits => exact ⟨sums_ofEstimate built fits, fits⟩
  | edit e _ fits ih => exact ⟨sums_edit ih.1 ih.2 e fits, fits⟩

theorem Reached.extent_eq {r : MeasuredRows} (h : r.Reached) :
    RowLayout.extent r = extentOf r.sizes :=
  h.sums.1.total_eq

theorem Reached.start_eq {r : MeasuredRows} (h : r.Reached) (i : Nat) :
    RowLayout.start r i = startOf r.sizes i :=
  h.sums.1.sumTake_eq h.sums.2 i

end MeasuredRows

end Windowing
