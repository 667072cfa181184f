import Windowing.Proofs.Rows.Recording
import Windowing.Proofs.SumTree.Rebuilding

/-!
# Rows that are summed anew

To drop every measurement sums the estimates anew, while to drop the measurements one by one keeps
the sums up. Both leave the same rows, and the rows determine their sums.

Results:
1. `editAll_forget`: to drop the measurement of each row, in any order, is to drop them all.
2. `upkeep_eq_rebuild`: sums that are kept up are the sums that are built anew, and nothing stops on
   the way.
-/

namespace Windowing

open SumTree (Change KeptUp Permits keptUp)

namespace MeasuredRows

variable {r : MeasuredRows} {order : List Nat}

theorem editAll_forget_eq_recordEach (r : MeasuredRows) (order : List Nat) :
    r.editAll (order.map .forget) = r.recordEach (forgotten order) := by
  rw [editAll, recordEach, forgotten, List.foldl_map, List.foldl_map]
  rfl

theorem rows_recordEach_forgotten (perm : order.Perm (List.range r.count)) :
    (r.recordEach (forgotten order)).rows = r.forgetAll.rows := by
  refine Array.ext_getElem? fun i => ?_
  rcases Nat.lt_or_ge i r.count with inside | past
  · have named : i ∈ order := perm.mem_iff.mpr (List.mem_range.mpr inside)
    rw [getElem?_recordEach_forgotten named inside, ← Array.getElem?_toList, rows_forgetAll,
      List.getElem?_map, List.getElem?_range inside, Option.map_some]
    rfl
  · have count : (r.recordEach (forgotten order)).count ≤ i := by rwa [count_recordEach]
    have count' : r.forgetAll.count ≤ i := by rwa [count_forgetAll]
    rw [Array.getElem?_eq_none count, Array.getElem?_eq_none count']

/-- To drop the measurement of each row, in any order, is to drop them all. -/
theorem editAll_forget (reached : r.Reached) (perm : order.Perm (List.range r.count))
    (fits : ∀ n, Fits (r.editAll ((order.map .forget).take n)).sizes) :
    r.editAll (order.map .forget) = r.forgetAll := by
  have each : (r.editAll (order.map .forget)).Reached := reached.editAll _ fits
  rw [editAll_forget_eq_recordEach] at each ⊢
  have rows := rows_recordEach_forgotten perm
  have all : r.forgetAll.Reached := by
    refine .edit .forgetAll reached ?_
    have fits := each.sums.2
    rwa [sizes, rows] at fits
  exact all.eq_of_rows each (rows_recordEach r (forgotten order)).2 rows

end MeasuredRows

/-- Sums that are kept up through any permitted run of changes are those that are built anew from
the changed list, and neither the upkeep nor the building ever stops at an end of the range of
offsets. So too rows whose measurements are dropped one by one, in any order, are in the state in
which all are dropped at once. -/
theorem upkeep_eq_rebuild :
    (∀ (sizes : List UInt32) (changes : List Change),
      Permits (sizes.map UInt32.toNat) changes → KeptUp sizes changes) ∧
    ∀ (r : MeasuredRows) (order : List Nat), r.Reached → order.Perm (List.range r.count) →
      (∀ n, Fits (r.editAll ((order.map .forget).take n)).sizes) →
        r.editAll (order.map .forget) = r.forgetAll :=
  ⟨fun _ _ permits => keptUp permits, fun _ _ reached perm fits =>
    MeasuredRows.editAll_forget reached perm fits⟩

/-- One number falls to zero and a new one rises past what a size can be, before it is cut off and
another takes its place; of three rows two are measured, one of them as zero, and all are dropped
from the last row on. -/
theorem upkeep_eq_rebuild_threeRows :
    (SumTree.ofSizes [3, 5, 2]).changeAll
        [.adjust 1 (-5), .push 7, .adjust 3 4294967295, .adjust 3 (-4294967290), .adjust 9 (-1),
          .take 3, .push 0] = SumTree.ofSizes [3, 0, 2, 0] ∧
      ∃ start, MeasuredRows.ofEstimate 3 (fun _ => 5) = .ok start ∧
        (start.editAll [.measure 0 9, .measure 2 0]).editAll ([2, 0, 1].map .forget) =
          (start.editAll [.measure 0 9, .measure 2 0]).forgetAll := by
  have built : MeasuredRows.ofEstimate 3 (fun _ => 5) = .ok _ := rfl
  refine ⟨(upkeep_eq_rebuild.1 _ _ (by decide)).eq_ofSizes _ (by decide), _, built,
    upkeep_eq_rebuild.2 _ _ (MeasuredRows.reached_editAll built _ fun n => ?_) (by decide)
      fun n => ?_⟩
  · match n with
    | 0 | 1 => decide
    | n + 2 =>
      simp only [List.take_succ_cons, List.take_nil]
      decide
  · match n with
    | 0 | 1 | 2 => decide
    | n + 3 =>
      simp only [List.map_cons, List.map_nil, List.take_succ_cons, List.take_nil]
      decide

end Windowing
