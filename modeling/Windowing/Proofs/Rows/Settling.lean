import Mathlib.Data.Finset.Card
import Windowing.Hosted.Measurement
import Windowing.Proofs.Rows.Level
import Windowing.Proofs.Rows.Recording

/-!
# Rows that settle

A host that always gives the same answer about a row settles the size of that row:
the first measurement brings the size to what it will be after every other one.
A measurement that fails settles the row at its estimate.

Results:
1. `size_settleAll`: recording the answers about some rows settles these rows and
   no others.
2. `card_unsettled_settleAll_lt`: the number of unsettled rows goes down when one
   of them is among the recorded.
3. `sameAnswers_settleAll`: recording the answers about settled rows changes none
   of the answers of the layout.
-/

namespace Windowing

/-- The size of a row once it was measured: what the host answers, or the estimate
when it answers with no height. -/
def settledSize (estimate : Nat → UInt32) (answer : Nat → Except MeasureFailure UInt32)
    (row : Nat) : UInt32 :=
  match answer row with
  | .ok size => if size = 0 then (estimatedRow estimate row).size else size
  | .error _ => (estimatedRow estimate row).size

/-- What is recorded for the answer about a row. -/
def recorded (answer : Nat → Except MeasureFailure UInt32) (row : Nat) : Option UInt32 :=
  (checkMeasured row (answer row)).toOption

namespace MeasuredRows

variable {r : MeasuredRows} {answer : Nat → Except MeasureFailure UInt32}

/-- The row has the size that measuring it leaves it with. -/
def Settled (r : MeasuredRows) (answer : Nat → Except MeasureFailure UInt32) (row : Nat) : Prop :=
  RowLayout.size r row = settledSize r.estimate answer row

instance (r : MeasuredRows) (answer : Nat → Except MeasureFailure UInt32) :
    DecidablePred (r.Settled answer) :=
  fun _ => inferInstanceAs (Decidable (_ = _))

/-- Records the answers about some rows, one after another. -/
def settleAll (r : MeasuredRows) (answer : Nat → Except MeasureFailure UInt32)
    (rows : List Nat) : MeasuredRows :=
  rows.foldl (fun r row => (r.record row (recorded answer row)).1) r

/-- The rows whose size is not settled. -/
def unsettled (r : MeasuredRows) (answer : Nat → Except MeasureFailure UInt32) : Finset Nat :=
  {row ∈ Finset.range r.count | ¬r.Settled answer row}

/-! ## One row -/

theorem size_recordedRow (estimate : Nat → UInt32)
    (answer : Nat → Except MeasureFailure UInt32) (row : Nat) :
    (recordedRow estimate row (recorded answer row)).size = settledSize estimate answer row := by
  unfold recorded settledSize
  cases answer row with
  | error failure => rfl
  | ok size =>
    unfold checkMeasured
    dsimp only
    split <;> rfl

/-- The size of a settled row does not change, and the sums stay. -/
theorem record_of_settled {row : Nat} (settled : r.Settled answer row) :
    (r.record row (recorded answer row)).1.sums = r.sums ∧
      (r.record row (recorded answer row)).1.sizes = r.sizes ∧
      (r.record row (recorded answer row)).2 = 0 := by
  let new := recordedRow r.estimate row (recorded answer row)
  rw [Settled, ← size_recordedRow, size_eq_sizeAt] at settled
  have same : (r.replace row new).1.sizes = r.sizes := by
    rw [sizes_replace, ← settled, set_sizeAt_self]
  have change : (r.replace row new).2 = 0 := by rw [change_replace, same, Int.sub_self]
  rw [record_eq]
  refine ⟨?_, same, change⟩
  rcases Nat.lt_or_ge row r.count with inside | outside
  · rw [replace_of_lt_count inside] at change ⊢
    dsimp only at change ⊢
    rw [change, SumTree.adjust, if_neg fun moved => moved.2 rfl]
  · rw [replace_of_count_le outside]

theorem Settled.record {row other : Nat} (settled : r.Settled answer other)
    (first : r.Settled answer row) :
    (r.record row (recorded answer row)).1.Settled answer other := by
  rw [Settled, estimate_record, size_eq_sizeAt, (record_of_settled first).2.1, ← size_eq_sizeAt]
  exact settled

/-! ## Several rows -/

theorem settleAll_eq (r : MeasuredRows) (answer : Nat → Except MeasureFailure UInt32)
    (rows : List Nat) :
    r.settleAll answer rows = r.recordEach (rows.map fun row => (row, recorded answer row)) := by
  rw [settleAll, recordEach, List.foldl_map]

theorem count_settleAll (r : MeasuredRows) (answer : Nat → Except MeasureFailure UInt32)
    (rows : List Nat) : (r.settleAll answer rows).count = r.count := by
  rw [settleAll_eq, count_recordEach]

theorem estimate_settleAll (r : MeasuredRows) (answer : Nat → Except MeasureFailure UInt32)
    (rows : List Nat) : (r.settleAll answer rows).estimate = r.estimate := by
  rw [settleAll_eq, (rows_recordEach _ _).2]

theorem size_settleAll {rows : List Nat} {i : Nat} (inside : i < r.count) :
    RowLayout.size (r.settleAll answer rows) i =
      if i ∈ rows then settledSize r.estimate answer i else RowLayout.size r i := by
  show (((r.settleAll answer rows).rows[i]?).map Row.size).getD 0 = _
  rw [settleAll_eq, getElem?_recordEach_map inside]
  split
  · exact size_recordedRow r.estimate answer i
  · rfl

/-- The rows that were recorded are settled, and the others are as settled as before. -/
theorem settled_settleAll_iff {rows : List Nat} {row : Nat} (inside : row < r.count) :
    (r.settleAll answer rows).Settled answer row ↔ row ∈ rows ∨ r.Settled answer row := by
  rw [Settled, estimate_settleAll, size_settleAll inside, Settled]
  by_cases measured : row ∈ rows <;> simp [measured]

theorem unsettled_settleAll (r : MeasuredRows) (answer : Nat → Except MeasureFailure UInt32)
    (rows : List Nat) :
    (r.settleAll answer rows).unsettled answer = {row ∈ r.unsettled answer | row ∉ rows} := by
  unfold unsettled
  rw [count_settleAll, Finset.filter_filter]
  refine Finset.filter_congr fun row mem => ?_
  rw [settled_settleAll_iff (Finset.mem_range.mp mem), not_or, and_comm]

theorem card_unsettled_settleAll_lt {rows : List Nat} {row : Nat} (measured : row ∈ rows)
    (inside : row < r.count) (unsettled : ¬r.Settled answer row) :
    ((r.settleAll answer rows).unsettled answer).card < (r.unsettled answer).card := by
  rw [unsettled_settleAll]
  refine Finset.card_lt_card (Finset.filter_ssubset.mpr ⟨row, ?_, not_not_intro measured⟩)
  exact Finset.mem_filter.mpr ⟨Finset.mem_range.mpr inside, unsettled⟩

theorem settleAll_of_settled {rows : List Nat} (settled : ∀ row ∈ rows, r.Settled answer row) :
    (r.settleAll answer rows).sums = r.sums ∧ (r.settleAll answer rows).sizes = r.sizes := by
  induction rows generalizing r with
  | nil => exact ⟨rfl, rfl⟩
  | cons row rows ih =>
    have first := settled row List.mem_cons_self
    obtain ⟨sums, sizes, _⟩ := record_of_settled first
    obtain ⟨rest_sums, rest_sizes⟩ := ih fun other mem =>
      (settled other (List.mem_cons_of_mem _ mem)).record first
    exact ⟨rest_sums.trans sums, rest_sizes.trans sizes⟩

theorem sameAnswers_of_sums {r' : MeasuredRows} (sums : r'.sums = r.sums)
    (sizes : r'.sizes = r.sizes) : SameAnswers r r' := by
  have count_eq : r'.count = r.count := by rw [← length_sizes, sizes, length_sizes]
  refine ⟨count_eq, congrArg SumTree.total sums, congrArg SumTree.sumTake sums, ?_, ?_⟩
  · funext i
    rw [size_eq_sizeAt, size_eq_sizeAt, sizes]
  · funext offset
    show (if r'.count = 0 then none else some (min (r'.sums.locate offset) (r'.count - 1))) = _
    rw [count_eq, sums]
    rfl

theorem sameAnswers_settleAll {rows : List Nat} (settled : ∀ row ∈ rows, r.Settled answer row) :
    SameAnswers r (r.settleAll answer rows) :=
  sameAnswers_of_sums (settleAll_of_settled settled).1 (settleAll_of_settled settled).2

end MeasuredRows

end Windowing
