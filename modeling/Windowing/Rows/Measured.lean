import Windowing.SetupError
import Windowing.Rows.Layout
import Windowing.SumTree

/-!
# Estimated rows refined by measurements

A row has its estimated size until a measured size is recorded for it. Sums of
sizes are kept beside the rows in a `SumTree` and follow every change, so a
measurement does not rebuild them.

The estimates of the rows present at the start must be positive. An estimate
that is asked for later (a new row, a dropped measurement) counts as at least
`1`, so that every estimated row can be hit.
-/

namespace Windowing

/-- One row: its current size, and whether that size was measured. -/
structure Row where
  size : UInt32
  measured : Bool
  deriving DecidableEq, Repr

/-- Rows with an estimate, the measurements made so far, and their sums. -/
structure MeasuredRows where
  estimate : Nat → UInt32
  rows : Array Row
  sums : SumTree

namespace MeasuredRows

/-- The rows `0, …, count - 1` at their estimates. The first row whose estimate
is zero is rejected. -/
def ofEstimate (count : Nat) (estimate : Nat → UInt32) : Except SetupError MeasuredRows :=
  match (List.range count).find? (estimate · == 0) with
  | some row => .error (.nonPositiveEstimate row 0)
  | none =>
    let sizes := (List.range count).map estimate
    .ok { estimate, rows := (sizes.map (⟨·, false⟩)).toArray, sums := .ofSizes sizes }

/-- The number of rows. -/
def count (r : MeasuredRows) : Nat := r.rows.size

/-- The current sizes, in row order. -/
def sizes (r : MeasuredRows) : List UInt32 := r.rows.toList.map Row.size

/-- The row that stands for row `i` while it has no measurement. -/
def unmeasured (r : MeasuredRows) (i : Nat) : Row :=
  ⟨if r.estimate i = 0 then 1 else r.estimate i, false⟩

/-- Puts `row` in place of row `i` and returns the change of its size. A row
past the end changes nothing. -/
def replace (r : MeasuredRows) (i : Nat) (row : Row) : MeasuredRows × Int :=
  match r.rows[i]? with
  | none => (r, 0)
  | some old =>
    let delta : Int := row.size.toNat - old.size.toNat
    ({ r with rows := r.rows.setIfInBounds i row, sums := r.sums.adjust i delta }, delta)

/-- Records the measured size of row `i` and returns the change of its size. -/
def measure (r : MeasuredRows) (i : Nat) (size : UInt32) : MeasuredRows × Int :=
  r.replace i ⟨size, true⟩

/-- Drops the measurement of row `i` and returns the change of its size. -/
def forget (r : MeasuredRows) (i : Nat) : MeasuredRows × Int :=
  r.replace i (r.unmeasured i)

/-- Records a measured size, or with `none` drops the measurement. -/
def record (r : MeasuredRows) (i : Nat) : Option UInt32 → MeasuredRows × Int
  | some size => r.measure i size
  | none => r.forget i

/-- Drops every measurement and sums the estimates anew. -/
def forgetAll (r : MeasuredRows) : MeasuredRows :=
  let rows := r.rows.mapIdx fun i _ => r.unmeasured i
  { r with rows, sums := .ofSizes (rows.toList.map Row.size) }

/-- Whether the size of row `i` was measured. -/
def isMeasured (r : MeasuredRows) (i : Nat) : Bool := (r.rows[i]?.map Row.measured).getD false

/-- The number of measured rows. -/
def measuredCount (r : MeasuredRows) : Nat := r.rows.countP Row.measured

/-- Appends the next row at its estimate. -/
def grow (r : MeasuredRows) : MeasuredRows :=
  let row := r.unmeasured r.count
  { r with rows := r.rows.push row, sums := r.sums.push row.size }

/-- Cuts off rows at the end, or appends rows at their estimates. -/
def resize (r : MeasuredRows) (count : Nat) : MeasuredRows :=
  if count < r.count then { r with rows := r.rows.take count, sums := r.sums.take count }
  else Nat.repeat grow (count - r.count) r

/-! ## The number of rows after each operation -/

@[simp] theorem count_replace (r : MeasuredRows) (i : Nat) (row : Row) :
    (r.replace i row).1.count = r.count := by
  unfold replace
  split
  · rfl
  · exact Array.size_setIfInBounds

@[simp] theorem count_record (r : MeasuredRows) (i : Nat) (size : Option UInt32) :
    (r.record i size).1.count = r.count := by
  cases size <;> exact count_replace _ _ _

@[simp] theorem count_forgetAll (r : MeasuredRows) : r.forgetAll.count = r.count :=
  Array.size_mapIdx

@[simp] theorem count_grow (r : MeasuredRows) : r.grow.count = r.count + 1 :=
  Array.size_push _

theorem count_repeat_grow (r : MeasuredRows) (n : Nat) :
    (Nat.repeat grow n r).count = r.count + n := by
  induction n with
  | zero => rfl
  | succ n ih => rw [Nat.repeat, count_grow, ih, Nat.add_assoc]

@[simp] theorem count_resize (r : MeasuredRows) (count : Nat) :
    (r.resize count).count = count := by
  unfold resize
  split
  · next h => simp [MeasuredRows.count] at h ⊢; omega
  · next h => rw [count_repeat_grow]; omega

/-! ## The layout -/

instance : RowLayout MeasuredRows where
  count := count
  extent r := r.sums.total
  start r := r.sums.sumTake
  size r i := (r.rows[i]?.map Row.size).getD 0
  rowAt r offset := if r.count = 0 then none else some (min (r.sums.locate offset) (r.count - 1))
  resize := resize

instance : Refinable MeasuredRows where
  record := record
  forgetAll? r := some r.forgetAll

end MeasuredRows

end Windowing
