import Windowing.Proofs.Rows.Edit
import Windowing.Rows.Strategy

/-!
# Layouts that answer exactly

A layout is exact when its answers are those of a list of row sizes, laid one
after another. Rows of one height divide and multiply, measured rows search a
tree of sums, and both are exact as long as the sizes fit: `ExactLayout` has an
instance for each of them and for the choice between them. What is proved of an
exact layout holds of all three.

To divide is right even where the product is not: rows of one height that do not
fit are still found where they would lie (`UniformRows.looksUp`).
-/

namespace Windowing

/-- Every row of `rows` has its size in the list `sizes`, and is found where it lies there. -/
structure LooksUp {σ : Type} [RowLayout σ] (rows : σ) (sizes : List UInt32) : Prop where
  count_eq : RowLayout.count rows = sizes.length
  size_eq : ∀ i, RowLayout.size rows i = sizeAt sizes i
  rowAt_nil : sizes.length = 0 → ∀ offset, RowLayout.rowAt rows offset = none
  rowAt_located : sizes.length ≠ 0 → ∀ offset, ∃ row, Located sizes offset row ∧
    RowLayout.rowAt rows offset = some (min row (sizes.length - 1))

/-- The answers of `rows` are those of the list `sizes`. -/
structure LaysOut {σ : Type} [RowLayout σ] (rows : σ) (sizes : List UInt32) : Prop
    extends LooksUp rows sizes where
  extent_eq : RowLayout.extent rows = extentOf sizes
  start_eq : ∀ i, RowLayout.start rows i = startOf sizes i

/-- Layouts whose values lay out a list of sizes, as far as the operations of the
library produce them and the sizes fit. -/
class ExactLayout (σ : Type) extends RowLayout σ where
  /-- The value was produced by the operations, and its sizes always fitted. -/
  Reached : σ → Prop
  /-- The sizes of the rows. -/
  sizes : σ → List UInt32
  laysOut : ∀ {rows : σ}, Reached rows → LaysOut rows (sizes rows)
  fits : ∀ {rows : σ}, Reached rows → Fits (sizes rows)

/-- Exact layouts that stay exact when they are resized or take measurements. A
measurement changes the size of its own row only, and the change it returns is
that of the size. -/
class ExactRefinable (σ : Type) extends Refinable σ, ExactLayout σ where
  record_eq : ∀ (rows : σ) (i : Nat) (measured : Option UInt32), ∃ size,
    sizes (Refinable.record rows i measured).1 = (sizes rows).set i size ∧
      (Refinable.record rows i measured).2 =
        (sizeAt ((sizes rows).set i size) i).toNat - (sizeAt (sizes rows) i).toNat
  reached_record : ∀ {rows : σ} (i : Nat) (measured : Option UInt32), Reached rows →
    Fits (sizes (Refinable.record rows i measured).1) →
      Reached (Refinable.record rows i measured).1
  reached_resize : ∀ {rows : σ} (count : Nat), Reached rows →
    Fits (sizes (RowLayout.resize rows count)) → Reached (RowLayout.resize rows count)
  reached_forgetAll : ∀ {rows rows' : σ}, Refinable.forgetAll? rows = some rows' →
    Reached rows → Fits (sizes rows') → Reached rows'

theorem exists_sizes_record {σ : Type} [ExactRefinable σ] (rows : σ) (i : Nat)
    (measured : Option UInt32) :
    ∃ size, ExactLayout.sizes (Refinable.record rows i measured).1 =
        (ExactLayout.sizes rows).set i size ∧
      (Refinable.record rows i measured).2 =
        (sizeAt ((ExactLayout.sizes rows).set i size) i).toNat -
          (sizeAt (ExactLayout.sizes rows) i).toNat :=
  ExactRefinable.record_eq rows i measured

/-! ## Rows of one height -/

namespace UniformRows

/-- The sizes of the rows, all of them the same. -/
def sizes (rows : UniformRows) : List UInt32 := List.replicate rows.count rows.height

theorem length_sizes (rows : UniformRows) : rows.sizes.length = rows.count :=
  List.length_replicate

theorem extentOf_sizes (rows : UniformRows) :
    extentOf rows.sizes = rows.height.toNat * rows.count := by
  rw [extentOf, sizes, List.map_replicate, List.sum_replicate_nat, Nat.mul_comm]

theorem startOf_sizes (rows : UniformRows) (i : Nat) :
    startOf rows.sizes i = rows.height.toNat * min i rows.count := by
  rw [startOf, extentOf, sizes, List.take_replicate, List.map_replicate, List.sum_replicate_nat,
    Nat.mul_comm]

theorem located_div (rows : UniformRows) (offset : Nat) :
    Located rows.sizes offset (min (offset / rows.height.toNat) rows.count) := by
  have whole := Nat.mul_div_le offset rows.height.toNat
  have next := Nat.lt_mul_div_succ offset rows.height_pos
  constructor
  · rw [length_sizes]
    exact Nat.min_le_right _ _
  · rw [startOf_sizes]
    exact Nat.le_trans (Nat.mul_le_mul_left _ (by omega)) whole
  · intro inside
    rw [length_sizes] at inside
    rw [startOf_sizes]
    exact Nat.lt_of_lt_of_le next (Nat.mul_le_mul_left _ (by omega))

theorem looksUp (rows : UniformRows) : LooksUp rows rows.sizes where
  count_eq := (length_sizes rows).symm
  size_eq i := by
    show (if i < rows.count then rows.height else 0) = _
    rw [sizeAt, sizes, List.getElem?_replicate]
    split <;> rfl
  rowAt_nil empty offset := by
    show rowAt rows offset = none
    rw [rowAt, if_pos (length_sizes rows ▸ empty)]
  rowAt_located some offset := by
    rw [length_sizes] at some ⊢
    refine ⟨_, located_div rows offset, ?_⟩
    show rowAt rows offset = _
    rw [rowAt, if_neg some, Nat.min_assoc, Nat.min_eq_right (Nat.sub_le _ _)]

variable {rows : UniformRows}

theorem extent_eq (fits : rows.height.toNat * rows.count ≤ Offset.limit) :
    RowLayout.extent rows = rows.height.toNat * rows.count :=
  Offset.mul_eq fits

theorem start_eq (fits : rows.height.toNat * rows.count ≤ Offset.limit) (i : Nat) :
    RowLayout.start rows i = rows.height.toNat * min i rows.count :=
  Offset.mul_eq (Nat.le_trans (Nat.mul_le_mul_left _ (Nat.min_le_right i _)) fits)

theorem laysOut (fits : rows.height.toNat * rows.count ≤ Offset.limit) :
    LaysOut rows rows.sizes where
  toLooksUp := looksUp rows
  extent_eq := (extent_eq fits).trans (extentOf_sizes rows).symm
  start_eq i := (start_eq fits i).trans (startOf_sizes rows i).symm

instance : ExactLayout UniformRows where
  Reached rows := rows.height.toNat * rows.count ≤ Offset.limit
  sizes := sizes
  laysOut := laysOut
  fits reached := by
    rw [Fits, extentOf_sizes]
    exact reached

instance : ExactRefinable UniformRows where
  record_eq rows i _ := by
    refine ⟨sizeAt rows.sizes i, (set_sizeAt_self _ _).symm, ?_⟩
    show (0 : Int) = (sizeAt (rows.sizes.set i _) i).toNat - (sizeAt rows.sizes i).toNat
    rw [set_sizeAt_self, Int.sub_self]
  reached_record _ _ reached _ := reached
  reached_resize {rows} count _ fits := by
    have extent := extentOf_sizes { rows with count }
    exact Nat.le_trans (Nat.le_of_eq extent.symm) fits
  reached_forgetAll none := nomatch none

end UniformRows

/-! ## Measured rows -/

namespace MeasuredRows

theorem Reached.laysOut {r : MeasuredRows} (h : r.Reached) : LaysOut r r.sizes where
  count_eq := (length_sizes r).symm
  extent_eq := h.extent_eq
  start_eq := h.start_eq
  size_eq := size_eq_sizeAt r
  rowAt_nil empty offset := by
    show (if r.count = 0 then none else some _) = _
    rw [if_pos (length_sizes r ▸ empty)]
  rowAt_located some offset := by
    refine ⟨_, h.sums.1.located offset, ?_⟩
    show (if r.count = 0 then none else _) = _
    rw [length_sizes] at some ⊢
    rw [if_neg some]

instance : ExactLayout MeasuredRows where
  Reached := Reached
  sizes := sizes
  laysOut := Reached.laysOut
  fits reached := reached.sums.2

instance : ExactRefinable MeasuredRows where
  record_eq r i measured := by
    obtain ⟨row, replaced⟩ := record_eq_replace r i measured
    have change := change_replace r i row
    rw [sizes_replace] at change
    refine ⟨row.size, ?_, ?_⟩
    · show (r.record i measured).1.sizes = r.sizes.set i row.size
      rw [replaced, sizes_replace]
    · show (r.record i measured).2 = _
      rw [replaced]
      exact change
  reached_record i measured reached fits := by
    cases measured with
    | some size => exact .edit (.measure i size) reached fits
    | none => exact .edit (.forget i) reached fits
  reached_resize count reached fits := .edit (.resize count) reached fits
  reached_forgetAll same reached fits := by
    cases same
    exact .edit .forgetAll reached fits

end MeasuredRows

/-! ## The choice of layout -/

namespace Rows

/-- The chosen layout was reached. -/
def Reached : Rows → Prop
  | uniform rows => ExactLayout.Reached rows
  | measured rows => ExactLayout.Reached rows

/-- The sizes of the rows of the chosen layout. -/
def sizes : Rows → List UInt32
  | uniform rows => ExactLayout.sizes rows
  | measured rows => ExactLayout.sizes rows

instance : ExactLayout Rows where
  Reached := Reached
  sizes := sizes
  laysOut {rows} reached := by
    cases rows with
    | uniform rows => exact { UniformRows.laysOut reached with }
    | measured rows => exact { MeasuredRows.Reached.laysOut reached with }
  fits {rows} reached := by
    cases rows with
    | uniform rows => exact @ExactLayout.fits UniformRows _ rows reached
    | measured rows => exact @ExactLayout.fits MeasuredRows _ rows reached

instance : ExactRefinable Rows where
  record_eq rows := by
    cases rows with
    | uniform rows => exact ExactRefinable.record_eq rows
    | measured rows => exact ExactRefinable.record_eq rows
  reached_record {rows} i measured reached fits := by
    cases rows with
    | uniform rows => exact reached
    | measured rows =>
      exact @ExactRefinable.reached_record MeasuredRows _ rows i measured reached fits
  reached_resize {rows} count reached fits := by
    cases rows with
    | uniform rows => exact @ExactRefinable.reached_resize UniformRows _ rows count reached fits
    | measured rows => exact @ExactRefinable.reached_resize MeasuredRows _ rows count reached fits
  reached_forgetAll {rows _} same reached fits := by
    cases rows with
    | uniform rows => exact nomatch same
    | measured rows =>
      cases same
      exact @ExactRefinable.reached_forgetAll MeasuredRows _ rows _ rfl reached fits

end Rows

end Windowing
