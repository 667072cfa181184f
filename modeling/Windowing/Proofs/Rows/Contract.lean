import Windowing.Proofs.Rows.Exact

/-!
# The contract of a layout

What a caller may rely on when it asks a layout about its rows: the rows lie one
after another without gaps, they end where the track ends, and every pixel of
the track is found in the one row that holds it. `KeepsContract` is said in the
answers of the layout alone, with no word on how they are computed; the layouts
divide, or search a tree of sums, or choose between the two.

Results:
1. `located_scan`: looking at the rows one by one from the left finds the first
   row that ends after an offset.
2. `LaysOut.keepsContract`: an exact layout keeps the contract.
3. `reached_editAll`: a run of edits in which the sizes always fit leaves an
   exact layout.
4. `editAll_keepsContract`: each of the three layouts, built anew and edited in
   any way, keeps the contract.
-/

namespace Windowing

/-! ## Looking at the rows one by one -/

/-- The number of rows passed over from the left until one ends after `offset`. -/
def scan : List UInt32 → Nat → Nat
  | [], _ => 0
  | size :: sizes, offset =>
    if offset < size.toNat then 0 else scan sizes (offset - size.toNat) + 1

/-- The row at an offset as a scan from the left finds it: `none` without rows,
the last row when the scan passes all of them. -/
def scanRowAt (sizes : List UInt32) (offset : Nat) : Option Nat :=
  if sizes.length = 0 then none else some (min (scan sizes offset) (sizes.length - 1))

theorem startOf_cons_succ (size : UInt32) (sizes : List UInt32) (i : Nat) :
    startOf (size :: sizes) (i + 1) = size.toNat + startOf sizes i := by
  rw [startOf, List.take_succ_cons, extentOf_cons, startOf]

theorem located_scan (sizes : List UInt32) (offset : Nat) :
    Located sizes offset (scan sizes offset) := by
  induction sizes generalizing offset with
  | nil => exact ⟨Nat.le_refl 0, Nat.zero_le offset, nofun⟩
  | cons size sizes ih =>
    rw [scan]
    split
    · next inside =>
      refine ⟨Nat.zero_le _, Nat.zero_le offset, fun _ => ?_⟩
      rwa [startOf_cons_succ, startOf_zero, Nat.add_zero]
    · next after =>
      obtain ⟨le_length, start_le, lt_stop⟩ := ih (offset - size.toNat)
      have passed : size.toNat ≤ offset := Nat.not_lt.mp after
      refine ⟨Nat.succ_le_succ le_length, ?_, fun inside => ?_⟩
      · rw [startOf_cons_succ, Nat.add_comm]
        exact (Nat.le_sub_iff_add_le passed).mp start_le
      · rw [startOf_cons_succ, Nat.add_comm]
        exact (Nat.sub_lt_iff_lt_add passed).mp (lt_stop (Nat.lt_of_succ_lt_succ inside))

theorem Located.unique {sizes : List UInt32} {offset a b : Nat} (ha : Located sizes offset a)
    (hb : Located sizes offset b) : a = b :=
  Nat.le_antisymm (ha.row_le_row hb (Nat.le_refl offset)) (hb.row_le_row ha (Nat.le_refl offset))

/-! ## The contract -/

section

variable {σ : Type} [RowLayout σ]

/-- The pixel at `offset` lies in row `i`. -/
def HasPixel (rows : σ) (i offset : Nat) : Prop :=
  i < RowLayout.count rows ∧ RowLayout.start rows i ≤ offset ∧
    offset < RowLayout.start rows i + (RowLayout.size rows i).toNat

/-- The sizes that a layout answers, in row order. -/
def answeredSizes (rows : σ) : List UInt32 :=
  (List.range (RowLayout.count rows)).map (RowLayout.size rows)

/-- What a caller may rely on. -/
structure KeepsContract (rows : σ) : Prop where
  start_zero : RowLayout.start rows 0 = 0
  start_succ : ∀ i < RowLayout.count rows,
    RowLayout.start rows (i + 1) = RowLayout.start rows i + (RowLayout.size rows i).toNat
  start_past_end : ∀ i, RowLayout.count rows ≤ i → RowLayout.start rows i = RowLayout.extent rows
  size_past_end : ∀ i, RowLayout.count rows ≤ i → RowLayout.size rows i = 0
  rowAt_eq_none_iff : ∀ offset, RowLayout.rowAt rows offset = none ↔ RowLayout.count rows = 0
  /-- A pixel of the track is found in the one row that has it. -/
  rowAt_inside : ∀ offset < RowLayout.extent rows,
    ∃ i, RowLayout.rowAt rows offset = some i ∧ ∀ j, HasPixel rows j offset ↔ j = i
  rowAt_past_end : ∀ offset, RowLayout.extent rows ≤ offset → RowLayout.count rows ≠ 0 →
    RowLayout.rowAt rows offset = some (RowLayout.count rows - 1)
  rowAt_eq_scan : ∀ offset, RowLayout.rowAt rows offset = scanRowAt (answeredSizes rows) offset

namespace LaysOut

variable {rows : σ} {sizes : List UInt32}

theorem answeredSizes_eq (laid : LaysOut rows sizes) : answeredSizes rows = sizes := by
  apply List.ext_getElem
  · rw [answeredSizes, List.length_map, List.length_range, laid.count_eq]
  · intro i _ inside
    simp only [answeredSizes, List.getElem_map, List.getElem_range, laid.size_eq, sizeAt,
      List.getElem?_eq_getElem inside, Option.getD_some]

/-- A row that has the pixel is the row where the pixel is located. -/
theorem hasPixel_iff (laid : LaysOut rows sizes) {offset row : Nat}
    (located : Located sizes offset row) (inside : row < sizes.length) (i : Nat) :
    HasPixel rows i offset ↔ i = row := by
  unfold HasPixel
  rw [laid.count_eq, laid.start_eq, laid.size_eq, ← startOf_succ]
  constructor
  · rintro ⟨bound, start, stop⟩
    exact Nat.le_antisymm ((located.le_row_iff (Nat.le_of_lt bound)).mpr start)
      ((located.row_le_iff bound).mpr stop)
  · rintro rfl
    exact ⟨inside, located.start_le, located.lt_stop inside⟩

theorem rowAt_eq_scan (laid : LaysOut rows sizes) (offset : Nat) :
    RowLayout.rowAt rows offset = scanRowAt sizes offset := by
  unfold scanRowAt
  split
  · next empty => exact laid.rowAt_nil empty offset
  · next some =>
    obtain ⟨row, located, found⟩ := laid.rowAt_located some offset
    rw [found, located.unique (located_scan sizes offset)]

theorem keepsContract (laid : LaysOut rows sizes) : KeepsContract rows where
  start_zero := by rw [laid.start_eq, startOf_zero]
  start_succ i _ := by rw [laid.start_eq, laid.start_eq, laid.size_eq, startOf_succ]
  start_past_end i outside := by
    rw [laid.start_eq, laid.extent_eq, startOf_of_length_le (laid.count_eq ▸ outside)]
  size_past_end i outside := by rw [laid.size_eq, sizeAt_eq_zero (laid.count_eq ▸ outside)]
  rowAt_eq_none_iff offset := by
    rw [laid.rowAt_eq_scan, laid.count_eq, scanRowAt]
    split
    · next empty => exact iff_of_true rfl empty
    · next some => exact iff_of_false nofun some
  rowAt_inside offset inside := by
    rw [laid.extent_eq] at inside
    obtain ⟨row, located, found⟩ :=
      laid.rowAt_located (length_ne_zero_of_lt_extentOf inside) offset
    have bound := located.lt_length inside
    refine ⟨row, ?_, laid.hasPixel_iff located bound⟩
    rw [found, Nat.min_eq_left (Nat.le_sub_one_of_lt bound)]
  rowAt_past_end offset past some := by
    rw [laid.extent_eq] at past
    rw [laid.count_eq] at some ⊢
    obtain ⟨row, located, found⟩ := laid.rowAt_located some offset
    rw [found, located.eq_length past, Nat.min_eq_right (Nat.sub_le _ _)]
  rowAt_eq_scan offset := by rw [laid.rowAt_eq_scan, laid.answeredSizes_eq]

end LaysOut

end

/-! ## Runs of edits -/

section

variable {σ : Type}

/-- A layout after one edit. A layout that keeps no measurements stays as it is
when they are dropped. -/
def edit [Refinable σ] (rows : σ) : Edit → σ
  | .measure i size => (Refinable.record rows i (some size)).1
  | .forget i => (Refinable.record rows i none).1
  | .forgetAll => (Refinable.forgetAll? rows).getD rows
  | .resize count => RowLayout.resize rows count

/-- A layout after a sequence of edits. -/
def editAll [Refinable σ] (rows : σ) (edits : List Edit) : σ := edits.foldl edit rows

variable [ExactRefinable σ]

/-- The sizes fit at the beginning of a run of edits and after each of them. -/
def FitsAlong (rows : σ) : List Edit → Prop
  | [] => Fits (ExactLayout.sizes rows)
  | e :: edits => Fits (ExactLayout.sizes rows) ∧ FitsAlong (edit rows e) edits

instance decidableFitsAlong (rows : σ) (edits : List Edit) : Decidable (FitsAlong rows edits) :=
  match edits with
  | [] => inferInstanceAs (Decidable (Fits _))
  | e :: edits => @instDecidableAnd _ _ _ (decidableFitsAlong (edit rows e) edits)

theorem FitsAlong.fits {rows : σ} {edits : List Edit} (along : FitsAlong rows edits) :
    Fits (ExactLayout.sizes rows) := by
  cases edits with
  | nil => exact along
  | cons e edits => exact along.1

theorem reached_edit {rows : σ} (reached : ExactLayout.Reached rows) (e : Edit)
    (fits : Fits (ExactLayout.sizes (edit rows e))) : ExactLayout.Reached (edit rows e) := by
  cases e with
  | measure i size => exact ExactRefinable.reached_record i (some size) reached fits
  | forget i => exact ExactRefinable.reached_record i none reached fits
  | resize count => exact ExactRefinable.reached_resize count reached fits
  | forgetAll =>
    unfold edit at fits ⊢
    cases dropped : Refinable.forgetAll? rows with
    | none => exact reached
    | some rows' =>
      rw [dropped] at fits
      exact ExactRefinable.reached_forgetAll dropped reached fits

theorem reached_editAll {rows : σ} (reached : ExactLayout.Reached rows) {edits : List Edit}
    (along : FitsAlong rows edits) : ExactLayout.Reached (editAll rows edits) := by
  induction edits generalizing rows with
  | nil => exact reached
  | cons e edits ih => exact ih (reached_edit reached e along.2.fits) along.2

theorem keepsContract_editAll {rows : σ} (reached : ExactLayout.Reached rows) {edits : List Edit}
    (along : FitsAlong rows edits) : KeepsContract (editAll rows edits) :=
  (ExactLayout.laysOut (reached_editAll reached along)).keepsContract

end

/-! ## Layouts built anew -/

/-- The sizes of rows of one height fit if and only if their product does. -/
theorem UniformRows.reached_of_fits {rows : UniformRows} (fits : Fits rows.sizes) :
    ExactLayout.Reached rows := by
  rw [Fits, extentOf_sizes] at fits
  exact fits

/-- A choice of layout as it is built. -/
inductive Rows.Built : Rows → Prop
  | uniform {count : Nat} {height : UInt32} {rows : UniformRows} :
      UniformRows.ofHeight count height = .ok rows → Built (.uniform rows)
  | measured {count : Nat} {estimate : Nat → UInt32} {rows : MeasuredRows} :
      MeasuredRows.ofEstimate count estimate = .ok rows → Built (.measured rows)

theorem Rows.Built.reached {rows : Rows} (built : rows.Built)
    (fits : Fits (ExactLayout.sizes rows)) : ExactLayout.Reached rows := by
  cases built with
  | uniform => exact UniformRows.reached_of_fits fits
  | measured built => exact MeasuredRows.Reached.ofEstimate built fits

/-- Rows of one height, measured rows and the choice between them keep the
contract after every run of edits in which the sizes fit. -/
theorem editAll_keepsContract (edits : List Edit) :
    (∀ {count : Nat} {height : UInt32} {rows : UniformRows},
      UniformRows.ofHeight count height = .ok rows → FitsAlong rows edits →
        KeepsContract (editAll rows edits)) ∧
    (∀ {count : Nat} {estimate : Nat → UInt32} {rows : MeasuredRows},
      MeasuredRows.ofEstimate count estimate = .ok rows → FitsAlong rows edits →
        KeepsContract (editAll rows edits)) ∧
    (∀ {rows : Rows}, rows.Built → FitsAlong rows edits → KeepsContract (editAll rows edits)) := by
  refine ⟨fun {_ _ rows} _ along => ?_, fun {_ _ rows} built along => ?_,
    fun {rows} built along => ?_⟩
  · exact keepsContract_editAll (UniformRows.reached_of_fits along.fits) along
  · have reached : rows.Reached := .ofEstimate built along.fits
    exact keepsContract_editAll reached along
  · exact keepsContract_editAll (built.reached along.fits) along

/-- Three rows grow past a power of two and shrink below it, with rows of size
zero at the beginning and in the middle. -/
def regrowth : List Edit :=
  [.measure 0 0, .resize 9, .measure 4 0, .measure 8 7, .resize 5, .forget 0, .measure 1 0,
    .measure 7 2]

theorem editAll_keepsContract_regrowth :
    ∃ uniform measured, UniformRows.ofHeight 3 5 = .ok uniform ∧
      MeasuredRows.ofEstimate 3 (fun i => if i < 3 then 5 else 0) = .ok measured ∧
      KeepsContract (editAll uniform regrowth) ∧ KeepsContract (editAll measured regrowth) ∧
      KeepsContract (editAll (Rows.measured measured) regrowth) ∧
      RowLayout.rowAt (editAll measured regrowth) 5 = some 2 := by
  obtain ⟨uniform, measured, either⟩ := editAll_keepsContract regrowth
  have height : UniformRows.ofHeight 3 5 = .ok ⟨3, 5, by decide⟩ := rfl
  have built : MeasuredRows.ofEstimate 3 (fun i => if i < 3 then 5 else 0) =
      .ok ⟨fun i => if i < 3 then 5 else 0, #[⟨5, false⟩, ⟨5, false⟩, ⟨5, false⟩],
        .ofSizes [5, 5, 5]⟩ := rfl
  exact ⟨_, _, height, built, uniform height (by decide +kernel), measured built (by decide +kernel),
    either (.measured built) (by decide +kernel), by decide +kernel⟩

end Windowing
