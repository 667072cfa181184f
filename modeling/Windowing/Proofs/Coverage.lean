import Windowing.Proofs.Rows.Exact
import Windowing.Window

/-!
# What a window covers

The visible strip of a viewport begins at its clamped scroll position and is as
high as the viewport. For an exact layout the visible range is found by looking
up the rows at the first and at the last pixel of the strip.

Results:
1. `visibleRange_located`: the two look-ups, when the rows have any extent.
2. `mem_visibleRange_iff`: a row of positive size is visible if and only if its
   pixels meet the strip.
3. `visibleRange_eq_all_iff`: when the rows are shorter than the strip, all rows
   are in the range unless the list begins with a row of size zero. Rows of size
   zero at the end are in the range; the look-up of the first pixel passes over
   those at the beginning.
4. `window_covers_strip`: the window covers the strip.
-/

namespace Windowing

variable {σ : Type}

/-- A pixel of row `i` is visible. -/
def Meets [RowLayout σ] (rows : σ) (view : Viewport) (i : Nat) : Prop :=
  ∃ pixel, clampOffset rows view.height view.offset ≤ pixel ∧
    pixel < clampOffset rows view.height view.offset + view.height.toNat ∧
    RowLayout.start rows i ≤ pixel ∧
    pixel < RowLayout.start rows i + (RowLayout.size rows i).toNat

/-- The visible range and the window cover the visible strip, no more and no
less than they should. -/
structure CoversStrip [RowLayout σ] (rows : σ) (view : Viewport) (overscan : Nat) : Prop where
  mem_iff_meets : ∀ i, 0 < (RowLayout.size rows i).toNat →
    (i ∈ (visibleRange rows view).rows ↔ Meets rows view i)
  /-- Rows that fill the viewport meet it at both ends of the range. -/
  ends_meet : view.height.toNat ≤ RowLayout.extent rows →
    (visibleRange rows view).start < (visibleRange rows view).stop ∧
      Meets rows view (visibleRange rows view).start ∧
      Meets rows view ((visibleRange rows view).stop - 1)
  /-- Each visible pixel of the track lies in a row of the window. -/
  exists_row : ∀ pixel, clampOffset rows view.height view.offset ≤ pixel →
    pixel < clampOffset rows view.height view.offset + view.height.toNat →
    pixel < RowLayout.extent rows → ∃ i ∈ (windowAt rows view overscan).range.rows,
      RowLayout.start rows i ≤ pixel ∧
        pixel < RowLayout.start rows i + (RowLayout.size rows i).toNat
  start_eq : (windowAt rows view overscan).range.start = (visibleRange rows view).start - overscan
  stop_eq : (windowAt rows view overscan).range.stop =
    min ((visibleRange rows view).stop + overscan) (RowLayout.count rows)
  top_eq : (windowAt rows view overscan).top =
    ((List.range (windowAt rows view overscan).range.start).map fun i =>
      (RowLayout.size rows i).toNat).sum
  extent_eq : (windowAt rows view overscan).extent =
    ((List.range (RowLayout.count rows)).map fun i => (RowLayout.size rows i).toNat).sum

/-! ## Windows over any layout -/

section

variable [RowLayout σ] (rows : σ) (view : Viewport) (overscan : Nat)

theorem windowAt_stop_le : (windowAt rows view overscan).range.stop ≤ RowLayout.count rows := by
  unfold windowAt
  dsimp only
  split
  · exact Nat.zero_le _
  · exact Nat.min_le_right _ _

theorem windowAt_extent : (windowAt rows view overscan).extent = RowLayout.extent rows := by
  unfold windowAt
  dsimp only
  split <;> rfl

end

/-! ## The visible range -/

section

variable [RowLayout σ] {rows : σ} {sizes : List UInt32} {view : Viewport}

theorem LaysOut.clampOffset_eq (laid : LaysOut rows sizes) (height : UInt32) (offset : Nat) :
    clampOffset rows height offset = min offset (extentOf sizes - height.toNat) := by
  rw [clampOffset, scrollLimit, laid.extent_eq]

theorem LaysOut.stop_eq (laid : LaysOut rows sizes) (i : Nat) :
    RowLayout.start rows i + (RowLayout.size rows i).toNat = startOf sizes (i + 1) := by
  rw [laid.start_eq, laid.size_eq, startOf_succ]

theorem LooksUp.sum_eq (found : LooksUp rows sizes) :
    ((List.range (RowLayout.count rows)).map fun i => (RowLayout.size rows i).toNat).sum =
      extentOf sizes := by
  rw [found.count_eq, ← startOf_of_length_le (Nat.le_refl _), startOf_eq_sum]
  simp only [found.size_eq]

theorem LaysOut.extent_eq_sum (laid : LaysOut rows sizes) :
    RowLayout.extent rows =
      ((List.range (RowLayout.count rows)).map fun i => (RowLayout.size rows i).toNat).sum :=
  laid.extent_eq.trans laid.toLooksUp.sum_eq.symm

/-- With a positive extent the range runs from the row at the first visible
pixel to the row at the last, or to the last row of all. -/
theorem visibleRange_located (laid : LaysOut rows sizes) (fits : Fits sizes)
    (positive : 0 < extentOf sizes) (high : 0 < view.height.toNat) :
    ∃ a b, Located sizes (clampOffset rows view.height view.offset) a ∧
      Located sizes (clampOffset rows view.height view.offset + view.height.toNat - 1) b ∧
      a ≤ b ∧ a < sizes.length ∧ visibleRange rows view = ⟨a, min (b + 1) sizes.length⟩ := by
  have clamp := laid.clampOffset_eq view.height view.offset
  have small : view.height.toNat < 4294967296 := view.height.toNat_lt
  have some := length_ne_zero_of_lt_extentOf positive
  have last : Offset.add (clampOffset rows view.height view.offset) (view.height.toNat - 1) =
      clampOffset rows view.height view.offset + view.height.toNat - 1 := by
    unfold Fits at fits
    rw [Offset.add_eq (by unfold Offset.limit at fits ⊢; omega)]
    omega
  obtain ⟨a, at_first, hit_first⟩ :=
    laid.rowAt_located some (clampOffset rows view.height view.offset)
  obtain ⟨b, at_last, hit_last⟩ := laid.rowAt_located some
    (clampOffset rows view.height view.offset + view.height.toNat - 1)
  have inside := at_first.lt_length (by omega)
  have order : a ≤ b := at_first.row_le_row at_last (by omega)
  refine ⟨a, b, at_first, at_last, order, inside, ?_⟩
  unfold visibleRange
  dsimp only
  rw [if_neg, if_neg (by rw [laid.extent_eq]; omega), last, hit_first, hit_last]
  · simp only [Option.getD_some, Option.map_some, RowRange.mk.injEq]
    omega
  · rintro (empty | flat)
    · exact some (laid.count_eq ▸ empty)
    · rw [flat] at high
      exact absurd high (Nat.lt_irrefl 0)

/-- Rows on a track without extent all fit. -/
theorem visibleRange_of_extent_eq_zero (flat : RowLayout.extent rows = 0)
    (high : view.height ≠ 0) : visibleRange rows view = ⟨0, RowLayout.count rows⟩ := by
  unfold visibleRange
  dsimp only
  split
  · next none => rw [none.resolve_right high]
  · rfl

theorem visibleRange_flat (laid : LaysOut rows sizes) (flat : extentOf sizes = 0)
    (high : 0 < view.height.toNat) : visibleRange rows view = ⟨0, sizes.length⟩ := by
  rw [visibleRange_of_extent_eq_zero (laid.extent_eq.trans flat) (UInt32.pos_iff_ne_zero.mp high),
    laid.count_eq]

theorem meets_iff (laid : LaysOut rows sizes) (high : 0 < view.height.toNat) {i : Nat}
    (positive : 0 < (RowLayout.size rows i).toNat) :
    Meets rows view i ↔
      clampOffset rows view.height view.offset < startOf sizes (i + 1) ∧
        startOf sizes i < clampOffset rows view.height view.offset + view.height.toNat := by
  have stop := laid.stop_eq i
  rw [laid.start_eq] at stop
  unfold Meets
  rw [laid.start_eq]
  constructor
  · rintro ⟨pixel, _, _, _, _⟩
    omega
  · rintro ⟨_, _⟩
    exact ⟨max (clampOffset rows view.height view.offset) (startOf sizes i), by omega⟩

theorem lt_length_of_size_pos (laid : LaysOut rows sizes) {i : Nat}
    (positive : 0 < (RowLayout.size rows i).toNat) : i < sizes.length :=
  lt_length_of_sizeAt_pos (laid.size_eq i ▸ positive)

theorem mem_visibleRange_iff (laid : LaysOut rows sizes) (fits : Fits sizes)
    (high : 0 < view.height.toNat) {i : Nat} (positive : 0 < (RowLayout.size rows i).toNat) :
    i ∈ (visibleRange rows view).rows ↔ Meets rows view i := by
  have inside := lt_length_of_size_pos laid positive
  have extent : 0 < extentOf sizes := by
    have stop := laid.stop_eq i
    have bound := startOf_le_extentOf sizes (i + 1)
    omega
  obtain ⟨a, b, at_first, at_last, _, _, range⟩ := visibleRange_located laid fits extent high
  have first := at_first.row_le_iff inside
  have last := at_last.le_row_iff (Nat.le_of_lt inside)
  rw [meets_iff laid high positive, RowRange.mem_rows, range]
  show (a ≤ i ∧ i < min (b + 1) sizes.length) ↔ _
  omega

theorem visibleRange_start_lt_stop (laid : LaysOut rows sizes) (fits : Fits sizes)
    (some : sizes.length ≠ 0) (high : 0 < view.height.toNat) :
    (visibleRange rows view).start < (visibleRange rows view).stop := by
  rcases Nat.eq_zero_or_pos (extentOf sizes) with flat | positive
  · rw [visibleRange_flat laid flat high]
    exact Nat.pos_of_ne_zero some
  · obtain ⟨a, b, _, _, order, inside, range⟩ := visibleRange_located laid fits positive high
    rw [range]
    exact Nat.lt_min.mpr ⟨Nat.lt_succ_of_le order, inside⟩

theorem ends_meet (laid : LaysOut rows sizes) (fits : Fits sizes) (high : 0 < view.height.toNat)
    (fills : view.height.toNat ≤ RowLayout.extent rows) :
    Meets rows view (visibleRange rows view).start ∧
      Meets rows view ((visibleRange rows view).stop - 1) := by
  rw [laid.extent_eq] at fills
  have clamp := laid.clampOffset_eq view.height view.offset
  -- The strip ends within the track, so both look-ups hit a row that has the pixel.
  obtain ⟨a, b, at_first, at_last, _, first, range⟩ :=
    visibleRange_located laid fits (Nat.lt_of_lt_of_le high fills) high
  have last := at_last.lt_length (by omega)
  have first_start := at_first.start_le
  have first_stop := at_first.lt_stop first
  have last_start := at_last.start_le
  have last_stop := at_last.lt_stop last
  rw [range]
  constructor
  · refine ⟨clampOffset rows view.height view.offset, Nat.le_refl _, by omega, ?_, ?_⟩
    · rwa [laid.start_eq]
    · rwa [laid.stop_eq]
  · show Meets rows view (min (b + 1) sizes.length - 1)
    rw [show min (b + 1) sizes.length - 1 = b by omega]
    refine ⟨clampOffset rows view.height view.offset + view.height.toNat - 1, by omega, by omega,
      ?_, ?_⟩
    · rwa [laid.start_eq]
    · rwa [laid.stop_eq]

/-- Rows that are shorter than the strip are all in the range, up to rows of
size zero at the beginning of the list. -/
theorem visibleRange_eq_all_iff (laid : LaysOut rows sizes) (fits : Fits sizes)
    (some : sizes.length ≠ 0) (short : RowLayout.extent rows < view.height.toNat) :
    visibleRange rows view = ⟨0, RowLayout.count rows⟩ ↔
      (0 < RowLayout.extent rows → 0 < (RowLayout.size rows 0).toNat) := by
  have clamp := laid.clampOffset_eq view.height view.offset
  rw [laid.extent_eq] at short ⊢
  rw [laid.count_eq]
  rcases Nat.eq_zero_or_pos (extentOf sizes) with flat | positive
  · rw [visibleRange_flat laid flat (by omega)]
    exact iff_of_true rfl fun positive => absurd flat (Nat.ne_of_gt positive)
  · have high : 0 < view.height.toNat := Nat.lt_trans positive short
    obtain ⟨a, b, at_first, at_last, _, _, range⟩ := visibleRange_located laid fits positive high
    rw [show clampOffset rows view.height view.offset = 0 by omega] at at_first at_last
    have last := at_last.eq_length (by omega)
    -- The look-up of pixel zero finds row zero if and only if that row has a pixel.
    have first : a ≤ 0 ↔ 0 < startOf sizes 1 := at_first.row_le_iff (Nat.pos_of_ne_zero some)
    have stop : startOf sizes 0 + (RowLayout.size rows 0).toNat = startOf sizes 1 :=
      laid.start_eq 0 ▸ laid.stop_eq 0
    rw [startOf_zero] at stop
    rw [range, RowRange.mk.injEq]
    omega

/-! ## The window -/

theorem windowAt_eq (seen : (visibleRange rows view).start < (visibleRange rows view).stop)
    (overscan : Nat) :
    windowAt rows view overscan =
      { range := ⟨(visibleRange rows view).start - overscan,
          min ((visibleRange rows view).stop + overscan) (RowLayout.count rows)⟩
        top := RowLayout.start rows ((visibleRange rows view).start - overscan)
        extent := RowLayout.extent rows } := by
  unfold windowAt
  exact if_neg (by simpa [RowRange.isEmpty] using seen)

theorem visibleRange_stop_le (laid : LaysOut rows sizes) (fits : Fits sizes)
    (high : 0 < view.height.toNat) : (visibleRange rows view).stop ≤ sizes.length := by
  rcases Nat.eq_zero_or_pos (extentOf sizes) with flat | positive
  · exact Nat.le_of_eq (congrArg RowRange.stop (visibleRange_flat laid flat high))
  · obtain ⟨a, b, _, _, _, _, range⟩ := visibleRange_located laid fits positive high
    rw [range]
    exact Nat.min_le_right _ _

theorem mem_windowAt_of_mem_visibleRange (laid : LaysOut rows sizes) (fits : Fits sizes)
    (high : 0 < view.height.toNat) {i : Nat}
    (seen : i ∈ (visibleRange rows view).rows) (overscan : Nat) :
    i ∈ (windowAt rows view overscan).range.rows := by
  have bound := visibleRange_stop_le laid fits high
  rw [RowRange.mem_rows] at seen ⊢
  rw [windowAt_eq (by omega), laid.count_eq]
  show (visibleRange rows view).start - overscan ≤ i ∧
    i < min ((visibleRange rows view).stop + overscan) sizes.length
  omega

theorem exists_row_of_pixel (laid : LaysOut rows sizes) (fits : Fits sizes)
    (high : 0 < view.height.toNat) (overscan : Nat) {pixel : Nat}
    (first : clampOffset rows view.height view.offset ≤ pixel)
    (last : pixel < clampOffset rows view.height view.offset + view.height.toNat)
    (inside : pixel < RowLayout.extent rows) :
    ∃ i ∈ (windowAt rows view overscan).range.rows,
      RowLayout.start rows i ≤ pixel ∧
        pixel < RowLayout.start rows i + (RowLayout.size rows i).toNat := by
  rw [laid.extent_eq] at inside
  have some := length_ne_zero_of_lt_extentOf inside
  obtain ⟨i, located, _⟩ := laid.rowAt_located some pixel
  have row := located.lt_length inside
  have start : RowLayout.start rows i ≤ pixel := laid.start_eq i ▸ located.start_le
  have stop := laid.stop_eq i ▸ located.lt_stop row
  -- A row that has a pixel has positive size, so it is visible.
  have seen := (mem_visibleRange_iff laid fits high (by omega)).mpr
    ⟨pixel, first, last, start, stop⟩
  exact ⟨i, mem_windowAt_of_mem_visibleRange laid fits high seen overscan, start, stop⟩

theorem LaysOut.coversStrip (laid : LaysOut rows sizes) (fits : Fits sizes)
    (some : sizes.length ≠ 0) (high : 0 < view.height.toNat) (overscan : Nat) :
    CoversStrip rows view overscan where
  mem_iff_meets _ positive := mem_visibleRange_iff laid fits high positive
  ends_meet fills := ⟨visibleRange_start_lt_stop laid fits some high, ends_meet laid fits high fills⟩
  exists_row _ first last inside := exists_row_of_pixel laid fits high overscan first last inside
  start_eq := by rw [windowAt_eq (visibleRange_start_lt_stop laid fits some high)]
  stop_eq := by rw [windowAt_eq (visibleRange_start_lt_stop laid fits some high)]
  top_eq := by
    rw [windowAt_eq (visibleRange_start_lt_stop laid fits some high), laid.start_eq,
      startOf_eq_sum]
    simp only [laid.size_eq]
  extent_eq := by
    rw [windowAt_eq (visibleRange_start_lt_stop laid fits some high), laid.extent_eq_sum]

end

/-! ## Reached layouts -/

/-- The window of a viewport over an exact layout covers the visible strip. Rows
that are shorter than the viewport are all visible unless the list begins with a
row of size zero and has any extent. -/
theorem window_covers_strip [ExactLayout σ] {rows : σ} (reached : ExactLayout.Reached rows)
    (some : 0 < RowLayout.count rows) {view : Viewport} (high : 0 < view.height.toNat)
    (overscan : Nat) :
    CoversStrip rows view overscan ∧
      ((RowLayout.extent rows < view.height.toNat →
          visibleRange rows view = ⟨0, RowLayout.count rows⟩) ↔
        (RowLayout.extent rows < view.height.toNat → 0 < RowLayout.extent rows →
          0 < (RowLayout.size rows 0).toNat)) := by
  have laid := ExactLayout.laysOut reached
  have fits := ExactLayout.fits reached
  have some : (ExactLayout.sizes rows).length ≠ 0 := Nat.ne_of_gt (laid.count_eq ▸ some)
  refine ⟨laid.coversStrip fits some high overscan, ?_⟩
  constructor
  · intro all short
    exact (visibleRange_eq_all_iff laid fits some short).mp (all short)
  · intro begins short
    exact (visibleRange_eq_all_iff laid fits some short).mpr (begins short)

/-- Two rows of size `5`, the first of them measured as `0`. -/
def collapsed : MeasuredRows :=
  MeasuredRows.edit ⟨fun _ => 5, #[⟨5, false⟩, ⟨5, false⟩], .ofSizes [5, 5]⟩ (.measure 0 0)

theorem reached_collapsed : collapsed.Reached := by
  have built : MeasuredRows.ofEstimate 2 (fun _ => 5) =
      .ok ⟨fun _ => 5, #[⟨5, false⟩, ⟨5, false⟩], .ofSizes [5, 5]⟩ := rfl
  exact .edit _ (.ofEstimate built (by decide)) (by decide)

/-- A viewport that is higher than both rows covers its strip, but does not show
the row of size zero at the beginning. -/
theorem window_covers_strip_collapsed :
    CoversStrip collapsed ⟨0, 10⟩ 0 ∧
      ((RowLayout.extent collapsed < 10 → visibleRange collapsed ⟨0, 10⟩ = ⟨0, 2⟩) ↔
        (RowLayout.extent collapsed < 10 → 0 < RowLayout.extent collapsed →
          0 < (RowLayout.size collapsed 0).toNat)) :=
  window_covers_strip reached_collapsed (by decide) (by decide) 0

/-- The range is that of the second row alone. -/
theorem visibleRange_collapsed_ne_all :
    collapsed.Reached ∧ RowLayout.extent collapsed < 10 ∧
      visibleRange collapsed ⟨0, 10⟩ = ⟨1, 2⟩ ∧
      visibleRange collapsed ⟨0, 10⟩ ≠ ⟨0, RowLayout.count collapsed⟩ :=
  ⟨reached_collapsed, by decide, by decide +kernel, by decide +kernel⟩

end Windowing
