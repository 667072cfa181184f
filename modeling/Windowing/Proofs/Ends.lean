import Mathlib.Order.MinMax
import Windowing.Proofs.Nesting
import Windowing.Proofs.Rows.Positive

/-!
# The ends of a list

Scrolled to the beginning of the track a window should begin with the first row, and scrolled to
its end or past it, the window should end with the last one. Both hold as long as there is a pixel
to be found near the end. The look-up of a pixel passes over rows of size zero, so when the list
begins with more of them than the overscan brings back, its first rows are never in a window; and
likewise at the end, unless all rows together are lower than the viewport.

Results:
1. `startOf_lt_startOf_iff`: rows with a pixel are those that take up some of the track.
2. `windowAt_start_eq_zero_iff`, `windowAt_stop_eq_count_iff`: one end each.
3. `windows_show_ends_iff`: both ends, and that rows which all have a pixel are shown at both.
-/

namespace Windowing

/-! ## On the track -/

section

variable {sizes : List UInt32}

theorem startOf_lt_startOf_iff {m n : Nat} (order : m ≤ n) :
    startOf sizes m < startOf sizes n ↔ ∃ i, m ≤ i ∧ i < n ∧ 0 < (sizeAt sizes i).toNat := by
  induction order with
  | refl => exact iff_of_false (Nat.lt_irrefl _) fun ⟨i, first, last, _⟩ => Nat.not_lt.mpr first last
  | @step n order ih =>
    have begun := startOf_le_startOf sizes order
    rw [Nat.succ_eq_add_one, startOf_succ]
    constructor
    · intro taken
      by_cases last : 0 < (sizeAt sizes n).toNat
      · exact ⟨n, order, Nat.lt_succ_self n, last⟩
      · obtain ⟨i, first, inside, positive⟩ := ih.mp (by omega)
        exact ⟨i, first, Nat.lt_succ_of_lt inside, positive⟩
    · rintro ⟨i, first, inside, positive⟩
      rcases Nat.lt_or_eq_of_le (Nat.le_of_lt_succ inside) with before | rfl
      · exact Nat.lt_of_lt_of_le (ih.mpr ⟨i, first, before, positive⟩) (Nat.le_add_right _ _)
      · omega

theorem startOf_pos_iff {n : Nat} :
    0 < startOf sizes n ↔ ∃ i < n, 0 < (sizeAt sizes i).toNat := by
  have taken : startOf sizes 0 < startOf sizes n ↔ _ := startOf_lt_startOf_iff (Nat.zero_le n)
  simpa only [startOf_zero, Nat.zero_le, true_and] using taken

theorem startOf_lt_extentOf_iff {m : Nat} :
    startOf sizes m < extentOf sizes ↔ ∃ i, m ≤ i ∧ 0 < (sizeAt sizes i).toNat := by
  rcases Nat.le_total m sizes.length with inside | outside
  · rw [← startOf_of_length_le (Nat.le_refl sizes.length), startOf_lt_startOf_iff inside]
    exact exists_congr fun i => and_congr_right fun _ =>
      ⟨And.right, fun positive => ⟨lt_length_of_sizeAt_pos positive, positive⟩⟩
  · rw [startOf_of_length_le outside]
    refine iff_of_false (Nat.lt_irrefl _) fun ⟨i, first, positive⟩ => ?_
    exact Nat.not_lt.mpr (Nat.le_trans outside first) (lt_length_of_sizeAt_pos positive)

/-- The row that holds a pixel of the track is one of the first rows if and only if these take up
more of the track than lies above the pixel. -/
theorem Located.row_le_iff_of_lt {offset row : Nat} (h : Located sizes offset row)
    (inside : offset < extentOf sizes) (i : Nat) : row ≤ i ↔ offset < startOf sizes (i + 1) := by
  rcases Nat.lt_or_ge i sizes.length with within | outside
  · exact h.row_le_iff within
  · rw [startOf_of_length_le (Nat.le_succ_of_le outside)]
    exact iff_of_true (Nat.le_trans h.le_length outside) inside

end

/-! ## Windows at the ends -/

section

variable {σ : Type} [RowLayout σ] {rows : σ} {sizes : List UInt32} {height : UInt32} {offset : Nat}

/-- A viewport that is filled and scrolled to the limit or past it ends where the track ends. -/
theorem clampOffset_add_height (past : scrollLimit rows height ≤ offset)
    (fills : height.toNat ≤ RowLayout.extent rows) :
    clampOffset rows height offset + height.toNat = RowLayout.extent rows := by
  rw [clampOffset, Nat.min_eq_right past]
  exact Nat.sub_add_cancel fills

theorem LaysOut.count_pos_of_extent_pos (laid : LaysOut rows sizes)
    (positive : 0 < RowLayout.extent rows) : 0 < RowLayout.count rows := by
  rw [laid.extent_eq] at positive
  rw [laid.count_eq]
  exact Nat.pos_of_ne_zero (length_ne_zero_of_lt_extentOf positive)

theorem visibleRange_start_of_flat {view : Viewport} (flat : RowLayout.extent rows = 0) :
    (visibleRange rows view).start = 0 := by
  unfold visibleRange
  dsimp only
  rw [if_pos flat]
  split <;> rfl

/-- Rows that are lower than the viewport are visible down to the last one. -/
theorem visibleRange_stop_of_short {view : Viewport} (laid : LaysOut rows sizes) (fits : Fits sizes)
    (short : RowLayout.extent rows < view.height.toNat) :
    (visibleRange rows view).stop = RowLayout.count rows := by
  have high : 0 < view.height.toNat := Nat.zero_lt_of_lt short
  by_cases none : RowLayout.count rows = 0
  · rw [visibleRange_none (.inl none), none]
  · rw [laid.extent_eq] at short
    rw [laid.count_eq] at none ⊢
    rcases Nat.eq_zero_or_pos (extentOf sizes) with flat | positive
    · rw [visibleRange_flat laid flat high]
    · obtain ⟨_, b, _, at_last, _, _, range⟩ := visibleRange_located laid fits positive high
      have past : b = sizes.length := at_last.eq_length (by omega)
      rw [range, past]
      exact Nat.min_eq_right (Nat.le_succ _)

/-- At the beginning of the track the window begins with the first row, unless there are pixels but
none of them in the rows that the overscan can bring back. -/
theorem windowAt_start_eq_zero_iff (laid : LaysOut rows sizes) (fits : Fits sizes)
    (high : 0 < height.toNat) (overscan : Nat) :
    (windowAt rows ⟨0, height⟩ overscan).range.start = 0 ↔
      (0 < RowLayout.extent rows → ∃ i ≤ overscan, 0 < (RowLayout.size rows i).toNat) := by
  have top : 0 < (Viewport.mk 0 height).height.toNat := high
  rw [windowAt_range laid fits top]
  show (visibleRange rows ⟨0, height⟩).start - overscan = 0 ↔ _
  rw [Nat.sub_eq_zero_iff_le]
  rcases Nat.eq_zero_or_pos (RowLayout.extent rows) with flat | positive
  · rw [visibleRange_start_of_flat flat]
    exact iff_of_true (Nat.zero_le _) fun positive => absurd flat (Nat.ne_of_gt positive)
  · have extent : 0 < extentOf sizes := laid.extent_eq ▸ positive
    obtain ⟨a, _, at_first, _, _, _, range⟩ := visibleRange_located laid fits extent top
    have first : clampOffset rows height 0 = 0 := Nat.zero_min _
    rw [first] at at_first
    have found := at_first.row_le_iff_of_lt extent overscan
    rw [startOf_pos_iff] at found
    rw [range, forall_prop_of_true positive]
    simpa only [laid.size_eq, Nat.lt_succ_iff] using found

/-- At the end of the track or past it the window ends with the last row, unless the rows fill the
viewport but there is no pixel in those that the overscan can bring back. -/
theorem windowAt_stop_eq_count_iff (laid : LaysOut rows sizes) (fits : Fits sizes)
    (high : 0 < height.toNat) (overscan : Nat) (past : scrollLimit rows height ≤ offset) :
    (windowAt rows ⟨offset, height⟩ overscan).range.stop = RowLayout.count rows ↔
      (height.toNat ≤ RowLayout.extent rows →
        ∃ i, RowLayout.count rows ≤ i + overscan + 1 ∧ 0 < (RowLayout.size rows i).toNat) := by
  have bottom : 0 < (Viewport.mk offset height).height.toNat := high
  rw [windowAt_range laid fits bottom]
  show min ((visibleRange rows ⟨offset, height⟩).stop + overscan) (RowLayout.count rows) = _ ↔ _
  rw [min_eq_right_iff]
  rcases Nat.lt_or_ge (RowLayout.extent rows) height.toNat with short | fills
  · rw [visibleRange_stop_of_short laid fits short]
    exact iff_of_true (Nat.le_add_right _ _) fun fills => absurd short (Nat.not_lt.mpr fills)
  · have limit : clampOffset rows height offset + height.toNat = extentOf sizes :=
      (clampOffset_add_height past fills).trans laid.extent_eq
    have extent : 0 < extentOf sizes := laid.extent_eq ▸ Nat.lt_of_lt_of_le high fills
    obtain ⟨_, b, _, at_last, _, _, range⟩ := visibleRange_located laid fits extent bottom
    have at_last : Located sizes (extentOf sizes - 1) b := limit ▸ at_last
    have inside := at_last.lt_length (Nat.sub_lt extent Nat.one_pos)
    -- The row at the last pixel of the track is the last one that has a pixel at all.
    have found := at_last.le_row_iff (Nat.sub_le sizes.length (overscan + 1))
    rw [Nat.le_sub_one_iff_lt extent, startOf_lt_extentOf_iff] at found
    simp only [Nat.sub_le_iff_le_add] at found
    have stop : min (b + 1) sizes.length + overscan = b + (overscan + 1) := by
      rw [Nat.min_eq_left inside, Nat.succ_add_eq_add_succ]
    rw [range, laid.count_eq, forall_prop_of_true fills]
    simp only [stop, laid.size_eq]
    exact found

end

/-! ## Reached layouts -/

/-- Over a reached layout the window at the beginning of the track begins with the first row if and
only if there are no pixels at all or one of them is in the rows that the overscan can bring back
there, and the window at the end of the track or past it ends with the last row if and only if the
rows do not fill the viewport or the same holds there. So when every row has a pixel, each end is
shown, whatever the overscan. -/
theorem windows_show_ends_iff {σ : Type} [ExactLayout σ] {rows : σ}
    (reached : ExactLayout.Reached rows) {height : UInt32} (high : 0 < height.toNat)
    (overscan : Nat) :
    ((windowAt rows ⟨0, height⟩ overscan).range.start = 0 ↔
        (0 < RowLayout.extent rows → ∃ i ≤ overscan, 0 < (RowLayout.size rows i).toNat)) ∧
      (∀ offset, scrollLimit rows height ≤ offset →
        ((windowAt rows ⟨offset, height⟩ overscan).range.stop = RowLayout.count rows ↔
          (height.toNat ≤ RowLayout.extent rows → ∃ i,
            RowLayout.count rows ≤ i + overscan + 1 ∧ 0 < (RowLayout.size rows i).toNat))) ∧
      (AllPositive rows → (windowAt rows ⟨0, height⟩ overscan).range.start = 0 ∧
        ∀ offset, scrollLimit rows height ≤ offset →
          (windowAt rows ⟨offset, height⟩ overscan).range.stop = RowLayout.count rows) := by
  have laid := ExactLayout.laysOut reached
  have fits := ExactLayout.fits reached
  have first := windowAt_start_eq_zero_iff laid fits high overscan
  have last (offset : Nat) (past : scrollLimit rows height ≤ offset) :=
    windowAt_stop_eq_count_iff laid fits high overscan past
  refine ⟨first, last, fun positive => ⟨first.mpr fun extent => ?_, fun offset past => ?_⟩⟩
  · have some : 0 < RowLayout.count rows := laid.count_pos_of_extent_pos extent
    exact ⟨0, Nat.zero_le _, positive 0 some⟩
  · refine (last offset past).mpr fun fills => ?_
    have some : 0 < RowLayout.count rows :=
      laid.count_pos_of_extent_pos (Nat.lt_of_lt_of_le high fills)
    exact ⟨RowLayout.count rows - 1, by omega, positive _ (Nat.sub_lt some Nat.one_pos)⟩

/-- These rows begin and end with a row of size zero. With one row of overscan each end is shown,
and without it the first row is not. -/
theorem windows_show_ends_iff_pleated :
    (windowAt pleated ⟨0, 6⟩ 1).range.start = 0 ∧ (windowAt pleated ⟨40, 6⟩ 1).range.stop = 5 ∧
      (windowAt pleated ⟨0, 6⟩ 0).range.start ≠ 0 := by
  have reached : ExactLayout.Reached pleated := reached_pleated
  have high : 0 < (6 : UInt32).toNat := by decide
  obtain ⟨first, last, _⟩ := windows_show_ends_iff reached high 1
  obtain ⟨bare, _, _⟩ := windows_show_ends_iff reached high 0
  refine ⟨first.mpr fun _ => ⟨1, by decide, by decide +kernel⟩,
    (last 40 (by decide +kernel)).mpr fun _ => ⟨3, by decide, by decide +kernel⟩, fun begins => ?_⟩
  obtain ⟨i, le, positive⟩ := bare.mp begins (by decide +kernel)
  rw [Nat.le_zero.mp le] at positive
  exact absurd positive (by decide +kernel)

/-- In a viewport that is just filled by these rows, one position is the beginning of the track and
its end. The window has neither the first row nor the last one. -/
theorem pleated_hides_ends :
    pleated.Reached ∧ RowLayout.count pleated = 5 ∧ scrollLimit pleated 12 = 0 ∧
      (windowAt pleated ⟨0, 12⟩ 0).range = ⟨1, 4⟩ ∧
      (windowAt pleated ⟨0, 12⟩ 0).range.start ≠ 0 ∧
      (windowAt pleated ⟨0, 12⟩ 0).range.stop ≠ RowLayout.count pleated :=
  ⟨reached_pleated, by decide +kernel, by decide +kernel, by decide +kernel, by decide +kernel,
    by decide +kernel⟩

end Windowing
