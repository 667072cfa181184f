import Windowing.Proofs.Counting
import Windowing.Proofs.Rows.Contract

/-!
# How windows lie to each other

A visible range depends on the viewport through two pixels alone: it begins at the row of the first
one and ends after the row of the last one. Both look-ups go down the list as the pixel goes down
the track. So two viewports are compared by their first and last pixels, whatever else is
different: a scroll moves both the same way, and a higher viewport may have its first pixel pushed
up by the scroll limit while its last one comes down.

Results:
1. `visibleRange_mono`: one pixel decides one end of the range.
2. `windowAt_start_le`, `windowAt_stop_le_stop`: the same of windows.
3. `reached_nestsWindows`: windows follow the scroll position and lie in each other.
-/

namespace Windowing

/-- Every row of `inner` lies between the ends of `outer`. -/
structure RowRange.Within (inner outer : RowRange) : Prop where
  start_le : outer.start ≤ inner.start
  stop_le : inner.stop ≤ outer.stop

/-- How the windows over one layout lie to each other when the viewport changes. -/
structure NestsWindows {σ : Type} [RowLayout σ] (rows : σ) : Prop where
  /-- Further down the track a window begins no earlier and ends no earlier. -/
  follows : ∀ {height : UInt32} {offset offset' : Nat}, 0 < height.toNat → offset ≤ offset' →
    ∀ overscan,
      (windowAt rows ⟨offset, height⟩ overscan).range.start ≤
          (windowAt rows ⟨offset', height⟩ overscan).range.start ∧
        (windowAt rows ⟨offset, height⟩ overscan).range.stop ≤
          (windowAt rows ⟨offset', height⟩ overscan).range.stop
  /-- A viewport that is higher shows no less, although it may be stopped earlier. -/
  higher : ∀ {height height' : UInt32}, 0 < height.toNat → height ≤ height' →
    ∀ offset overscan,
      (windowAt rows ⟨offset, height⟩ overscan).range.Within
        (windowAt rows ⟨offset, height'⟩ overscan).range
  wider : ∀ {overscan overscan' : Nat}, overscan ≤ overscan' → ∀ view,
    (windowAt rows view overscan).range.Within (windowAt rows view overscan').range
  /-- A position past the limit is as good as the limit. -/
  clamped : ∀ view overscan,
    windowAt rows { view with offset := clampOffset rows view.height view.offset } overscan =
      windowAt rows view overscan

/-! ## Any layout -/

section

variable {σ : Type} [RowLayout σ]

theorem clampOffset_mono (rows : σ) (height : UInt32) {offset offset' : Nat}
    (order : offset ≤ offset') : clampOffset rows height offset ≤ clampOffset rows height offset' := by
  unfold clampOffset
  omega

/-- The limit of a higher viewport gives way by no more than the height has gained. -/
theorem clampOffset_of_height_le (rows : σ) {height height' : UInt32} (order : height ≤ height')
    (offset : Nat) :
    clampOffset rows height' offset ≤ clampOffset rows height offset ∧
      clampOffset rows height offset + height.toNat ≤
        clampOffset rows height' offset + height'.toNat := by
  have order := UInt32.le_iff_toNat_le.mp order
  unfold clampOffset scrollLimit
  omega

theorem clampOffset_clampOffset (rows : σ) (height : UInt32) (offset : Nat) :
    clampOffset rows height (clampOffset rows height offset) = clampOffset rows height offset :=
  Nat.min_eq_left (Nat.min_le_right _ _)

theorem visibleRange_clampOffset (rows : σ) (view : Viewport) :
    visibleRange rows { view with offset := clampOffset rows view.height view.offset } =
      visibleRange rows view := by
  unfold visibleRange
  dsimp only
  rw [clampOffset_clampOffset]

theorem windowAt_clampOffset (rows : σ) (view : Viewport) (overscan : Nat) :
    windowAt rows { view with offset := clampOffset rows view.height view.offset } overscan =
      windowAt rows view overscan := by
  unfold windowAt
  rw [visibleRange_clampOffset]

theorem windowAt_within_of_le {rows : σ} {overscan overscan' : Nat} (le : overscan ≤ overscan')
    (view : Viewport) :
    (windowAt rows view overscan).range.Within (windowAt rows view overscan').range := by
  unfold windowAt
  dsimp only
  split
  · exact ⟨Nat.le_refl 0, Nat.le_refl 0⟩
  · constructor
    · exact Nat.sub_le_sub_left le _
    · show min ((visibleRange rows view).stop + overscan) (RowLayout.count rows) ≤
        min ((visibleRange rows view).stop + overscan') (RowLayout.count rows)
      omega

end

/-! ## Visible ranges -/

section

variable {σ : Type} [RowLayout σ] {rows : σ} {sizes : List UInt32} {view view' : Viewport}

/-- The first visible pixel decides where a range begins, and the last one where it ends. -/
theorem visibleRange_mono (laid : LaysOut rows sizes) (fits : Fits sizes)
    (high : 0 < view.height.toNat) (high' : 0 < view'.height.toNat) :
    (clampOffset rows view.height view.offset ≤ clampOffset rows view'.height view'.offset →
        (visibleRange rows view).start ≤ (visibleRange rows view').start) ∧
      (clampOffset rows view.height view.offset + view.height.toNat ≤
          clampOffset rows view'.height view'.offset + view'.height.toNat →
        (visibleRange rows view).stop ≤ (visibleRange rows view').stop) := by
  by_cases none : sizes.length = 0
  · have none := laid.count_eq.trans none
    rw [visibleRange_none (.inl none), visibleRange_none (.inl none)]
    exact ⟨fun _ => Nat.le_refl _, fun _ => Nat.le_refl _⟩
  · rcases Nat.eq_zero_or_pos (extentOf sizes) with flat | positive
    · rw [visibleRange_flat laid flat high, visibleRange_flat laid flat high']
      exact ⟨fun _ => Nat.le_refl _, fun _ => Nat.le_refl _⟩
    · obtain ⟨a, b, at_first, at_last, _, _, range⟩ := visibleRange_located laid fits positive high
      obtain ⟨a', b', at_first', at_last', _, _, range'⟩ :=
        visibleRange_located laid fits positive high'
      rw [range, range']
      refine ⟨fun first => at_first.row_le_row at_first' first, fun last => ?_⟩
      have order : b ≤ b' := at_last.row_le_row at_last' (Nat.sub_le_sub_right last 1)
      show min (b + 1) sizes.length ≤ min (b' + 1) sizes.length
      omega

/-- A window is the visible range and the overscan on both sides, as far as there are rows. -/
theorem windowAt_range (laid : LaysOut rows sizes) (fits : Fits sizes)
    (high : 0 < view.height.toNat) (overscan : Nat) :
    (windowAt rows view overscan).range =
      ⟨(visibleRange rows view).start - overscan,
        min ((visibleRange rows view).stop + overscan) (RowLayout.count rows)⟩ := by
  by_cases none : RowLayout.count rows = 0
  · rw [windowAt_none (.inl none), visibleRange_none (.inl none), none, Nat.min_zero, Nat.zero_sub]
  · have some : sizes.length ≠ 0 := laid.count_eq ▸ none
    rw [windowAt_eq (visibleRange_start_lt_stop laid fits some high)]

theorem windowAt_start_le (laid : LaysOut rows sizes) (fits : Fits sizes)
    (high : 0 < view.height.toNat) (high' : 0 < view'.height.toNat) (overscan : Nat)
    (first : clampOffset rows view.height view.offset ≤
      clampOffset rows view'.height view'.offset) :
    (windowAt rows view overscan).range.start ≤ (windowAt rows view' overscan).range.start := by
  rw [windowAt_range laid fits high, windowAt_range laid fits high']
  exact Nat.sub_le_sub_right ((visibleRange_mono laid fits high high').1 first) overscan

theorem windowAt_stop_le_stop (laid : LaysOut rows sizes) (fits : Fits sizes)
    (high : 0 < view.height.toNat) (high' : 0 < view'.height.toNat) (overscan : Nat)
    (last : clampOffset rows view.height view.offset + view.height.toNat ≤
      clampOffset rows view'.height view'.offset + view'.height.toNat) :
    (windowAt rows view overscan).range.stop ≤ (windowAt rows view' overscan).range.stop := by
  rw [windowAt_range laid fits high, windowAt_range laid fits high']
  have stop := (visibleRange_mono laid fits high high').2 last
  show min ((visibleRange rows view).stop + overscan) (RowLayout.count rows) ≤
    min ((visibleRange rows view').stop + overscan) (RowLayout.count rows)
  omega

end

/-! ## Reached layouts -/

/-- Windows over a reached layout follow the scroll position, lie in those of a higher viewport and
of a greater overscan, and do not see how far the position is past the limit. -/
theorem reached_nestsWindows {σ : Type} [ExactLayout σ] {rows : σ}
    (reached : ExactLayout.Reached rows) : NestsWindows rows where
  follows {height offset offset'} high order overscan := by
    have laid := ExactLayout.laysOut reached
    have fits := ExactLayout.fits reached
    have first := clampOffset_mono rows height order
    exact ⟨windowAt_start_le laid fits high high overscan first,
      windowAt_stop_le_stop laid fits high high overscan (Nat.add_le_add_right first _)⟩
  higher {height height'} high order offset overscan := by
    have laid := ExactLayout.laysOut reached
    have fits := ExactLayout.fits reached
    have high' : 0 < height'.toNat := Nat.lt_of_lt_of_le high (UInt32.le_iff_toNat_le.mp order)
    obtain ⟨first, last⟩ := clampOffset_of_height_le rows order offset
    exact ⟨windowAt_start_le laid fits high' high overscan first,
      windowAt_stop_le_stop laid fits high high' overscan last⟩
  wider := windowAt_within_of_le
  clamped := windowAt_clampOffset rows

/-- Five rows, of which only the second and the fourth have a pixel. -/
def pleated : MeasuredRows :=
  editAll ⟨fun _ => 5, #[⟨5, false⟩, ⟨5, false⟩, ⟨5, false⟩, ⟨5, false⟩, ⟨5, false⟩],
    .ofSizes [5, 5, 5, 5, 5]⟩ [.measure 0 0, .measure 2 0, .measure 3 7, .measure 4 0]

theorem reached_pleated : pleated.Reached := by
  have built : MeasuredRows.ofEstimate 5 (fun _ => 5) =
      .ok ⟨fun _ => 5, #[⟨5, false⟩, ⟨5, false⟩, ⟨5, false⟩, ⟨5, false⟩, ⟨5, false⟩],
        .ofSizes [5, 5, 5, 5, 5]⟩ := rfl
  have level : MeasuredRows.Reached _ := .ofEstimate built (by decide)
  exact @reached_editAll MeasuredRows _ _ level _ (by decide +kernel)

/-- The viewport of height `6` stops at `6` and shows the fourth row. One of height `10` stops at
`2`, and shows all from the second row to the fourth. -/
theorem reached_nestsWindows_pleated :
    NestsWindows pleated ∧ (windowAt pleated ⟨9, 6⟩ 0).range = ⟨3, 4⟩ ∧
      (windowAt pleated ⟨9, 10⟩ 0).range = ⟨1, 4⟩ ∧
      (windowAt pleated ⟨9, 6⟩ 0).range.Within (windowAt pleated ⟨9, 10⟩ 0).range := by
  have nests : NestsWindows pleated := reached_nestsWindows reached_pleated
  exact ⟨nests, by decide +kernel, by decide +kernel, nests.higher (by decide) (by decide) 9 0⟩

end Windowing
