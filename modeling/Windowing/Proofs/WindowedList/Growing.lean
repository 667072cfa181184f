import Windowing.Proofs.Coverage
import Windowing.Proofs.WindowedList.Anchoring

/-!
# A row grows on screen

Where a row is on screen is decided by the clamped scroll position. Whether a measurement takes
the position along is decided by the stored one. The two are the same as long as the list is not
scrolled too far, and then a row on screen grows downwards: it and all rows before it stay where
they are.

A list that is scrolled too far, as after it has shrunk, is seen at its limit. There the two
differ. When a row on screen grows, the limit gives way, and the strip follows the stored
position down the track, whether or not the position was itself moved on.

Results:
1. `clamp_followed_eq_iff`: whether the visible strip stays at its pixel.
2. `growth_keeps_places_iff`: whether the rows up to the one that grows stay in place.
-/

namespace Windowing

/-- The strip stays at its pixel when a row below its top grows, if it began at the stored
position or all rows still fit into it. -/
theorem clamp_followed_eq_iff {offset start extent extent' height : Nat} {delta : Int}
    (grows : 0 < delta) (extent_eq : (extent' : Int) = extent + delta)
    (fits : extent' ≤ Offset.limit) (below : min offset (extent - height) ≤ start) :
    min (followed offset start delta) (extent' - height) = min offset (extent - height) ↔
      offset ≤ extent - height ∨ extent' ≤ height := by
  unfold followed
  split
  · -- The row starts above the stored position, so the list was scrolled too far.
    have moved : Offset.shift offset delta = min (offset + delta).toNat Offset.limit := rfl
    omega
  · omega

namespace WindowedList

/-- Where a row begins on screen, counted from the top of the visible strip. -/
def place {σ : Type} [RowLayout σ] (l : WindowedList σ) (row : Nat) : Int :=
  RowLayout.start l.rows row - clampOffset l.rows l.view.height l.view.offset

/-- Rows that keep their start stay in place on screen if and only if the strip stays. -/
theorem places_eq_iff {σ : Type} [RowLayout σ] {l after : WindowedList σ} {row : Nat}
    (starts : ∀ other ≤ row, RowLayout.start after.rows other = RowLayout.start l.rows other) :
    (∀ other ≤ row, after.place other = l.place other) ↔
      clampOffset after.rows after.view.height after.view.offset =
        clampOffset l.rows l.view.height l.view.offset := by
  unfold place
  constructor
  · intro stay
    have first := stay 0 (Nat.zero_le row)
    rw [starts 0 (Nat.zero_le row)] at first
    omega
  · intro same other le
    rw [starts other le, same]

variable {σ : Type} [ExactRefinable σ]

/-- When a measurement makes a row larger that begins at or below the top of the visible strip,
then it and the rows before it stay in place on screen if and only if the list was not scrolled
too far or, with the larger row, still fits into the viewport as a whole. -/
theorem growth_keeps_places_iff {l : WindowedList σ} (reached : ExactLayout.Reached l.rows)
    (row : Nat) (size : UInt32)
    (fits : Fits (ExactLayout.sizes (l.measure row size).state.rows))
    (below : clampOffset l.rows l.view.height l.view.offset ≤ RowLayout.start l.rows row)
    (grows : RowLayout.size l.rows row < RowLayout.size (l.measure row size).state.rows row) :
    (∀ other ≤ row, (l.measure row size).state.place other = l.place other) ↔
      l.view.offset ≤ scrollLimit l.rows l.view.height ∨
        RowLayout.extent (l.measure row size).state.rows ≤ l.view.height.toNat := by
  have laid := ExactLayout.laysOut reached
  have reached_after : ExactLayout.Reached (l.measure row size).state.rows :=
    ExactRefinable.reached_record row (some size) reached fits
  have laid_after := ExactLayout.laysOut reached_after
  obtain ⟨new, sizes_eq, delta_eq, offset⟩ : ∃ new,
      ExactLayout.sizes (l.measure row size).state.rows =
          (ExactLayout.sizes l.rows).set row new ∧ _ ∧
        (l.measure row size).state.view.offset = _ :=
    exists_record reached row (some size)
  rw [sizes_eq] at laid_after
  have grows := UInt32.lt_iff_toNat_lt.mp grows
  have inside := lt_length_of_size_pos laid_after (Nat.zero_lt_of_lt grows)
  rw [List.length_set] at inside
  rw [laid.size_eq, laid_after.size_eq, sizeAt_set_self inside] at grows
  rw [sizeAt_set_self inside] at delta_eq
  have extent := extentOf_set new inside
  have starts (other : Nat) (le : other ≤ row) :
      RowLayout.start (l.measure row size).state.rows other = RowLayout.start l.rows other := by
    rw [laid_after.start_eq, startOf_set_of_le new le, laid.start_eq]
  have room : extentOf ((ExactLayout.sizes l.rows).set row new) ≤ Offset.limit := by
    rw [← laid_after.extent_eq, (ExactLayout.laysOut reached_after).extent_eq]
    exact fits
  have height : (l.measure row size).state.view.height = l.view.height := rfl
  rw [laid.clampOffset_eq, laid.start_eq] at below
  rw [places_eq_iff starts, height, offset, laid_after.clampOffset_eq, laid.clampOffset_eq,
    scrollLimit, laid.extent_eq, laid_after.extent_eq]
  exact clamp_followed_eq_iff (by omega) (by omega) room below

end WindowedList

/-- Five rows of size `10`, cut to four. -/
def shrunk : MeasuredRows :=
  MeasuredRows.edit ⟨fun _ => 10, #[⟨10, false⟩, ⟨10, false⟩, ⟨10, false⟩, ⟨10, false⟩, ⟨10, false⟩],
    .ofSizes [10, 10, 10, 10, 10]⟩ (.resize 4)

theorem reached_shrunk : shrunk.Reached := by
  have built : MeasuredRows.ofEstimate 5 (fun _ => 10) =
      .ok ⟨fun _ => 10, #[⟨10, false⟩, ⟨10, false⟩, ⟨10, false⟩, ⟨10, false⟩, ⟨10, false⟩],
        .ofSizes [10, 10, 10, 10, 10]⟩ := rfl
  exact .edit _ (.ofEstimate built (by decide)) (by decide)

/-- A viewport at the end of the track keeps the rows in place while the third grows. One that
was left behind at the end of the longer track does not. -/
theorem growth_keeps_places_iff_shrunk :
    let there : WindowedList MeasuredRows := .ofRows shrunk {} ⟨20, 20⟩
    let behind : WindowedList MeasuredRows := .ofRows shrunk {} ⟨30, 20⟩
    (∀ other ≤ 2, (there.measure 2 30).state.place other = there.place other) ∧
      ¬ ∀ other ≤ 2, (behind.measure 2 30).state.place other = behind.place other := by
  intro there behind
  have stays := WindowedList.growth_keeps_places_iff (l := there) reached_shrunk 2 30
    (by decide +kernel) (by decide +kernel) (by decide +kernel)
  have moves := WindowedList.growth_keeps_places_iff (l := behind) reached_shrunk 2 30
    (by decide +kernel) (by decide +kernel) (by decide +kernel)
  exact ⟨stays.mpr (by decide +kernel), fun kept => absurd (moves.mp kept) (by decide +kernel)⟩

/-- The third row of the viewport that was left behind begins at the top of the screen, and
when it grows it is moved out by `20` pixels. -/
theorem grown_row_leaves_place :
    let l : WindowedList MeasuredRows := .ofRows shrunk {} ⟨30, 20⟩
    let after := (l.measure 2 30).state
    shrunk.Reached ∧ clampOffset l.rows l.view.height l.view.offset = 20 ∧
      RowLayout.start l.rows 2 = 20 ∧ RowLayout.size l.rows 2 = 10 ∧
      RowLayout.size after.rows 2 = 30 ∧ l.place 2 = 0 ∧ after.place 2 = -20 :=
  ⟨reached_shrunk, by decide +kernel, by decide +kernel, by decide +kernel, by decide +kernel,
    by decide +kernel, by decide +kernel⟩

end Windowing
