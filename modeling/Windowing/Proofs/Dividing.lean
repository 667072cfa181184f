import Mathlib.Algebra.Order.Floor.Div
import Windowing.Proofs.Nesting

/-!
# Windows over rows of one height

Where all rows have one height, a window needs no look-up: it begins with the row that the position
divides to, rounded down, and ends before the row that the end of the viewport divides to, rounded
up. The library looks up the last visible pixel and goes one row further, which is the same
(`sub_one_div_add_one`), and what either way finds past the last row is cut off alike.

Results:
1. `visibleRange_eq_quotients`: the rows of the viewport.
2. `windowAt_eq_quotients`: the whole window, its overscan and its place on the track.
-/

namespace Windowing

/-- One more than the quotient of the number before is the quotient rounded up. -/
theorem sub_one_div_add_one {n d : Nat} (some : 0 < n) (positive : 0 < d) :
    (n - 1) / d + 1 = n ⌈/⌉ d := by
  rw [Nat.ceilDiv_eq_add_pred_div, Nat.sub_add_comm some, Nat.add_div_right _ positive]

namespace UniformRows

variable {rows : UniformRows} {view : Viewport}

theorem visibleRange_eq_quotients (some : 0 < rows.count)
    (fits : rows.height.toNat * rows.count ≤ Offset.limit) (high : 0 < view.height.toNat) :
    visibleRange rows view =
      ⟨clampOffset rows view.height view.offset / rows.height.toNat,
        min rows.count
          ((clampOffset rows view.height view.offset + view.height.toNat) ⌈/⌉ rows.height.toNat)⟩ := by
  have reached : ExactLayout.Reached rows := fits
  have positive : 0 < extentOf rows.sizes := by
    rw [extentOf_sizes]
    exact Nat.mul_pos rows.height_pos some
  obtain ⟨a, b, at_first, at_last, _, inside, range⟩ :=
    visibleRange_located (laysOut fits) (ExactLayout.fits reached) positive high
  have first : a = min _ rows.count := at_first.unique (located_div rows _)
  have last : b = min _ rows.count := at_last.unique (located_div rows _)
  rw [length_sizes] at inside range
  rw [range, ← sub_one_div_add_one (Nat.add_pos_right _ high) rows.height_pos, RowRange.mk.injEq]
  omega

/-- The window over rows of one height in closed form, also where the viewport is higher than all
rows together and where it is scrolled too far. -/
theorem windowAt_eq_quotients (some : 0 < rows.count)
    (fits : rows.height.toNat * rows.count ≤ Offset.limit) (high : 0 < view.height.toNat)
    (overscan : Nat) :
    let height := rows.height.toNat
    let first := min view.offset (rows.count * height - view.height.toNat)
    windowAt rows view overscan =
      { range :=
          ⟨first / height - overscan,
            min rows.count ((first + view.height.toNat) ⌈/⌉ height + overscan)⟩
        top := (first / height - overscan) * height
        extent := rows.count * height } := by
  intro height first
  have reached : ExactLayout.Reached rows := fits
  have seen : (visibleRange rows view).start < (visibleRange rows view).stop :=
    visibleRange_start_lt_stop (laysOut fits) (ExactLayout.fits reached)
      (Nat.ne_of_gt (rows.length_sizes.symm ▸ some)) high
  have extent : RowLayout.extent rows = rows.count * height :=
    (extent_eq fits).trans (Nat.mul_comm _ _)
  have clamp : clampOffset rows view.height view.offset = first := by
    rw [clampOffset, scrollLimit, extent]
  have range := visibleRange_eq_quotients some fits high
  rw [clamp] at range
  rw [range] at seen
  have inside : first / height < rows.count := Nat.lt_of_lt_of_le seen (Nat.min_le_left _ _)
  have top : RowLayout.start rows (first / height - overscan) =
      (first / height - overscan) * height := by
    rw [start_eq fits, Nat.min_eq_left (by omega), Nat.mul_comm]
  rw [windowAt_eq (range ▸ seen), range, extent, Window.mk.injEq, RowRange.mk.injEq]
  refine ⟨⟨rfl, ?_⟩, top, rfl⟩
  show min (min rows.count ((first + view.height.toNat) ⌈/⌉ height) + overscan) rows.count =
    min rows.count ((first + view.height.toNat) ⌈/⌉ height + overscan)
  omega

/-- Three rows of height `7` in a viewport that is scrolled too far, and in one that is higher. -/
theorem windowAt_eq_quotients_threeRows :
    let rows : UniformRows := ⟨3, 7, by decide⟩
    windowAt rows ⟨90, 10⟩ 0 = { range := ⟨1, 3⟩, top := 7, extent := 21 } ∧
      windowAt rows ⟨90, 50⟩ 2 = { range := ⟨0, 3⟩, top := 0, extent := 21 } := by
  intro rows
  have some : 0 < rows.count := by decide
  have fits : rows.height.toNat * rows.count ≤ Offset.limit := by decide
  have low : windowAt rows ⟨90, 10⟩ 0 = _ := windowAt_eq_quotients some fits (by decide) 0
  have high : windowAt rows ⟨90, 50⟩ 2 = _ := windowAt_eq_quotients some fits (by decide) 2
  exact ⟨low.trans (by decide), high.trans (by decide)⟩

end UniformRows

end Windowing
