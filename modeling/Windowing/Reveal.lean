import Windowing.Window

/-!
# Scrolling a row into view

The scroll position that brings a given row into the viewport, for each place
in the viewport where the row may land.
-/

namespace Windowing

/-- Where in the viewport a revealed row lands. -/
inductive Align where
  /-- The row begins where the viewport begins. -/
  | top
  /-- The middle of the row is in the middle of the viewport. -/
  | middle
  /-- The row ends where the viewport ends. -/
  | bottom
  /-- The viewport stays when the whole row is visible already, and otherwise
  goes to the nearer of `top` and `bottom`. -/
  | nearest
  deriving DecidableEq, Repr

instance : Inhabited Align := ⟨.nearest⟩

/-- The scroll position that puts the pixels `start, …, stop - 1` of a row of
`size` at the place `align`, before the limits of the list are considered. -/
def Align.target (align : Align) (view : Viewport) (start size stop : Nat) : Nat :=
  match align with
  | .top => start
  | .bottom => stop - view.height.toNat
  | .middle => Offset.add start (size / 2) - view.height.toNat / 2
  | .nearest =>
    if view.offset ≤ start ∧ stop ≤ view.stop then view.offset
    else if start < view.offset then start
    else stop - view.height.toNat

/-- The scroll position that reveals a row. A row past the end stands for the
last one, and a list without rows is scrolled to `0`. -/
def revealOffset {σ : Type} [RowLayout σ] (rows : σ) (view : Viewport) (row : Nat)
    (align : Align) : Nat :=
  let count := RowLayout.count rows
  if count = 0 then 0
  else
    let row := min row (count - 1)
    let start := RowLayout.start rows row
    let size := (RowLayout.size rows row).toNat
    clampOffset rows view.height (align.target view start size (Offset.add start size))

end Windowing
