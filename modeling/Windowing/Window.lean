import Windowing.Rows.Layout
import Windowing.Viewport

/-!
# The window of a viewport

Which rows a viewport shows, and which rows are kept ready around them. The
scroll position is first cut down to the greatest one at which the rows still
fill the viewport, so that a position past the end (an elastic bounce, a list
that has shrunk) has a window too.
-/

namespace Windowing

/-! ## Row ranges and windows -/

/-- The rows `start, …, stop - 1`. -/
structure RowRange where
  start : Nat := 0
  stop : Nat := 0
  deriving DecidableEq, Repr

namespace RowRange

/-- Whether the range has no row. -/
def isEmpty (range : RowRange) : Bool := decide (range.stop ≤ range.start)

/-- The number of rows in the range. -/
def length (range : RowRange) : Nat := range.stop - range.start

/-- The rows of the range, in order. -/
def rows (range : RowRange) : List Nat := List.range' range.start range.length

theorem mem_rows {range : RowRange} {row : Nat} :
    row ∈ range.rows ↔ range.start ≤ row ∧ row < range.stop := by
  rw [rows, List.mem_range'_1, length]
  omega

end RowRange

/-- The rows kept ready for one viewport, and where they lie. -/
structure Window where
  /-- The rows, those around the viewport included. -/
  range : RowRange := {}
  /-- The first pixel of the first row. -/
  top : Nat := 0
  /-- The length of the whole track. -/
  extent : Nat := 0
  deriving DecidableEq, Repr

/-! ## From a viewport to a window -/

section

variable {σ : Type} [RowLayout σ]

/-- The greatest scroll position at which the rows fill a viewport of `height`. -/
def scrollLimit (rows : σ) (height : UInt32) : Nat := RowLayout.extent rows - height.toNat

/-- A scroll position cut down to the scroll limit. -/
def clampOffset (rows : σ) (height : UInt32) (offset : Nat) : Nat :=
  min offset (scrollLimit rows height)

/-- The rows that meet the viewport: from the row at its first pixel to the row
at its last. Rows without any extent all fit. -/
def visibleRange (rows : σ) (view : Viewport) : RowRange :=
  let count := RowLayout.count rows
  if count = 0 ∨ view.height = 0 then {}
  else if RowLayout.extent rows = 0 then ⟨0, count⟩
  else
    let first := clampOffset rows view.height view.offset
    let last := Offset.add first (view.height.toNat - 1)
    let start := (RowLayout.rowAt rows first).getD 0
    let stop := ((RowLayout.rowAt rows last).map (· + 1)).getD count
    ⟨start, max stop start⟩

/-- The rows that meet the viewport and `overscan` more on either side. -/
def windowAt (rows : σ) (view : Viewport) (overscan : Nat) : Window :=
  let extent := RowLayout.extent rows
  let visible := visibleRange rows view
  if visible.isEmpty then { extent }
  else
    let start := visible.start - overscan
    { range := ⟨start, min (visible.stop + overscan) (RowLayout.count rows)⟩
      top := RowLayout.start rows start
      extent }

end

end Windowing
