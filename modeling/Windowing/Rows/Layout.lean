/-!
# Row layouts

A row layout says where each row of a list lies on the vertical track. The
range computation asks for nothing else, so a list can change from rows of one
height to measured rows without any other change.
-/

namespace Windowing

/-- The answers a layout gives about its rows. -/
class RowLayout (σ : Type) where
  /-- The number of rows. -/
  count : σ → Nat
  /-- The length of the track: the sum of all row sizes. -/
  extent : σ → Nat
  /-- The first pixel of a row; the end of the track for a row past the end. -/
  start : σ → Nat → Nat
  /-- The size of a row; `0` past the end. -/
  size : σ → Nat → UInt32
  /-- The row that holds a pixel: the last row for a pixel past the end,
  `none` when there are no rows. -/
  rowAt : σ → Nat → Option Nat
  /-- The layout with another number of rows. -/
  resize : σ → Nat → σ

/-- A layout that can take measured sizes. -/
class Refinable (σ : Type) extends RowLayout σ where
  /-- Records the measured size of a row, or with `none` drops it, and returns
  the change of the row's size. -/
  record : σ → Nat → Option UInt32 → σ × Int
  /-- Drops every measurement; `none` when the layout keeps none. -/
  forgetAll? : σ → Option σ

end Windowing
