import Windowing.Number.Binary64

/-!
# Viewports

The visible part of the track: how far it is scrolled, and how high it is.
-/

namespace Windowing

/-- A scroll position and the height of the visible part. -/
structure Viewport where
  offset : Nat := 0
  height : UInt32 := 0
  deriving DecidableEq, Repr

namespace Viewport

/-- The first pixel below the viewport. -/
def stop (view : Viewport) : Nat := Offset.add view.offset view.height.toNat

/-- The viewport a host reports. -/
def ofHost (offset height : Binary64) : Viewport := ⟨offset.toOffset, height.toHeight⟩

end Viewport

end Windowing
