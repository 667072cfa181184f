import Windowing.SetupError

/-!
# List options

How many rows a list keeps ready around the viewport, when it counts as no
longer scrolling, and whether it announces new windows.
-/

namespace Windowing

/-- The settings of a windowed list. -/
structure Options where
  /-- The number of rows kept ready past each edge of the viewport. -/
  overscan : Nat := 3
  /-- The number of milliseconds without a scroll after which scrolling ends. -/
  settleDelay : Nat := 150
  /-- Whether a listener is told of each new window. -/
  announces : Bool := false
  deriving DecidableEq, Repr

namespace Options

/-- Sets the overscan from a signed number, which may not be negative. -/
def withSignedOverscan (options : Options) (overscan : Int) : Except SetupError Options :=
  (checkOverscan overscan).map fun overscan => { options with overscan }

end Options

end Windowing
