import Windowing.Window

/-!
# Measuring drawn rows

The ways a row cannot be measured, and the report of a pass over all rows of a
window. A row that fails keeps its estimate and does not disturb the others.
-/

namespace Windowing

/-- Why a row has no measured size. -/
inductive MeasureFailure where
  /-- The row's node is not in the container. -/
  | detached (row : Nat)
  /-- The row has no height. -/
  | zeroHeight (row : Nat)
  /-- The host failed in some other way. -/
  | host (row : Nat) (reason : String)
  deriving DecidableEq, Repr

namespace MeasureFailure

/-- The row that failed. -/
def row : MeasureFailure → Nat
  | detached row => row
  | zeroHeight row => row
  | host row _ => row

/-- The text shown for a failure. -/
def message : MeasureFailure → String
  | detached row => "row " ++ toString row ++ " is not attached to the host"
  | zeroHeight row => "row " ++ toString row ++ " measured as zero height"
  | host row reason => "measuring row " ++ toString row ++ " failed: " ++ reason

end MeasureFailure

/-- The verdict on what a host answered for a row: no row has height zero. -/
def checkMeasured (row : Nat) : Except MeasureFailure UInt32 → Except MeasureFailure UInt32
  | .ok size => if size = 0 then .error (.zeroHeight row) else .ok size
  | .error failure => .error failure

/-- What a pass over the rows of a window did. -/
structure MeasureReport where
  /-- The window, when a new one was published. -/
  window : Option Window := none
  /-- The number of rows whose measured size was taken. -/
  measured : Nat := 0
  /-- The rows that fell back to their estimate. -/
  failures : List MeasureFailure := []
  /-- The position the container was scrolled to, when it was. -/
  scrolledTo : Option Nat := none
  deriving DecidableEq, Repr

end Windowing
