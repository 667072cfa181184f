/-!
# Frames

What a list draws in one pass: its rows, each at its place on the track, or a
message when there are none.
-/

namespace Windowing

/-- A drawn row and its place on the track. -/
structure PlacedRow (ν : Type) where
  index : Nat
  start : Nat
  size : UInt32
  node : ν
  deriving DecidableEq, Repr

/-- The result of drawing a list. -/
inductive Frame (ν : Type) where
  /-- The rows of the window. A host puts each at its start, or stacks them
  and moves the block to `top`. -/
  | rows (extent top : Nat) (rows : List (PlacedRow ν))
  /-- There is nothing to show but a message. -/
  | empty (message : String)
  deriving DecidableEq, Repr

namespace Frame

/-- The drawn rows. -/
def placed {ν : Type} : Frame ν → List (PlacedRow ν)
  | rows _ _ placed => placed
  | empty _ => []

/-- Whether the message is shown in place of rows. -/
def isEmpty {ν : Type} : Frame ν → Bool
  | rows .. => false
  | empty _ => true

end Frame

end Windowing
