import Windowing.WindowedList.Basic

/-!
# Actions on windowed lists

The operations on a windowed list as data, so that what a program does to a
list is a list of actions.
-/

namespace Windowing

/-- An operation with its arguments. -/
inductive Action (σ : Type) where
  | setOffset (offset : Nat)
  | setHeight (height : UInt32)
  | setFrame (height : UInt32) (offset : Nat)
  | scroll (offset now : Nat)
  | settle (now : Nat)
  | reveal (row : Nat) (align : Align)
  | setOverscan (overscan : Nat)
  | resize (count : Nat)
  | setRows (rows : σ)
  | publish
  | measure (row : Nat) (size : UInt32)
  | forget (row : Nat)
  | recordAll (entries : List (Nat × Option UInt32))
  | forgetAll
  deriving DecidableEq, Repr

/-- The answer to an action. -/
inductive Reply where
  /-- The window, when a new one was published. -/
  | window (published : Option Window)
  /-- Whether scrolling ended. -/
  | settled (ended : Bool)
  /-- The scroll position a row was revealed at. -/
  | offset (offset : Nat)
  deriving DecidableEq, Repr

namespace WindowedList

variable {σ : Type} [Refinable σ]

/-- Carries out one action. -/
def act (l : WindowedList σ) : Action σ → Outcome (WindowedList σ) Reply
  | .setOffset offset => (l.setOffset offset).map .window
  | .setHeight height => (l.setHeight height).map .window
  | .setFrame height offset => (l.setFrame height offset).map .window
  | .scroll offset now => (l.scroll offset now).map .window
  | .settle now => (l.settle now).map .settled
  | .reveal row align => (l.reveal row align).map .offset
  | .setOverscan overscan => (l.setOverscan overscan).map .window
  | .resize count => (l.resize count).map .window
  | .setRows rows => (l.setRows rows).map .window
  | .publish => l.publish.map .window
  | .measure row size => (l.measure row size).map .window
  | .forget row => (l.forget row).map .window
  | .recordAll entries => (l.recordAll entries).map .window
  | .forgetAll => l.forgetAll.map .window

/-- The list after a sequence of actions. -/
def run (l : WindowedList σ) (actions : List (Action σ)) : WindowedList σ :=
  actions.foldl (fun l action => (l.act action).state) l

end WindowedList

end Windowing
