import Windowing.Number.Binary64

/-!
# Scroll containers

The part of a host that a list is mounted in: it reports its scroll position
and height as raw numbers, can be scrolled, and keeps scroll listeners.
-/

namespace Windowing

/-- The name a container gives to a registered scroll listener. -/
structure Listener where
  id : Nat
  deriving DecidableEq, Repr

/-- What a container can be asked and told. -/
class Container (η : Type) where
  /-- The scroll position. -/
  offset : η → Binary64
  /-- The height of the visible part. -/
  height : η → Binary64
  /-- Registers a scroll listener. -/
  subscribe : η → Listener × η
  /-- Removes a scroll listener. -/
  unsubscribe : η → Listener → η
  /-- Moves the scroll position. -/
  scrollTo : η → Binary64 → η

/-- What a container reports to a mounted list. -/
inductive HostEvent where
  /-- The user scrolled to a position at the time `now`. -/
  | scroll (offset : Binary64) (now : Nat)
  | resize (height : Binary64)
  deriving DecidableEq, Repr

end Windowing
