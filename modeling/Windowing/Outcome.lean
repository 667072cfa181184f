import Windowing.Window

/-!
# Outcomes

What an operation on a list leaves behind: the list after it, the answer to
the caller, and the windows that the listener for new windows was given.
-/

namespace Windowing

/-- A state, an answer, and the windows announced on the way. -/
structure Outcome (S α : Type) where
  state : S
  reply : α
  notified : List Window := []
  deriving DecidableEq, Repr

namespace Outcome

variable {S T α β : Type}

/-- Changes the answer. -/
def map (f : α → β) (o : Outcome S α) : Outcome S β := { o with reply := f o.reply }

/-- Changes the state. -/
def mapState (f : S → T) (o : Outcome S α) : Outcome T α := { o with state := f o.state }

end Outcome

end Windowing
