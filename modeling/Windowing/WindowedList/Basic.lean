import Windowing.Options
import Windowing.Outcome
import Windowing.Reveal

/-!
# Windowed lists

A windowed list holds a row layout and a viewport and remembers the window it
published last. Every change computes the window anew, and publishes it only
when it differs from the last one, so that a host draws again only when it
has to.

When a measurement changes the size of a row that starts above the viewport,
the scroll position moves by the same amount, and the rows on screen stay
where they are.
-/

namespace Windowing

/-- The way a list was scrolled last. -/
inductive Direction where
  | forward
  | backward
  deriving DecidableEq, Repr

/-- A row layout seen through a viewport. -/
structure WindowedList (σ : Type) where
  rows : σ
  options : Options
  view : Viewport
  /-- The window published last. -/
  published : Window
  /-- The time of the latest scroll by the user, while scrolling lasts. -/
  lastScroll : Option Nat := none
  direction : Option Direction := none
  deriving DecidableEq, Repr

namespace WindowedList

variable {σ : Type}

/-! ## Views -/

section

variable [RowLayout σ]

/-- A list at rest, with its first window published. -/
def ofRows (rows : σ) (options : Options) (view : Viewport := {}) : WindowedList σ :=
  { rows, options, view, published := windowAt rows view options.overscan }

/-- The number of rows. -/
def count (l : WindowedList σ) : Nat := RowLayout.count l.rows

/-- The length of the track. -/
def extent (l : WindowedList σ) : Nat := RowLayout.extent l.rows

/-- The rows that meet the viewport. -/
def visible (l : WindowedList σ) : RowRange := visibleRange l.rows l.view

/-- The window of the current rows, viewport and overscan. -/
def currentWindow (l : WindowedList σ) : Window := windowAt l.rows l.view l.options.overscan

end

/-- Whether the user is scrolling. -/
def isScrolling (l : WindowedList σ) : Bool := l.lastScroll.isSome

/-! ## Publishing -/

/-- Publishes the current window. It is news, and is returned, only when it is
not the published window already. -/
def publish [RowLayout σ] (l : WindowedList σ) : Outcome (WindowedList σ) (Option Window) :=
  let current := l.currentWindow
  let news := if current = l.published then none else some current
  { state := { l with published := current }
    reply := news
    notified := if l.options.announces then news.toList else [] }

/-- A list whose published window is current has nothing to publish. -/
theorem publish_of_current [RowLayout σ] {l : WindowedList σ} (h : l.currentWindow = l.published) :
    l.publish = ⟨l, none, []⟩ := by
  simp [publish, h]

/-! ## Scrolling -/

/-- The list at another scroll position, and the direction of that move. -/
def movedTo (l : WindowedList σ) (offset : Nat) : WindowedList σ :=
  { l with
    view := { l.view with offset }
    direction :=
      if l.view.offset < offset then some .forward
      else if offset < l.view.offset then some .backward
      else l.direction }

/-- The list with a viewport of another height. -/
def withHeight (l : WindowedList σ) (height : UInt32) : WindowedList σ :=
  { l with view := { l.view with height } }

/-- Ends scrolling once the delay has passed since the latest scroll; tells
whether it ended just now. -/
def settle (l : WindowedList σ) (now : Nat) : Outcome (WindowedList σ) Bool :=
  match l.lastScroll with
  | none => ⟨l, false, []⟩
  | some last =>
    if now - last < l.options.settleDelay then ⟨l, false, []⟩
    else ⟨{ l with lastScroll := none, direction := none }, true, []⟩

section

variable [RowLayout σ]

/-- Scrolls to a position. -/
def setOffset (l : WindowedList σ) (offset : Nat) : Outcome (WindowedList σ) (Option Window) :=
  (l.movedTo offset).publish

/-- Changes the height of the viewport. -/
def setHeight (l : WindowedList σ) (height : UInt32) : Outcome (WindowedList σ) (Option Window) :=
  (l.withHeight height).publish

/-- Changes height and position together and publishes once. -/
def setFrame (l : WindowedList σ) (height : UInt32) (offset : Nat) :
    Outcome (WindowedList σ) (Option Window) :=
  ((l.withHeight height).movedTo offset).publish

/-- Scrolls to a position at the hand of the user. -/
def scroll (l : WindowedList σ) (offset now : Nat) : Outcome (WindowedList σ) (Option Window) :=
  ({ l with lastScroll := some now }.movedTo offset).publish

/-- Scrolls a row into view and returns the scroll position. -/
def reveal (l : WindowedList σ) (row : Nat) (align : Align) : Outcome (WindowedList σ) Nat :=
  let offset := revealOffset l.rows l.view row align
  (l.setOffset offset).map fun _ => offset

/-! ## Rows and options -/

/-- Changes the number of rows kept ready past each edge. -/
def setOverscan (l : WindowedList σ) (overscan : Nat) :
    Outcome (WindowedList σ) (Option Window) :=
  { l with options := { l.options with overscan } }.publish

/-- Changes the number of rows. -/
def resize (l : WindowedList σ) (count : Nat) : Outcome (WindowedList σ) (Option Window) :=
  if l.count = count then ⟨l, none, []⟩
  else { l with rows := RowLayout.resize l.rows count }.publish

/-- Changes the layout. -/
def setRows (l : WindowedList σ) (rows : σ) : Outcome (WindowedList σ) (Option Window) :=
  { l with rows }.publish

end

/-! ## Measurements -/

section

variable [Refinable σ]

/-- Records one measurement, or with `none` drops it. The start of the row is
taken before the change; a row that starts above the scroll position takes the
position along. -/
def record (l : WindowedList σ) (row : Nat) (size : Option UInt32) : WindowedList σ :=
  let start := RowLayout.start l.rows row
  let (rows, delta) := Refinable.record l.rows row size
  let offset :=
    if delta ≠ 0 ∧ start < l.view.offset then Offset.shift l.view.offset delta
    else l.view.offset
  { l with rows, view := { l.view with offset } }

/-- Records the measured size of a row. -/
def measure (l : WindowedList σ) (row : Nat) (size : UInt32) :
    Outcome (WindowedList σ) (Option Window) :=
  (l.record row (some size)).publish

/-- Drops the measurement of a row. -/
def forget (l : WindowedList σ) (row : Nat) : Outcome (WindowedList σ) (Option Window) :=
  (l.record row none).publish

/-- Records measurements one after another and publishes once. -/
def recordAll (l : WindowedList σ) (entries : List (Nat × Option UInt32)) :
    Outcome (WindowedList σ) (Option Window) :=
  (entries.foldl (fun l entry => l.record entry.1 entry.2) l).publish

/-- Drops every measurement; does nothing when the layout keeps none. -/
def forgetAll (l : WindowedList σ) : Outcome (WindowedList σ) (Option Window) :=
  match Refinable.forgetAll? l.rows with
  | none => ⟨l, none, []⟩
  | some rows => { l with rows }.publish

end

end WindowedList

end Windowing
