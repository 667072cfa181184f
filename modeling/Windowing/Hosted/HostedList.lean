import Windowing.Config
import Windowing.Hosted.Container
import Windowing.Hosted.Frame
import Windowing.Hosted.Measurement
import Windowing.WindowedList.Basic

/-!
# Lists in a container

A hosted list is a windowed list over a snapshot of items, mounted in a scroll
container. It registers one listener, which it gives back when it is unmounted
or closed. Scroll and resize events go in, windows come out, and drawing turns
the published window into a frame with one row per index.

The container is passed to every operation that touches it and returned with
the result, so several lists can share one.
-/

namespace Windowing

/-- A list of items mounted in a container. -/
structure HostedList (ι : Type) where
  /-- The registered listener, until the list is unmounted. -/
  listener : Option Listener
  items : Array ι
  list : WindowedList Rows
  emptyMessage : String

namespace HostedList

variable {ι η : Type}

/-! ## Mounting -/

/-- Mounts items with a layout, which is first given one row per item. -/
def mountRows [Container η] (host : η) (items : Array ι) (rows : Rows) (options : Options)
    (emptyMessage : String) : HostedList ι × η :=
  let rows := if RowLayout.count rows = items.size then rows else RowLayout.resize rows items.size
  let view := Viewport.ofHost (Container.offset host) (Container.height host)
  let (listener, host) := Container.subscribe host
  ({ listener := some listener, items, list := .ofRows rows options view, emptyMessage }, host)

/-- Mounts items as a configuration says. When it is rejected the container is
left alone. -/
def mount [Container η] (host : η) (items : Array ι) (config : Config) :
    Except SetupError (HostedList ι) × η :=
  match config.rows items.size, config.options with
  | .error e, _ => (.error e, host)
  | .ok _, .error e => (.error e, host)
  | .ok rows, .ok options =>
    let (l, host) := mountRows host items rows options config.emptyMessage
    (.ok l, host)

/-- Whether the list still has its listener. -/
def isMounted (l : HostedList ι) : Bool := l.listener.isSome

/-- Gives the listener back. A second time changes nothing. -/
def unmount [Container η] (l : HostedList ι) (host : η) : HostedList ι × η :=
  match l.listener with
  | none => (l, host)
  | some listener => ({ l with listener := none }, Container.unsubscribe host listener)

/-- Ends the life of the list: the container without its listener. -/
def close [Container η] (l : HostedList ι) (host : η) : η := (l.unmount host).2

/-! ## Events and changes -/

/-- Applies the outcome of an operation on the windowed list. -/
def withList {α : Type} (l : HostedList ι) (outcome : Outcome (WindowedList Rows) α) :
    Outcome (HostedList ι) α :=
  outcome.mapState fun list => { l with list }

/-- Takes an event from the container. An unmounted list ignores it. -/
def receive (l : HostedList ι) (event : HostEvent) : Outcome (HostedList ι) (Option Window) :=
  if l.isMounted then
    match event with
    | .scroll offset now => l.withList (l.list.scroll offset.toOffset now)
    | .resize height => l.withList (l.list.setHeight height.toHeight)
  else ⟨l, none, []⟩

/-- Ends scrolling once the delay has passed; tells whether it ended just now. -/
def settle (l : HostedList ι) (now : Nat) : Outcome (HostedList ι) Bool :=
  l.withList (l.list.settle now)

/-- Takes a new snapshot of the items. The rows may look different even when
no new window is published. -/
def setItems (l : HostedList ι) (items : Array ι) : Outcome (HostedList ι) (Option Window) :=
  { l with items }.withList (l.list.resize items.size)

/-- Scrolls the list and the container so that a row is in view. -/
def reveal [Container η] (l : HostedList ι) (host : η) (row : Nat) (align : Align) :
    Outcome (HostedList ι × η) Nat :=
  let outcome := l.withList (l.list.reveal row align)
  outcome.mapState fun l => (l, Container.scrollTo host (.ofNat outcome.reply))

/-! ## Drawing -/

/-- Draws the row of one index; nothing for an index without an item. -/
def drawRow {m : Type → Type} [Monad m] {ν : Type} (l : HostedList ι) (node : ι → Nat → m ν)
    (index : Nat) : m (Option (PlacedRow ν)) :=
  match l.items[index]? with
  | none => pure none
  | some item => do
    let start := RowLayout.start l.list.rows index
    let size := RowLayout.size l.list.rows index
    return some { index, start, size, node := ← node item index }

/-- Draws the published window, row after row, or the message when there are no
items. -/
def draw {m : Type → Type} [Monad m] {ν : Type} (l : HostedList ι) (node : ι → Nat → m ν) :
    m (Frame ν) :=
  let window := l.list.published
  if l.items.isEmpty then pure (.empty l.emptyMessage)
  else do
    let rows ← window.range.rows.mapM (l.drawRow node)
    return .rows window.extent window.top (rows.filterMap id)

/-! ## Measuring -/

/-- Puts the answers for the rows of the window, in row order, into the list,
and scrolls the container when the scroll position moved. -/
def applyMeasurements [Container η] (l : HostedList ι) (host : η)
    (answers : List (Nat × Except MeasureFailure UInt32)) :
    Outcome (HostedList ι × η) MeasureReport :=
  let verdicts := answers.map fun answer => (answer.1, checkMeasured answer.1 answer.2)
  let outcome := l.list.recordAll (verdicts.map fun verdict => (verdict.1, verdict.2.toOption))
  let offset := outcome.state.view.offset
  let moved := decide (offset ≠ l.list.view.offset)
  { state :=
      ({ l with list := outcome.state },
        if moved then Container.scrollTo host (.ofNat offset) else host)
    reply :=
      { window := outcome.reply
        measured := verdicts.countP (·.2.isOk)
        failures := verdicts.filterMap fun verdict =>
          match verdict.2 with
          | .ok _ => none
          | .error failure => some failure
        scrolledTo := if moved then some offset else none }
    notified := outcome.notified }

/-- Measures the rows of the published window, in order. Rows of one height are
not measured. -/
def measureWindow [Container η] {m : Type → Type} [Monad m]
    (ask : Nat → m (Except MeasureFailure UInt32)) (l : HostedList ι) (host : η) :
    m (Outcome (HostedList ι × η) MeasureReport) :=
  match l.list.rows.measured? with
  | none => pure ⟨(l, host), {}, []⟩
  | some _ => do
    let answers ← l.list.published.range.rows.mapM fun row => do return (row, ← ask row)
    return l.applyMeasurements host answers

/-- Measures the published window again and again, at most `passes` times,
until a pass publishes none. Returns the window published last. -/
def stabilize [Container η] {m : Type → Type} [Monad m]
    (ask : Nat → m (Except MeasureFailure UInt32)) (l : HostedList ι) (host : η) :
    (passes : Nat) → m (Outcome (HostedList ι × η) (Option Window))
  | 0 => pure ⟨(l, host), none, []⟩
  | passes + 1 => do
    let pass ← measureWindow ask l host
    match pass.reply.window with
    | none => return pass.map fun _ => none
    | some window =>
      let rest ← stabilize ask pass.state.1 pass.state.2 passes
      return { rest with
        reply := rest.reply.or (some window), notified := pass.notified ++ rest.notified }

end HostedList

end Windowing
