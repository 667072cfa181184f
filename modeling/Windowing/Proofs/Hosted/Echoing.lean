import Windowing.Proofs.Hosted.Mounted
import Windowing.Proofs.Number.Rounding

/-!
# A list and its container scroll together

The scroll position is kept twice, as a number by the container and as an offset by the
list, and either of the two can move first. When the user scrolls the container, the
container tells the list. When the list is moved by a jump or a measurement, it scrolls
the container. A container that reports a position which the list does not have would
make it jump.

The container may have been told an offset that is no number and gone to the nearest one.
So the invariant is that it is where the list is, or on that number (`Agrees`). For
offsets up to two to the power `53` there is no difference.

Results:
1. `agrees_operate`: one operation keeps the two together.
2. `receive_echo`: a list ignores the report of the position it has.
3. `run_echoes`: so the two are together after every run.
-/

namespace Windowing

/-! ## Containers that obey -/

/-- A container that goes exactly where it is scrolled to, and does not move when it is
listened to. -/
class ObedientContainer (η : Type) [Container η] : Prop where
  offset_scrollTo : ∀ (host : η) (offset : Binary64),
    Container.offset (Container.scrollTo host offset) = offset
  offset_subscribe : ∀ host : η,
    Container.offset (Container.subscribe host).2 = Container.offset host

instance : ObedientContainer PlainHost where
  offset_scrollTo _ _ := rfl
  offset_subscribe _ := rfl

section

variable {ι η : Type} [Container η]

/-- What an operation finds in place of the container that the last one left. When the
list is told of a scroll, the container may be anywhere; it reports where it is now.
Otherwise it has not been scrolled since. The list is not unmounted. -/
def Operation.Reports (left found : η) : Operation ι → Prop
  | receive (.scroll offset _) => offset = Container.offset found
  | unmount => False
  | _ => Container.offset found = Container.offset left

end

/-! ## What does not move a list -/

namespace WindowedList

variable {σ : Type}

theorem view_settle (l : WindowedList σ) (now : Nat) : (l.settle now).state.view = l.view := by
  unfold settle
  split
  · rfl
  · split <;> rfl

variable [RowLayout σ]

theorem view_resize (l : WindowedList σ) (count : Nat) : (l.resize count).state.view = l.view := by
  unfold resize
  split <;> rfl

/-- To scroll a list to where it is only marks it as scrolling. -/
theorem scroll_of_current {l : WindowedList σ} (current : l.published = l.currentWindow)
    (now : Nat) :
    l.scroll l.view.offset now = ⟨{ l with lastScroll := some now }, none, []⟩ := by
  have stays : { l with lastScroll := some now }.movedTo l.view.offset =
      { l with lastScroll := some now } := by
    unfold movedTo
    rw [if_neg (Nat.lt_irrefl _), if_neg (Nat.lt_irrefl _)]
  unfold scroll
  rw [stays]
  exact publish_of_current current.symm

end WindowedList

namespace HostedList

variable {ι η s : Type} [Container η] {message : String}

/-! ## Lists and their containers -/

/-- A list and the container that it was mounted in, from an accepted configuration or
with a layout of any kind. -/
inductive MountedIn (message : String) : HostedList ι × η → Prop
  | ofConfig {host host' : η} {items : Array ι} {config : Config} {l : HostedList ι} :
      mount host items config = (.ok l, host') → config.emptyMessage = message →
        MountedIn message (l, host')
  | ofRows (host : η) (items : Array ι) (rows : Rows) (options : Options) :
      MountedIn message (mountRows host items rows options message)

/-- A list and its container after some operations, each with the container it finds. -/
def runIn (start : HostedList ι × η) (steps : List (η × Operation ι)) : HostedList ι × η :=
  steps.foldl (fun now step => now.1.operate step.1 step.2) start

/-- Each operation of a run finds a container that reports its moves. -/
def ReportedAlong : HostedList ι × η → List (η × Operation ι) → Prop
  | _, [] => True
  | now, step :: steps =>
    step.2.Reports now.2 step.1 ∧ ReportedAlong (now.1.operate step.1 step.2) steps

/-- The container is where the list is, or on the number nearest to it. -/
def Agrees (l : HostedList ι) (host : η) : Prop :=
  (Container.offset host).toOffset = l.list.view.offset ∨
    Container.offset host = .ofNat l.list.view.offset

theorem runIn_fst (start : HostedList ι × η) (steps : List (η × Operation ι)) :
    (runIn start steps).1 = start.1.run steps := by
  induction steps generalizing start with
  | nil => rfl
  | cons step steps ih => exact ih (start.1.operate step.1 step.2)

theorem MountedIn.mounted {start : HostedList ι × η} (mounted : MountedIn message start) :
    Mounted η message start.1 := by
  cases mounted with
  | ofConfig accepted same => exact .ofConfig accepted same
  | ofRows host items rows options => exact .ofRows host items rows options

/-- Mounting leaves a container as it is after a listener was registered. -/
theorem MountedIn.exists_subscribe {start : HostedList ι × η} (mounted : MountedIn message start) :
    ∃ host : η, start.2 = (Container.subscribe host).2 ∧ start.1.isMounted ∧
      start.1.list.view.offset = (Container.offset host).toOffset := by
  cases mounted with
  | @ofConfig host host' items config l accepted same =>
    obtain ⟨rows, options, _, _, rfl, rfl⟩ := mount_eq_mountRows accepted
    exact ⟨host, rfl, rfl, rfl⟩
  | ofRows host items rows options => exact ⟨host, rfl, rfl, rfl⟩

/-! ## One operation -/

section

variable {l : HostedList ι} {left found : η}

theorem Agrees.toOffset_eq {host : η} (agrees : l.Agrees host)
    (exact : l.list.view.offset ≤ 2 ^ 53) :
    (Container.offset host).toOffset = l.list.view.offset := by
  rcases agrees with same | nearest
  · exact same
  · rw [nearest, Binary64.toOffset_ofNat exact]

/-- Where the list and the container are decides alone whether they agree. -/
theorem Agrees.of_offset_eq (agrees : l.Agrees left) {l' : HostedList ι}
    (list : l'.list.view.offset = l.list.view.offset)
    (container : Container.offset found = Container.offset left) : l'.Agrees found := by
  unfold Agrees
  rw [list, container]
  exact agrees

variable [ObedientContainer η]

theorem agrees_measureWindow {host : η} (agrees : l.Agrees host)
    (ask : Nat → StateM s (Except MeasureFailure UInt32)) (asker : s) :
    let pass := ((measureWindow ask l host).run asker).run.1
    pass.state.1.Agrees pass.state.2 := by
  intro pass
  have container := (scroll_measureWindow l host ask asker).1
  by_cases stays : pass.state.1.list.view.offset = l.list.view.offset
  · rw [if_pos stays] at container
    exact agrees.of_offset_eq stays (congrArg Container.offset container)
  · rw [if_neg stays] at container
    have scrolled := ObedientContainer.offset_scrollTo host (.ofNat pass.state.1.list.view.offset)
    exact .inr ((congrArg Container.offset container).trans scrolled)

theorem agrees_stabilize {host : η} (agrees : l.Agrees host)
    (ask : Nat → StateM s (Except MeasureFailure UInt32)) (asker : s) (passes : Nat) :
    let last := ((stabilize ask l host passes).run asker).run.1
    last.state.1.Agrees last.state.2 := by
  induction passes generalizing l host asker with
  | zero => exact agrees
  | succ passes ih =>
    have pass := agrees_measureWindow agrees ask asker
    rw [run_stabilize_succ]
    dsimp only
    cases ((measureWindow ask l host).run asker).run.1.reply.window with
    | none => exact pass
    | some window => exact ih pass ((measureWindow ask l host).run asker).run.2

/-- Whichever of the two moves takes the other along. -/
theorem agrees_operate {op : Operation ι} (mounted : l.isMounted) (agrees : l.Agrees left)
    (reports : op.Reports left found) :
    (l.operate found op).1.Agrees (l.operate found op).2 := by
  cases op with
  | receive event =>
    show (l.receive event).state.Agrees found
    unfold receive
    rw [if_pos mounted]
    cases event with
    | scroll offset now => exact .inl (congrArg Binary64.toOffset reports).symm
    | resize height => exact agrees.of_offset_eq rfl reports
  | settle now =>
    exact agrees.of_offset_eq (congrArg Viewport.offset (l.list.view_settle now)) reports
  | setItems items =>
    exact agrees.of_offset_eq (congrArg Viewport.offset (l.list.view_resize items.size)) reports
  | reveal row align => exact .inr (ObedientContainer.offset_scrollTo found _)
  | measure ask asker => exact agrees_measureWindow (agrees.of_offset_eq rfl reports) ask asker
  | stabilize ask asker passes =>
    exact agrees_stabilize (agrees.of_offset_eq rfl reports) ask asker passes
  | unmount => exact reports.elim

omit [ObedientContainer η] in
theorem isMounted_operate {op : Operation ι} (mounted : l.isMounted)
    (reports : op.Reports left found) : (l.operate found op).1.isMounted := by
  rw [state_operate]
  cases op with
  | unmount => exact reports.elim
  | _ => exact mounted

end

/-! ## Runs -/

theorem agrees_runIn [ObedientContainer η] {start : HostedList ι × η}
    (mounted : start.1.isMounted) (agrees : start.1.Agrees start.2) {steps : List (η × Operation ι)}
    (reported : ReportedAlong start steps) :
    (runIn start steps).1.isMounted ∧ (runIn start steps).1.Agrees (runIn start steps).2 := by
  induction steps generalizing start with
  | nil => exact ⟨mounted, agrees⟩
  | cons step steps ih =>
    obtain ⟨first, rest⟩ := reported
    exact ih (isMounted_operate mounted first) (agrees_operate mounted agrees first) rest

theorem MountedIn.agrees [ObedientContainer η] {start : HostedList ι × η}
    (mounted : MountedIn message start) : start.1.Agrees start.2 := by
  obtain ⟨host, container, _, list⟩ := mounted.exists_subscribe
  left
  rw [container, list, ObedientContainer.offset_subscribe]

/-- A report of the position that the list has only tells it that the user scrolls. -/
theorem receive_echo {l : HostedList ι} (mounted : l.isMounted)
    (current : l.list.published = l.list.currentWindow) {offset : Binary64}
    (same : offset.toOffset = l.list.view.offset) (now : Nat) :
    l.receive (.scroll offset now) =
      ⟨{ l with list := { l.list with lastScroll := some now } }, none, []⟩ := by
  unfold receive
  rw [if_pos mounted]
  show l.withList (l.list.scroll offset.toOffset now) = _
  rw [same, WindowedList.scroll_of_current current]
  rfl

/-- After every run of a list whose container is obedient and reports its moves, the two
are at the same offset, if it is at most two to the power `53`. Then the report of the
container's position publishes nothing, and leaves the viewport, the window and the rows
as they are. A pass scrolls the container once, to the new offset that it tells of, if
it moves the list, and otherwise leaves the container alone. -/
theorem run_echoes [ObedientContainer η] {start : HostedList ι × η}
    (mounted : MountedIn message start) {steps : List (η × Operation ι)}
    (reported : ReportedAlong start steps) :
    let l := (runIn start steps).1
    let host := (runIn start steps).2
    (l.list.view.offset ≤ 2 ^ 53 →
      (Container.offset host).toOffset = l.list.view.offset ∧
      ∀ now, l.receive (.scroll (Container.offset host) now) =
        ⟨{ l with list := { l.list with lastScroll := some now } }, none, []⟩) ∧
    ∀ {s : Type} (ask : Nat → StateM s (Except MeasureFailure UInt32)) (asker : s),
      let pass := ((measureWindow ask l host).run asker).run.1
      let offset := pass.state.1.list.view.offset
      pass.state.2 =
          (if offset = l.list.view.offset then host else Container.scrollTo host (.ofNat offset)) ∧
        pass.reply.scrolledTo = if offset = l.list.view.offset then none else some offset := by
  intro l host
  obtain ⟨_, _, subscribed, _⟩ := mounted.exists_subscribe
  obtain ⟨listening, agrees⟩ := agrees_runIn subscribed mounted.agrees reported
  refine ⟨fun exact => ?_, fun ask asker => scroll_measureWindow l host ask asker⟩
  have current : l.list.published = l.list.currentWindow := by
    show (runIn start steps).1.list.published = (runIn start steps).1.list.currentWindow
    rw [runIn_fst]
    exact (sound_run mounted.mounted.sound steps).current
  have same : (Container.offset host).toOffset = l.list.view.offset := agrees.toOffset_eq exact
  exact ⟨same, receive_echo listening current same⟩

/-- Every row is `14` high. -/
def askTall (_ : Nat) : StateM Unit (Except MeasureFailure UInt32) := pure (.ok 14)

/-- The user scrolls a list of rows of an estimated height of `10` to `35`. When they are
measured, four of them start above, and both move to `51`. -/
theorem run_echoes_shifted :
    ∃ (start : HostedList Nat × PlainHost) (steps : List (PlainHost × Operation Nat)),
      MountedIn "No items" start ∧ ReportedAlong start steps ∧
        let l := (runIn start steps).1
        let host := (runIn start steps).2
        host.offset = .ofNat 51 ∧ l.list.view.offset = 51 ∧
          ∀ now, l.receive (.scroll host.offset now) =
            ⟨{ l with list := { l.list with lastScroll := some now } }, none, []⟩ := by
  let host : PlainHost := { height := .ofNat 20 }
  let scrolled : PlainHost := { host with offset := .ofNat 35 }
  obtain ⟨l, mounted, made⟩ : ∃ l mounted, mount host (Array.range 10)
      { estimatedHeight := some 10 } = (.ok l, mounted) := ⟨_, _, rfl⟩
  let steps : List (PlainHost × Operation Nat) :=
    [(scrolled, .receive (.scroll scrolled.offset 100)), (scrolled, .measure askTall ())]
  have reported : ReportedAlong (l, mounted) steps := ⟨rfl, rfl, trivial⟩
  obtain ⟨container, list⟩ : (runIn (l, mounted) steps).2.offset = .ofNat 51 ∧
      (runIn (l, mounted) steps).1.list.view.offset = 51 := by
    cases made
    decide +kernel
  obtain ⟨echoes, _⟩ := run_echoes (.ofConfig made rfl) reported
  have exact : (runIn (l, mounted) steps).1.list.view.offset ≤ 2 ^ 53 := by
    rw [list]
    decide
  exact ⟨(l, mounted), steps, .ofConfig made rfl, reported, container, list, (echoes exact).2⟩

end HostedList

end Windowing
