import Windowing.WindowedList.Action

/-!
# The published window is never stale

A windowed list answers with the window it published last, and computes a new
one only at the end of a change. This module shows that no change forgets to:

1. `act_publishes`: one action that starts from a current window ends with one,
   and tells of it exactly when it is another window.
2. `run_publishes`: so does every action of every run.

Nothing is assumed of the row layout. The answers of a layout may contradict
each other; the published window is still the one computed from them.
-/

namespace Windowing

/-- The actions that answer with a window when a new one was published. -/
def Action.ReturnsWindow {σ : Type} : Action σ → Prop
  | .settle _ | .reveal _ _ => False
  | _ => True

namespace WindowedList

variable {σ : Type}

/-- The window to tell of when `new` is published after `old`. -/
def news (old new : Window) : Option Window := if new ≠ old then some new else none

/-- The outcome `o` of a change of `l` ends with a current window and tells the
caller and the listener of it if it is new. -/
structure Publishes [RowLayout σ] (l : WindowedList σ)
    (o : Outcome (WindowedList σ) (Option Window)) : Prop where
  current : o.state.published = o.state.currentWindow
  announces_eq : o.state.options.announces = l.options.announces
  reply_eq : o.reply = news l.published o.state.published
  notified_eq : o.notified =
    if l.options.announces then (news l.published o.state.published).toList else []

/-! ## One change -/

section

variable [RowLayout σ] {l : WindowedList σ}

theorem Publishes.notified_eq_ite {o : Outcome (WindowedList σ) (Option Window)}
    (h : Publishes l o) :
    o.notified =
      if l.options.announces ∧ o.state.published ≠ l.published then [o.state.published] else [] := by
  rw [h.notified_eq, news]
  by_cases new : o.state.published = l.published <;> cases l.options.announces <;> simp [new]

/-- A change that ends with `publish` and left the published window alone until
then publishes. -/
theorem publishes_publish {m : WindowedList σ} (same : m.published = l.published)
    (announces : m.options.announces = l.options.announces) : Publishes l m.publish where
  current := rfl
  announces_eq := announces
  reply_eq := by
    show (if m.currentWindow = m.published then none else some m.currentWindow) = _
    rw [news, same]
    exact (ite_not _ _ _).symm
  notified_eq := by
    show (if m.options.announces then
      (if m.currentWindow = m.published then none else some m.currentWindow).toList else []) = _
    rw [announces, news, same]
    exact congrArg (fun told => if l.options.announces then Option.toList told else [])
      (ite_not _ _ _).symm

theorem publishes_unchanged (current : l.published = l.currentWindow) :
    Publishes l ⟨l, none, []⟩ where
  current := current
  announces_eq := rfl
  reply_eq := by rw [news, if_neg (not_not_intro rfl)]
  notified_eq := by
    rw [news, if_neg (not_not_intro rfl)]
    split <;> rfl

theorem publishes_resize (current : l.published = l.currentWindow) (count : Nat) :
    Publishes l (l.resize count) := by
  unfold resize
  split
  · exact publishes_unchanged current
  · exact publishes_publish rfl rfl

end

/-! ## Measurements -/

section

variable [Refinable σ]

/-- A batch changes the rows and the position of a list, and then publishes. -/
theorem recordAll_eq_publish (l : WindowedList σ) (entries : List (Nat × Option UInt32)) :
    l.recordAll entries =
      { l with
        rows := (l.recordAll entries).state.rows
        view := { l.view with offset := (l.recordAll entries).state.view.offset } }.publish := by
  have state : entries.foldl (fun l entry => l.record entry.1 entry.2) l =
      { l with
        rows := (l.recordAll entries).state.rows
        view := { l.view with offset := (l.recordAll entries).state.view.offset } } := by
    induction entries generalizing l with
    | nil => rfl
    | cons entry entries ih => exact ih (l.record entry.1 entry.2)
  exact congrArg publish state

theorem publishes_recordAll (l : WindowedList σ) (entries : List (Nat × Option UInt32)) :
    Publishes l (l.recordAll entries) := by
  rw [recordAll_eq_publish]
  exact publishes_publish rfl rfl

theorem publishes_forgetAll {l : WindowedList σ} (current : l.published = l.currentWindow) :
    Publishes l l.forgetAll := by
  unfold forgetAll
  split
  · exact publishes_unchanged current
  · exact publishes_publish rfl rfl

/-! ## Actions and runs -/

/-- What one action leaves: a current window, and word of it if it is new. The
two actions that answer otherwise tell the listener alone. -/
theorem act_publishes {l : WindowedList σ} (current : l.published = l.currentWindow)
    (action : Action σ) :
    ∃ reply, Publishes l ⟨(l.act action).state, reply, (l.act action).notified⟩ ∧
      (action.ReturnsWindow → (l.act action).reply = .window reply) := by
  cases action with
  | setOffset offset => exact ⟨_, publishes_publish rfl rfl, fun _ => rfl⟩
  | setHeight height => exact ⟨_, publishes_publish rfl rfl, fun _ => rfl⟩
  | setFrame height offset => exact ⟨_, publishes_publish rfl rfl, fun _ => rfl⟩
  | scroll offset now => exact ⟨_, publishes_publish rfl rfl, fun _ => rfl⟩
  | settle now =>
    refine ⟨none, ?_, False.elim⟩
    show Publishes l ⟨(l.settle now).state, none, (l.settle now).notified⟩
    have unchanged := publishes_unchanged current
    -- Settling touches neither what the window is computed from nor what is published.
    unfold settle
    split
    · exact unchanged
    · split
      · exact unchanged
      · exact ⟨current, rfl, unchanged.reply_eq, unchanged.notified_eq⟩
  | reveal row align => exact ⟨_, publishes_publish rfl rfl, False.elim⟩
  | setOverscan overscan => exact ⟨_, publishes_publish rfl rfl, fun _ => rfl⟩
  | resize count => exact ⟨_, publishes_resize current count, fun _ => rfl⟩
  | setRows rows => exact ⟨_, publishes_publish rfl rfl, fun _ => rfl⟩
  | publish => exact ⟨_, publishes_publish rfl rfl, fun _ => rfl⟩
  | measure row size => exact ⟨_, publishes_publish rfl rfl, fun _ => rfl⟩
  | forget row => exact ⟨_, publishes_publish rfl rfl, fun _ => rfl⟩
  | recordAll entries => exact ⟨_, publishes_recordAll l entries, fun _ => rfl⟩
  | forgetAll => exact ⟨_, publishes_forgetAll current, fun _ => rfl⟩

theorem run_current {l : WindowedList σ} (current : l.published = l.currentWindow)
    (actions : List (Action σ)) :
    (l.run actions).published = (l.run actions).currentWindow ∧
      (l.run actions).options.announces = l.options.announces := by
  induction actions generalizing l with
  | nil => exact ⟨current, rfl⟩
  | cons action actions ih =>
    obtain ⟨_, step, _⟩ := act_publishes current action
    obtain ⟨last, announces⟩ := ih step.current
    exact ⟨last, announces.trans step.announces_eq⟩

/-- In every run the published window is the one computed from the current rows,
viewport and overscan. Each action tells the listener, and the caller if it
answers with a window, of the published window exactly when it is not the one
that was published before. -/
theorem run_publishes (rows : σ) (options : Options) (view : Viewport)
    (actions : List (Action σ)) (action : Action σ) :
    let l := (ofRows rows options view).run actions
    let o := l.act action
    l.published = windowAt l.rows l.view l.options.overscan ∧
      o.notified =
        (if options.announces ∧ o.state.published ≠ l.published then [o.state.published] else []) ∧
      (action.ReturnsWindow → o.reply =
        .window (if o.state.published ≠ l.published then some o.state.published else none)) := by
  intro l o
  obtain ⟨current, announces⟩ : l.published = l.currentWindow ∧
      l.options.announces = options.announces := run_current rfl actions
  obtain ⟨reply, step, answer⟩ := act_publishes current action
  refine ⟨current, ?_, fun returns => ?_⟩
  · have told : o.notified = _ := step.notified_eq
    rw [told, announces]
    show (if options.announces then (news l.published o.state.published).toList else []) = _
    rw [news]
    by_cases new : o.state.published = l.published <;> cases options.announces <;> simp [new]
  · rw [answer returns]
    exact congrArg Reply.window step.reply_eq

end

end WindowedList

end Windowing
