import Mathlib.Data.List.Induction
import Windowing.Proofs.WindowedList.Publishing
import Windowing.Rows.Uniform

/-!
# Scrolling and its history

That a list is being scrolled, and in which direction, stands in two fields that five of the actions
write. The fields hold what the history of the list says. Only the steps since scrolling ended the
last time count, and of those the latest of each kind. The latest scroll is the one that was made
last, whatever time it bears, for the clock of a host may run backwards.

Results:
1. `keepsScrolling_act`: all other actions leave the fields alone, measurements that move the
   position included.
2. `scrolling_act`: what one action does to the fields, by what the action itself says.
3. `scrolling_run`: what the history says of them.
4. `run_scrolling`: scrolling, the end of it and its direction at any time of a run.
-/

namespace Windowing

/-! ## Steps of a run -/

section

variable {σ : Type}

/-- The actions that put the scroll position where the caller or the user wants it. -/
def Action.scrolls : Action σ → Bool
  | .setOffset _ | .setFrame _ _ | .scroll _ _ | .reveal _ _ => true
  | _ => false

/-- The actions that neither scroll nor settle. Measurements are among them: they move the position
only to keep the rows on screen in their places. -/
def Action.Still (action : Action σ) : Prop :=
  action.scrolls = false ∧ ∀ now, action ≠ .settle now

/-- The direction from one scroll position to another. -/
def Direction.between? (old new : Nat) : Option Direction :=
  if old < new then some .forward else if new < old then some .backward else none

/-- One step of a run: an action, and the list it was carried out on. -/
structure Step (σ : Type) where
  list : WindowedList σ
  action : Action σ

/-- The time of a scroll by the user. -/
def Step.time? (step : Step σ) : Option Nat :=
  match step.action with
  | .scroll _ now => some now
  | _ => none

theorem Step.isSome_time?_iff {step : Step σ} :
    step.time?.isSome = true ↔ ∃ offset now, step.action = .scroll offset now := by
  constructor
  · intro told
    unfold time? at told
    split at told
    · next offset now action => exact ⟨offset, now, action⟩
    · cases told
  · rintro ⟨offset, now, action⟩
    unfold time?
    rw [action]
    rfl

variable [Refinable σ]

/-- What the action made of the list. -/
def Step.outcome (step : Step σ) : Outcome (WindowedList σ) Reply := step.list.act step.action

/-- Whether the step settled the list, with the answer that scrolling had ended. -/
def Step.ends (step : Step σ) : Bool := decide (step.outcome.reply = .settled true)

/-- The direction of a step that scrolled to another position. -/
def Step.direction? (step : Step σ) : Option Direction :=
  if step.action.scrolls then
    Direction.between? step.list.view.offset step.outcome.state.view.offset
  else none

end

namespace WindowedList

section

variable {σ : Type} [Refinable σ]

/-- The steps of a run, in order. -/
def steps (l : WindowedList σ) : List (Action σ) → List (Step σ)
  | [] => []
  | action :: actions => ⟨l, action⟩ :: (l.act action).state.steps actions

/-- The steps of a run since scrolling ended the last time, the latest first. -/
def recentSteps (l : WindowedList σ) (actions : List (Action σ)) : List (Step σ) :=
  (l.steps actions).reverse.takeWhile fun step => !step.ends

theorem run_concat (l : WindowedList σ) (actions : List (Action σ)) (action : Action σ) :
    l.run (actions ++ [action]) = ((l.run actions).act action).state :=
  List.foldl_append

theorem steps_concat (l : WindowedList σ) (actions : List (Action σ)) (action : Action σ) :
    l.steps (actions ++ [action]) = l.steps actions ++ [⟨l.run actions, action⟩] := by
  induction actions generalizing l with
  | nil => rfl
  | cons first actions ih => exact congrArg (List.cons _) (ih (l.act first).state)

theorem recentSteps_concat (l : WindowedList σ) (actions : List (Action σ)) (action : Action σ) :
    let step : Step σ := ⟨l.run actions, action⟩
    l.recentSteps (actions ++ [action]) =
      if step.ends then [] else step :: l.recentSteps actions := by
  intro step
  unfold recentSteps
  rw [steps_concat, List.reverse_concat, List.takeWhile_cons]
  cases step.ends <;> rfl

end

/-! ## The fields of scrolling -/

section

variable {σ : Type}

/-- The fields of scrolling are those of another list. -/
structure KeepsScrolling (l after : WindowedList σ) : Prop where
  lastScroll_eq : after.lastScroll = l.lastScroll
  direction_eq : after.direction = l.direction
  settleDelay_eq : after.options.settleDelay = l.options.settleDelay

theorem direction_movedTo (l : WindowedList σ) (offset : Nat) :
    (l.movedTo offset).direction = (Direction.between? l.view.offset offset).or l.direction := by
  unfold movedTo Direction.between?
  dsimp only
  split
  · rfl
  · split <;> rfl

/-- Scrolling ends when the delay has passed since the latest scroll, if there was one. -/
theorem settle_reply_eq (l : WindowedList σ) (now : Nat) :
    (l.settle now).reply =
      l.lastScroll.any fun last => decide (l.options.settleDelay ≤ now - last) := by
  unfold settle
  cases l.lastScroll with
  | none => rfl
  | some last =>
    rw [Option.any_some]
    dsimp only
    split
    · next early => exact (decide_eq_false (Nat.not_le.mpr early)).symm
    · next late => exact (decide_eq_true (Nat.not_lt.mp late)).symm

theorem settle_state (l : WindowedList σ) (now : Nat) :
    (l.settle now).state =
      if (l.settle now).reply then { l with lastScroll := none, direction := none } else l := by
  unfold settle
  cases l.lastScroll with
  | none => rfl
  | some last =>
    dsimp only
    split <;> rfl

variable [Refinable σ]

theorem keepsScrolling_act (l : WindowedList σ) {action : Action σ} (still : action.Still) :
    l.KeepsScrolling (l.act action).state := by
  cases action with
  | setOffset | setFrame | scroll | reveal => cases still.1
  | settle now => exact absurd rfl (still.2 now)
  | resize count =>
    show l.KeepsScrolling (l.resize count).state
    unfold resize
    split <;> exact ⟨rfl, rfl, rfl⟩
  | recordAll entries =>
    show l.KeepsScrolling (l.recordAll entries).state
    rw [recordAll_eq_publish]
    exact ⟨rfl, rfl, rfl⟩
  | forgetAll =>
    show l.KeepsScrolling l.forgetAll.state
    unfold forgetAll
    split <;> exact ⟨rfl, rfl, rfl⟩
  | setHeight | setOverscan | setRows | publish | measure | forget => exact ⟨rfl, rfl, rfl⟩

/-- What an action does to the fields of scrolling. If scrolling ends with it they are emptied, and
otherwise what the action says of them goes before what they held. -/
theorem scrolling_act (l : WindowedList σ) (action : Action σ) :
    let step : Step σ := ⟨l, action⟩
    (l.act action).state.lastScroll = (if step.ends then none else step.time?.or l.lastScroll) ∧
      (l.act action).state.direction =
        (if step.ends then none else step.direction?.or l.direction) ∧
      (l.act action).state.options.settleDelay = l.options.settleDelay := by
  intro step
  cases action with
  | setOffset offset => exact ⟨rfl, direction_movedTo l offset, rfl⟩
  | setFrame height offset => exact ⟨rfl, direction_movedTo (l.withHeight height) offset, rfl⟩
  | scroll offset now => exact ⟨rfl, direction_movedTo { l with lastScroll := some now } offset, rfl⟩
  | reveal row align => exact ⟨rfl, direction_movedTo l (revealOffset l.rows l.view row align), rfl⟩
  | settle now =>
    have state : (l.act (.settle now)).state = _ := settle_state l now
    have ends : step.ends = (l.settle now).reply := by
      show decide (Reply.settled (l.settle now).reply = .settled true) = _
      cases (l.settle now).reply <;> rfl
    rw [state, ends]
    cases (l.settle now).reply <;> exact ⟨rfl, rfl, rfl⟩
  | _ =>
    have still : step.action.Still := ⟨rfl, nofun⟩
    obtain ⟨lastScroll, direction, delay⟩ := l.keepsScrolling_act still
    exact ⟨lastScroll, direction, delay⟩

/-! ## The history -/

theorem settleDelay_run (l : WindowedList σ) (actions : List (Action σ)) :
    (l.run actions).options.settleDelay = l.options.settleDelay := by
  induction actions generalizing l with
  | nil => rfl
  | cons action actions ih => exact (ih (l.act action).state).trans (scrolling_act l action).2.2

/-- The fields of scrolling hold the latest that a step since the last end says of them, if they
held nothing before the run. -/
theorem scrolling_run {l : WindowedList σ} (resting : l.lastScroll = none ∧ l.direction = none)
    (actions : List (Action σ)) :
    (l.run actions).lastScroll = (l.recentSteps actions).findSome? Step.time? ∧
      (l.run actions).direction = (l.recentSteps actions).findSome? Step.direction? := by
  induction actions using List.reverseRecOn with
  | nil => exact resting
  | append_singleton actions action ih =>
    obtain ⟨lastScroll, direction, _⟩ := scrolling_act (l.run actions) action
    rw [run_concat, recentSteps_concat, lastScroll, direction, ih.1, ih.2]
    split
    · exact ⟨rfl, rfl⟩
    · rw [List.findSome?_cons, List.findSome?_cons]
      constructor
      · cases (Step.mk (l.run actions) action).time? <;> rfl
      · cases (Step.mk (l.run actions) action).direction? <;> rfl

/-- A list that is being scrolled holds the time of the latest scroll of all. -/
theorem latest_of_lastScroll {l : WindowedList σ}
    (resting : l.lastScroll = none ∧ l.direction = none) {actions : List (Action σ)} {time : Nat}
    (held : (l.run actions).lastScroll = some time) :
    (l.steps actions).reverse.findSome? Step.time? = some time := by
  have recent : (l.recentSteps actions).findSome? Step.time? = some time :=
    (scrolling_run resting actions).1.symm.trans held
  exact (List.takeWhile_prefix _).findSome?_eq_some recent

/-- At any time of a run from a new list:

* the list is being scrolled if and only if the user has scrolled since scrolling ended the last
  time;
* settling ends scrolling if and only if the list is being scrolled and the delay has passed since
  the latest scroll by the user, no time having passed when the clock has gone back;
* the direction is that of the latest step that scrolled to another position since scrolling ended
  the last time;
* no action but those that scroll or settle changes any of the three. -/
theorem run_scrolling (rows : σ) (options : Options) (view : Viewport)
    (actions : List (Action σ)) :
    let first := ofRows rows options view
    let l := first.run actions
    (l.isScrolling = true ↔
        ∃ step ∈ first.recentSteps actions, ∃ offset now, step.action = .scroll offset now) ∧
      (∀ now, (l.settle now).reply = true ↔ l.isScrolling = true ∧
        ∃ time ∈ (first.steps actions).reverse.findSome? Step.time?,
          (options.settleDelay : Int) ≤ max ((now : Int) - time) 0) ∧
      l.direction = (first.recentSteps actions).findSome? Step.direction? ∧
      ∀ action : Action σ, action.Still →
        let after := (l.act action).state
        after.isScrolling = l.isScrolling ∧
          (∀ now, (after.settle now).reply = (l.settle now).reply) ∧
          after.direction = l.direction := by
  intro first l
  have resting : first.lastScroll = none ∧ first.direction = none := ⟨rfl, rfl⟩
  obtain ⟨lastScroll, direction⟩ := scrolling_run resting actions
  refine ⟨?scrolling, fun now => ?ends, direction, fun action still => ?still⟩
  case scrolling =>
    show l.lastScroll.isSome = true ↔ _
    rw [lastScroll, List.findSome?_isSome_iff]
    simp only [Step.isSome_time?_iff]
  case ends =>
    have latest {time : Nat} : l.lastScroll = some time → _ := latest_of_lastScroll resting
    have delay : l.options.settleDelay = options.settleDelay := settleDelay_run first actions
    rw [settle_reply_eq, Option.any_eq_true, delay]
    simp only [decide_eq_true_eq]
    constructor
    · rintro ⟨time, held, late⟩
      exact ⟨Option.isSome_iff_exists.mpr ⟨time, held⟩, time, latest held, by omega⟩
    · rintro ⟨scrolling, time, found, late⟩
      obtain ⟨last, held⟩ := Option.isSome_iff_exists.mp scrolling
      obtain rfl : time = last := Option.some.inj (found.symm.trans (latest held))
      exact ⟨time, held, by omega⟩
  case still =>
    obtain ⟨lastScroll_eq, direction_eq, settleDelay_eq⟩ := l.keepsScrolling_act still
    refine ⟨congrArg Option.isSome lastScroll_eq, fun now => ?_, direction_eq⟩
    rw [settle_reply_eq, settle_reply_eq, lastScroll_eq, settleDelay_eq]

end

end WindowedList

/-- Scrolling ends once; then the clock is put back, and the user scrolls at an earlier time. -/
def rewound : List (Action UniformRows) :=
  [.scroll 10 1000, .settle 1050, .scroll 30 400, .setOffset 5, .setHeight 25]

/-- Before the time of the second scroll no time has passed since, and `50` after it the delay has.
The list turned round in between, and was made higher. -/
theorem run_scrolling_rewound :
    let l := (WindowedList.ofRows (⟨5, 10, by decide⟩ : UniformRows) { settleDelay := 50 }
      ⟨0, 20⟩).run rewound
    l.isScrolling = true ∧ l.direction = some .backward ∧ (l.settle 100).reply ≠ true ∧
      (l.settle 450).reply = true ∧ (l.act (.resize 2)).state.isScrolling = true := by
  obtain ⟨scrolling, ends, direction, still⟩ := WindowedList.run_scrolling
    (⟨5, 10, by decide⟩ : UniformRows) { settleDelay := 50 } ⟨0, 20⟩ rewound
  have since := scrolling.mpr ⟨_, .tail _ (.tail _ (.head _)), 30, 400, rfl⟩
  exact ⟨since, direction.trans (by decide), (ends 100).not.mpr (by decide),
    (ends 450).mpr ⟨since, 400, rfl, by decide⟩, (still (.resize 2) ⟨rfl, nofun⟩).1.trans since⟩

end Windowing
