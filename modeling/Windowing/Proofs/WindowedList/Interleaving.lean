import Windowing.Proofs.WindowedList.Independent
import Windowing.Proofs.WindowedList.Reachable
import Windowing.Proofs.WindowedList.Scrolling

/-!
# Inputs that do not meet

A host sets the scroll position, the height of the viewport, the overscan and the number of rows
each on its own, often from different places, so that nothing fixes the order in which they arrive.
Nothing depends on it. Every input changes a part of the list that no input of another channel reads
or writes; and the published window, which depends on all the parts, is computed from where they
end.

Results:
1. `Owns.run_inputs`: the part of one channel after a run is what the inputs of that channel alone
   make of it.
2. `owns_position`, `owns_height`, `owns_options`, `owns_rows`: the parts of a list.
3. `run_eq_of_interleave`: all interleavings of the same inputs end in the same list.
-/

namespace Windowing

/-- The inputs that a host sets each on its own. -/
inductive Channel where
  | position
  | height
  | overscan
  | count
  deriving DecidableEq, Repr

section

variable {σ : Type}

/-- The channel that an action is an input of. -/
def Action.channel? : Action σ → Option Channel
  | .setOffset _ => some .position
  | .setHeight _ => some .height
  | .setOverscan _ => some .overscan
  | .resize _ => some .count
  | _ => none

/-- The inputs of one channel among some actions, in order. -/
def Channel.inputs (channel : Channel) (actions : List (Action σ)) : List (Action σ) :=
  actions.filter fun action => action.channel? = some channel

/-- Two interleavings of the same inputs: neither has any other action, and on every channel they
have the same inputs in the same order. -/
structure Interleave (actions actions' : List (Action σ)) : Prop where
  inputs : ∀ action ∈ actions ++ actions', action.channel? ≠ none
  same : ∀ channel : Channel, channel.inputs actions = channel.inputs actions'

end

attribute [ext] WindowedList

namespace WindowedList

section

variable {σ α : Type} [Refinable σ]

/-- A part of lists that belongs to one channel: the inputs of the other channels leave it as it is,
and what those of its own make of it depends on nothing else of the list. -/
structure Owns (channel : Channel) (part : WindowedList σ → α) : Prop where
  kept : ∀ l {action : Action σ} {other}, action.channel? = some other → other ≠ channel →
    part (l.act action).state = part l
  follows : ∀ {l m} {action : Action σ}, action.channel? = some channel → part l = part m →
    part (l.act action).state = part (m.act action).state

/-- What a run of inputs makes of a part is what the inputs of the channel of that part make of it
on their own. -/
theorem Owns.run_inputs {channel : Channel} {part : WindowedList σ → α} (owns : Owns channel part)
    {l m : WindowedList σ} (same : part l = part m) {actions : List (Action σ)}
    (inputs : ∀ action ∈ actions, action.channel? ≠ none) :
    part (l.run actions) = part (m.run (channel.inputs actions)) := by
  induction actions generalizing l m with
  | nil => exact same
  | cons action actions ih =>
    obtain ⟨first, rest⟩ := List.forall_mem_cons.mp inputs
    obtain ⟨other, on⟩ := Option.ne_none_iff_exists'.mp first
    by_cases own : other = channel
    · subst own
      have head : other.inputs (action :: actions) = action :: other.inputs actions :=
        List.filter_cons_of_pos (decide_eq_true on)
      rw [head]
      exact ih (owns.follows on same) rest
    · have head : channel.inputs (action :: actions) = channel.inputs actions :=
        List.filter_cons_of_neg (by simpa [on] using own)
      rw [head]
      exact ih ((owns.kept l on own).trans same) rest

/-- So interleavings of the same inputs make the same of every part. -/
theorem Owns.run_eq {channel : Channel} {part : WindowedList σ → α} (owns : Owns channel part)
    (l : WindowedList σ) {actions actions' : List (Action σ)}
    (interleave : Interleave actions actions') :
    part (l.run actions) = part (l.run actions') := by
  obtain ⟨first, second⟩ := List.forall_mem_append.mp interleave.inputs
  rw [owns.run_inputs (m := l) rfl first, owns.run_inputs (m := l) rfl second, interleave.same]

/-! ## The parts of a list -/

theorem state_act_resize (l : WindowedList σ) (count : Nat) :
    ∃ rows published, (l.act (.resize count)).state = { l with rows, published } := by
  refine ⟨(l.resize count).state.rows, (l.resize count).state.published, ?_⟩
  show (l.resize count).state = _
  unfold resize
  split <;> rfl

/-- The direction goes with the position, for it comes from the position before. -/
theorem owns_position : Owns .position fun l : WindowedList σ => (l.view.offset, l.direction) where
  kept l action other on ne := by
    cases action <;> cases on
    case setOffset => exact absurd rfl ne
    case setHeight | setOverscan => rfl
    case resize count =>
      obtain ⟨rows, published, state⟩ := state_act_resize l count
      rw [state]
  follows {l m action} on same := by
    cases action <;> cases on
    case setOffset offset =>
      obtain ⟨position, direction⟩ := Prod.mk.inj same
      show (offset, (l.movedTo offset).direction) = (offset, (m.movedTo offset).direction)
      rw [direction_movedTo, direction_movedTo, position, direction]

theorem owns_height : Owns .height fun l : WindowedList σ => l.view.height where
  kept l action other on ne := by
    cases action <;> cases on
    case setOffset | setOverscan => rfl
    case setHeight => exact absurd rfl ne
    case resize count =>
      obtain ⟨rows, published, state⟩ := state_act_resize l count
      rw [state]
  follows {_ _ action} on _ := by
    cases action <;> cases on
    case setHeight => rfl

/-- The time of the latest scroll is changed by none of the inputs, and could go with any part. -/
theorem owns_options : Owns .overscan fun l : WindowedList σ => (l.options, l.lastScroll) where
  kept l action other on ne := by
    cases action <;> cases on
    case setOffset | setHeight => rfl
    case setOverscan => exact absurd rfl ne
    case resize count =>
      obtain ⟨rows, published, state⟩ := state_act_resize l count
      rw [state]
  follows {l m action} on same := by
    cases action <;> cases on
    case setOverscan overscan =>
      obtain ⟨options, lastScroll⟩ := Prod.mk.inj same
      show ({ l.options with overscan }, l.lastScroll) = ({ m.options with overscan }, m.lastScroll)
      rw [options, lastScroll]

/-- Rows are cut off and appended by what the rows themselves are, so measurements survive a run of
inputs wherever they survive the changes of the count. -/
theorem owns_rows : Owns .count fun l : WindowedList σ => l.rows where
  kept l action other on ne := by
    rw [rows_act]
    cases action <;> cases on
    case setOffset | setHeight | setOverscan => rfl
    case resize => exact absurd rfl ne
  follows on same := by rw [rows_act, rows_act, same]

/-! ## All interleavings -/

/-- At any time in the life of a list, all interleavings of the same inputs of position, height,
overscan and count end in the same list: with the same rows and the same measurements, the same
viewport, direction and overscan, and the same published window. -/
theorem run_eq_of_interleave (rows : σ) (options : Options) (view : Viewport)
    (past : List (Action σ)) {actions actions' : List (Action σ)}
    (interleave : Interleave actions actions') :
    ((ofRows rows options view).run past).run actions =
      ((ofRows rows options view).run past).run actions' := by
  have current : ((ofRows rows options view).run past).published =
      ((ofRows rows options view).run past).currentWindow := (run_current rfl past).1
  generalize (ofRows rows options view).run past = l at current
  obtain ⟨offset, direction⟩ := Prod.mk.inj (owns_position.run_eq l interleave)
  obtain ⟨options, lastScroll⟩ := Prod.mk.inj (owns_options.run_eq l interleave)
  have height := owns_height.run_eq l interleave
  have rows := owns_rows.run_eq l interleave
  have view : (l.run actions).view = (l.run actions').view := congrArg₂ Viewport.mk offset height
  -- The window is computed from the parts and needs none of its own.
  have published : (l.run actions).published = (l.run actions').published := by
    rw [(run_current current actions).1, (run_current current actions').1]
    unfold currentWindow
    rw [rows, view, options]
  exact WindowedList.ext rows options view published lastScroll direction

end

end WindowedList

/-- Four rows of size `10`, of which the second and the last were measured. -/
def measuredRows : List (Action MeasuredRows) := [.measure 1 30, .measure 3 5]

/-- The last two rows are cut off and three appended, while the list is scrolled down and up. -/
def regrowing : List (Action MeasuredRows) :=
  [.resize 2, .setOffset 25, .setHeight 12, .resize 5, .setOffset 7, .setOverscan 1]

/-- The same inputs, the position before the rows and the height last of all. -/
def regrowing' : List (Action MeasuredRows) :=
  [.setOffset 25, .setOverscan 1, .setOffset 7, .resize 2, .resize 5, .setHeight 12]

theorem interleave_regrowing : Interleave regrowing regrowing' where
  inputs := by decide
  same channel := by cases channel <;> rfl

/-- In either order the measurement of the second row survives and that of the last one does not,
and the list has been scrolled backward. -/
theorem run_eq_of_interleave_regrowing :
    let l := (WindowedList.ofRows fourRows {} ⟨3, 20⟩).run measuredRows
    Interleave regrowing regrowing' ∧ l.run regrowing = l.run regrowing' ∧
      (l.run regrowing).rows.isMeasured 1 = true ∧ (l.run regrowing).rows.isMeasured 3 = false ∧
      (l.run regrowing).direction = some .backward ∧
      (l.run regrowing').published = ⟨⟨0, 3⟩, 0, 70⟩ :=
  ⟨interleave_regrowing,
    WindowedList.run_eq_of_interleave fourRows {} ⟨3, 20⟩ measuredRows interleave_regrowing,
    by decide +kernel, by decide +kernel, by decide +kernel, by decide +kernel⟩

end Windowing
