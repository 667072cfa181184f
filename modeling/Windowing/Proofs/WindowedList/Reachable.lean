import Windowing.Proofs.Rows.Exact
import Windowing.WindowedList.Action

/-!
# Reachable windowed lists

The lists that actions make of a first list, as long as the sizes of the rows
fit. The rows of a reachable list were reached themselves (`Reachable.rows`), so
what holds of an exact layout holds of the rows of every reachable list.

What an action does to the rows depends on neither the viewport nor the published
window (`rows_act`).
-/

namespace Windowing

/-- The measurements that an action records, if it records any. -/
def Action.batch? {σ : Type} : Action σ → Option (List (Nat × Option UInt32))
  | .measure row size => some [(row, some size)]
  | .forget row => some [(row, none)]
  | .recordAll entries => some entries
  | _ => none

/-- The rows after an action, which depend on the rows before it alone. -/
def Action.rowsAfter {σ : Type} [Refinable σ] (rows : σ) : Action σ → σ
  | .resize count => if RowLayout.count rows = count then rows else RowLayout.resize rows count
  | .setRows rows => rows
  | .measure row size => (Refinable.record rows row (some size)).1
  | .forget row => (Refinable.record rows row none).1
  | .recordAll entries =>
    entries.foldl (fun rows entry => (Refinable.record rows entry.1 entry.2).1) rows
  | .forgetAll => (Refinable.forgetAll? rows).getD rows
  | _ => rows

namespace WindowedList

section

variable {σ : Type} [Refinable σ]

theorem rows_recordAll_eq_foldl (l : WindowedList σ) (entries : List (Nat × Option UInt32)) :
    (l.recordAll entries).state.rows =
      entries.foldl (fun rows entry => (Refinable.record rows entry.1 entry.2).1) l.rows := by
  induction entries generalizing l with
  | nil => rfl
  | cons entry entries ih => exact ih (l.record entry.1 entry.2)

theorem rows_act (l : WindowedList σ) (action : Action σ) :
    (l.act action).state.rows = action.rowsAfter l.rows := by
  cases action with
  | recordAll entries => exact rows_recordAll_eq_foldl l entries
  | resize count =>
    show (l.resize count).state.rows = if l.count = count then l.rows else _
    unfold resize
    split <;> rfl
  | forgetAll =>
    show l.forgetAll.state.rows = _
    unfold forgetAll Action.rowsAfter
    cases Refinable.forgetAll? l.rows <;> rfl
  | settle now =>
    show (l.settle now).state.rows = l.rows
    unfold settle
    split
    · rfl
    · split <;> rfl
  | _ => rfl

end

variable {σ : Type} [ExactRefinable σ]

/-- The sizes fit after each of the measurements. -/
def SizesFit (l : WindowedList σ) : List (Nat × Option UInt32) → Prop
  | [] => True
  | entry :: entries =>
    Fits (ExactLayout.sizes (l.record entry.1 entry.2).rows) ∧
      (l.record entry.1 entry.2).SizesFit entries

/-- The sizes fit all along an action. A layout that is put in was reached. -/
def KeepsFit (l : WindowedList σ) : Action σ → Prop
  | .resize count => Fits (ExactLayout.sizes (RowLayout.resize l.rows count))
  | .setRows rows => ExactLayout.Reached rows
  | .forgetAll => ∀ rows, Refinable.forgetAll? l.rows = some rows → Fits (ExactLayout.sizes rows)
  | action => ∀ entries, action.batch? = some entries → l.SizesFit entries

/-- A list made from reached rows by actions that keep the sizes fitting. -/
inductive Reachable : WindowedList σ → Prop
  | ofRows {rows : σ} (options : Options) (view : Viewport) :
      ExactLayout.Reached rows → Reachable (ofRows rows options view)
  | act {l : WindowedList σ} (action : Action σ) :
      Reachable l → l.KeepsFit action → Reachable (l.act action).state

theorem state_act_of_batch {action : Action σ} {entries : List (Nat × Option UInt32)}
    (batch : action.batch? = some entries) (l : WindowedList σ) :
    (l.act action).state = (l.recordAll entries).state := by
  cases action <;> cases batch <;> rfl

theorem reached_recordAll {l : WindowedList σ} (reached : ExactLayout.Reached l.rows)
    {entries : List (Nat × Option UInt32)} (fit : l.SizesFit entries) :
    ExactLayout.Reached (l.recordAll entries).state.rows := by
  induction entries generalizing l with
  | nil => exact reached
  | cons entry entries ih =>
    exact ih (ExactRefinable.reached_record entry.1 entry.2 reached fit.1) fit.2

theorem reached_act {l : WindowedList σ} (reached : ExactLayout.Reached l.rows)
    {action : Action σ} (fit : l.KeepsFit action) :
    ExactLayout.Reached (l.act action).state.rows := by
  cases action with
  | measure row size => exact reached_recordAll reached (fit _ rfl)
  | forget row => exact reached_recordAll reached (fit _ rfl)
  | recordAll entries => exact reached_recordAll reached (fit _ rfl)
  | resize count =>
    rw [rows_act, Action.rowsAfter]
    split
    · exact reached
    · exact ExactRefinable.reached_resize count reached fit
  | setRows rows => exact fit
  | forgetAll =>
    rw [rows_act, Action.rowsAfter]
    cases found : Refinable.forgetAll? l.rows with
    | none => exact reached
    | some rows => exact ExactRefinable.reached_forgetAll found reached (fit rows found)
  | _ =>
    rw [rows_act]
    exact reached

theorem Reachable.rows {l : WindowedList σ} (h : l.Reachable) : ExactLayout.Reached l.rows := by
  induction h with
  | ofRows _ _ reached => exact reached
  | act action _ fit ih => exact reached_act ih fit

/-- The sizes fit all along a sequence of actions. -/
def FitsAlong (l : WindowedList σ) : List (Action σ) → Prop
  | [] => True
  | action :: actions => l.KeepsFit action ∧ (l.act action).state.FitsAlong actions

end WindowedList

end Windowing
