import Windowing.Proofs.Hosted.Measuring

/-!
# Operations on hosted lists

The operations on a hosted list as data, and what each of them does to the
windowed list inside. A hosted list never touches its windowed list but through
actions, so an operation is a sequence of actions (`state_operate`), and what
holds of every run of actions holds of every run of operations.

A measurer may answer from a state of its own, and the container may have changed
since the last operation: an operation takes the container as it finds it.

Results:
1. `scroll_measureWindow`: a pass scrolls the container if and only if it moves the list.
2. `state_operate`: one operation as actions on the windowed list.
3. `count_operate`: an operation leaves one row per item.
-/

namespace Windowing

/-- An operation with its arguments. -/
inductive Operation (ι : Type) : Type 1 where
  | receive (event : HostEvent)
  | settle (now : Nat)
  | setItems (items : Array ι)
  | reveal (row : Nat) (align : Align)
  | measure {s : Type} (ask : Nat → StateM s (Except MeasureFailure UInt32)) (state : s)
  | stabilize {s : Type} (ask : Nat → StateM s (Except MeasureFailure UInt32)) (state : s)
      (passes : Nat)
  | unmount

/-- The answers of a measurer for some rows, asked in order, and its state after
them. -/
def answersTo {s : Type} (ask : Nat → StateM s (Except MeasureFailure UInt32)) (rows : List Nat)
    (state : s) : List (Except MeasureFailure UInt32) × s :=
  ((rows.mapM ask).run state).run

/-- A measurer answers once for each row. -/
theorem length_mapM_run {s α β : Type} (f : α → StateM s β) (l : List α) (state : s) :
    ((l.mapM f).run state).run.1.length = l.length := by
  induction l generalizing state with
  | nil => rfl
  | cons a l ih =>
    rw [List.mapM_cons, List.length_cons]
    exact congrArg Nat.succ (ih ((f a).run state).run.2)

namespace HostedList

variable {ι η s : Type}

/-- What a pass over the window of a list records. -/
def passBatch (list : WindowedList Rows) (answers : List (Except MeasureFailure UInt32)) :
    List (Nat × Option UInt32) :=
  batchOf (list.published.range.rows.zip answers)

/-- The action of a pass: rows of one height are not measured. -/
def passActions (ask : Nat → StateM s (Except MeasureFailure UInt32)) (list : WindowedList Rows)
    (state : s) : List (Action Rows) :=
  if list.rows.measured?.isSome then
    [.recordAll (passBatch list (answersTo ask list.published.range.rows state).1)]
  else []

/-- The actions of passes that are made until one of them publishes nothing. -/
def stabilizeActions (ask : Nat → StateM s (Except MeasureFailure UInt32))
    (list : WindowedList Rows) (state : s) : Nat → List (Action Rows)
  | 0 => []
  | passes + 1 =>
    if list.rows.measured?.isSome then
      let asked := answersTo ask list.published.range.rows state
      let pass := list.recordAll (passBatch list asked.1)
      .recordAll (passBatch list asked.1) ::
        (if pass.reply.isSome then stabilizeActions ask pass.state asked.2 passes else [])
    else []

end HostedList

namespace Operation

variable {ι : Type}

/-- The actions that an operation takes on the windowed list. -/
def actions (l : HostedList ι) : Operation ι → List (Action Rows)
  | receive (.scroll offset now) => if l.isMounted then [.scroll offset.toOffset now] else []
  | receive (.resize height) => if l.isMounted then [.setHeight height.toHeight] else []
  | settle now => [.settle now]
  | setItems items => [.resize items.size]
  | reveal row align => [.reveal row align]
  | measure ask state => HostedList.passActions ask l.list state
  | stabilize ask state passes => HostedList.stabilizeActions ask l.list state passes
  | unmount => []

/-- The operation takes no new snapshot of the items. -/
def KeepsItems : Operation ι → Prop
  | setItems _ => False
  | _ => True

/-- The listener after an operation. -/
def listenerAfter (listener : Option Listener) : Operation ι → Option Listener
  | unmount => none
  | _ => listener

/-- The items after an operation. -/
def itemsAfter (items : Array ι) : Operation ι → Array ι
  | setItems items => items
  | _ => items

theorem exists_of_not_keepsItems {op : Operation ι} (changes : ¬op.KeepsItems) :
    ∃ items, op = .setItems items := by
  cases op with
  | setItems items => exact ⟨items, rfl⟩
  | _ => exact absurd trivial changes

theorem itemsAfter_of_keepsItems {op : Operation ι} (keeps : op.KeepsItems) (items : Array ι) :
    op.itemsAfter items = items := by
  cases op with
  | setItems items => exact keeps.elim
  | _ => rfl

end Operation

/-! ## What one operation does -/

namespace HostedList

variable {ι η s : Type} [Container η]

/-- A list and its container after one operation. -/
def operate (l : HostedList ι) (host : η) : Operation ι → HostedList ι × η
  | .receive event => ((l.receive event).state, host)
  | .settle now => ((l.settle now).state, host)
  | .setItems items => ((l.setItems items).state, host)
  | .reveal row align => (l.reveal host row align).state
  | .measure ask state => ((measureWindow ask l host).run state).run.1.state
  | .stabilize ask state passes => ((stabilize ask l host passes).run state).run.1.state
  | .unmount => l.unmount host

/-- A list after some operations, each with the container it finds. -/
def run (l : HostedList ι) (steps : List (η × Operation ι)) : HostedList ι :=
  steps.foldl (fun l step => (l.operate step.1 step.2).1) l

theorem run_measureWindow {l : HostedList ι} (measured : l.list.rows.measured?.isSome) (host : η)
    (ask : Nat → StateM s (Except MeasureFailure UInt32)) (state : s) :
    ((measureWindow ask l host).run state).run =
      let asked := answersTo ask l.list.published.range.rows state
      (l.applyMeasurements host (l.list.published.range.rows.zip asked.1), asked.2) := by
  rw [measureWindow_eq measured, StateT.run_map]
  rfl

theorem measureWindow_of_uniform {l : HostedList ι} (uniform : l.list.rows.measured? = none)
    (host : η) {m : Type → Type} [Monad m] (ask : Nat → m (Except MeasureFailure UInt32)) :
    measureWindow ask l host = pure ⟨(l, host), {}, []⟩ := by
  unfold measureWindow
  rw [uniform]

theorem run_stabilize_succ (ask : Nat → StateM s (Except MeasureFailure UInt32)) (l : HostedList ι)
    (host : η) (state : s) (passes : Nat) :
    ((stabilize ask l host (passes + 1)).run state).run =
      let pass := ((measureWindow ask l host).run state).run
      match pass.1.reply.window with
      | none => (pass.1.map fun _ => none, pass.2)
      | some window =>
        let rest := ((stabilize ask pass.1.state.1 pass.1.state.2 passes).run pass.2).run
        ({ rest.1 with
            reply := rest.1.reply.or (some window)
            notified := pass.1.notified ++ rest.1.notified }, rest.2) := by
  rw [stabilize, StateT.run_bind, Id.run_bind]
  generalize ((measureWindow ask l host).run state).run = pass
  dsimp only
  cases pass.1.reply.window with
  | none => rfl
  | some window => rfl

/-- A pass scrolls the container once if it moves the list, and says so; otherwise it
leaves the container alone. -/
theorem scroll_measureWindow (l : HostedList ι) (host : η)
    (ask : Nat → StateM s (Except MeasureFailure UInt32)) (asker : s) :
    let pass := ((measureWindow ask l host).run asker).run.1
    let offset := pass.state.1.list.view.offset
    pass.state.2 =
        (if offset = l.list.view.offset then host else Container.scrollTo host (.ofNat offset)) ∧
      pass.reply.scrolledTo = if offset = l.list.view.offset then none else some offset := by
  by_cases measured : l.list.rows.measured?.isSome
  · rw [run_measureWindow measured]
    dsimp only
    rw [state_applyMeasurements]
    exact scroll_applyMeasurements l host _
  · rw [measureWindow_of_uniform (Option.not_isSome_iff_eq_none.mp measured)]
    exact ⟨(if_pos rfl).symm, (if_pos rfl).symm⟩

theorem state_measureWindow (ask : Nat → StateM s (Except MeasureFailure UInt32))
    (l : HostedList ι) (host : η) (state : s) :
    ((measureWindow ask l host).run state).run.1.state.1 =
      { l with list := l.list.run (passActions ask l.list state) } := by
  unfold passActions
  by_cases measured : l.list.rows.measured?.isSome
  · rw [if_pos measured, run_measureWindow measured]
    exact state_applyMeasurements l host _
  · rw [if_neg measured, measureWindow_of_uniform (Option.not_isSome_iff_eq_none.mp measured)]
    rfl

theorem state_stabilize (ask : Nat → StateM s (Except MeasureFailure UInt32)) (l : HostedList ι)
    (host : η) (state : s) (passes : Nat) :
    ((stabilize ask l host passes).run state).run.1.state.1 =
      { l with list := l.list.run (stabilizeActions ask l.list state passes) } := by
  induction passes generalizing l host state with
  | zero => rfl
  | succ passes ih =>
    rw [run_stabilize_succ, stabilizeActions]
    by_cases measured : l.list.rows.measured?.isSome
    · rw [if_pos measured, run_measureWindow measured]
      dsimp only
      generalize answersTo ask l.list.published.range.rows state = asked
      have batch : (l.applyMeasurements host (l.list.published.range.rows.zip asked.1)).state.1 =
          { l with list := (l.list.recordAll (passBatch l.list asked.1)).state } :=
        state_applyMeasurements l host _
      have reply : (l.applyMeasurements host
          (l.list.published.range.rows.zip asked.1)).reply.window =
            (l.list.recordAll (passBatch l.list asked.1)).reply := window_applyMeasurements l host _
      rw [reply]
      cases (l.list.recordAll (passBatch l.list asked.1)).reply with
      | none => exact batch
      | some window =>
        dsimp only
        rw [ih, batch]
        rfl
    · rw [if_neg measured, measureWindow_of_uniform (Option.not_isSome_iff_eq_none.mp measured)]
      rfl

/-- All that a pass does to the windowed list is to record a batch. -/
theorem exists_batch_of_mem_passActions {ask : Nat → StateM s (Except MeasureFailure UInt32)}
    {list : WindowedList Rows} {state : s} {action : Action Rows}
    (mem : action ∈ passActions ask list state) :
    ∃ answers, action = .recordAll (batchOf answers) := by
  unfold passActions at mem
  split at mem
  · exact ⟨_, List.mem_singleton.mp mem⟩
  · cases mem

theorem exists_batch_of_mem_stabilizeActions {ask : Nat → StateM s (Except MeasureFailure UInt32)}
    {list : WindowedList Rows} {state : s} {passes : Nat} {action : Action Rows}
    (mem : action ∈ stabilizeActions ask list state passes) :
    ∃ answers, action = .recordAll (batchOf answers) := by
  induction passes generalizing list state with
  | zero => cases mem
  | succ passes ih =>
    rw [stabilizeActions] at mem
    split at mem
    · rcases List.mem_cons.mp mem with first | rest
      · exact ⟨_, first⟩
      · split at rest
        · exact ih rest
        · cases rest
    · cases mem

/-- An operation is a run of actions on the windowed list. Only a new snapshot
changes the items, only unmounting the listener, and nothing the message. -/
theorem state_operate (l : HostedList ι) (host : η) (op : Operation ι) :
    (l.operate host op).1 =
      { listener := op.listenerAfter l.listener
        items := op.itemsAfter l.items
        list := l.list.run (op.actions l)
        emptyMessage := l.emptyMessage } := by
  cases op with
  | receive event =>
    show (l.receive event).state = _
    cases mounted : l.isMounted with
    | false =>
      unfold receive
      cases event <;> simp only [Operation.actions, mounted, Bool.false_eq_true, if_false] <;> rfl
    | true =>
      unfold receive
      cases event <;> simp only [Operation.actions, mounted, if_true] <;> rfl
  | settle now => rfl
  | setItems items => rfl
  | reveal row align => rfl
  | measure ask state => exact state_measureWindow ask l host state
  | stabilize ask state passes => exact state_stabilize ask l host state passes
  | unmount =>
    show (l.unmount host).1 = _
    obtain ⟨listener, items, list, message⟩ := l
    cases listener <;> rfl

end HostedList

/-! ## The number of rows -/

/-- The action does not change the number of rows by itself. -/
def Action.KeepsCount {σ : Type} : Action σ → Prop
  | .resize _ | .setRows _ => False
  | _ => True

namespace Rows

theorem count_resize (rows : Rows) (count : Nat) :
    RowLayout.count (RowLayout.resize rows count) = count := by
  cases rows with
  | uniform rows => rfl
  | measured rows => exact MeasuredRows.count_resize rows count

theorem count_record (rows : Rows) (i : Nat) (size : Option UInt32) :
    RowLayout.count (Refinable.record rows i size).1 = RowLayout.count rows := by
  cases rows with
  | uniform rows => rfl
  | measured rows => exact MeasuredRows.count_record rows i size

theorem count_forgetAll {rows rows' : Rows} (dropped : Refinable.forgetAll? rows = some rows') :
    RowLayout.count rows' = RowLayout.count rows := by
  cases rows with
  | uniform rows => cases dropped
  | measured rows =>
    cases dropped
    exact MeasuredRows.count_forgetAll rows

end Rows

namespace WindowedList

variable {l : WindowedList Rows}

theorem count_recordAll (l : WindowedList Rows) (entries : List (Nat × Option UInt32)) :
    (l.recordAll entries).state.count = l.count := by
  induction entries generalizing l with
  | nil => rfl
  | cons entry entries ih =>
    exact (ih (l.record entry.1 entry.2)).trans (Rows.count_record l.rows entry.1 entry.2)

theorem count_act {action : Action Rows} (keeps : action.KeepsCount) :
    (l.act action).state.count = l.count := by
  cases action with
  | resize count => exact keeps.elim
  | setRows rows => exact keeps.elim
  | measure row size => exact count_recordAll l [(row, some size)]
  | forget row => exact count_recordAll l [(row, none)]
  | recordAll entries => exact count_recordAll l entries
  | forgetAll =>
    rw [count, rows_act, Action.rowsAfter]
    cases dropped : Refinable.forgetAll? l.rows with
    | none => rfl
    | some rows => exact Rows.count_forgetAll dropped
  | _ =>
    rw [count, rows_act]
    rfl

theorem count_run {actions : List (Action Rows)} (keeps : ∀ action ∈ actions, action.KeepsCount) :
    (l.run actions).count = l.count := by
  induction actions generalizing l with
  | nil => rfl
  | cons action actions ih =>
    have rest := ih (l := (l.act action).state) fun other mem =>
      keeps other (List.mem_cons_of_mem _ mem)
    exact rest.trans (count_act (keeps action List.mem_cons_self))

theorem count_resize (l : WindowedList Rows) (count : Nat) :
    (l.resize count).state.count = count := by
  unfold resize
  split
  · next same => exact same
  · exact Rows.count_resize l.rows count

end WindowedList

namespace HostedList

variable {ι η s : Type}

/-- Only a new snapshot of the items changes the number of rows. -/
theorem keepsCount_actions (l : HostedList ι) {op : Operation ι} (keeps : op.KeepsItems) :
    ∀ action ∈ op.actions l, action.KeepsCount := by
  cases op with
  | setItems items => exact keeps.elim
  | receive event =>
    cases event <;> simp only [Operation.actions] <;> split <;> simp [Action.KeepsCount]
  | settle now => simp [Operation.actions, Action.KeepsCount]
  | reveal row align => simp [Operation.actions, Action.KeepsCount]
  | measure ask state =>
    intro action mem
    obtain ⟨answers, rfl⟩ := exists_batch_of_mem_passActions mem
    trivial
  | stabilize ask state passes =>
    intro action mem
    obtain ⟨answers, rfl⟩ := exists_batch_of_mem_stabilizeActions mem
    trivial
  | unmount => simp [Operation.actions]

theorem count_operate [Container η] {l : HostedList ι} (count_eq : l.list.count = l.items.size)
    (host : η) (op : Operation ι) :
    (l.operate host op).1.list.count = (l.operate host op).1.items.size := by
  rw [state_operate]
  by_cases keeps : op.KeepsItems
  · rw [Operation.itemsAfter_of_keepsItems keeps]
    exact (WindowedList.count_run (keepsCount_actions l keeps)).trans count_eq
  · obtain ⟨items, rfl⟩ := Operation.exists_of_not_keepsItems keeps
    exact WindowedList.count_resize l.list items.size

end HostedList

end Windowing
