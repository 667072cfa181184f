import Windowing.Proofs.Hosted.Mounted
import Windowing.Proofs.Rows.Settling
import Windowing.Proofs.WindowedList.Twins

/-!
# Measuring until nothing changes

A pass over the window can change the sizes of rows, the scroll position and with
them the window, so that the next pass meets other rows. Against a measurer that
always gives the same answer for the same row this comes to an end: a pass settles
every row it measures, settled rows stay settled, and a pass that measures only
settled rows leaves the window alone. So each pass that publishes a window leaves
fewer unsettled rows.

Results:
1. `Session.Ready.settled_of_mem`, `Session.Ready.quiet`,
   `Session.Ready.card_unsettled_lt`: what one pass does.
2. `Session.Ready.exists_quiet_pass`: some pass publishes nothing, after no more
   passes than there were unsettled rows.
3. `stabilize_converges`: measuring until nothing changes ends with that pass.
-/

namespace Windowing

open HostedList

variable {answer : Nat → Except MeasureFailure UInt32}

/-! ## Recording answers -/

theorem SameAnswers.measured {r r' : MeasuredRows} (same : SameAnswers r r') :
    SameAnswers (Rows.measured r) (Rows.measured r') :=
  { same with }

/-- The batch that records the answers about some rows. -/
def recordings (answer : Nat → Except MeasureFailure UInt32) (rows : List Nat) :
    List (Nat × Option UInt32) :=
  rows.map fun row => (row, recorded answer row)

namespace WindowedList

variable {l : WindowedList Rows} {r : MeasuredRows}

theorem recordAll_recordings (l : WindowedList Rows) (rows : List Nat) :
    l.recordAll (recordings answer rows) =
      (rows.foldl (fun l row => l.record row (recorded answer row)) l).publish := by
  rw [recordAll, recordings, List.foldl_map]

theorem rows_record (measured : l.rows = .measured r) (row : Nat) (size : Option UInt32) :
    (l.record row size).rows = .measured (r.record row size).1 := by
  show (Refinable.record l.rows row size).1 = _
  rw [measured]
  rfl

theorem rows_recordAll (measured : l.rows = .measured r) (rows : List Nat) :
    (l.recordAll (recordings answer rows)).state.rows = .measured (r.settleAll answer rows) := by
  rw [recordAll_recordings]
  show (rows.foldl (fun l row => l.record row (recorded answer row)) l).rows = _
  induction rows generalizing l r with
  | nil => exact measured
  | cons row rows ih => exact ih (rows_record measured row _)

theorem foldl_record_of_settled (measured : l.rows = .measured r) {rows : List Nat}
    (settled : ∀ row ∈ rows, r.Settled answer row) :
    rows.foldl (fun l row => l.record row (recorded answer row)) l =
      l.withRows (Rows.measured (r.settleAll answer rows)) := by
  induction rows generalizing l r with
  | nil =>
    show l = l.withRows (Rows.measured r)
    rw [← measured]
    rfl
  | cons row rows ih =>
    have first := settled row List.mem_cons_self
    have unchanged : (Refinable.record l.rows row (recorded answer row)).2 = 0 := by
      rw [measured]
      exact (MeasuredRows.record_of_settled first).2.2
    have step : l.record row (recorded answer row) =
        l.withRows (Rows.measured (r.record row (recorded answer row)).1) := by
      rw [record_of_unchanged unchanged, measured]
      rfl
    rw [List.foldl_cons, step]
    exact ih rfl fun other mem => (settled other (List.mem_cons_of_mem _ mem)).record first

/-- Recording the answers about settled rows moves nothing. -/
theorem recordAll_of_settled (measured : l.rows = .measured r)
    (current : l.published = l.currentWindow) {rows : List Nat}
    (settled : ∀ row ∈ rows, r.Settled answer row) :
    l.recordAll (recordings answer rows) =
      ⟨l.withRows (Rows.measured (r.settleAll answer rows)), none, []⟩ := by
  have same : SameAnswers l.rows (Rows.measured (r.settleAll answer rows)) :=
    measured ▸ (MeasuredRows.sameAnswers_settleAll settled).measured
  rw [recordAll_recordings, foldl_record_of_settled measured settled, publish_withRows same,
    publish_of_current current.symm]
  rfl

end WindowedList

/-! ## Passes -/

/-- The measurer always gives the same answer for the same row, whatever its state. -/
def Steady {s : Type} (ask : Nat → StateM s (Except MeasureFailure UInt32))
    (answer : Nat → Except MeasureFailure UInt32) : Prop :=
  ∀ row state, ((ask row).run state).run.1 = answer row

theorem Steady.answersTo_eq {s : Type} {ask : Nat → StateM s (Except MeasureFailure UInt32)}
    (steady : Steady ask answer) (rows : List Nat) (state : s) :
    (answersTo ask rows state).1 = rows.map answer := by
  induction rows generalizing state with
  | nil => rfl
  | cons row rows ih =>
    rw [answersTo, List.mapM_cons, List.map_cons, ← steady row state]
    exact congrArg (List.cons _) (ih ((ask row).run state).run.2)

/-- A list, its container and the state of its measurer between two passes. -/
structure Session (ι η s : Type) where
  list : HostedList ι
  host : η
  asker : s

namespace Session

variable {ι η s : Type} {m : Session ι η s} {r : MeasuredRows}

/-- The published window. -/
def window (m : Session ι η s) : Window := m.list.list.published

/-- The window is current, and the rows are the measured rows `r`. -/
structure Ready (m : Session ι η s) (r : MeasuredRows) : Prop where
  current : m.window = m.list.list.currentWindow
  measured : m.list.list.rows = .measured r

/-- The rows after a pass. -/
def rowsAfter (answer : Nat → Except MeasureFailure UInt32) (m : Session ι η s)
    (r : MeasuredRows) : MeasuredRows :=
  r.settleAll answer m.window.range.rows

theorem Ready.lt_count_of_mem (ready : m.Ready r) {row : Nat} (mem : row ∈ m.window.range.rows) :
    row < r.count := by
  have inside := WindowedList.lt_count_of_mem_published ready.current mem
  rw [WindowedList.count, ready.measured] at inside
  exact inside

/-- A pass settles the rows that it measures. -/
theorem Ready.settled_of_mem (ready : m.Ready r) {row : Nat}
    (mem : row ∈ m.window.range.rows) : (m.rowsAfter answer r).Settled answer row :=
  (MeasuredRows.settled_settleAll_iff (ready.lt_count_of_mem mem)).mpr (.inl mem)

variable [Container η]

section

variable (ask : Nat → StateM s (Except MeasureFailure UInt32)) (m : Session ι η s)

/-- What a pass reports. -/
def report : MeasureReport := ((measureWindow ask m.list m.host).run m.asker).run.1.reply

/-- The session after a pass. -/
def next : Session ι η s :=
  let pass := ((measureWindow ask m.list m.host).run m.asker).run
  ⟨pass.1.state.1, pass.1.state.2, pass.2⟩

/-- The session after a number of passes. -/
def after (m : Session ι η s) : Nat → Session ι η s
  | 0 => m
  | passes + 1 => (m.next ask).after passes

/-- A pass does nothing that can be seen: no window, no scroll, and the rows answer
every question as before. -/
structure Quiet : Prop where
  window_eq : (m.report ask).window = none
  scrolledTo_eq : (m.report ask).scrolledTo = none
  host_eq : (m.next ask).host = m.host
  same : SameAnswers m.list.list.rows (m.next ask).list.list.rows

/-- The rows of the window are settled, and another pass does nothing, in whatever
state the measurer is. -/
structure AtRest (answer : Nat → Except MeasureFailure UInt32) (estimate : Nat → UInt32) :
    Prop where
  size_eq : ∀ row ∈ m.window.range.rows,
    RowLayout.size m.list.list.rows row = settledSize estimate answer row
  quiet : ∀ asker, Quiet ask { m with asker }

end

/-! ## One pass -/

section

variable {ask : Nat → StateM s (Except MeasureFailure UInt32)}

theorem batchOf_answers (rows : List Nat) :
    batchOf (rows.map fun row => (row, answer row)) = recordings answer rows := by
  rw [batchOf, List.map_map]
  rfl

/-- A pass records the answers about the rows of the window. -/
theorem Ready.pass_eq (ready : m.Ready r) (steady : Steady ask answer) :
    ((measureWindow ask m.list m.host).run m.asker).run.1 =
      m.list.applyMeasurements m.host (m.window.range.rows.map fun row => (row, answer row)) := by
  have measured : m.list.list.rows.measured?.isSome := by
    rw [ready.measured]
    rfl
  rw [run_measureWindow measured]
  dsimp only
  rw [steady.answersTo_eq, ← List.map_prod_left_eq_zip]
  rfl

theorem Ready.next_list (ready : m.Ready r) (steady : Steady ask answer) :
    (m.next ask).list =
      { m.list with
        list := (m.list.list.recordAll (recordings answer m.window.range.rows)).state } := by
  rw [next, ready.pass_eq steady]
  dsimp only
  rw [state_applyMeasurements, batchOf_answers]

theorem Ready.next (ready : m.Ready r) (steady : Steady ask answer) :
    (m.next ask).Ready (m.rowsAfter answer r) := by
  have published := WindowedList.publishes_recordAll m.list.list
    (recordings answer m.window.range.rows)
  constructor
  · rw [window, ready.next_list steady]
    exact published.current
  · rw [ready.next_list steady]
    exact WindowedList.rows_recordAll ready.measured m.window.range.rows

/-- A pass reports the window after it if this is not the window before. -/
theorem Ready.report_window (ready : m.Ready r) (steady : Steady ask answer) :
    (m.report ask).window = WindowedList.news m.window (m.next ask).window := by
  have published := WindowedList.publishes_recordAll m.list.list
    (recordings answer m.window.range.rows)
  rw [window, window, ready.next_list steady, report, ready.pass_eq steady,
    window_applyMeasurements, batchOf_answers]
  exact published.reply_eq

theorem Ready.window_of_none (ready : m.Ready r) (steady : Steady ask answer)
    (none : (m.report ask).window = none) : (m.next ask).window = m.window := by
  rw [ready.report_window steady, WindowedList.news] at none
  by_contra new
  rw [if_pos new] at none
  cases none

theorem Ready.window_of_some (ready : m.Ready r) (steady : Steady ask answer) {window : Window}
    (found : (m.report ask).window = some window) : (m.next ask).window = window := by
  rw [ready.report_window steady, WindowedList.news] at found
  split at found
  · exact Option.some.inj found
  · cases found

theorem Ready.quiet (ready : m.Ready r) (steady : Steady ask answer)
    (settled : ∀ row ∈ m.window.range.rows, r.Settled answer row) : m.Quiet ask := by
  have recorded := WindowedList.recordAll_of_settled ready.measured ready.current settled
  have scroll := scroll_applyMeasurements m.list m.host
    (m.window.range.rows.map fun row => (row, answer row))
  rw [batchOf_answers, recorded] at scroll
  obtain ⟨host, scrolled⟩ := scroll
  constructor
  · rw [report, ready.pass_eq steady, window_applyMeasurements, batchOf_answers, recorded]
  · rw [report, ready.pass_eq steady]
    exact scrolled.trans (if_pos rfl)
  · rw [Session.next, ready.pass_eq steady]
    exact host.trans (if_pos rfl)
  · rw [ready.next_list steady, recorded, ready.measured]
    exact (MeasuredRows.sameAnswers_settleAll settled).measured

/-- A pass that publishes a window has settled a row. -/
theorem Ready.card_unsettled_lt (ready : m.Ready r) (steady : Steady ask answer)
    (published : (m.report ask).window ≠ none) :
    ((m.rowsAfter answer r).unsettled answer).card < (r.unsettled answer).card := by
  have unsettled : ∃ row ∈ m.window.range.rows, ¬r.Settled answer row := by
    by_contra none
    refine published (ready.quiet steady fun row mem => ?_).window_eq
    by_contra unsettled
    exact none ⟨row, mem, unsettled⟩
  obtain ⟨row, mem, unsettled⟩ := unsettled
  exact MeasuredRows.card_unsettled_settleAll_lt mem (ready.lt_count_of_mem mem) unsettled

/-- After a pass that publishes nothing there is nothing more to do. -/
theorem Ready.atRest (ready : m.Ready r) (steady : Steady ask answer)
    (none : (m.report ask).window = none) : (m.next ask).AtRest ask answer r.estimate := by
  have after := ready.next steady
  have settled : ∀ row ∈ (m.next ask).window.range.rows,
      (m.rowsAfter answer r).Settled answer row := by
    rw [ready.window_of_none steady none]
    exact fun row mem => ready.settled_of_mem mem
  constructor
  · intro row mem
    rw [after.measured, ← MeasuredRows.estimate_settleAll r answer m.window.range.rows]
    exact settled row mem
  · intro asker
    have ready : Ready { m.next ask with asker } (m.rowsAfter answer r) :=
      ⟨after.current, after.measured⟩
    exact ready.quiet steady settled

/-! ## Pass after pass -/

theorem after_succ (m : Session ι η s) (passes : Nat) :
    m.after ask (passes + 1) = (m.after ask passes).next ask := by
  induction passes generalizing m with
  | zero => rfl
  | succ passes ih => exact ih (m.next ask)

theorem Ready.after (ready : m.Ready r) (steady : Steady ask answer) (passes : Nat) :
    ∃ r', (m.after ask passes).Ready r' ∧ r'.estimate = r.estimate := by
  induction passes generalizing m r with
  | zero => exact ⟨r, ready, rfl⟩
  | succ passes ih =>
    obtain ⟨r', ready', same⟩ := ih (ready.next steady)
    exact ⟨r', ready', same.trans (MeasuredRows.estimate_settleAll r answer _)⟩

/-- The induction is on the number of unsettled rows: a pass that publishes leaves
fewer of them. -/
theorem Ready.exists_quiet_pass (ready : m.Ready r) (steady : Steady ask answer) :
    ∃ quiet ≤ (r.unsettled answer).card,
      (∀ pass < quiet, ((m.after ask pass).report ask).window ≠ none) ∧
        ((m.after ask quiet).report ask).window = none := by
  induction card : (r.unsettled answer).card using Nat.strong_induction_on generalizing m r with
  | _ unsettled ih =>
    subst card
    by_cases none : (m.report ask).window = none
    · exact ⟨0, Nat.zero_le _, fun pass before => absurd before (Nat.not_lt_zero pass), none⟩
    · have fewer := ready.card_unsettled_lt steady none
      obtain ⟨quiet, bound, published, last⟩ := ih _ fewer (ready.next steady) rfl
      refine ⟨quiet + 1, Nat.lt_of_le_of_lt bound fewer, fun pass before => ?_, last⟩
      cases pass with
      | zero => exact none
      | succ pass => exact published pass (Nat.lt_of_succ_lt_succ before)

/-- Measuring until nothing changes makes passes up to the first that publishes
nothing, and answers with the window that was published last. -/
theorem Ready.stabilize_eq (ready : m.Ready r) (steady : Steady ask answer) {quiet : Nat}
    (published : ∀ pass < quiet, ((m.after ask pass).report ask).window ≠ none)
    (last : ((m.after ask quiet).report ask).window = none) (passes : Nat) :
    let outcome := ((stabilize ask m.list m.host passes).run m.asker).run
    let final := m.after ask (min passes (quiet + 1))
    outcome.1.state = (final.list, final.host) ∧ outcome.2 = final.asker ∧
      outcome.1.reply =
        if min passes quiet = 0 then none else some (m.after ask (min passes quiet)).window := by
  induction passes generalizing m r quiet with
  | zero => simp [stabilize, Session.after]
  | succ passes ih =>
    rw [run_stabilize_succ]
    dsimp only
    cases quiet with
    | zero =>
      have none : ((measureWindow ask m.list m.host).run m.asker).run.1.reply.window = none := last
      rw [none]
      simp [Session.after, Session.next, Outcome.map]
    | succ quiet =>
      obtain ⟨window, found⟩ := Option.ne_none_iff_exists'.mp (published 0 (Nat.succ_pos quiet))
      have next_window := ready.window_of_some steady found
      have found : ((measureWindow ask m.list m.host).run m.asker).run.1.reply.window =
          some window := found
      obtain ⟨state, asker, reply⟩ := ih (ready.next steady)
        (fun pass before => published (pass + 1) (Nat.succ_lt_succ before)) last
      rw [found, Nat.succ_min_succ, Nat.succ_min_succ, if_neg (Nat.succ_ne_zero _)]
      refine ⟨state, asker, (congrArg (Option.or · (some window)) reply).trans ?_⟩
      -- The answer is the window of this pass unless a later pass published another one.
      split
      · next none =>
        rw [none, Option.none_or]
        exact congrArg some next_window.symm
      · exact Option.some_or

end

end Session

/-! ## Convergence -/

/-- Against a measurer that always gives the same answer for the same row, no more
passes publish a window than there were unsettled rows at the beginning. The pass
after them publishes nothing. If it is made, it is the last, and it leaves the list
at rest. The answer is the published window, if any pass published one. -/
theorem stabilize_converges {ι η s : Type} [Container η] {message : String} {start : HostedList ι}
    (mounted : Mounted η message start) (steps : List (η × Operation ι)) {r : MeasuredRows}
    (measured : (start.run steps).list.rows = .measured r)
    {ask : Nat → StateM s (Except MeasureFailure UInt32)} (steady : Steady ask answer) (host : η)
    (asker : s) :
    let m : Session ι η s := ⟨start.run steps, host, asker⟩
    ∃ quiet ≤ (r.unsettled answer).card,
      (∀ pass < quiet, ((m.after ask pass).report ask).window ≠ none) ∧
      ((m.after ask quiet).report ask).window = none ∧
      ∀ passes,
        let outcome := ((stabilize ask m.list m.host passes).run m.asker).run
        let final := m.after ask (min passes (quiet + 1))
        outcome.1.state = (final.list, final.host) ∧ outcome.2 = final.asker ∧
          outcome.1.reply = (if min passes quiet = 0 then none else some final.window) ∧
          (quiet < passes → final.AtRest ask answer r.estimate) := by
  intro m
  have ready : m.Ready r := ⟨(sound_run mounted.sound steps).current, measured⟩
  obtain ⟨quiet, bound, published, last⟩ := ready.exists_quiet_pass steady
  refine ⟨quiet, bound, published, last, fun passes => ?_⟩
  obtain ⟨state, asker, reply⟩ := ready.stabilize_eq steady published last passes
  obtain ⟨r', ready', estimate⟩ := ready.after steady quiet
  refine ⟨state, asker, ?_, fun enough => ?_⟩
  · rw [reply]
    rcases Nat.lt_or_ge quiet passes with enough | short
    · rw [Nat.min_eq_right enough, Nat.min_eq_right (Nat.le_of_lt enough), Session.after_succ,
        ready'.window_of_none steady last]
    · rw [Nat.min_eq_left short, Nat.min_eq_left (Nat.le_succ_of_le short)]
  · rw [Nat.min_eq_right enough, Session.after_succ, ← estimate]
    exact ready'.atRest steady last

/-- Rows are lower than their estimate, and one of them cannot be measured. -/
def lowRows (row : Nat) : Except MeasureFailure UInt32 :=
  if row = 1 then .error (.detached row) else .ok 4

/-- A measurer of low rows that counts what it is asked. -/
def askLowRows (row : Nat) : StateM Nat (Except MeasureFailure UInt32) := do
  modify (· + 1)
  return lowRows row

/-- The window grows with every pass as the rows in it turn out to be low. -/
theorem stabilize_converges_lowRows :
    ∃ start host r, mount ({ height := .ofNat 20 } : PlainHost) #[0, 1, 2, 3, 4, 5]
        { estimatedHeight := some 10, overscan := 0 } = (.ok start, host) ∧
      start.list.rows = .measured r ∧ (r.unsettled lowRows).card = 5 ∧
      let outcome := ((stabilize askLowRows start host 6).run 0).run
      outcome.1.reply = some ⟨⟨0, 4⟩, 0, 42⟩ ∧ ∃ final : Session Nat PlainHost Nat,
        outcome.1.state = (final.list, final.host) ∧
          final.AtRest askLowRows lowRows r.estimate := by
  obtain ⟨start, host, r, made, measured, card⟩ : ∃ start host r,
      mount ({ height := .ofNat 20 } : PlainHost) #[0, 1, 2, 3, 4, 5]
        { estimatedHeight := some 10, overscan := 0 } = (.ok start, host) ∧
      start.list.rows = .measured r ∧ (r.unsettled lowRows).card = 5 :=
    ⟨_, _, _, rfl, rfl, by decide +kernel⟩
  have steady : Steady askLowRows lowRows := fun _ _ => rfl
  obtain ⟨quiet, bound, _, _, all⟩ :=
    stabilize_converges (.ofConfig made rfl) [] measured steady host 0
  obtain ⟨state, _, _, rest⟩ := all 6
  have enough : quiet < 6 := Nat.lt_of_le_of_lt bound (card ▸ by decide)
  refine ⟨start, host, r, made, measured, card, ?_, _, state, rest enough⟩
  cases made
  decide +kernel

end Windowing
