import Windowing.Proofs.Hosted.Stabilizing

/-!
# Failures stay with their rows

A pass over the window asks the host for each row once, in order, and records all
answers together. A row that cannot be measured, or that has no height, falls back to
its estimate; the rows beside it are recorded as if it were not there.

The host may answer from a state of its own. As a pass asks for no row twice, what it
was answered is still a function of the row (`exists_answer`), and a pass records it as
it would against a host that always answers so.

Results:
1. `getElem?_settleAll`: what recording the answers about some rows leaves at each row.
2. `failures_applyMeasurements`, `measured_add_failures`: the report of a pass.
3. `pass_isolates_failures`: so it is for every pass of every run.
-/

namespace Windowing

open HostedList

/-! ## Recorded rows -/

theorem Rows.exists_of_measured? {rows : Rows} (measured : rows.measured?.isSome) :
    ∃ r, rows = .measured r := by
  cases rows with
  | uniform rows => cases measured
  | measured r => exact ⟨r, rfl⟩

/-- A row once the answer about it was recorded. -/
def settledRow (estimate : Nat → UInt32) (answer : Nat → Except MeasureFailure UInt32)
    (row : Nat) : Row :=
  match checkMeasured row (answer row) with
  | .ok size => ⟨size, true⟩
  | .error _ => estimatedRow estimate row

namespace MeasuredRows

variable {r r' : MeasuredRows} {answer : Nat → Except MeasureFailure UInt32}

/-- The size and the flag of a row are answered from the row alone. -/
theorem answers_congr {i : Nat} (same : r'.rows[i]? = r.rows[i]?) :
    RowLayout.size r' i = RowLayout.size r i ∧ r'.isMeasured i = r.isMeasured i := by
  constructor
  · show (r'.rows[i]?.map Row.size).getD 0 = (r.rows[i]?.map Row.size).getD 0
    rw [same]
  · rw [isMeasured, isMeasured, same]

theorem answers_of_getElem? {i : Nat} {row : Row} (found : r.rows[i]? = some row) :
    RowLayout.size r i = row.size ∧ r.isMeasured i = row.measured := by
  constructor
  · show (r.rows[i]?.map Row.size).getD 0 = row.size
    rw [found]
    rfl
  · rw [isMeasured, found]
    rfl

theorem settledRow_eq (estimate : Nat → UInt32) (answer : Nat → Except MeasureFailure UInt32)
    (row : Nat) : settledRow estimate answer row = recordedRow estimate row (recorded answer row) := by
  unfold recorded settledRow
  cases checkMeasured row (answer row) with
  | error failure => rfl
  | ok size => rfl

/-- The rows that were recorded are as the answers say, and the others are as they were. -/
theorem getElem?_settleAll {rows : List Nat} {i : Nat} (inside : i < r.count) :
    (r.settleAll answer rows).rows[i]? =
      if i ∈ rows then some (settledRow r.estimate answer i) else r.rows[i]? := by
  rw [settleAll_eq, getElem?_recordEach_map inside, settledRow_eq]

theorem getElem?_settleAll_of_not_mem {rows : List Nat} {i : Nat} (other : i ∉ rows) :
    (r.settleAll answer rows).rows[i]? = r.rows[i]? := by
  rw [settleAll_eq]
  exact getElem?_recordEach_of_not_mem ((map_fst_entries rows _).symm ▸ other)

end MeasuredRows

/-! ## The answers in a pass -/

/-- No row of a range is asked for twice, so the answers are a function of the row,
even those of a host that changes its mind. -/
theorem exists_answer {s : Type} (ask : Nat → StateM s (Except MeasureFailure UInt32))
    (range : RowRange) (state : s) :
    ∃ answer : Nat → Except MeasureFailure UInt32,
      (answersTo ask range.rows state).1 = range.rows.map answer := by
  have length : (answersTo ask range.rows state).1.length = range.rows.length :=
    length_mapM_run ask range.rows state
  generalize (answersTo ask range.rows state).1 = answers at length ⊢
  refine ⟨fun row => answers[row - range.start]?.getD (.ok 0), List.ext_getElem ?_ ?_⟩
  · rw [length, List.length_map]
  · intro i inside _
    simp [RowRange.rows, inside]

section

variable {ι η s : Type} [Container η]

/-- A pass over measured rows is one against a host that answers by a function of the
row. -/
theorem exists_pass_eq {l : HostedList ι} (measured : l.list.rows.measured?.isSome)
    (ask : Nat → StateM s (Except MeasureFailure UInt32)) (asker : s) (host : η) :
    let window := l.list.published.range.rows
    let pass := ((measureWindow ask l host).run asker).run
    ∃ answer, answersTo ask window asker = (window.map answer, pass.2) ∧
      pass.1 = l.applyMeasurements host (window.map fun row => (row, answer row)) := by
  intro window pass
  obtain ⟨answer, answers⟩ := exists_answer ask l.list.published.range asker
  have run : pass = _ := run_measureWindow measured host ask asker
  rw [run]
  dsimp only
  rw [answers, ← List.map_prod_left_eq_zip]
  exact ⟨answer, Prod.ext answers rfl, rfl⟩

end

/-! ## The report -/

/-- The failure that is reported for a row: what the host failed with, or that the row
has no height. -/
def failure? (answer : Nat → Except MeasureFailure UInt32) (row : Nat) : Option MeasureFailure :=
  match answer row with
  | .ok size => if size = 0 then some (.zeroHeight row) else none
  | .error failure => some failure

variable {answer : Nat → Except MeasureFailure UInt32}

theorem checkMeasured_of_failure?_eq_some {row : Nat} {failure : MeasureFailure}
    (failed : failure? answer row = some failure) :
    checkMeasured row (answer row) = .error failure := by
  revert failed
  unfold failure?
  cases answer row with
  | error other =>
    intro failed
    cases failed
    rfl
  | ok size =>
    intro failed
    dsimp only at failed
    split at failed
    · next zero =>
      cases failed
      exact if_pos zero
    · cases failed

theorem checkMeasured_of_failure?_eq_none {row : Nat} (fine : failure? answer row = none) :
    ∃ size, answer row = .ok size ∧ checkMeasured row (answer row) = .ok size := by
  unfold failure? at fine
  split at fine
  · next size answered =>
    split at fine
    · cases fine
    · next positive =>
      refine ⟨size, answered, ?_⟩
      rw [answered]
      exact if_neg positive
  · cases fine

section

variable {ι η : Type} [Container η] (l : HostedList ι) (host : η) (rows : List Nat)

theorem failures_applyMeasurements :
    (l.applyMeasurements host (rows.map fun row => (row, answer row))).reply.failures =
      rows.filterMap (failure? answer) := by
  unfold HostedList.applyMeasurements
  dsimp only
  rw [List.map_map, List.filterMap_map]
  refine List.filterMap_congr fun row _ => ?_
  dsimp only [Function.comp]
  cases failed : failure? answer row with
  | some failure => rw [checkMeasured_of_failure?_eq_some failed]
  | none =>
    obtain ⟨size, _, checked⟩ := checkMeasured_of_failure?_eq_none failed
    rw [checked]

theorem measured_applyMeasurements :
    (l.applyMeasurements host (rows.map fun row => (row, answer row))).reply.measured =
      rows.countP fun row => (failure? answer row).isNone := by
  unfold HostedList.applyMeasurements
  dsimp only
  rw [List.map_map, List.countP_map]
  refine List.countP_congr fun row _ => ?_
  dsimp only [Function.comp]
  cases failed : failure? answer row with
  | some failure => rw [checkMeasured_of_failure?_eq_some failed]; rfl
  | none =>
    obtain ⟨size, _, checked⟩ := checkMeasured_of_failure?_eq_none failed
    rw [checked]; rfl

/-- Every row is either measured or among the failures. -/
theorem measured_add_failures :
    let report := (l.applyMeasurements host (rows.map fun row => (row, answer row))).reply
    report.measured + report.failures.length = rows.length := by
  dsimp only
  rw [failures_applyMeasurements, measured_applyMeasurements, List.length_filterMap_eq_countP,
    List.length_eq_countP_add_countP fun row => (failure? answer row).isNone]
  refine congrArg _ (List.countP_congr fun row _ => ?_)
  cases failure? answer row <;> simp

end

/-! ## A pass -/

/-- A pass in which the host answered `answer` about the rows of `window` turned the
rows `r` into `r'` and ended with `report`. -/
structure Isolates (answer : Nat → Except MeasureFailure UInt32) (window : List Nat)
    (r r' : MeasuredRows) (report : MeasureReport) : Prop where
  /-- A row with a height has that height, and it counts as measured. -/
  measured : ∀ row ∈ window, ∀ size, answer row = .ok size → size ≠ 0 →
    RowLayout.size r' row = size ∧ r'.isMeasured row = true
  /-- A row that failed has its estimate, raised to at least one. -/
  failed : ∀ row ∈ window, failure? answer row ≠ none →
    (RowLayout.size r' row).toNat = max (r.estimate row).toNat 1 ∧ r'.isMeasured row = false
  untouched : ∀ row ∉ window, RowLayout.size r' row = RowLayout.size r row ∧
    r'.isMeasured row = r.isMeasured row
  failures_eq : report.failures = window.filterMap (failure? answer)
  measured_add_failures : report.measured + report.failures.length = window.length

theorem isolates_settleAll {r : MeasuredRows} {window : List Nat}
    (inside : ∀ row ∈ window, row < r.count) {report : MeasureReport}
    (failures : report.failures = window.filterMap (failure? answer))
    (all : report.measured + report.failures.length = window.length) :
    Isolates answer window r (r.settleAll answer window) report where
  measured row mem size answered positive := by
    have settled : settledRow r.estimate answer row = ⟨size, true⟩ := by
      unfold settledRow checkMeasured
      rw [answered]
      dsimp only
      rw [if_neg positive]
    have recorded : (r.settleAll answer window).rows[row]? = _ :=
      MeasuredRows.getElem?_settleAll (inside row mem)
    rw [if_pos mem, settled] at recorded
    exact MeasuredRows.answers_of_getElem? recorded
  failed row mem failed := by
    obtain ⟨failure, failed⟩ := Option.ne_none_iff_exists'.mp failed
    have settled : settledRow r.estimate answer row = estimatedRow r.estimate row := by
      rw [settledRow, checkMeasured_of_failure?_eq_some failed]
    have recorded : (r.settleAll answer window).rows[row]? = _ :=
      MeasuredRows.getElem?_settleAll (inside row mem)
    rw [if_pos mem, settled] at recorded
    obtain ⟨size, unmeasured⟩ := MeasuredRows.answers_of_getElem? recorded
    exact ⟨size ▸ MeasuredRows.toNat_estimatedRow r.estimate row, unmeasured⟩
  untouched _ other :=
    MeasuredRows.answers_congr (MeasuredRows.getElem?_settleAll_of_not_mem other)
  failures_eq := failures
  measured_add_failures := all

/-- A pass asks for the rows of the published window, each of them once and in order,
and only if the rows are measured at all; otherwise it does nothing. Every row of the
window is recorded by its own answer, whatever the others are, and the rows outside the
window are left alone. -/
theorem pass_isolates_failures {ι η : Type} [Container η] {message : String}
    {start : HostedList ι} (mounted : Mounted η message start) (steps : List (η × Operation ι)) :
    let l := start.run steps
    let window := l.list.published.range.rows
    (∀ {m : Type → Type} [Monad m] [LawfulMonad m] (ask : Nat → m (Except MeasureFailure UInt32))
      (host : η),
      measureWindow ask l host =
        if l.list.rows.measured?.isSome then
          (fun answers => l.applyMeasurements host (window.zip answers)) <$> window.mapM ask
        else pure ⟨(l, host), {}, []⟩) ∧
    ∀ r, l.list.rows = .measured r →
      ∀ {s : Type} (ask : Nat → StateM s (Except MeasureFailure UInt32)) (asker : s) (host : η),
        let pass := ((measureWindow ask l host).run asker).run
        ∃ answer r', answersTo ask window asker = (window.map answer, pass.2) ∧
          pass.1.state.1.list.rows = .measured r' ∧ Isolates answer window r r' pass.1.reply := by
  intro l window
  constructor
  · intro m _ _ ask host
    split
    · next measured => exact measureWindow_eq measured host ask
    · next uniform =>
      exact measureWindow_of_uniform (Option.not_isSome_iff_eq_none.mp uniform) host ask
  · intro r rows s ask asker host
    have measured : l.list.rows.measured?.isSome := by
      rw [rows]
      rfl
    obtain ⟨answer, answers, pass⟩ := exists_pass_eq measured ask asker host
    refine ⟨answer, r.settleAll answer window, answers, ?_, ?_⟩
    · rw [pass, state_applyMeasurements, Session.batchOf_answers]
      exact WindowedList.rows_recordAll rows window
    · rw [pass]
      refine isolates_settleAll (fun row mem => ?_) (failures_applyMeasurements l host window)
        (measured_add_failures l host window)
      have current := (sound_run mounted.sound steps).current
      have inside := WindowedList.lt_count_of_mem_published current mem
      rw [WindowedList.count, rows] at inside
      exact inside

/-- A measurer that changes its mind with every call: it finds the second row it is asked
for detached, and the third without height. -/
def askWavering (row : Nat) : StateM Nat (Except MeasureFailure UInt32) := do
  let asked ← getModify (· + 1)
  return if asked = 1 then .error (.detached row) else .ok (if asked = 2 then 0 else 40)

/-- A first pass measures five rows, and its window has four of them. In a second pass two
of the four fail and fall back to their estimate. -/
theorem pass_isolates_failures_wavering :
    ∃ start host, mount ({ height := .ofNat 100 } : PlainHost) #[0, 1, 2, 3, 4, 5]
        { estimatedHeight := some 20, overscan := 0 } = (.ok start, host) ∧
      let l := start.run [(host, .measure (fun _ => pure (.ok 25)) ())]
      let report := ((measureWindow askWavering l host).run 0).run.1.reply
      report.measured = 2 ∧ report.failures = [.detached 1, .zeroHeight 2] ∧
        ∃ answer r r', l.list.rows = .measured r ∧ Isolates answer [0, 1, 2, 3] r r' report := by
  obtain ⟨start, host, made⟩ : ∃ start host, mount ({ height := .ofNat 100 } : PlainHost)
      #[0, 1, 2, 3, 4, 5] { estimatedHeight := some 20, overscan := 0 } = (.ok start, host) :=
    ⟨_, _, rfl⟩
  let first : List (PlainHost × Operation Nat) := [(host, .measure (fun _ => pure (.ok 25)) ())]
  obtain ⟨measured, window⟩ : (start.run first).list.rows.measured?.isSome ∧
      (start.run first).list.published.range.rows = [0, 1, 2, 3] := by
    cases made
    decide +kernel
  obtain ⟨r, rows⟩ := Rows.exists_of_measured? measured
  obtain ⟨_, isolates⟩ := pass_isolates_failures (.ofConfig made rfl) first
  obtain ⟨answer, r', _, _, isolates⟩ := isolates r rows askWavering 0 host
  rw [window] at isolates
  refine ⟨start, host, made, ?_, ?_, answer, r, r', rows, isolates⟩
  · cases made
    decide +kernel
  · cases made
    decide +kernel

end Windowing
