import Windowing.Hosted.HostedList
import Windowing.Proofs.WindowedList.Anchoring

/-!
# Measuring keeps the visible rows in place

Rows are measured one at a time, in batches, or by a pass over the published
window. A pass asks the host for the rows of the window in order, so what it
records is a batch in ascending row order, whatever the host answers
(`recordsAscending_measureWindow`). Hence all three anchor the first row that
does not start above the scroll position (`measurements_anchor`).
-/

namespace Windowing

namespace HostedList

variable {ι η : Type} {m : Type → Type} [Container η] [Monad m]

/-- A pass over the window asks for its rows in order. Whatever the answers are,
the list after it is the one after a batch in ascending row order. -/
def RecordsAscending (l : HostedList ι) (host : η)
    (ask : Nat → m (Except MeasureFailure UInt32)) : Prop :=
  ∃ finish : List (Except MeasureFailure UInt32) → Outcome (HostedList ι × η) MeasureReport,
    measureWindow ask l host = finish <$> l.list.published.range.rows.mapM ask ∧
      ∀ answers, ∃ entries, Ascending entries ∧
        (finish answers).state.1.list = (l.list.act (.recordAll entries)).state

theorem mapM_pair [LawfulMonad m] {α β : Type} (ask : α → m β) (rows : List α) :
    (rows.mapM fun row => do return (row, ← ask row)) = rows.zip <$> rows.mapM ask := by
  induction rows with
  | nil => rw [List.mapM_nil, List.mapM_nil, map_pure, List.zip_nil_left]
  | cons row rows ih =>
    rw [List.mapM_cons, List.mapM_cons, ih]
    simp

theorem ascending_rows (range : RowRange) : range.rows.Pairwise (· < ·) :=
  List.pairwise_lt_range'

/-- Answers paired with the rows of a range, as a batch, are in ascending row
order. There may be fewer answers than rows. -/
theorem ascending_zip {α : Type} (range : RowRange) (answers : List α)
    (size : Nat → α → Option UInt32) :
    Ascending ((range.rows.zip answers).map fun answer => (answer.1, size answer.1 answer.2)) := by
  unfold Ascending
  rw [List.map_map]
  show ((range.rows.zip answers).map Prod.fst).Pairwise (· < ·)
  rw [List.zip_eq_zip_take_min, List.map_fst_zip (by simp)]
  exact (ascending_rows range).sublist (List.take_sublist _ _)

/-- A pass over measured rows asks for the rows of the window in order and then
applies all answers at once. -/
theorem measureWindow_eq [LawfulMonad m] {l : HostedList ι}
    (measured : l.list.rows.measured?.isSome) (host : η)
    (ask : Nat → m (Except MeasureFailure UInt32)) :
    measureWindow ask l host =
      (fun answers => l.applyMeasurements host (l.list.published.range.rows.zip answers)) <$>
        l.list.published.range.rows.mapM ask := by
  obtain ⟨rows, found⟩ := Option.isSome_iff_exists.mp measured
  unfold measureWindow
  rw [found]
  dsimp only
  rw [mapM_pair, bind_pure_comp, Functor.map_map]

/-- What a pass records for the answers about some rows: a size for each row that
was measured, and `none` for each that failed. -/
def batchOf (answers : List (Nat × Except MeasureFailure UInt32)) : List (Nat × Option UInt32) :=
  answers.map fun answer => (answer.1, (checkMeasured answer.1 answer.2).toOption)

theorem map_verdicts (answers : List (Nat × Except MeasureFailure UInt32)) :
    (answers.map fun answer => (answer.1, checkMeasured answer.1 answer.2)).map
      (fun verdict => (verdict.1, verdict.2.toOption)) = batchOf answers :=
  List.map_map

theorem state_applyMeasurements (l : HostedList ι) (host : η)
    (answers : List (Nat × Except MeasureFailure UInt32)) :
    (l.applyMeasurements host answers).state.1 =
      { l with list := (l.list.recordAll (batchOf answers)).state } := by
  unfold applyMeasurements
  dsimp only
  rw [map_verdicts]

theorem window_applyMeasurements (l : HostedList ι) (host : η)
    (answers : List (Nat × Except MeasureFailure UInt32)) :
    (l.applyMeasurements host answers).reply.window = (l.list.recordAll (batchOf answers)).reply := by
  unfold applyMeasurements
  dsimp only
  rw [map_verdicts]

/-- The container is told of the scroll position if the batch moved it. -/
theorem scroll_applyMeasurements (l : HostedList ι) (host : η)
    (answers : List (Nat × Except MeasureFailure UInt32)) :
    let offset := (l.list.recordAll (batchOf answers)).state.view.offset
    (l.applyMeasurements host answers).state.2 =
        (if offset = l.list.view.offset then host else Container.scrollTo host (.ofNat offset)) ∧
      (l.applyMeasurements host answers).reply.scrolledTo =
        if offset = l.list.view.offset then none else some offset := by
  intro offset
  unfold applyMeasurements
  dsimp only
  rw [map_verdicts]
  by_cases stays : (l.list.recordAll (batchOf answers)).state.view.offset = l.list.view.offset <;>
    simp [offset, stays]

theorem recordsAscending_measureWindow [LawfulMonad m] (l : HostedList ι) (host : η)
    (ask : Nat → m (Except MeasureFailure UInt32)) (measured : l.list.rows.measured?.isSome) :
    l.RecordsAscending host ask := by
  refine ⟨fun answers => l.applyMeasurements host (l.list.published.range.rows.zip answers),
    measureWindow_eq measured host ask, fun answers => ⟨_,
      ascending_zip l.list.published.range answers fun row answer =>
        (checkMeasured row answer).toOption, ?_⟩⟩
  exact congrArg HostedList.list (state_applyMeasurements l host _)

end HostedList

/-! ## Anchoring -/

/-- A measurement, a batch in ascending row order and a pass over the window
all keep the first row that does not start above the scroll position where it
is on screen. Only when the position stops at zero does the row come closer, as
far as there is track above it. -/
theorem measurements_anchor {σ : Type} [ExactRefinable σ] {l : WindowedList σ}
    (reachable : l.Reachable) {action : Action σ} {entries : List (Nat × Option UInt32)}
    (batch : action.batch? = some entries) (ascending : Ascending entries)
    (fit : l.SizesFit entries) (room : l.OffsetFits entries) :
    (let above := rowsAbove l.rows l.view.offset
     let after := (l.act action).state
     (RowLayout.start after.rows above : Int) - after.view.offset =
      min ((RowLayout.start l.rows above : Int) - l.view.offset)
        (RowLayout.start after.rows above)) ∧
    ∀ {ι η : Type} {m : Type → Type} [Container η] [Monad m] [LawfulMonad m]
      (hosted : HostedList ι) (host : η) (ask : Nat → m (Except MeasureFailure UInt32)),
      hosted.list.rows.measured?.isSome → hosted.RecordsAscending host ask := by
  constructor
  · rw [WindowedList.state_act_of_batch batch l]
    exact WindowedList.distance_recordAll reachable.rows ascending fit room
  · intro ι η m _ _ _ hosted host ask measured
    exact hosted.recordsAscending_measureWindow host ask measured

/-- Three rows of size `10`. -/
def threeRows : MeasuredRows :=
  ⟨fun _ => 10, #[⟨10, false⟩, ⟨10, false⟩, ⟨10, false⟩], .ofSizes [10, 10, 10]⟩

/-- The rows above the position and the row across it shrink to nothing, and the
position stops at zero. The row after them was `5` pixels below the position. -/
theorem measurements_anchor_threeRows :
    let l : WindowedList MeasuredRows := .ofRows threeRows {} ⟨15, 20⟩
    let entries : List (Nat × Option UInt32) := [(0, some 0), (1, some 0), (7, some 4)]
    let after := (l.act (.recordAll entries)).state
    after.view.offset = 0 ∧ rowsAbove l.rows 15 = 2 ∧
      (RowLayout.start after.rows 2 : Int) - after.view.offset =
        min ((RowLayout.start l.rows 2 : Int) - 15) (RowLayout.start after.rows 2) := by
  intro l entries after
  have built : MeasuredRows.ofEstimate 3 (fun _ => 10) = .ok threeRows := rfl
  have reachable : l.Reachable := .ofRows {} ⟨15, 20⟩ (.ofEstimate built (by decide))
  have batch : (Action.recordAll entries : Action MeasuredRows).batch? = some entries := rfl
  have fit : l.SizesFit entries := ⟨by decide +kernel, by decide +kernel, by decide +kernel, trivial⟩
  have room : l.OffsetFits entries :=
    ⟨by decide +kernel, by decide +kernel, by decide +kernel, trivial⟩
  have above : rowsAbove l.rows l.view.offset = 2 := by decide +kernel
  obtain ⟨anchor, _⟩ := measurements_anchor reachable batch (by simp [Ascending, entries]) fit room
  rw [above] at anchor
  exact ⟨by decide +kernel, above, anchor⟩

end Windowing
