import Windowing.Proofs.Hosted.Drawing
import Windowing.Proofs.Hosted.Isolation

/-!
# When a list has to be drawn again

A list reports a window when it is not the one published before. A window is a range of
rows, the place of the first and the length of the track; it says nothing of the rows
in between. So an event that reports none leaves the frame as it was, for it changes no
row. A pass that reports none can change the sizes of rows, though only so that the
whole track and all before the window keep their length.

Results:
1. `draw_of_sameContent`: after a change that reports no window the same items are
   drawn in the same order, each at its present place.
2. `sameDrawing_receive`: after an event that reports none the frame is the same.
3. `sameDrawing_iff`: after a pass that reports none it is the same if and only if no row
   of the window has another size.
4. `redraw_iff_resized`: so it is in every run.
-/

namespace Windowing

open HostedList

/-! ## Frames and places -/

section

variable {σ ν : Type} [RowLayout σ]

/-- The row at the place where a layout has it. -/
def PlacedRow.relaid (rows : σ) (row : PlacedRow ν) : PlacedRow ν :=
  { row with
    start := RowLayout.start rows row.index
    size := RowLayout.size rows row.index }

/-- The frame with every row at the place where a layout has it. -/
def Frame.relaid (rows : σ) : Frame ν → Frame ν
  | .rows extent top placed => .rows extent top (placed.map (PlacedRow.relaid rows))
  | .empty message => .empty message

end

section

variable {ι : Type} {l l' : HostedList ι} {message : String}

/-- Two lists draw the same items in the same window, if maybe at other places. -/
structure SameContent (l l' : HostedList ι) : Prop where
  published_eq : l'.list.published = l.list.published
  items_eq : l'.items = l.items
  message_eq : l'.emptyMessage = l.emptyMessage

/-- Two lists draw the same frame, with any drawing function. -/
structure SameDrawing (l l' : HostedList ι) : Prop where
  draw_eq : ∀ {m : Type → Type} [Monad m] [LawfulMonad m] {ν : Type} (node : ι → Nat → m ν),
    l'.draw node = l.draw node

theorem SameDrawing.refl (l : HostedList ι) : SameDrawing l l := ⟨fun _ => rfl⟩

theorem SameContent.placed_eq (same : SameContent l l') :
    l'.placed = l.placed.map (PlacedRow.relaid l'.list.rows) := by
  unfold placed
  rw [same.published_eq, List.map_filterMap]
  refine List.filterMap_congr fun index _ => ?_
  rw [placedAt, placedAt, same.items_eq, Option.map_map]
  rfl

/-- Drawing rows at other places asks for the same nodes. -/
theorem mapM_relaid {σ : Type} [RowLayout σ] (rows : σ) {m : Type → Type} [Monad m]
    [LawfulMonad m] {ν : Type} (node : ι → Nat → m ν) (placed : List (PlacedRow ι)) :
    ((placed.map (PlacedRow.relaid rows)).mapM fun row =>
        row.withNode <$> node row.node row.index) =
      List.map (PlacedRow.relaid rows) <$>
        placed.mapM fun row => row.withNode <$> node row.node row.index := by
  induction placed with
  | nil => simp
  | cons row placed ih =>
    rw [List.map_cons, List.mapM_cons, List.mapM_cons, ih]
    simp only [bind_pure_comp, Functor.map_map, bind_map_left, map_bind]
    rfl

theorem draw_of_sameContent (same : SameContent l l') {m : Type → Type} [Monad m]
    [LawfulMonad m] {ν : Type} (node : ι → Nat → m ν) :
    l'.draw node = Frame.relaid l'.list.rows <$> l.draw node := by
  by_cases none : l.items.size = 0
  · have empty : l.items.isEmpty := Array.isEmpty_iff_size_eq_zero.mpr none
    rw [draw, draw, same.items_eq, same.message_eq, if_pos empty, if_pos empty, map_pure]
    rfl
  · rw [draw_eq_mapM_placed none, draw_eq_mapM_placed (same.items_eq ▸ none), same.placed_eq,
      same.published_eq, mapM_relaid, Functor.map_map, Functor.map_map]
    rfl

/-- With every row at its old place the frame is the same. -/
theorem sameDrawing_of_places (same : SameContent l l')
    (start : RowLayout.start l'.list.rows = RowLayout.start l.list.rows)
    (size : RowLayout.size l'.list.rows = RowLayout.size l.list.rows) : SameDrawing l l' := by
  refine ⟨fun {m} _ _ {ν} node => ?_⟩
  have row : l'.drawRow node = l.drawRow node := by
    funext index
    unfold drawRow
    rw [same.items_eq, start, size]
  unfold draw
  rw [same.items_eq, same.message_eq, same.published_eq, row]

theorem sameDrawing_of_list {list : WindowedList Rows}
    (published : list.published = l.list.published) (rows : list.rows = l.list.rows) :
    SameDrawing l { l with list } := by
  refine sameDrawing_of_places ⟨published, rfl, rfl⟩ ?_ ?_
  · exact congrArg RowLayout.start rows
  · exact congrArg RowLayout.size rows

/-! ## The same frame, the same sizes -/

theorem HostedList.Sound.map_size_placed (sound : l.Sound message) :
    l.placed.map PlacedRow.size =
      l.list.published.range.rows.map (RowLayout.size l.list.rows) := by
  rw [← sound.index_placed, List.map_map]
  exact List.map_congr_left fun row mem => (mem_placed mem).2.2

theorem placed_draw (some : l.items.size ≠ 0) :
    (Id.run (l.draw fun _ _ => pure ())).placed = l.placed.map (PlacedRow.withNode · ()) := by
  rw [draw_eq_mapM_placed some]
  simp [Frame.placed]

/-- If all frames are the same, then so are the sizes of the rows in the window. -/
theorem SameDrawing.size_eq (same : SameContent l l') (drawing : SameDrawing l l')
    (sound : l.Sound message) (sound' : l'.Sound message) {row : Nat}
    (mem : row ∈ l.list.published.range.rows) :
    RowLayout.size l'.list.rows row = RowLayout.size l.list.rows row := by
  have some : l.items.size ≠ 0 := Nat.ne_of_gt (Nat.zero_lt_of_lt (sound.lt_size_of_mem mem))
  have placed :
      l'.placed.map (PlacedRow.withNode · ()) = l.placed.map (PlacedRow.withNode · ()) := by
    rw [← placed_draw some, ← placed_draw (same.items_eq ▸ some), drawing.draw_eq]
  have sizes := congrArg (List.map PlacedRow.size) placed
  rw [List.map_map, List.map_map] at sizes
  have sizes : l'.placed.map PlacedRow.size = l.placed.map PlacedRow.size := sizes
  rw [sound.map_size_placed, sound'.map_size_placed, same.published_eq] at sizes
  exact List.map_inj_left.mp sizes row mem

end

/-! ## What reports no window -/

theorem WindowedList.Publishes.published_of_none {σ : Type} [RowLayout σ] {l : WindowedList σ}
    {o : Outcome (WindowedList σ) (Option Window)} (publishes : Publishes l o)
    (none : o.reply = none) : o.state.published = l.published := by
  rw [publishes.reply_eq, news] at none
  by_contra new
  rw [if_pos new] at none
  cases none

section

variable {ι η s : Type} {l : HostedList ι} {message : String}

variable [Container η] {ask : Nat → StateM s (Except MeasureFailure UInt32)} {asker : s} {host : η}

/-- An event that reports no window leaves the frame as it was. -/
theorem sameDrawing_receive (event : HostEvent) (none : (l.receive event).reply = none) :
    SameDrawing l (l.receive event).state := by
  unfold receive at none ⊢
  split at none
  · next mounted =>
    rw [if_pos mounted]
    cases event with
    | scroll offset now =>
      have publishes : WindowedList.Publishes l.list (l.list.scroll offset.toOffset now) :=
        WindowedList.publishes_publish rfl rfl
      exact sameDrawing_of_list (publishes.published_of_none none) rfl
    | resize height =>
      have publishes : WindowedList.Publishes l.list (l.list.setHeight height.toHeight) :=
        WindowedList.publishes_publish rfl rfl
      exact sameDrawing_of_list (publishes.published_of_none none) rfl
  · next unmounted =>
    rw [if_neg unmounted]
    exact .refl l

theorem sameContent_measureWindow
    (none : ((measureWindow ask l host).run asker).run.1.reply.window = none) :
    SameContent l ((measureWindow ask l host).run asker).run.1.state.1 := by
  by_cases measured : l.list.rows.measured?.isSome
  · obtain ⟨answer, _, pass⟩ := exists_pass_eq measured ask asker host
    rw [pass, window_applyMeasurements] at none
    rw [pass, state_applyMeasurements]
    exact ⟨(WindowedList.publishes_recordAll _ _).published_of_none none, rfl, rfl⟩
  · rw [measureWindow_of_uniform (Option.not_isSome_iff_eq_none.mp measured)]
    exact ⟨rfl, rfl, rfl⟩

/-- A pass that changes the size of no row in the window changes the place of no row. -/
theorem sameDrawing_measureWindow (current : l.list.published = l.list.currentWindow)
    (kept : ∀ row ∈ l.list.published.range.rows,
      RowLayout.size ((measureWindow ask l host).run asker).run.1.state.1.list.rows row =
        RowLayout.size l.list.rows row) :
    SameDrawing l ((measureWindow ask l host).run asker).run.1.state.1 := by
  by_cases measured : l.list.rows.measured?.isSome
  · obtain ⟨answer, _, pass⟩ := exists_pass_eq measured ask asker host
    obtain ⟨r, rows⟩ := Rows.exists_of_measured? measured
    rw [pass, state_applyMeasurements, Session.batchOf_answers] at kept ⊢
    have settled : ∀ row ∈ l.list.published.range.rows, r.Settled answer row := by
      intro row mem
      have inside := WindowedList.lt_count_of_mem_published current mem
      rw [WindowedList.count, rows] at inside
      have recorded := kept row mem
      rw [WindowedList.rows_recordAll rows, rows] at recorded
      exact recorded.symm.trans ((MeasuredRows.size_settleAll inside).trans (if_pos mem))
    rw [WindowedList.recordAll_of_settled rows current settled]
    have same := (MeasuredRows.sameAnswers_settleAll settled).measured
    rw [← rows] at same
    refine sameDrawing_of_places ⟨rfl, rfl, rfl⟩ ?_ ?_
    · exact same.start_eq
    · exact same.size_eq
  · rw [measureWindow_of_uniform (Option.not_isSome_iff_eq_none.mp measured)]
    exact .refl l

theorem sameDrawing_iff (sound : l.Sound message)
    (none : ((measureWindow ask l host).run asker).run.1.reply.window = none) :
    SameDrawing l ((measureWindow ask l host).run asker).run.1.state.1 ↔
      ∀ row ∈ l.list.published.range.rows,
        RowLayout.size ((measureWindow ask l host).run asker).run.1.state.1.list.rows row =
          RowLayout.size l.list.rows row := by
  constructor
  · intro drawing row mem
    have after := sound_operate sound host (.measure ask asker)
    exact drawing.size_eq (sameContent_measureWindow none) sound after mem
  · exact sameDrawing_measureWindow sound.current

end

/-! ## Runs -/

/-- In every run, an event that reports no window leaves the frame as it was, with any
drawing function. So does a pass that reports none, if it changes the size of no row in
the window, and only then. In any case a pass that reports none leaves the same items in
the same order, at the same place on the track and on a track of the same length; all
that changes is where in the window each of them is, and how high. -/
theorem redraw_iff_resized {ι η : Type} [Container η] {message : String} {start : HostedList ι}
    (mounted : Mounted η message start) (steps : List (η × Operation ι)) :
    let l := start.run steps
    (∀ event, (l.receive event).reply = none → SameDrawing l (l.receive event).state) ∧
    ∀ {s : Type} (ask : Nat → StateM s (Except MeasureFailure UInt32)) (asker : s) (host : η),
      let pass := ((measureWindow ask l host).run asker).run.1
      pass.reply.window = none →
        (∀ {m : Type → Type} [Monad m] [LawfulMonad m] {ν : Type} (node : ι → Nat → m ν),
          pass.state.1.draw node = Frame.relaid pass.state.1.list.rows <$> l.draw node) ∧
        (SameDrawing l pass.state.1 ↔ ∀ row ∈ l.list.published.range.rows,
          RowLayout.size pass.state.1.list.rows row = RowLayout.size l.list.rows row) := by
  intro l
  have sound : l.Sound message := sound_run mounted.sound steps
  refine ⟨fun event none => sameDrawing_receive event none, fun ask asker host => ?_⟩
  intro pass none
  exact ⟨draw_of_sameContent (sameContent_measureWindow none), sameDrawing_iff sound none⟩

/-- Of two rows of an estimated height of `10` the first is lower and the second higher. -/
def askUneven (row : Nat) : StateM Unit (Except MeasureFailure UInt32) :=
  pure (.ok (if row = 0 then 5 else 15))

/-- Once both rows are measured, neither a scroll past the end nor another pass changes the
frame. -/
theorem redraw_iff_resized_uneven :
    ∃ start host, mount ({ height := .ofNat 20 } : PlainHost) #[7, 8]
        { estimatedHeight := some 10 } = (.ok start, host) ∧
      let l := start.run [(host, .measure askUneven ())]
      let pass := ((measureWindow askUneven l host).run ()).run.1
      (l.receive (.scroll (.ofNat 3) 100)).reply = none ∧ pass.reply.window = none ∧
        SameDrawing l (l.receive (.scroll (.ofNat 3) 100)).state ∧ SameDrawing l pass.state.1 := by
  obtain ⟨start, host, made⟩ : ∃ start host, mount ({ height := .ofNat 20 } : PlainHost) #[7, 8]
      { estimatedHeight := some 10 } = (.ok start, host) := ⟨_, _, rfl⟩
  let first : List (PlainHost × Operation Nat) := [(host, .measure askUneven ())]
  obtain ⟨scrolled, passed, kept⟩ :
      ((start.run first).receive (.scroll (.ofNat 3) 100)).reply = none ∧
      ((measureWindow askUneven (start.run first) host).run ()).run.1.reply.window = none ∧
      ∀ row ∈ (start.run first).list.published.range.rows,
        RowLayout.size
            ((measureWindow askUneven (start.run first) host).run ()).run.1.state.1.list.rows row =
          RowLayout.size (start.run first).list.rows row := by
    cases made
    decide +kernel
  obtain ⟨events, passes⟩ := redraw_iff_resized (.ofConfig made rfl) first
  obtain ⟨_, same⟩ := passes askUneven () host passed
  exact ⟨start, host, made, scrolled, passed, events _ scrolled, same.mpr kept⟩

/-- The first pass reports no window, and yet the second row has moved up. -/
theorem uneven_rows_move_unreported :
    ∃ start host, mount ({ height := .ofNat 20 } : PlainHost) #[7, 8]
        { estimatedHeight := some 10 } = (.ok start, host) ∧
      let pass := ((measureWindow askUneven start host).run ()).run.1
      pass.reply.window = none ∧
        Id.run (start.draw fun item _ => pure item) = .rows 20 0 [⟨0, 0, 10, 7⟩, ⟨1, 10, 10, 8⟩] ∧
        Id.run (pass.state.1.draw fun item _ => pure item) =
          .rows 20 0 [⟨0, 0, 5, 7⟩, ⟨1, 5, 15, 8⟩] ∧
        ¬SameDrawing start pass.state.1 := by
  obtain ⟨start, host, made⟩ : ∃ start host, mount ({ height := .ofNat 20 } : PlainHost) #[7, 8]
      { estimatedHeight := some 10 } = (.ok start, host) := ⟨_, _, rfl⟩
  obtain ⟨none, before, after⟩ :
      ((measureWindow askUneven start host).run ()).run.1.reply.window = none ∧
      Id.run (start.draw fun item _ => pure item) = .rows 20 0 [⟨0, 0, 10, 7⟩, ⟨1, 10, 10, 8⟩] ∧
      Id.run (((measureWindow askUneven start host).run ()).run.1.state.1.draw
        fun item _ => pure item) = .rows 20 0 [⟨0, 0, 5, 7⟩, ⟨1, 5, 15, 8⟩] := by
    cases made
    decide +kernel
  refine ⟨start, host, made, none, before, after, fun same => ?_⟩
  rw [same.draw_eq, before] at after
  revert after
  decide

end Windowing
