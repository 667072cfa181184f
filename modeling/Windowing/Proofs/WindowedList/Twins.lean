import Windowing.Proofs.Rows.Level
import Windowing.Proofs.WindowedList.Anchoring
import Windowing.Proofs.WindowedList.Publishing

/-!
# Lists that cannot be told apart

A list over rows of one height, and a list over measured rows whose estimate is
that height, compute their answers in different ways. This module runs the same
actions on both and compares all that can be seen of them.

`l.withRows rows'` is the list `l` over another layout. As long as the two
layouts are twins, an action on `l.withRows rows'` has the outcome of the action
on `l`, once more over another layout (`sameOutcome_act`). Hence the two lists show
the same all along (`trace_withRows`).

Results:
1. `SameAnswers.windowAt_eq`, `SameAnswers.revealOffset_eq`: what is computed from
   the answers of a layout is the same for both.
2. `sameOutcome_act`: one action keeps two layouts twins and the rest equal.
3. `trace_uniform_eq_trace_measured`: counting rows of one height and keeping them
   one by one cannot be told apart.
-/

namespace Windowing

/-! ## Actions that bring no layout -/

/-- An action that brings no layout of its own, as an action on lists over `σ`. -/
def Action.on (σ : Type) : Action Empty → Action σ
  | .setOffset offset => .setOffset offset
  | .setHeight height => .setHeight height
  | .setFrame height offset => .setFrame height offset
  | .scroll offset now => .scroll offset now
  | .settle now => .settle now
  | .reveal row align => .reveal row align
  | .setOverscan overscan => .setOverscan overscan
  | .resize count => .resize count
  | .publish => .publish
  | .measure row size => .measure row size
  | .forget row => .forget row
  | .recordAll entries => .recordAll entries
  | .forgetAll => .forgetAll

/-- The action measures no other height, and makes no more rows than fit. -/
def Action.KeepsHeight (height : UInt32) : Action Empty → Prop
  | .measure _ size => size = height
  | .recordAll entries => ∀ entry ∈ entries, ∀ size ∈ entry.2, size = height
  | .resize count => height.toNat * count ≤ Offset.limit
  | _ => True

/-! ## What can be seen of a list -/

/-- All that a list answers when it is asked. -/
structure Look where
  view : Viewport
  options : Options
  published : Window
  visible : RowRange
  count : Nat
  extent : Nat
  start : Nat → Nat
  size : Nat → UInt32
  rowAt : Nat → Option Nat
  isScrolling : Bool
  direction : Option Direction

namespace WindowedList

/-- What a list shows. -/
def look {σ : Type} [RowLayout σ] (l : WindowedList σ) : Look where
  view := l.view
  options := l.options
  published := l.published
  visible := l.visible
  count := l.count
  extent := l.extent
  start := RowLayout.start l.rows
  size := RowLayout.size l.rows
  rowAt := RowLayout.rowAt l.rows
  isScrolling := l.isScrolling
  direction := l.direction

/-- What a run of actions shows step by step: the answer to each action, the
windows the listener was told of, and the list after it. -/
def trace {σ : Type} [Refinable σ] (l : WindowedList σ) : List (Action σ) → List (Outcome Look Reply)
  | [] => []
  | action :: actions => (l.act action).mapState look :: (l.act action).state.trace actions

/-- The list over another layout. -/
def withRows {σ τ : Type} (l : WindowedList σ) (rows : τ) : WindowedList τ :=
  { l with rows }

end WindowedList

/-! ## What is computed from the answers -/

section

variable {σ τ : Type} [RowLayout σ] [RowLayout τ] {rows : σ} {rows' : τ}

namespace SameAnswers

theorem clampOffset_eq (same : SameAnswers rows rows') (height : UInt32) (offset : Nat) :
    clampOffset rows' height offset = clampOffset rows height offset := by
  rw [clampOffset, scrollLimit, same.extent_eq, clampOffset, scrollLimit]

theorem visibleRange_eq (same : SameAnswers rows rows') (view : Viewport) :
    visibleRange rows' view = visibleRange rows view := by
  unfold visibleRange
  rw [same.count_eq, same.extent_eq, same.rowAt_eq, same.clampOffset_eq]

theorem windowAt_eq (same : SameAnswers rows rows') (view : Viewport) (overscan : Nat) :
    windowAt rows' view overscan = windowAt rows view overscan := by
  unfold windowAt
  rw [same.visibleRange_eq, same.count_eq, same.extent_eq, same.start_eq]

theorem revealOffset_eq (same : SameAnswers rows rows') (view : Viewport) (row : Nat)
    (align : Align) : revealOffset rows' view row align = revealOffset rows view row align := by
  unfold revealOffset
  simp only [same.count_eq, same.start_eq, same.size_eq, same.clampOffset_eq]

end SameAnswers

namespace WindowedList

variable {l : WindowedList σ}

theorem look_withRows (same : SameAnswers l.rows rows') : (l.withRows rows').look = l.look := by
  unfold look
  simp only [Look.mk.injEq]
  exact ⟨rfl, rfl, rfl, same.visibleRange_eq l.view, same.count_eq, same.extent_eq, same.start_eq,
    same.size_eq, same.rowAt_eq, rfl, rfl⟩

/-- A measurement that changes no size moves no row, so the scroll position stays. -/
theorem record_of_unchanged {υ : Type} [Refinable υ] {l : WindowedList υ} {i : Nat}
    {measured : Option UInt32} (unchanged : (Refinable.record l.rows i measured).2 = 0) :
    l.record i measured = l.withRows (Refinable.record l.rows i measured).1 := by
  have moved : l.record i measured =
      { l with
        rows := (Refinable.record l.rows i measured).1
        view := { l.view with
          offset := followed l.view.offset (RowLayout.start l.rows i)
            (Refinable.record l.rows i measured).2 } } := rfl
  rw [moved, unchanged, followed, if_neg fun changed => changed.1 rfl]
  rfl

theorem publish_withRows (same : SameAnswers l.rows rows') :
    (l.withRows rows').publish = l.publish.mapState (·.withRows rows') := by
  have current : (l.withRows rows').currentWindow = l.currentWindow := same.windowAt_eq l.view _
  unfold publish
  rw [current]
  rfl

end WindowedList

end

/-! ## Twins -/

section

variable {σ τ : Type} [LevelLayout σ] [LevelLayout τ] {height : UInt32} {rows : σ} {rows' : τ}

/-- Two layouts of as many rows of one height. -/
structure Twins (height : UInt32) (rows : σ) (rows' : τ) : Prop where
  level : LevelLayout.Level height rows
  level' : LevelLayout.Level height rows'
  count_eq : RowLayout.count rows' = RowLayout.count rows

namespace Twins

theorem sameAnswers (twins : Twins height rows rows') : SameAnswers rows rows' := by
  have laid' := LevelLayout.laysOut twins.level'
  rw [twins.count_eq] at laid'
  exact (LevelLayout.laysOut twins.level).sameAnswers laid'

theorem resize (twins : Twins height rows rows') {count : Nat}
    (room : height.toNat * count ≤ Offset.limit) :
    Twins height (RowLayout.resize rows count) (RowLayout.resize rows' count) := by
  obtain ⟨level, count_eq⟩ := LevelLayout.level_resize twins.level room
  obtain ⟨level', count_eq'⟩ := LevelLayout.level_resize twins.level' room
  exact ⟨level, level', count_eq'.trans count_eq.symm⟩

theorem record (twins : Twins height rows rows') (i : Nat) {measured : Option UInt32}
    (same : ∀ size ∈ measured, size = height) :
    Twins height (Refinable.record rows i measured).1 (Refinable.record rows' i measured).1 := by
  obtain ⟨level, count_eq, _⟩ := LevelLayout.level_record i twins.level same
  obtain ⟨level', count_eq', _⟩ := LevelLayout.level_record i twins.level' same
  exact ⟨level, level', by rw [count_eq, count_eq', twins.count_eq]⟩

end Twins

/-! ## Actions on twins -/

/-- The outcome `o'` is `o` over another layout, a twin of the one in `o`. -/
def SameOutcome {α : Type} (height : UInt32) (o : Outcome (WindowedList σ) α)
    (o' : Outcome (WindowedList τ) α) : Prop :=
  ∃ rows' : τ, Twins height o.state.rows rows' ∧ o' = o.mapState (·.withRows rows')

theorem SameOutcome.map {α β : Type} {o : Outcome (WindowedList σ) α}
    {o' : Outcome (WindowedList τ) α} (same : SameOutcome height o o') (f : α → β) :
    SameOutcome height (o.map f) (o'.map f) := by
  obtain ⟨rows', twins, rfl⟩ := same
  exact ⟨rows', twins, rfl⟩

namespace WindowedList

variable {l : WindowedList σ}

theorem sameOutcome_publish (twins : Twins height l.rows rows') :
    SameOutcome height l.publish (l.withRows rows').publish :=
  ⟨rows', twins, publish_withRows twins.sameAnswers⟩

theorem sameOutcome_settle (twins : Twins height l.rows rows') (now : Nat) :
    SameOutcome height (l.settle now) ((l.withRows rows').settle now) := by
  have unchanged : SameOutcome height (⟨l, false, []⟩ : Outcome _ Bool)
      ⟨l.withRows rows', false, []⟩ := ⟨rows', twins, rfl⟩
  have last_eq : (l.withRows rows').lastScroll = l.lastScroll := rfl
  have delay_eq : (l.withRows rows').options.settleDelay = l.options.settleDelay := rfl
  unfold settle
  rw [last_eq, delay_eq]
  cases l.lastScroll with
  | none => exact unchanged
  | some last =>
    dsimp only
    split
    · exact unchanged
    · exact ⟨rows', twins, rfl⟩

theorem sameOutcome_reveal (twins : Twins height l.rows rows') (row : Nat) (align : Align) :
    SameOutcome height (l.reveal row align) ((l.withRows rows').reveal row align) := by
  have target : revealOffset (l.withRows rows').rows (l.withRows rows').view row align =
      revealOffset l.rows l.view row align := twins.sameAnswers.revealOffset_eq l.view row align
  have moved : Twins height (l.movedTo (revealOffset l.rows l.view row align)).rows rows' := twins
  unfold reveal
  rw [target]
  exact (sameOutcome_publish moved).map _

theorem sameOutcome_resize (twins : Twins height l.rows rows') {count : Nat}
    (room : height.toNat * count ≤ Offset.limit) :
    SameOutcome height (l.resize count) ((l.withRows rows').resize count) := by
  have count_eq : (l.withRows rows').count = l.count := twins.count_eq
  have resized : Twins height (l.withRows (RowLayout.resize l.rows count)).rows
      (RowLayout.resize rows' count) := twins.resize room
  unfold resize
  rw [count_eq]
  split
  · exact ⟨rows', twins, rfl⟩
  · exact sameOutcome_publish resized

theorem record_level (level : LevelLayout.Level height l.rows) (i : Nat) {measured : Option UInt32}
    (same : ∀ size ∈ measured, size = height) :
    l.record i measured = l.withRows (Refinable.record l.rows i measured).1 := by
  obtain ⟨_, _, unchanged⟩ := LevelLayout.level_record i level same
  exact record_of_unchanged unchanged

theorem foldl_record_withRows (twins : Twins height l.rows rows')
    {entries : List (Nat × Option UInt32)}
    (same : ∀ entry ∈ entries, ∀ size ∈ entry.2, size = height) :
    ∃ rows'', Twins height (entries.foldl (fun l entry => l.record entry.1 entry.2) l).rows rows'' ∧
      entries.foldl (fun l entry => l.record entry.1 entry.2) (l.withRows rows') =
        (entries.foldl (fun l entry => l.record entry.1 entry.2) l).withRows rows'' := by
  induction entries generalizing l rows' with
  | nil => exact ⟨rows', twins, rfl⟩
  | cons entry entries ih =>
    have first := same entry List.mem_cons_self
    have step : (l.withRows rows').record entry.1 entry.2 =
        (l.record entry.1 entry.2).withRows (Refinable.record rows' entry.1 entry.2).1 := by
      rw [record_level twins.level entry.1 first, record_level twins.level' entry.1 first]
      rfl
    have next : Twins height (l.record entry.1 entry.2).rows
        (Refinable.record rows' entry.1 entry.2).1 := twins.record entry.1 first
    rw [List.foldl_cons, List.foldl_cons, step]
    exact ih next fun other mem => same other (List.mem_cons_of_mem _ mem)

theorem sameOutcome_recordAll (twins : Twins height l.rows rows')
    {entries : List (Nat × Option UInt32)}
    (same : ∀ entry ∈ entries, ∀ size ∈ entry.2, size = height) :
    SameOutcome height (l.recordAll entries) ((l.withRows rows').recordAll entries) := by
  obtain ⟨rows'', twins, recorded⟩ := foldl_record_withRows twins same
  unfold recordAll
  rw [recorded]
  exact sameOutcome_publish twins

/-- Dropping the measurements of level rows changes nothing that can be seen,
whether the layout keeps measurements or not. -/
theorem forgetAll_level (level : LevelLayout.Level height l.rows)
    (current : l.published = l.currentWindow) :
    ∃ rows : σ, LevelLayout.Level height rows ∧ RowLayout.count rows = RowLayout.count l.rows ∧
      l.forgetAll = ⟨l.withRows rows, none, []⟩ := by
  unfold forgetAll
  cases dropped : Refinable.forgetAll? l.rows with
  | none => exact ⟨l.rows, level, rfl, rfl⟩
  | some rows =>
    obtain ⟨level', count_eq⟩ := LevelLayout.level_forgetAll level dropped
    have twins : Twins height l.rows rows := ⟨level, level', count_eq⟩
    refine ⟨rows, level', count_eq, publish_of_current ?_⟩
    exact (twins.sameAnswers.windowAt_eq l.view l.options.overscan).trans current.symm

theorem sameOutcome_forgetAll (twins : Twins height l.rows rows')
    (current : l.published = l.currentWindow) :
    SameOutcome height l.forgetAll (l.withRows rows').forgetAll := by
  have current' : (l.withRows rows').published = (l.withRows rows').currentWindow :=
    current.trans (twins.sameAnswers.windowAt_eq l.view l.options.overscan).symm
  obtain ⟨first, level, count_eq, dropped⟩ := forgetAll_level twins.level current
  obtain ⟨second, level', count_eq', dropped'⟩ := forgetAll_level twins.level' current'
  rw [dropped, dropped']
  exact ⟨second, ⟨level, level', count_eq'.trans (twins.count_eq.trans count_eq.symm)⟩, rfl⟩

/-- An action on the list over the other layout has the outcome of the action on
the list, again over another layout. -/
theorem sameOutcome_act (twins : Twins height l.rows rows')
    (current : l.published = l.currentWindow) {action : Action Empty}
    (keeps : action.KeepsHeight height) :
    SameOutcome height (l.act (action.on σ)) ((l.withRows rows').act (action.on τ)) := by
  -- The changes that leave the layout alone leave the same twins to publish from.
  have changed (m : WindowedList σ) (same : m.rows = l.rows) :
      SameOutcome height m.publish (m.withRows rows').publish := sameOutcome_publish (same ▸ twins)
  cases action with
  | setRows rows => exact rows.elim
  | setOffset offset => exact (changed (l.movedTo offset) rfl).map Reply.window
  | setHeight height => exact (changed (l.withHeight height) rfl).map Reply.window
  | setFrame height offset =>
    exact (changed ((l.withHeight height).movedTo offset) rfl).map Reply.window
  | scroll offset now =>
    exact (changed ({ l with lastScroll := some now }.movedTo offset) rfl).map Reply.window
  | settle now => exact (sameOutcome_settle twins now).map Reply.settled
  | reveal row align => exact (sameOutcome_reveal twins row align).map Reply.offset
  | setOverscan overscan =>
    exact (changed { l with options := { l.options with overscan } } rfl).map Reply.window
  | resize count => exact (sameOutcome_resize twins keeps).map Reply.window
  | publish => exact (changed l rfl).map Reply.window
  | measure row size =>
    have same : ∀ entry ∈ [(row, some size)], ∀ other ∈ entry.2, other = height := by
      intro entry mem other found
      rw [List.mem_singleton.mp mem] at found
      cases found
      exact keeps
    exact (sameOutcome_recordAll twins same).map Reply.window
  | forget row =>
    have same : ∀ entry ∈ [(row, (none : Option UInt32))], ∀ other ∈ entry.2, other = height := by
      intro entry mem other found
      rw [List.mem_singleton.mp mem] at found
      cases found
    exact (sameOutcome_recordAll twins same).map Reply.window
  | recordAll entries => exact (sameOutcome_recordAll twins keeps).map Reply.window
  | forgetAll => exact (sameOutcome_forgetAll twins current).map Reply.window

theorem trace_withRows (twins : Twins height l.rows rows') (current : l.published = l.currentWindow)
    {actions : List (Action Empty)} (keeps : ∀ action ∈ actions, action.KeepsHeight height) :
    (l.withRows rows').trace (actions.map (·.on τ)) = l.trace (actions.map (·.on σ)) := by
  induction actions generalizing l rows' with
  | nil => rfl
  | cons action actions ih =>
    obtain ⟨rows'', next, acted⟩ := sameOutcome_act twins current (keeps action List.mem_cons_self)
    obtain ⟨_, published, _⟩ := act_publishes current (action.on σ)
    have rest := ih next published.current fun other mem => keeps other (List.mem_cons_of_mem _ mem)
    rw [List.map_cons, List.map_cons, trace, trace, acted]
    refine congrArg₂ List.cons ?_ rest
    exact congrArg (Outcome.mk · _ _) (look_withRows next.sameAnswers)

theorem shows_ofRows (twins : Twins height rows rows') (options : Options) (view : Viewport)
    {actions : List (Action Empty)} (keeps : ∀ action ∈ actions, action.KeepsHeight height) :
    (ofRows rows' options view).look = (ofRows rows options view).look ∧
      (ofRows rows' options view).trace (actions.map (·.on τ)) =
        (ofRows rows options view).trace (actions.map (·.on σ)) := by
  have other : ofRows rows' options view = (ofRows rows options view).withRows rows' := by
    unfold ofRows
    rw [twins.sameAnswers.windowAt_eq]
    rfl
  rw [other]
  exact ⟨look_withRows twins.sameAnswers, trace_withRows twins rfl keeps⟩

end WindowedList

end

/-! ## Counted rows and measured rows -/

/-- A list that counts rows of one height, and a list that keeps the rows one by
one with that height as their estimate, with or without the choice of layout
around them, show the same at the beginning and after every action. -/
theorem trace_uniform_eq_trace_measured {height : UInt32} (positive : 0 < height.toNat)
    {count : Nat} (fits : height.toNat * count ≤ Offset.limit) (options : Options)
    (view : Viewport) {actions : List (Action Empty)}
    (keeps : ∀ action ∈ actions, action.KeepsHeight height) :
    ∃ uniform measured, UniformRows.ofHeight count height = .ok uniform ∧
      MeasuredRows.ofEstimate count (fun _ => height) = .ok measured ∧
      let counted := WindowedList.ofRows (Rows.uniform uniform) options view
      let kept := WindowedList.ofRows measured options view
      let chosen := WindowedList.ofRows (Rows.measured measured) options view
      (kept.look = counted.look ∧
        kept.trace (actions.map (·.on MeasuredRows)) = counted.trace (actions.map (·.on Rows))) ∧
      (chosen.look = counted.look ∧
        chosen.trace (actions.map (·.on Rows)) = counted.trace (actions.map (·.on Rows))) := by
  obtain ⟨measured, built, level, count_eq⟩ := MeasuredRows.exists_level positive fits
  have height_ok : UniformRows.ofHeight count height = .ok ⟨count, height, positive⟩ := dif_pos positive
  have kept : Twins height (Rows.uniform ⟨count, height, positive⟩) measured :=
    ⟨⟨rfl, fits⟩, level, count_eq⟩
  have chosen : Twins height (Rows.uniform ⟨count, height, positive⟩) (Rows.measured measured) :=
    ⟨⟨rfl, fits⟩, level, count_eq⟩
  exact ⟨_, measured, height_ok, built, WindowedList.shows_ofRows kept options view keeps,
    WindowedList.shows_ofRows chosen options view keeps⟩

/-- Measurements, dropped measurements, a cut to nothing and a growth past the
viewport, over three rows of height `5`. -/
def levelActions : List (Action Empty) :=
  [.measure 1 5, .scroll 9 100, .recordAll [(0, some 5), (7, none)], .resize 0, .reveal 4 .middle,
    .resize 9, .forgetAll, .reveal 4 .middle, .setFrame 12 40, .settle 300, .forget 1, .publish,
    .setOverscan 1, .setHeight 0, .setOffset 3]

theorem trace_uniform_eq_trace_measured_levelActions :
    ∃ uniform measured, UniformRows.ofHeight 3 5 = .ok uniform ∧
      MeasuredRows.ofEstimate 3 (fun _ => 5) = .ok measured ∧
      let counted := WindowedList.ofRows (Rows.uniform uniform) { announces := true } ⟨2, 10⟩
      let kept := WindowedList.ofRows measured { announces := true } ⟨2, 10⟩
      let chosen := WindowedList.ofRows (Rows.measured measured) { announces := true } ⟨2, 10⟩
      (kept.look = counted.look ∧ kept.trace (levelActions.map (·.on MeasuredRows)) =
        counted.trace (levelActions.map (·.on Rows))) ∧
      (chosen.look = counted.look ∧ chosen.trace (levelActions.map (·.on Rows)) =
        counted.trace (levelActions.map (·.on Rows))) := by
  refine trace_uniform_eq_trace_measured (by decide) (by decide) _ _ ?_
  simp only [levelActions, List.forall_mem_cons, Action.KeepsHeight]
  simp [Offset.limit]

end Windowing
