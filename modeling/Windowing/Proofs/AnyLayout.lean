import Windowing.Proofs.Nesting

/-!
# Windows over any layout

A host may bring a layout of its own, and its answers need not fit together. The extent may be no
sum of the sizes, rows may start anywhere, and a pixel further down the track may be found in a row
further up the list. All that is asked of the layout here is that a row it finds is a row of the
list.

Windows are in order even so. Where the two look-ups of a visible range cross, the range is empty;
where one of them finds nothing, it gives way to the end of the list on its side.

Results:
1. `visibleRange_start_le_stop`, `visibleRange_stop_le_count`: the visible range.
2. `visibleRange_within_windowAt`: the overscan takes nothing away.
3. `formsWindow`: all of it together.
-/

namespace Windowing

section

variable {σ : Type} [RowLayout σ]

/-- What a layout finds at a pixel is a row of the list. -/
def FindsRows (rows : σ) : Prop :=
  ∀ pixel, ∀ row ∈ RowLayout.rowAt rows pixel, row < RowLayout.count rows

/-- The visible range and the window are in order, the one lies in the other, and the window says
what the layout says. -/
structure FormsWindow (rows : σ) (view : Viewport) (overscan : Nat) : Prop where
  visible_start_le : (visibleRange rows view).start ≤ (visibleRange rows view).stop
  visible_stop_le : (visibleRange rows view).stop ≤ RowLayout.count rows
  start_le : (windowAt rows view overscan).range.start ≤ (windowAt rows view overscan).range.stop
  stop_le : (windowAt rows view overscan).range.stop ≤ RowLayout.count rows
  extent_eq : (windowAt rows view overscan).extent = RowLayout.extent rows
  of_empty : (visibleRange rows view).isEmpty = true →
    (windowAt rows view overscan).range = ⟨0, 0⟩ ∧ (windowAt rows view overscan).top = 0
  of_seen : (visibleRange rows view).isEmpty = false →
    (visibleRange rows view).Within (windowAt rows view overscan).range ∧
      (windowAt rows view overscan).top =
        RowLayout.start rows (windowAt rows view overscan).range.start

/-! ## The visible range -/

/-- The range never turns round, for its end is not let above its start. -/
theorem visibleRange_start_le_stop (rows : σ) (view : Viewport) :
    (visibleRange rows view).start ≤ (visibleRange rows view).stop := by
  unfold visibleRange
  dsimp only
  split
  · exact Nat.le_refl 0
  · split
    · exact Nat.zero_le _
    · exact Nat.le_max_right _ _

variable {rows : σ}

/-- A look-up that begins a range: the first row stands in for a row that is not found. -/
theorem FindsRows.first_le (finds : FindsRows rows) (pixel : Nat) :
    (RowLayout.rowAt rows pixel).getD 0 ≤ RowLayout.count rows := by
  cases found : RowLayout.rowAt rows pixel with
  | none => exact Nat.zero_le _
  | some row => exact Nat.le_of_lt (finds pixel row found)

/-- A look-up that ends a range: the last row stands in for a row that is not found. -/
theorem FindsRows.last_le (finds : FindsRows rows) (pixel : Nat) :
    ((RowLayout.rowAt rows pixel).map (· + 1)).getD (RowLayout.count rows) ≤
      RowLayout.count rows := by
  cases found : RowLayout.rowAt rows pixel with
  | none => exact Nat.le_refl _
  | some row => exact finds pixel row found

theorem visibleRange_stop_le_count (finds : FindsRows rows) (view : Viewport) :
    (visibleRange rows view).stop ≤ RowLayout.count rows := by
  unfold visibleRange
  dsimp only
  split
  · exact Nat.zero_le _
  · split
    · exact Nat.le_refl _
    · exact Nat.max_le.mpr ⟨finds.last_le _, finds.first_le _⟩

/-! ## The window -/

theorem windowAt_of_empty {view : Viewport} (empty : (visibleRange rows view).isEmpty = true)
    (overscan : Nat) : windowAt rows view overscan = { extent := RowLayout.extent rows } :=
  if_pos empty

/-- The window reaches at least as far as the visible range, also where the list cuts it. -/
theorem visibleRange_within_windowAt {view : Viewport}
    (seen : (visibleRange rows view).start < (visibleRange rows view).stop)
    (inside : (visibleRange rows view).stop ≤ RowLayout.count rows) (overscan : Nat) :
    (visibleRange rows view).Within (windowAt rows view overscan).range := by
  rw [windowAt_eq seen]
  exact ⟨Nat.sub_le _ _, Nat.le_min.mpr ⟨Nat.le_add_right _ _, inside⟩⟩

/-- Over every layout that finds rows of the list, whatever else it answers, for every viewport and
every overscan: visible range and window are in order and end within the list. An empty visible
range gives an empty window at the top, and any other lies in its window, which begins where the
layout says that its first row begins. -/
theorem formsWindow (finds : FindsRows rows) (view : Viewport) (overscan : Nat) :
    FormsWindow rows view overscan := by
  have inside := visibleRange_stop_le_count finds view
  have seen_of : (visibleRange rows view).isEmpty = false →
      (visibleRange rows view).start < (visibleRange rows view).stop :=
    fun some => Nat.lt_of_not_le (of_decide_eq_false some)
  refine
    { visible_start_le := visibleRange_start_le_stop rows view
      visible_stop_le := inside
      start_le := ?ordered
      stop_le := windowAt_stop_le rows view overscan
      extent_eq := windowAt_extent rows view overscan
      of_empty := fun empty => windowAt_of_empty empty overscan ▸ ⟨rfl, rfl⟩
      of_seen := fun some =>
        ⟨visibleRange_within_windowAt (seen_of some) inside overscan, ?top⟩ }
  case ordered =>
    cases empty : (visibleRange rows view).isEmpty with
    | true => exact windowAt_of_empty empty overscan ▸ Nat.le_refl 0
    | false =>
      obtain ⟨start, stop⟩ := visibleRange_within_windowAt (seen_of empty) inside overscan
      exact Nat.le_trans start (Nat.le_trans (visibleRange_start_le_stop rows view) stop)
  case top => rw [windowAt_eq (seen_of some)]

end

/-! ## A layout that contradicts itself -/

/-- A layout whose answers are given one by one. -/
structure Answers where
  count : Nat
  extent : Nat
  start : Nat → Nat
  size : Nat → UInt32
  rowAt : Nat → Option Nat

instance : RowLayout Answers where
  count := Answers.count
  extent := Answers.extent
  start := Answers.start
  size := Answers.size
  rowAt := Answers.rowAt
  resize answers count := { answers with count }

/-- Nine rows, the later the further up, and shorter together than any of them alone. The upper
half of the track lies in row `7`, the lower half in row `2`, and the rest nowhere. -/
def crossed : Answers where
  count := 9
  extent := 40
  start row := 1000 - row
  size _ := 50
  rowAt pixel := if pixel < 20 then some 7 else if pixel < 38 then some 2 else none

theorem findsRows_crossed : FindsRows crossed := by
  intro pixel row found
  have found : (if pixel < 20 then some 7 else if pixel < 38 then some 2 else none) = some row :=
    found
  show row < 9
  split at found
  · cases found
    decide
  · split at found
    · cases found
      decide
    · cases found

/-- Across the middle the look-ups cross, and nothing is shown. Within the upper half row `7` is,
and at the end, where the last pixel is not found, everything from row `2` on. -/
theorem formsWindow_crossed :
    FindsRows crossed ∧ FormsWindow crossed ⟨10, 15⟩ 3 ∧ FormsWindow crossed ⟨0, 10⟩ 3 ∧
      FormsWindow crossed ⟨90, 15⟩ 1 ∧ visibleRange crossed ⟨10, 15⟩ = ⟨7, 7⟩ ∧
      windowAt crossed ⟨10, 15⟩ 3 = ⟨⟨0, 0⟩, 0, 40⟩ ∧
      windowAt crossed ⟨0, 10⟩ 3 = ⟨⟨4, 9⟩, 996, 40⟩ ∧
      windowAt crossed ⟨90, 15⟩ 1 = ⟨⟨1, 9⟩, 999, 40⟩ :=
  ⟨findsRows_crossed, formsWindow findsRows_crossed _ _, formsWindow findsRows_crossed _ _,
    formsWindow findsRows_crossed _ _, by decide, by decide, by decide, by decide⟩

end Windowing
