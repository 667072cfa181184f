import Windowing.Proofs.WindowedList.Reachable

/-!
# Measurements leave the visible rows in place

A measurement of a row that starts above the scroll position moves the position
by the change of the row's size. This module follows the first row that does not
start above the position through a batch of measurements in ascending row order.

Both numbers that a measurement compares, the start of its row and the scroll
position, were moved by the measurements before it. The position can stop at
zero on the way, when the row across it shrinks by more than the position. The
invariant `Anchored` says that it stops there for good: the rows still to come
that started above the position at first still do, and once it has stopped there
are none left.

Results:
1. `Anchored.set`: one measurement keeps the invariant.
2. `anchored_recordAll`: so does a batch in ascending row order.
3. `distance_recordAll`: the first row that does not start above the position keeps its
   distance from it, up to the stop at zero.
-/

namespace Windowing

/-! ## The first row that does not start above the position -/

/-- The number of rows that start above a position. -/
def rowsAbove {σ : Type} [RowLayout σ] (rows : σ) (offset : Nat) : Nat :=
  (List.range (RowLayout.count rows)).countP fun i => RowLayout.start rows i < offset

/-- The rows that start above a position are the first ones. -/
theorem lt_countP_iff (sizes : List UInt32) (offset n : Nat) :
    let above := (List.range n).countP fun i => startOf sizes i < offset
    above ≤ n ∧ ∀ i < n, i < above ↔ startOf sizes i < offset := by
  induction n with
  | zero => exact ⟨Nat.le_refl 0, fun i inside => absurd inside (Nat.not_lt_zero i)⟩
  | succ n ih =>
    obtain ⟨bound, iff⟩ := ih
    rw [List.range_succ, List.countP_append, List.countP_singleton]
    by_cases last : startOf sizes n < offset
    · -- With the last row all rows before it start above the position.
      have all : ∀ i ≤ n, startOf sizes i < offset := fun i le =>
        Nat.lt_of_le_of_lt (startOf_le_startOf sizes le) last
      have full : (List.range n).countP (fun i => startOf sizes i < offset) = n := by
        rcases Nat.lt_or_eq_of_le bound with short | full
        · exact absurd ((iff _ short).mpr (all _ bound)) (Nat.lt_irrefl _)
        · exact full
      rw [full, decide_eq_true last, if_pos rfl]
      exact ⟨Nat.le_refl _, fun i inside => iff_of_true inside (all i (Nat.le_of_lt_succ inside))⟩
    · rw [decide_eq_false last, if_neg Bool.false_ne_true]
      refine ⟨Nat.le_succ_of_le bound, fun i inside => ?_⟩
      rcases Nat.lt_or_eq_of_le (Nat.le_of_lt_succ inside) with before | rfl
      · exact iff i before
      · exact iff_of_false (Nat.not_lt.mpr bound) last

/-! ## One measurement -/

/-- The state of a batch that has done the rows before `next`. Row `above` is the
first that did not start above the position when the batch began, and `gap` the
distance it had from the position then. -/
structure Anchored (sizes : List UInt32) (offset above : Nat) (gap : Int) (next : Nat) : Prop where
  distance_eq : (startOf sizes above : Int) - offset = min gap (startOf sizes above)
  start_lt : ∀ i, next ≤ i → i < above → startOf sizes i < offset
  gap_nonneg : above < sizes.length → 0 ≤ gap
  above_le : above ≤ sizes.length

/-- The scroll position after a row that starts at `start` has changed its size. -/
def followed (offset start : Nat) (delta : Int) : Nat :=
  if delta ≠ 0 ∧ start < offset then Offset.shift offset delta else offset

theorem followed_of_lt {offset start : Nat} {delta : Int} (above : start < offset)
    (room : offset + delta ≤ Offset.limit) :
    (followed offset start delta : Int) = max (offset + delta) 0 := by
  unfold followed Offset.shift
  split <;> omega

theorem followed_of_le {offset start : Nat} (below : offset ≤ start) (delta : Int) :
    followed offset start delta = offset :=
  if_neg fun h => Nat.not_lt.mpr below h.2

namespace Anchored

variable {sizes : List UInt32} {offset above next : Nat} {gap : Int}

theorem skip (h : Anchored sizes offset above gap next) {row : Nat} (le : next ≤ row) :
    Anchored sizes offset above gap row :=
  { h with start_lt := fun i after => h.start_lt i (Nat.le_trans le after) }

theorem offset_le_start (h : Anchored sizes offset above gap next) {row : Nat} (le : above ≤ row)
    (inside : row < sizes.length) : offset ≤ startOf sizes row := by
  have distance := h.distance_eq
  have nonneg := h.gap_nonneg (Nat.lt_of_le_of_lt le inside)
  have mono := startOf_le_startOf sizes le
  omega

/-- A row above the position takes the position along. -/
theorem set_of_lt (h : Anchored sizes offset above gap next) (lt : next < above) {size : UInt32}
    (room : offset + ((size.toNat : Int) - (sizeAt sizes next).toNat) ≤ Offset.limit) :
    Anchored (sizes.set next size)
      (followed offset (startOf sizes next) (size.toNat - (sizeAt sizes next).toNat)) above gap
      (next + 1) := by
  have inside : next < sizes.length := Nat.lt_of_lt_of_le lt h.above_le
  have start := h.start_lt next (Nat.le_refl next) lt
  have distance := h.distance_eq
  have moved (n : Nat) (after : next < n) := startOf_set_of_lt size inside after
  have position := followed_of_lt start room
  refine ⟨?_, fun i after before => ?_, ?_, ?_⟩
  · have moved := moved above lt
    omega
  · -- If the position stopped at zero, row `next` lost more than all that is above
    -- the position, so it reached past it and no row after it started above.
    have moved := moved i after
    have start := h.start_lt i (Nat.le_of_succ_le after) before
    omega
  · rw [List.length_set]
    exact h.gap_nonneg
  · rw [List.length_set]
    exact h.above_le

/-- Any other row leaves the position and the start of row `above` alone. -/
theorem set_of_le (h : Anchored sizes offset above gap next) (le : above ≤ next) (size : UInt32)
    {delta : Int} (outside : sizes.length ≤ next → delta = 0) :
    Anchored (sizes.set next size) (followed offset (startOf sizes next) delta) above gap
      (next + 1) := by
  have position : followed offset (startOf sizes next) delta = offset := by
    rcases Nat.lt_or_ge next sizes.length with inside | past
    · exact followed_of_le (h.offset_le_start le inside) delta
    · rw [outside past]
      exact if_neg fun changed => changed.1 rfl
  rw [position]
  refine ⟨?_, fun i after before => ?_, ?_, ?_⟩
  · rw [startOf_set_of_le size le]
    exact h.distance_eq
  · exact absurd (Nat.lt_of_lt_of_le before le) (Nat.not_lt.mpr (Nat.le_of_succ_le after))
  · rw [List.length_set]
    exact h.gap_nonneg
  · rw [List.length_set]
    exact h.above_le

theorem set (h : Anchored sizes offset above gap next) (size : UInt32) {delta : Int}
    (delta_eq : delta = (sizeAt (sizes.set next size) next).toNat - (sizeAt sizes next).toNat)
    (room : startOf sizes next < offset → offset + delta ≤ Offset.limit) :
    Anchored (sizes.set next size) (followed offset (startOf sizes next) delta) above gap
      (next + 1) := by
  rcases Nat.lt_or_ge next above with lt | le
  · have inside : next < sizes.length := Nat.lt_of_lt_of_le lt h.above_le
    rw [sizeAt_set_self inside] at delta_eq
    subst delta_eq
    exact h.set_of_lt lt (room (h.start_lt next (Nat.le_refl next) lt))
  · refine h.set_of_le le size fun outside => ?_
    rw [delta_eq, List.set_eq_of_length_le outside, Int.sub_self]

end Anchored

/-! ## A batch of measurements -/

/-- No row comes twice, and every row comes after those before it. -/
def Ascending (entries : List (Nat × Option UInt32)) : Prop :=
  (entries.map Prod.fst).Pairwise (· < ·)

namespace WindowedList

variable {σ : Type} [ExactRefinable σ]

/-- No measurement has to move the scroll position past the limit. -/
def OffsetFits (l : WindowedList σ) : List (Nat × Option UInt32) → Prop
  | [] => True
  | entry :: entries =>
    (RowLayout.start l.rows entry.1 < l.view.offset →
      l.view.offset + (Refinable.record l.rows entry.1 entry.2).2 ≤ Offset.limit) ∧
      (l.record entry.1 entry.2).OffsetFits entries

variable {l : WindowedList σ} {entries : List (Nat × Option UInt32)} {above next : Nat} {gap : Int}

/-- What a measurement leaves: the sizes, the change that the layout tells of, and the scroll
position. -/
theorem exists_record (reached : ExactLayout.Reached l.rows) (row : Nat) (size : Option UInt32) :
    ∃ new, ExactLayout.sizes (l.record row size).rows = (ExactLayout.sizes l.rows).set row new ∧
      (Refinable.record l.rows row size).2 =
        (sizeAt ((ExactLayout.sizes l.rows).set row new) row).toNat -
          (sizeAt (ExactLayout.sizes l.rows) row).toNat ∧
      (l.record row size).view.offset =
        followed l.view.offset (startOf (ExactLayout.sizes l.rows) row)
          (Refinable.record l.rows row size).2 := by
  obtain ⟨new, sizes_eq, delta_eq⟩ := exists_sizes_record l.rows row size
  refine ⟨new, sizes_eq, delta_eq, ?_⟩
  rw [← (ExactLayout.laysOut reached).start_eq]
  rfl

theorem anchored_record (reached : ExactLayout.Reached l.rows) {row : Nat} (size : Option UInt32)
    (h : Anchored (ExactLayout.sizes l.rows) l.view.offset above gap row)
    (room : RowLayout.start l.rows row < l.view.offset →
      l.view.offset + (Refinable.record l.rows row size).2 ≤ Offset.limit) :
    Anchored (ExactLayout.sizes (l.record row size).rows) (l.record row size).view.offset above gap
      (row + 1) := by
  obtain ⟨new, sizes_eq, delta_eq, position⟩ := exists_record reached row size
  rw [sizes_eq, position]
  rw [(ExactLayout.laysOut reached).start_eq] at room
  exact h.set new delta_eq room

theorem anchored_recordAll (reached : ExactLayout.Reached l.rows)
    (h : Anchored (ExactLayout.sizes l.rows) l.view.offset above gap next)
    (ascending : Ascending entries) (later : ∀ entry ∈ entries, next ≤ entry.1)
    (fit : l.SizesFit entries) (room : l.OffsetFits entries) :
    ∃ last, Anchored (ExactLayout.sizes (l.recordAll entries).state.rows)
      (l.recordAll entries).state.view.offset above gap last := by
  induction entries generalizing l next with
  | nil => exact ⟨next, h⟩
  | cons entry entries ih =>
    obtain ⟨first, ascending⟩ := List.pairwise_cons.mp ascending
    refine ih (ExactRefinable.reached_record entry.1 entry.2 reached fit.1)
      (anchored_record reached entry.2 (h.skip (later entry List.mem_cons_self)) room.1)
      ascending (fun other mem => ?_) fit.2 room.2
    exact first other.1 (List.mem_map_of_mem mem)

/-- The first row that does not start above the scroll position when a batch
begins keeps its distance from the position. When the position stops at zero,
the distance is all there is above the row. -/
theorem distance_recordAll (reached : ExactLayout.Reached l.rows) (ascending : Ascending entries)
    (fit : l.SizesFit entries) (room : l.OffsetFits entries) :
    let above := rowsAbove l.rows l.view.offset
    let after := (l.recordAll entries).state
    (RowLayout.start after.rows above : Int) - after.view.offset =
      min ((RowLayout.start l.rows above : Int) - l.view.offset)
        (RowLayout.start after.rows above) := by
  intro above after
  have laid := ExactLayout.laysOut reached
  have laid_after := ExactLayout.laysOut (reached_recordAll reached fit)
  obtain ⟨bound, iff⟩ := lt_countP_iff (ExactLayout.sizes l.rows) l.view.offset
    (ExactLayout.sizes l.rows).length
  have above_eq : above = (List.range (ExactLayout.sizes l.rows).length).countP fun i =>
      startOf (ExactLayout.sizes l.rows) i < l.view.offset := by
    show rowsAbove l.rows l.view.offset = _
    simp only [rowsAbove, laid.count_eq, laid.start_eq]
  rw [← above_eq] at bound iff
  have begins : Anchored (ExactLayout.sizes l.rows) l.view.offset above
      ((startOf (ExactLayout.sizes l.rows) above : Int) - l.view.offset) 0 := by
    refine ⟨?_, fun i _ before => ?_, fun inside => ?_, bound⟩
    · omega
    · exact (iff i (Nat.lt_of_lt_of_le before bound)).mp before
    · have below := (not_congr (iff above inside)).mp (Nat.lt_irrefl above)
      omega
  obtain ⟨_, ends⟩ := anchored_recordAll reached begins ascending
    (fun _ _ => Nat.zero_le _) fit room
  rw [laid.start_eq, laid_after.start_eq]
  exact ends.distance_eq

end WindowedList

end Windowing
