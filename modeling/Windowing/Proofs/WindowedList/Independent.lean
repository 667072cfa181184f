import Mathlib.Algebra.BigOperators.Group.List.Basic
import Mathlib.Algebra.Ring.Int.Defs
import Windowing.Proofs.Coverage
import Windowing.Proofs.Rows.Recording
import Windowing.Proofs.WindowedList.Anchoring
import Windowing.Proofs.WindowedList.Publishing

/-!
# Measurements that do not meet

Whether a measurement takes the scroll position along depends on where its row starts and on the
position, and both were moved by the measurements before it. A row that the position does not cut
stays on its side of it all the same: what grows or shrinks above a row above the position moves
both alike, and what does so between them cannot take more from the position than lies between
them, as long as every measured row keeps a pixel.

So each row of a batch is judged as it would have been at the start, and a batch that names no
row twice may be recorded in any order.

Results:
1. `Uncut.set`: one measurement keeps the rows that are not cut on their sides.
2. `keepsSides_recordAll`: so does a batch, and each row moves the position by its own change.
3. `recordAll_perm`: the order of a batch makes no difference.
-/

namespace Windowing

/-! ## On the track -/

/-- A row with a pixel, either wholly above a scroll position or not above it at all. -/
structure Uncut (start size offset : Nat) : Prop where
  positive : 0 < size
  apart : start + size ≤ offset ∨ offset ≤ start

section

variable {sizes : List UInt32} {offset i j : Nat} {size : UInt32}

/-- The position follows a row above it by the whole change of the row, for the row has taken no
more away than lies above the position. -/
theorem Uncut.followed_eq {start old : Nat} (uncut : Uncut start old offset) (size : Nat)
    (room : start < offset → offset + ((size : Int) - old) ≤ Offset.limit) :
    (followed offset start (size - old) : Int) =
      offset + if start < offset then (size : Int) - old else 0 := by
  obtain ⟨positive, apart⟩ := uncut
  by_cases above : start < offset
  · rw [followed_of_lt above (room above), if_pos above]
    omega
  · rw [followed_of_le (Nat.not_lt.mp above), if_neg above, Int.add_zero]

/-- A measurement of an uncut row that leaves it a pixel keeps each uncut row uncut and on its
side of the position. -/
theorem Uncut.set (here : Uncut (startOf sizes i) (sizeAt sizes i).toNat offset)
    (there : Uncut (startOf sizes j) (sizeAt sizes j).toNat offset) (positive : 0 < size.toNat)
    (room : startOf sizes i < offset →
      offset + ((size.toNat : Int) - (sizeAt sizes i).toNat) ≤ Offset.limit) :
    let moved := followed offset (startOf sizes i) (size.toNat - (sizeAt sizes i).toNat)
    Uncut (startOf (sizes.set i size) j) (sizeAt (sizes.set i size) j).toNat moved ∧
      (startOf (sizes.set i size) j < moved ↔ startOf sizes j < offset) := by
  intro moved
  have inside := lt_length_of_sizeAt_pos here.positive
  have position : (moved : Int) = _ := here.followed_eq size.toNat room
  obtain ⟨here_positive, here_apart⟩ := here
  obtain ⟨there_positive, there_apart⟩ := there
  have here_stop := startOf_succ sizes i
  have there_stop := startOf_succ sizes j
  rcases Nat.lt_trichotomy j i with before | same | after
  · -- Row `j` stays where it is, and the position does not come above row `i`.
    have between : startOf sizes (j + 1) ≤ startOf sizes i := startOf_le_startOf sizes before
    rw [startOf_set_of_le size (Nat.le_of_lt before), sizeAt_set_ne (Nat.ne_of_gt before)]
    split at position
    · exact ⟨⟨there_positive, by omega⟩, by omega⟩
    · exact ⟨⟨there_positive, by omega⟩, by omega⟩
  · subst same
    rw [startOf_set_of_le size (Nat.le_refl j), sizeAt_set_self inside]
    split at position
    · exact ⟨⟨positive, by omega⟩, by omega⟩
    · exact ⟨⟨positive, by omega⟩, by omega⟩
  · -- Row `j` is shifted. Either the position is shifted with it, or row `j` is below it.
    have between : startOf sizes (i + 1) ≤ startOf sizes j := startOf_le_startOf sizes after
    have shifted := startOf_set_of_lt size inside after
    rw [sizeAt_set_ne (Nat.ne_of_lt after)]
    split at position
    · exact ⟨⟨there_positive, by omega⟩, by omega⟩
    · exact ⟨⟨there_positive, by omega⟩, by omega⟩

end

/-! ## Sides of the position -/

namespace WindowedList

section

variable {σ : Type} [RowLayout σ]

/-- The row has a pixel, and the scroll position does not cut it. -/
def Clear (l : WindowedList σ) (row : Nat) : Prop :=
  Uncut (RowLayout.start l.rows row) (RowLayout.size l.rows row).toNat l.view.offset

/-- Every row that the position does not cut stays uncut, and on its side. -/
def KeepsSides (l after : WindowedList σ) : Prop :=
  ∀ row, l.Clear row → after.Clear row ∧
    (RowLayout.start after.rows row < after.view.offset ↔
      RowLayout.start l.rows row < l.view.offset)

/-- How far a row that has changed its size takes the scroll position along. -/
def pull (l after : WindowedList σ) (row : Nat) : Int :=
  if RowLayout.start l.rows row < l.view.offset then
    ((RowLayout.size after.rows row).toNat : Int) - (RowLayout.size l.rows row).toNat
  else 0

theorem KeepsSides.trans {l mid after : WindowedList σ} (first : l.KeepsSides mid)
    (second : mid.KeepsSides after) : l.KeepsSides after := fun row clear =>
  ⟨(second row (first row clear).1).1,
    (second row (first row clear).1).2.trans (first row clear).2⟩

end

/-! ## Measurements of uncut rows -/

section

variable {σ : Type} [ExactRefinable σ] {l : WindowedList σ} {row : Nat} {size : Option UInt32}
  {entries : List (Nat × Option UInt32)}

theorem size_record_of_ne (reached : ExactLayout.Reached l.rows)
    (reached_after : ExactLayout.Reached (l.record row size).rows) {other : Nat}
    (ne : other ≠ row) :
    RowLayout.size (l.record row size).rows other = RowLayout.size l.rows other := by
  obtain ⟨new, sizes_eq, _⟩ := exists_record reached row size
  have laid_after := ExactLayout.laysOut reached_after
  rw [sizes_eq] at laid_after
  rw [laid_after.size_eq, (ExactLayout.laysOut reached).size_eq, sizeAt_set_ne ne.symm]

/-- A measurement of an uncut row that leaves it a pixel. -/
theorem keepsSides_record (reached : ExactLayout.Reached l.rows)
    (reached_after : ExactLayout.Reached (l.record row size).rows) (clear : l.Clear row)
    (positive : 0 < (RowLayout.size (l.record row size).rows row).toNat)
    (room : RowLayout.start l.rows row < l.view.offset →
      l.view.offset + (Refinable.record l.rows row size).2 ≤ Offset.limit) :
    l.KeepsSides (l.record row size) ∧
      ((l.record row size).view.offset : Int) =
        l.view.offset + l.pull (l.record row size) row := by
  have laid := ExactLayout.laysOut reached
  have laid_after := ExactLayout.laysOut reached_after
  obtain ⟨new, sizes_eq, delta, position⟩ := exists_record reached row size
  rw [sizes_eq] at laid_after
  have inside := lt_length_of_size_pos laid clear.positive
  rw [sizeAt_set_self inside] at delta
  rw [laid_after.size_eq, sizeAt_set_self inside] at positive
  rw [delta] at position room
  unfold Clear at clear
  rw [laid.start_eq] at room clear
  rw [laid.size_eq] at clear
  constructor
  · intro other clear_other
    unfold Clear at clear_other ⊢
    rw [laid.start_eq, laid.size_eq] at clear_other
    rw [laid_after.start_eq, laid_after.size_eq, laid.start_eq, position]
    exact clear.set clear_other positive room
  · unfold pull
    rw [position, laid.start_eq, laid.size_eq, laid_after.size_eq, sizeAt_set_self inside]
    exact clear.followed_eq new.toNat room

theorem size_recordAll_of_not_mem (reached : ExactLayout.Reached l.rows)
    (fit : l.SizesFit entries) {other : Nat} (unnamed : other ∉ entries.map Prod.fst) :
    RowLayout.size (l.recordAll entries).state.rows other = RowLayout.size l.rows other := by
  induction entries generalizing l with
  | nil => rfl
  | cons entry entries ih =>
    obtain ⟨ne, rest⟩ := not_or.mp (mt List.mem_cons.mpr unnamed)
    have reached_after : ExactLayout.Reached (l.record entry.1 entry.2).rows :=
      ExactRefinable.reached_record entry.1 entry.2 reached fit.1
    exact (ih reached_after fit.2 rest).trans (size_record_of_ne reached reached_after ne)

/-- A batch that names no row twice, and leaves each row that it names a pixel. Each of them moves
the position as it would have done alone. -/
theorem keepsSides_recordAll (reached : ExactLayout.Reached l.rows)
    (distinct : (entries.map Prod.fst).Nodup) (clear : ∀ row ∈ entries.map Prod.fst, l.Clear row)
    (positive : ∀ entry ∈ entries,
      0 < (RowLayout.size (l.recordAll entries).state.rows entry.1).toNat)
    (fit : l.SizesFit entries) (room : l.OffsetFits entries) :
    let after := (l.recordAll entries).state
    l.KeepsSides after ∧ (after.view.offset : Int) =
      l.view.offset + ((entries.map Prod.fst).map (l.pull after)).sum := by
  induction entries generalizing l with
  | nil => exact ⟨fun row clear => ⟨clear, Iff.rfl⟩, (Int.add_zero _).symm⟩
  | cons entry entries ih =>
    obtain ⟨once, distinct⟩ := List.nodup_cons.mp distinct
    obtain ⟨first_positive, positive⟩ := List.forall_mem_cons.mp positive
    obtain ⟨first_clear, clear⟩ := List.forall_mem_cons.mp (List.map_cons ▸ clear)
    let next := l.record entry.1 entry.2
    have reached_next : ExactLayout.Reached next.rows :=
      ExactRefinable.reached_record entry.1 entry.2 reached fit.1
    have last : RowLayout.size (next.recordAll entries).state.rows entry.1 =
        RowLayout.size next.rows entry.1 :=
      size_recordAll_of_not_mem reached_next fit.2 once
    have step := keepsSides_record reached reached_next first_clear (last ▸ first_positive) room.1
    have rest := ih reached_next distinct (fun row mem => (step.1 row (clear row mem)).1)
      positive fit.2 room.2
    refine ⟨step.1.trans rest.1, ?_⟩
    -- The later rows are still of the size and on the side that they had at the beginning.
    have same (row : Nat) (mem : row ∈ entries.map Prod.fst) :
        next.pull (next.recordAll entries).state row = l.pull (next.recordAll entries).state row := by
      have ne : row ≠ entry.1 := fun same => once (same ▸ mem)
      unfold pull
      rw [size_record_of_ne reached reached_next ne]
      exact if_congr (step.1 row (clear row mem)).2 rfl rfl
    have first : l.pull (next.recordAll entries).state entry.1 = l.pull next entry.1 := by
      unfold pull
      rw [last]
    show ((next.recordAll entries).state.view.offset : Int) =
      l.view.offset + (l.pull (next.recordAll entries).state entry.1 +
        ((entries.map Prod.fst).map (l.pull (next.recordAll entries).state)).sum)
    rw [first, ← List.map_congr_left same, rest.2, step.2, Int.add_assoc]

end

/-! ## Any order -/

section

variable {σ : Type} [HoldsMeasured σ] {l : WindowedList σ} {r : MeasuredRows}
  {entries entries' : List (Nat × Option UInt32)}

theorem rows_recordAll_holding (held : l.rows = HoldsMeasured.holding r)
    (entries : List (Nat × Option UInt32)) :
    (l.recordAll entries).state.rows = HoldsMeasured.holding (r.recordEach entries) := by
  rw [rows_recordAll_eq_foldl, held]
  induction entries generalizing l r with
  | nil => rfl
  | cons entry entries ih =>
    rw [List.foldl_cons, HoldsMeasured.record_holding]
    exact ih (l := { l with rows := HoldsMeasured.holding (r.record entry.1 entry.2).1 }) rfl

/-- A batch that measures nothing as zero leaves each uncut row of measured rows a pixel. -/
theorem keepsSides_recordAll_holding (reached : ExactLayout.Reached l.rows)
    (held : l.rows = HoldsMeasured.holding r) (distinct : (entries.map Prod.fst).Nodup)
    (clear : ∀ row ∈ entries.map Prod.fst, l.Clear row) (nonzero : ∀ entry ∈ entries, entry.2 ≠ some 0)
    (fit : l.SizesFit entries) (room : l.OffsetFits entries) :
    let after := (l.recordAll entries).state
    l.KeepsSides after ∧ (after.view.offset : Int) =
      l.view.offset + ((entries.map Prod.fst).map (l.pull after)).sum := by
  refine keepsSides_recordAll reached distinct clear (fun entry mem => ?_) fit room
  have positive := (clear entry.1 (List.mem_map_of_mem mem)).positive
  rw [(ExactLayout.laysOut reached).size_eq, held, sizes_holding,
    ← MeasuredRows.size_eq_sizeAt] at positive
  rw [(ExactLayout.laysOut (reached_recordAll reached fit)).size_eq, rows_recordAll_holding held,
    sizes_holding, ← MeasuredRows.size_eq_sizeAt]
  exact MeasuredRows.size_recordEach_pos positive nonzero

/-- Measurements of distinct rows that the scroll position does not cut may be recorded in any
order. Each row above the position takes it along by its own change. -/
theorem recordAll_perm (reachable : l.Reachable) (held : l.rows = HoldsMeasured.holding r)
    (perm : entries.Perm entries') (distinct : (entries.map Prod.fst).Nodup)
    (clear : ∀ row ∈ entries.map Prod.fst, l.Clear row) (nonzero : ∀ entry ∈ entries, entry.2 ≠ some 0)
    (fit : l.SizesFit entries) (room : l.OffsetFits entries)
    (fit' : l.SizesFit entries') (room' : l.OffsetFits entries') :
    let after := (l.recordAll entries).state
    l.recordAll entries' = l.recordAll entries ∧ (after.view.offset : Int) =
      l.view.offset + ((entries.map Prod.fst).map (l.pull after)).sum := by
  intro after
  have reached := reachable.rows
  have reached_after := reached_recordAll reached fit
  have reached_after' := reached_recordAll reached fit'
  rw [rows_recordAll_holding held, reached_holding_iff] at reached_after reached_after'
  have rows : (l.recordAll entries').state.rows = (l.recordAll entries).state.rows := by
    rw [rows_recordAll_holding held, rows_recordAll_holding held,
      MeasuredRows.recordEach_perm distinct perm reached_after reached_after']
  have position := (keepsSides_recordAll_holding reached held distinct clear nonzero fit room).2
  have position' := (keepsSides_recordAll_holding reached held ((perm.map _).nodup_iff.mp distinct)
    (fun row mem => clear row ((perm.map _).mem_iff.mpr mem))
    (fun entry mem => nonzero entry (perm.mem_iff.mpr mem)) fit' room').2
  have pulls : l.pull (l.recordAll entries').state = l.pull (l.recordAll entries).state := by
    funext row
    unfold pull
    rw [rows]
  have offset :
      (l.recordAll entries').state.view.offset = (l.recordAll entries).state.view.offset := by
    rw [pulls, ← ((perm.map _).map _).sum_eq, ← position] at position'
    exact Int.ofNat_inj.mp position'
  refine ⟨?_, position⟩
  rw [recordAll_eq_publish l entries', recordAll_eq_publish l entries, rows, offset]

end

end WindowedList

/-- Four rows of size `10`. -/
def fourRows : MeasuredRows :=
  ⟨fun _ => 10, #[⟨10, false⟩, ⟨10, false⟩, ⟨10, false⟩, ⟨10, false⟩], .ofSizes [10, 10, 10, 10]⟩

theorem reached_fourRows : fourRows.Reached := by
  have built : MeasuredRows.ofEstimate 4 (fun _ => 10) = .ok fourRows := rfl
  exact .ofEstimate built (by decide)

/-- Two rows above the position change by `15` and `-7`, and it moves by `8` pixels. -/
theorem recordAll_perm_fourRows :
    let l : WindowedList MeasuredRows := .ofRows fourRows {} ⟨20, 15⟩
    let entries : List (Nat × Option UInt32) := [(1, some 3), (2, some 40), (0, some 25), (3, none)]
    l.recordAll entries.reverse = l.recordAll entries ∧
      (l.recordAll entries).state.view.offset = 28 := by
  intro l entries
  have clear : ∀ row ∈ entries.map Prod.fst, l.Clear row := by
    simp only [entries, List.map_cons, List.map_nil, List.forall_mem_cons, List.not_mem_nil]
    exact ⟨⟨by decide +kernel, by decide +kernel⟩, ⟨by decide +kernel, by decide +kernel⟩,
      ⟨by decide +kernel, by decide +kernel⟩, ⟨by decide +kernel, by decide +kernel⟩, nofun⟩
  have fit : l.SizesFit entries :=
    ⟨by decide +kernel, by decide +kernel, by decide +kernel, by decide +kernel, trivial⟩
  have room : l.OffsetFits entries :=
    ⟨by decide +kernel, by decide +kernel, by decide +kernel, by decide +kernel, trivial⟩
  have fit' : l.SizesFit entries.reverse :=
    ⟨by decide +kernel, by decide +kernel, by decide +kernel, by decide +kernel, trivial⟩
  have room' : l.OffsetFits entries.reverse :=
    ⟨by decide +kernel, by decide +kernel, by decide +kernel, by decide +kernel, trivial⟩
  obtain ⟨same, moved⟩ := WindowedList.recordAll_perm (r := fourRows)
    (l := l) (.ofRows {} ⟨20, 15⟩ reached_fourRows) rfl (List.reverse_perm entries).symm
    (by decide) clear (by decide) fit room fit' room'
  have pulled : ((entries.map Prod.fst).map (l.pull (l.recordAll entries).state)).sum = 8 := by
    decide +kernel
  rw [pulled] at moved
  exact ⟨same, Int.ofNat_inj.mp moved⟩

end Windowing
