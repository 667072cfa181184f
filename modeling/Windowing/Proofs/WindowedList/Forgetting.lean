import Windowing.Proofs.WindowedList.Batching
import Windowing.Proofs.WindowedList.Independent

/-!
# Measurements that are dropped again

A batch measures rows that were at their estimates, and then these measurements are dropped, one
by one and in any order. The rows are what they were. So is the scroll position: a row that it
does not cut stays on its side through the batch, and takes the position back by just as much as
it had taken it along. And the published window depends on nothing else.

Results:
1. `run_forget`: measurements dropped one by one are dropped as in one batch.
2. `offset_eq_of_restored`: rows that get their sizes back take the position back.
3. `forget_restores`: the list is what it was.
-/

namespace Windowing

open MeasuredRows (forgotten map_fst_forgotten ne_zero_of_mem_forgotten recordEach_forgotten)

namespace WindowedList

/-! ## Batches one after another -/

section

variable {σ : Type} [Refinable σ] {l : WindowedList σ}

/-- Measurements that are dropped one by one are dropped as in one batch. -/
theorem run_forget (current : l.published = l.currentWindow) (order : List Nat) :
    l.run (order.map .forget) = (l.recordAll (forgotten order)).state := by
  have singles : (forgotten order).map .single = (order.map .forget : List (Action σ)) :=
    List.map_map
  exact singles ▸ run_single current (forgotten order)

/-- A batch that leaves the rows and the position of an up-to-date list as they were leaves the
list as it was. -/
theorem recordAll_eq_self (current : l.published = l.currentWindow)
    {entries : List (Nat × Option UInt32)} (rows : (l.recordAll entries).state.rows = l.rows)
    (offset : (l.recordAll entries).state.view.offset = l.view.offset) :
    (l.recordAll entries).state = l := by
  rw [recordAll_eq_publish, rows, offset]
  exact congrArg Outcome.state (publish_of_current current.symm)

end

theorem Reachable.current {σ : Type} [ExactRefinable σ] {l : WindowedList σ} (h : l.Reachable) :
    l.published = l.currentWindow := by
  induction h with
  | ofRows _ _ _ => rfl
  | act action _ _ ih =>
    obtain ⟨_, publishes, _⟩ := act_publishes ih action
    exact publishes.current

/-! ## There and back -/

section

variable {σ : Type} [RowLayout σ] {l mid after : WindowedList σ} {rows order : List Nat}

/-- A row that is on the same side of the position and gets its size back takes the position
back. -/
theorem pull_eq_neg {row : Nat} (sides : l.KeepsSides mid) (clear : l.Clear row)
    (restored : RowLayout.size after.rows row = RowLayout.size l.rows row) :
    mid.pull after row = - l.pull mid row := by
  unfold pull
  rw [if_congr (sides row clear).2 rfl rfl, restored]
  split
  · exact (Int.neg_sub _ _).symm
  · rfl

theorem offset_eq_of_restored (sides : l.KeepsSides mid) (clear : ∀ row ∈ rows, l.Clear row)
    (perm : rows.Perm order) (restored : after.rows = l.rows)
    (there : (mid.view.offset : Int) = l.view.offset + (rows.map (l.pull mid)).sum)
    (back : (after.view.offset : Int) = mid.view.offset + (order.map (mid.pull after)).sum) :
    after.view.offset = l.view.offset := by
  have pulls : (order.map (mid.pull after)).sum = - (rows.map (l.pull mid)).sum :=
    calc (order.map (mid.pull after)).sum
      _ = (rows.map (mid.pull after)).sum := ((perm.map _).sum_eq).symm
      _ = (rows.map fun row => - l.pull mid row).sum :=
        congrArg List.sum (List.map_congr_left fun row mem =>
          pull_eq_neg sides (clear row mem) (restored ▸ rfl))
      _ = - (rows.map (l.pull mid)).sum := by rw [List.sum_neg, List.map_map, Function.comp_def]
  rw [there, pulls] at back
  omega

end

section

variable {σ : Type} [HoldsMeasured σ] {l : WindowedList σ} {r : MeasuredRows}
  {entries : List (Nat × Option UInt32)} {order : List Nat}

/-- A row at its estimate that the scroll position does not cut. -/
structure Untouched (l : WindowedList σ) (r : MeasuredRows) (row : Nat) : Prop where
  inside : row < r.count
  unmeasured : r.isMeasured row = false
  apart : RowLayout.start l.rows row + (RowLayout.size l.rows row).toNat ≤ l.view.offset ∨
    l.view.offset ≤ RowLayout.start l.rows row

theorem Untouched.clear {row : Nat} (h : l.Untouched r row) (reached : ExactLayout.Reached l.rows)
    (held : l.rows = HoldsMeasured.holding r) : l.Clear row := by
  have measured : r.Reached := (reached_holding_iff r).mp (held ▸ reached)
  refine ⟨?_, h.apart⟩
  rw [(ExactLayout.laysOut reached).size_eq, held, sizes_holding, ← MeasuredRows.size_eq_sizeAt]
  exact measured.size_pos_of_not_measured h.inside h.unmeasured

/-- When rows are measured that were at their estimates and that the scroll position does not cut,
and their measurements are dropped again in any order, the list is what it was. -/
theorem forget_restores (reachable : l.Reachable) (held : l.rows = HoldsMeasured.holding r)
    (distinct : (entries.map Prod.fst).Nodup) (perm : (entries.map Prod.fst).Perm order)
    (untouched : ∀ row ∈ entries.map Prod.fst, l.Untouched r row)
    (nonzero : ∀ entry ∈ entries, entry.2 ≠ some 0)
    (fit : l.SizesFit entries) (room : l.OffsetFits entries)
    (fit' : (l.recordAll entries).state.SizesFit (forgotten order))
    (room' : (l.recordAll entries).state.OffsetFits (forgotten order)) :
    (l.recordAll entries).state.run (order.map .forget) = l := by
  have reached := reachable.rows
  let mid := (l.recordAll entries).state
  let after := (mid.recordAll (forgotten order)).state
  have reached_mid : ExactLayout.Reached mid.rows := reached_recordAll reached fit
  have reached_after : ExactLayout.Reached after.rows := reached_recordAll reached_mid fit'
  have held_mid : mid.rows = HoldsMeasured.holding (r.recordEach entries) :=
    rows_recordAll_holding held entries
  have held_after : after.rows = _ := rows_recordAll_holding held_mid (forgotten order)
  have clear (row : Nat) (mem : row ∈ entries.map Prod.fst) : l.Clear row :=
    (untouched row mem).clear reached held
  have rows : after.rows = l.rows := by
    rw [held_after, recordEach_forgotten ((reached_holding_iff r).mp (held ▸ reached))
      (fun row mem => (untouched row (perm.mem_iff.mpr mem)).unmeasured)
      (fun entry mem => perm.mem_iff.mp (List.mem_map_of_mem mem))
      ((reached_holding_iff _).mp (held_after ▸ reached_after)), held]
  obtain ⟨sides, there⟩ := keepsSides_recordAll_holding reached held distinct
    clear nonzero fit room
  have back : (after.view.offset : Int) = mid.view.offset + (order.map (mid.pull after)).sum := by
    -- The batch has kept the sides, so the rows are uncut on the way back as well.
    rw [← map_fst_forgotten order] at perm
    have pulled := keepsSides_recordAll_holding reached_mid held_mid (perm.nodup_iff.mp distinct)
      (fun row mem => (sides row (clear row (perm.mem_iff.mpr mem))).1)
      ne_zero_of_mem_forgotten fit' room'
    rw [map_fst_forgotten] at pulled
    exact pulled.2
  have offset : after.view.offset = l.view.offset :=
    offset_eq_of_restored sides clear perm rows there back
  have joined : after = (l.recordAll (entries ++ forgotten order)).state :=
    (recordAll_append l _ _).symm
  rw [joined] at rows offset
  calc (l.recordAll entries).state.run (order.map .forget)
    _ = after := run_forget rfl order
    _ = (l.recordAll (entries ++ forgotten order)).state := joined
    _ = l := recordAll_eq_self reachable.current rows offset

end

end WindowedList

/-- Two rows above the position and one below it are measured, and the measurements are dropped
in another order. -/
theorem forget_restores_fourRows :
    let l : WindowedList MeasuredRows := .ofRows fourRows {} ⟨20, 15⟩
    let entries : List (Nat × Option UInt32) := [(1, some 3), (2, some 40), (0, some 25)]
    (l.recordAll entries).state.view.offset = 28 ∧
      (l.recordAll entries).state.run [.forget 0, .forget 1, .forget 2] = l := by
  intro l entries
  have untouched : ∀ row ∈ entries.map Prod.fst, l.Untouched fourRows row := by
    simp only [entries, List.map_cons, List.map_nil, List.forall_mem_cons, List.not_mem_nil]
    exact ⟨⟨by decide, by decide, by decide +kernel⟩, ⟨by decide, by decide, by decide +kernel⟩,
      ⟨by decide, by decide, by decide +kernel⟩, nofun⟩
  have fit : l.SizesFit entries :=
    ⟨by decide +kernel, by decide +kernel, by decide +kernel, trivial⟩
  have room : l.OffsetFits entries :=
    ⟨by decide +kernel, by decide +kernel, by decide +kernel, trivial⟩
  have fit' : (l.recordAll entries).state.SizesFit (forgotten [0, 1, 2]) :=
    ⟨by decide +kernel, by decide +kernel, by decide +kernel, trivial⟩
  have room' : (l.recordAll entries).state.OffsetFits (forgotten [0, 1, 2]) :=
    ⟨by decide +kernel, by decide +kernel, by decide +kernel, trivial⟩
  have restored := WindowedList.forget_restores (l := l) (r := fourRows)
    (.ofRows {} ⟨20, 15⟩ reached_fourRows) rfl (by decide) (by decide) untouched (by decide)
    fit room fit' room'
  exact ⟨by decide +kernel, restored⟩

end Windowing
