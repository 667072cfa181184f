import Windowing.Proofs.Rows.Contract
import Windowing.Proofs.WindowedList.Reachable

/-!
# Rows without size zero

A measured row can be given the size zero, and then it stays in the layout without a
pixel. Nothing else makes such a row: an estimate counts as at least `1` when it is asked
for, and the estimates at the start are checked. So rows that all have a pixel keep one
each, as long as no measurement is zero.

Results:
1. `allPositive_edit`: an edit of measured rows that measures nothing as zero.
2. `Rows.Built.allPositive`: layouts that were just built.
3. `WindowedList.allPositive_run`: runs of actions.
-/

namespace Windowing

/-- Every row has a pixel. -/
def AllPositive {σ : Type} [RowLayout σ] (rows : σ) : Prop :=
  ∀ row < RowLayout.count rows, 0 < (RowLayout.size rows row).toNat

/-- The edit does not measure a row as zero. -/
def Edit.MeasuresPositive : Edit → Prop
  | measure _ size => 0 < size.toNat
  | _ => True

/-! ## Measured rows -/

namespace MeasuredRows

variable {r : MeasuredRows}

/-- Said of the rows as they are kept. -/
theorem allPositive_iff : AllPositive r ↔ ∀ row ∈ r.rows.toList, 0 < row.size.toNat := by
  have size {i : Nat} (inside : i < r.rows.size) : RowLayout.size r i = r.rows[i].size := by
    show (r.rows[i]?.map Row.size).getD 0 = _
    rw [Array.getElem?_eq_getElem inside, Option.map_some, Option.getD_some]
  constructor
  · intro positive row mem
    obtain ⟨i, inside, rfl⟩ := Array.mem_iff_getElem.mp (Array.mem_toList_iff.mp mem)
    exact size inside ▸ positive i inside
  · intro positive i inside
    rw [size inside]
    exact positive _ (Array.mem_toList_iff.mpr (Array.getElem_mem inside))

theorem size_unmeasured_pos (r : MeasuredRows) (i : Nat) : 0 < (r.unmeasured i).size.toNat := by
  unfold unmeasured
  split
  · exact Nat.one_pos
  · next nonzero => exact UInt32.pos_iff_ne_zero.mpr nonzero

theorem allPositive_replace (positive : AllPositive r) (i : Nat) {row : Row}
    (size : 0 < row.size.toNat) : AllPositive (r.replace i row).1 := by
  rw [allPositive_iff] at positive ⊢
  rw [rows_replace]
  intro other mem
  rcases List.mem_or_eq_of_mem_set mem with old | rfl
  · exact positive other old
  · exact size

theorem allPositive_forgetAll (r : MeasuredRows) : AllPositive r.forgetAll := by
  rw [allPositive_iff, rows_forgetAll, List.forall_mem_map]
  exact fun i _ => size_unmeasured_pos r i

theorem allPositive_resize (positive : AllPositive r) (count : Nat) :
    AllPositive (r.resize count) := by
  rw [allPositive_iff] at positive ⊢
  rw [rows_resize, List.forall_mem_append, List.forall_mem_map]
  exact ⟨fun row mem => positive row (List.mem_of_mem_take mem), fun i _ => size_unmeasured_pos r i⟩

theorem allPositive_edit (positive : AllPositive r) {e : Edit} (measures : e.MeasuresPositive) :
    AllPositive (r.edit e) := by
  cases e with
  | measure row size => exact allPositive_replace positive row measures
  | forget row => exact allPositive_replace positive row (size_unmeasured_pos r row)
  | forgetAll => exact allPositive_forgetAll r
  | resize count => exact allPositive_resize positive count

theorem allPositive_ofEstimate {count : Nat} {estimate : Nat → UInt32}
    (built : ofEstimate count estimate = .ok r) : AllPositive r := by
  unfold ofEstimate at built
  split at built
  · cases built
  · next checked =>
    cases built
    rw [allPositive_iff, List.toList_toArray, List.forall_mem_map, List.forall_mem_map]
    intro i mem
    have nonzero := List.find?_eq_none.mp checked i mem
    exact UInt32.pos_iff_ne_zero.mpr fun zero => nonzero (beq_iff_eq.mpr zero)

end MeasuredRows

/-! ## The choice of layout -/

theorem UniformRows.allPositive (rows : UniformRows) : AllPositive rows := by
  intro row inside
  have inside : row < rows.count := inside
  show 0 < (if row < rows.count then rows.height else 0).toNat
  rw [if_pos inside]
  exact rows.height_pos

namespace Rows

theorem allPositive_record {rows : Rows} (positive : AllPositive rows) (i : Nat)
    {size : Option UInt32} (nonzero : size ≠ some 0) :
    AllPositive (Refinable.record rows i size).1 := by
  cases rows with
  | uniform rows => exact positive
  | measured r =>
    have positive : AllPositive r := positive
    cases size with
    | none => exact MeasuredRows.allPositive_edit (e := .forget i) positive trivial
    | some size =>
      have measures : 0 < size.toNat :=
        UInt32.pos_iff_ne_zero.mpr fun zero => nonzero (congrArg some zero)
      exact MeasuredRows.allPositive_edit (e := .measure i size) positive measures

theorem allPositive_resize {rows : Rows} (positive : AllPositive rows) (count : Nat) :
    AllPositive (RowLayout.resize rows count) := by
  cases rows with
  | uniform rows => exact UniformRows.allPositive _
  | measured r => exact MeasuredRows.allPositive_resize positive count

theorem allPositive_forgetAll {rows rows' : Rows}
    (dropped : Refinable.forgetAll? rows = some rows') : AllPositive rows' := by
  cases rows with
  | uniform rows => cases dropped
  | measured r =>
    cases dropped
    exact MeasuredRows.allPositive_forgetAll r

theorem Built.allPositive {rows : Rows} (built : rows.Built) : AllPositive rows := by
  cases built with
  | uniform built => exact UniformRows.allPositive _
  | measured built => exact MeasuredRows.allPositive_ofEstimate built

end Rows

/-! ## Runs of actions -/

/-- The action measures no row as zero. -/
def Action.MeasuresPositive : Action Rows → Prop
  | .setRows rows => AllPositive rows
  | .measure _ size => size ≠ 0
  | .recordAll entries => ∀ entry ∈ entries, entry.2 ≠ some 0
  | _ => True

theorem Rows.allPositive_records {rows : Rows} (positive : AllPositive rows)
    {entries : List (Nat × Option UInt32)} (nonzero : ∀ entry ∈ entries, entry.2 ≠ some 0) :
    AllPositive
      (entries.foldl (fun rows entry => (Refinable.record rows entry.1 entry.2).1) rows) := by
  induction entries generalizing rows with
  | nil => exact positive
  | cons entry entries ih =>
    obtain ⟨first, rest⟩ := List.forall_mem_cons.mp nonzero
    exact ih (allPositive_record positive entry.1 first) rest

theorem Action.allPositive_rowsAfter {rows : Rows} (positive : AllPositive rows)
    {action : Action Rows} (measures : action.MeasuresPositive) :
    AllPositive (action.rowsAfter rows) := by
  cases action with
  | measure row size =>
    exact Rows.allPositive_record positive row fun zero => measures (Option.some.inj zero)
  | forget row => exact Rows.allPositive_record positive row (Option.some_ne_none 0).symm
  | recordAll entries => exact Rows.allPositive_records positive measures
  | resize count =>
    rw [rowsAfter]
    split
    · exact positive
    · exact Rows.allPositive_resize positive count
  | setRows rows => exact measures
  | forgetAll =>
    rw [rowsAfter]
    cases dropped : Refinable.forgetAll? rows with
    | none => exact positive
    | some rows => exact Rows.allPositive_forgetAll dropped
  | _ => exact positive

theorem WindowedList.allPositive_run {l : WindowedList Rows} (positive : AllPositive l.rows)
    {actions : List (Action Rows)} (measures : ∀ action ∈ actions, action.MeasuresPositive) :
    AllPositive (l.run actions).rows := by
  induction actions generalizing l with
  | nil => exact positive
  | cons action actions ih =>
    obtain ⟨first, rest⟩ := List.forall_mem_cons.mp measures
    refine ih ?_ rest
    rw [rows_act]
    exact Action.allPositive_rowsAfter positive first

end Windowing
