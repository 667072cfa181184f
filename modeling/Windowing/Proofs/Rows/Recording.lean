import Mathlib.Data.List.Nodup
import Windowing.Proofs.Rows.Exact
import Windowing.Proofs.Rows.History

/-!
# Batches of measurements

To record a measurement is to replace one row, and the rest follows from the rows: their sizes
determine the tree of sums. So what a batch leaves is known once it is known of each row.

Results:
1. `Reached.eq_of_rows`: the rows determine their sums.
2. `recordEach_perm`: a batch that names no row twice leaves the same in any order.
3. `recordEach_forgotten`: rows that were at their estimates are there again once their
   measurements are dropped.
-/

namespace Windowing

/-- What is kept of a row once a size was recorded for it. -/
def recordedRow (estimate : Nat → UInt32) (i : Nat) : Option UInt32 → Row
  | some size => ⟨size, true⟩
  | none => estimatedRow estimate i

theorem size_recordedRow_pos (estimate : Nat → UInt32) (i : Nat) {size : Option UInt32}
    (nonzero : size ≠ some 0) : 0 < (recordedRow estimate i size).size.toNat := by
  cases size with
  | some size => exact UInt32.pos_iff_ne_zero.mpr fun zero => nonzero (congrArg some zero)
  | none =>
    show 0 < (estimatedRow estimate i).size.toNat
    rw [MeasuredRows.toNat_estimatedRow]
    exact Nat.le_max_right _ _

namespace MeasuredRows

/-- Records a batch of measurements, one after another. -/
def recordEach (r : MeasuredRows) (entries : List (Nat × Option UInt32)) : MeasuredRows :=
  entries.foldl (fun r entry => (r.record entry.1 entry.2).1) r

/-- The entries that drop the measurements of some rows. -/
def forgotten (rows : List Nat) : List (Nat × Option UInt32) := rows.map (·, none)

theorem map_fst_entries (rows : List Nat) (found : Nat → Option UInt32) :
    (rows.map fun row => (row, found row)).map Prod.fst = rows := by
  rw [List.map_map]
  exact List.map_id rows

theorem map_fst_forgotten (rows : List Nat) : (forgotten rows).map Prod.fst = rows :=
  map_fst_entries rows fun _ => none

theorem ne_zero_of_mem_forgotten {rows : List Nat} :
    ∀ entry ∈ forgotten rows, entry.2 ≠ some 0 :=
  List.forall_mem_map.mpr fun _ _ zero => nomatch zero

variable {r r' : MeasuredRows} {entries entries' : List (Nat × Option UInt32)}

/-! ## Rows and their sums -/

theorem Reached.eq_of_rows (reached : r.Reached) (reached' : r'.Reached)
    (estimate : r'.estimate = r.estimate) (rows : r'.rows = r.rows) : r' = r := by
  have sizes : r'.sizes = r.sizes := by rw [MeasuredRows.sizes, rows, MeasuredRows.sizes]
  have sums : r'.sums = r.sums := (sizes ▸ reached'.sums.1).unique reached.sums.1
  cases r
  cases r'
  cases estimate
  cases rows
  cases sums
  rfl

/-! ## One row -/

theorem record_eq (r : MeasuredRows) (i : Nat) (size : Option UInt32) :
    r.record i size = r.replace i (recordedRow r.estimate i size) := by
  cases size <;> rfl

theorem rows_record (r : MeasuredRows) (i : Nat) (size : Option UInt32) :
    (r.record i size).1.rows.toList = r.rows.toList.set i (recordedRow r.estimate i size) := by
  rw [record_eq, rows_replace]

theorem sizes_record (r : MeasuredRows) (i : Nat) (size : Option UInt32) :
    (r.record i size).1.sizes = r.sizes.set i (recordedRow r.estimate i size).size := by
  rw [record_eq, sizes_replace]

theorem getElem?_record {row i : Nat} {size : Option UInt32} (inside : i < r.count) :
    (r.record row size).1.rows[i]? =
      if i = row then some (recordedRow r.estimate row size) else r.rows[i]? := by
  rw [← Array.getElem?_toList, rows_record]
  split
  · next same =>
    subst same
    exact List.getElem?_set_self (Array.length_toList ▸ inside)
  · next other => rw [List.getElem?_set_ne (Ne.symm other), Array.getElem?_toList]

/-- A row that is not measured has its estimate. -/
theorem Reached.getElem?_of_not_measured (reached : r.Reached) {i : Nat} (inside : i < r.count)
    (unmeasured : r.isMeasured i = false) : r.rows[i]? = some (estimatedRow r.estimate i) := by
  obtain ⟨count, edits, rows⟩ := reached.exists_history
  have found : r.rows[i]? = some r.rows[i] := Array.getElem?_eq_getElem inside
  have plain := found
  rw [getElem?_rows rows] at plain
  rw [isMeasured, found] at unmeasured
  rw [found, eq_estimatedRow plain unmeasured]

theorem Reached.size_pos_of_not_measured (reached : r.Reached) {i : Nat} (inside : i < r.count)
    (unmeasured : r.isMeasured i = false) : 0 < (RowLayout.size r i).toNat := by
  have found := reached.getElem?_of_not_measured inside unmeasured
  have size : RowLayout.size r i = (recordedRow r.estimate i none).size := by
    show ((r.rows[i]?).map Row.size).getD 0 = _
    rw [found, Option.map_some, Option.getD_some]
    rfl
  rw [size]
  exact size_recordedRow_pos r.estimate i nofun

/-! ## Batches -/

theorem rows_recordEach (r : MeasuredRows) (entries : List (Nat × Option UInt32)) :
    (r.recordEach entries).rows.toList =
        entries.foldl (fun rows entry => rows.set entry.1 (recordedRow r.estimate entry.1 entry.2))
          r.rows.toList ∧
      (r.recordEach entries).estimate = r.estimate := by
  induction entries generalizing r with
  | nil => exact ⟨rfl, rfl⟩
  | cons entry entries ih =>
    have rest := ih (r.record entry.1 entry.2).1
    rwa [estimate_record, rows_record] at rest

theorem count_recordEach (r : MeasuredRows) (entries : List (Nat × Option UInt32)) :
    (r.recordEach entries).count = r.count := by
  induction entries generalizing r with
  | nil => rfl
  | cons entry entries ih => exact (ih _).trans (count_record r entry.1 entry.2)

/-- A batch that names no row twice leaves the same rows in any order, and so the same sums. -/
theorem recordEach_perm (distinct : (entries.map Prod.fst).Nodup) (perm : entries.Perm entries')
    (reached : (r.recordEach entries).Reached) (reached' : (r.recordEach entries').Reached) :
    r.recordEach entries' = r.recordEach entries := by
  obtain ⟨rows, estimate⟩ := rows_recordEach r entries
  obtain ⟨rows', estimate'⟩ := rows_recordEach r entries'
  refine reached.eq_of_rows reached' (estimate'.trans estimate.symm) (Array.toList_inj.mp ?_)
  rw [rows, rows']
  refine (perm.foldl_eq' (fun first mem other mem' rows => ?_) _).symm
  by_cases same : first = other
  · rw [same]
  · have apart : first.1 ≠ other.1 := fun row =>
      same (List.inj_on_of_nodup_map distinct mem mem' row)
    exact List.set_comm _ _ apart

/-- A row with a pixel keeps one through a batch that measures nothing as zero. -/
theorem size_recordEach_pos {i : Nat} (positive : 0 < (RowLayout.size r i).toNat)
    (nonzero : ∀ entry ∈ entries, entry.2 ≠ some 0) :
    0 < (RowLayout.size (r.recordEach entries) i).toNat := by
  induction entries generalizing r with
  | nil => exact positive
  | cons entry entries ih =>
    obtain ⟨first, rest⟩ := List.forall_mem_cons.mp nonzero
    refine ih ?_ rest
    rw [size_eq_sizeAt] at positive ⊢
    rw [sizes_record]
    by_cases same : entry.1 = i
    · subst same
      rw [sizeAt_set_self (lt_length_of_sizeAt_pos positive)]
      exact size_recordedRow_pos r.estimate entry.1 first
    · rwa [sizeAt_set_ne same]

/-- A batch leaves the rows alone that it does not name. -/
theorem getElem?_recordEach_of_not_mem {i : Nat} (other : i ∉ entries.map Prod.fst) :
    (r.recordEach entries).rows[i]? = r.rows[i]? := by
  induction entries generalizing r with
  | nil => rfl
  | cons entry entries ih =>
    obtain ⟨ne, rest⟩ := not_or.mp (mt List.mem_cons.mpr other)
    refine (ih rest).trans ?_
    rw [← Array.getElem?_toList, rows_record, List.getElem?_set_ne (Ne.symm ne),
      Array.getElem?_toList]

/-- The rows that a batch names are as it says of them, and the others are as they were. -/
theorem getElem?_recordEach_map {rows : List Nat} {found : Nat → Option UInt32} {i : Nat}
    (inside : i < r.count) :
    (r.recordEach (rows.map fun row => (row, found row))).rows[i]? =
      if i ∈ rows then some (recordedRow r.estimate i (found i)) else r.rows[i]? := by
  induction rows generalizing r with
  | nil => rw [if_neg List.not_mem_nil]; rfl
  | cons row rows ih =>
    have kept : i < (r.record row (found row)).1.count := (count_record r row _).symm ▸ inside
    have rest := ih kept
    rw [estimate_record, getElem?_record inside] at rest
    refine Eq.trans rest ?_
    by_cases first : i = row
    · subst first
      simp
    · simp [first]

/-- A row whose measurement was dropped is at its estimate. -/
theorem getElem?_recordEach_forgotten {rows : List Nat} {i : Nat} (named : i ∈ rows)
    (inside : i < r.count) :
    (r.recordEach (forgotten rows)).rows[i]? = some (estimatedRow r.estimate i) :=
  (getElem?_recordEach_map inside).trans (if_pos named)

/-- Rows that were not measured are what they were, sums and all, once the measurements that a
batch made of them are dropped. -/
theorem recordEach_forgotten {rows : List Nat} (reached : r.Reached)
    (unmeasured : ∀ i ∈ rows, r.isMeasured i = false)
    (named : ∀ entry ∈ entries, entry.1 ∈ rows)
    (reached' : ((r.recordEach entries).recordEach (forgotten rows)).Reached) :
    (r.recordEach entries).recordEach (forgotten rows) = r := by
  have estimate : (r.recordEach entries).estimate = r.estimate := (rows_recordEach r entries).2
  have estimate' := (rows_recordEach (r.recordEach entries) (forgotten rows)).2
  refine reached.eq_of_rows reached' (estimate'.trans estimate) (Array.ext_getElem? fun i => ?_)
  by_cases mem : i ∈ rows
  · rcases Nat.lt_or_ge i r.count with inside | outside
    · have inside' : i < (r.recordEach entries).count := count_recordEach r entries ▸ inside
      rw [getElem?_recordEach_forgotten mem inside', estimate,
        reached.getElem?_of_not_measured inside (unmeasured i mem)]
    · rw [Array.getElem?_eq_none outside, Array.getElem?_eq_none]
      show ((r.recordEach entries).recordEach (forgotten rows)).count ≤ i
      rwa [count_recordEach, count_recordEach]
  · rw [getElem?_recordEach_of_not_mem ((map_fst_forgotten rows).symm ▸ mem),
      getElem?_recordEach_of_not_mem]
    rintro named'
    obtain ⟨entry, mem', rfl⟩ := List.mem_map.mp named'
    exact mem (named entry mem')

end MeasuredRows

/-! ## Layouts that hold measured rows -/

/-- Layouts that can hold measured rows, be it as one choice of several, and take measurements as
these do. -/
class HoldsMeasured (σ : Type) extends ExactRefinable σ where
  holding : MeasuredRows → σ
  sizes_eq : ∀ r : MeasuredRows, sizes (holding r) = r.sizes
  reached_iff : ∀ r : MeasuredRows, Reached (holding r) ↔ r.Reached
  record_holding : ∀ (r : MeasuredRows) (i : Nat) (size : Option UInt32),
    (Refinable.record (holding r) i size).1 = holding (r.record i size).1

section

variable {σ : Type} [HoldsMeasured σ] (r : MeasuredRows)

theorem sizes_holding : ExactLayout.sizes (HoldsMeasured.holding r : σ) = r.sizes :=
  HoldsMeasured.sizes_eq r

theorem reached_holding_iff : ExactLayout.Reached (HoldsMeasured.holding r : σ) ↔ r.Reached :=
  HoldsMeasured.reached_iff r

end

instance : HoldsMeasured MeasuredRows where
  holding := id
  sizes_eq _ := rfl
  reached_iff _ := Iff.rfl
  record_holding _ _ _ := rfl

instance : HoldsMeasured Rows where
  holding := .measured
  sizes_eq _ := rfl
  reached_iff _ := Iff.rfl
  record_holding _ _ _ := rfl

end Windowing
