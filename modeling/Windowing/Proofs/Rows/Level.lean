import Windowing.Proofs.Rows.Contract
import Windowing.Proofs.Rows.History

/-!
# Rows of one height, kept in two ways

Rows that all have one height can be counted, or be kept one by one with the
height as their estimate. `LevelLayout` says what both ways have in common: the
rows are level, and stay level through a measurement of that height, a dropped
measurement and a change of the number of rows.

Results:
1. `level_edit`: an edit that brings no other height keeps measured rows level.
2. `LevelLayout`: instances for rows of one height, measured rows and the choice.
3. `LaysOut.sameAnswers`: layouts of the same sizes answer every question alike.
-/

namespace Windowing

/-- Layouts that can have all rows at one height. -/
class LevelLayout (σ : Type) extends Refinable σ where
  /-- All rows have the height, and so has every row that is yet to come. -/
  Level : UInt32 → σ → Prop
  laysOut : ∀ {height : UInt32} {rows : σ}, Level height rows →
    LaysOut rows (List.replicate (RowLayout.count rows) height)
  /-- A measurement of the height, or a dropped one, changes no size. -/
  level_record : ∀ {height : UInt32} {rows : σ} (i : Nat) {measured : Option UInt32},
    Level height rows → (∀ size ∈ measured, size = height) →
      Level height (Refinable.record rows i measured).1 ∧
        RowLayout.count (Refinable.record rows i measured).1 = RowLayout.count rows ∧
        (Refinable.record rows i measured).2 = 0
  level_resize : ∀ {height : UInt32} {rows : σ} {count : Nat}, Level height rows →
    height.toNat * count ≤ Offset.limit →
      Level height (RowLayout.resize rows count) ∧
        RowLayout.count (RowLayout.resize rows count) = count
  level_forgetAll : ∀ {height : UInt32} {rows rows' : σ}, Level height rows →
    Refinable.forgetAll? rows = some rows' →
      Level height rows' ∧ RowLayout.count rows' = RowLayout.count rows

/-! ## Rows of one height -/

instance : LevelLayout UniformRows where
  Level height rows := rows.height = height ∧ height.toNat * rows.count ≤ Offset.limit
  laysOut {_ _} level := by
    obtain ⟨rfl, fits⟩ := level
    exact UniformRows.laysOut fits
  level_record {_ _} _ {_} level _ := ⟨level, rfl, rfl⟩
  level_resize level room := ⟨⟨level.1, room⟩, rfl⟩
  level_forgetAll _ none := nomatch none

/-! ## Measured rows -/

/-- The edit brings no other height, and no more rows than fit. -/
def Edit.KeepsHeight (height : UInt32) : Edit → Prop
  | .measure _ size => size = height
  | .resize count => height.toNat * count ≤ Offset.limit
  | _ => True

namespace MeasuredRows

/-- Measured rows that all have the height, measured or not. -/
structure Level (height : UInt32) (r : MeasuredRows) : Prop where
  reached : r.Reached
  positive : 0 < height.toNat
  estimate_eq : ∀ i, r.estimate i = height
  size_eq : ∀ row ∈ r.rows.toList, row.size = height

theorem sizes_eq_replicate {r : MeasuredRows} {height : UInt32}
    (same : ∀ row ∈ r.rows.toList, row.size = height) :
    r.sizes = List.replicate r.count height := by
  refine List.eq_replicate_iff.mpr ⟨length_sizes r, fun size mem => ?_⟩
  obtain ⟨row, found, rfl⟩ := List.mem_map.mp mem
  exact same row found

theorem fits_iff_of_size_eq {r : MeasuredRows} {height : UInt32} (positive : 0 < height.toNat)
    (same : ∀ row ∈ r.rows.toList, row.size = height) :
    Fits r.sizes ↔ height.toNat * r.count ≤ Offset.limit := by
  rw [Fits, sizes_eq_replicate same]
  exact Eq.to_iff (congrArg (· ≤ _) (UniformRows.extentOf_sizes ⟨r.count, height, positive⟩))

theorem size_estimatedRow {estimate : Nat → UInt32} {height : UInt32} (positive : 0 < height.toNat)
    (same : ∀ i, estimate i = height) (i : Nat) : (estimatedRow estimate i).size = height := by
  show (if estimate i = 0 then 1 else estimate i) = height
  rw [same, if_neg]
  intro zero
  rw [zero] at positive
  exact absurd positive (Nat.lt_irrefl 0)

theorem size_applyTo {estimate : Nat → UInt32} {height : UInt32} (positive : 0 < height.toNat)
    (estimated : ∀ i, estimate i = height) {rows : List Row}
    (same : ∀ row ∈ rows, row.size = height) {e : Edit} (keeps : e.KeepsHeight height) :
    ∀ row ∈ e.applyTo estimate rows, row.size = height := by
  intro row mem
  have fresh := size_estimatedRow positive estimated
  cases e with
  | measure i size =>
    rcases List.mem_or_eq_of_mem_set mem with old | rfl
    · exact same row old
    · exact keeps
  | forget i =>
    rcases List.mem_or_eq_of_mem_set mem with old | rfl
    · exact same row old
    · exact fresh i
  | forgetAll =>
    obtain ⟨i, _, rfl⟩ := List.mem_map.mp mem
    exact fresh i
  | resize count =>
    rcases List.mem_append.mp mem with old | new
    · exact same row (List.mem_of_mem_take old)
    · obtain ⟨i, _, rfl⟩ := List.mem_map.mp new
      exact fresh i

theorem count_edit (r : MeasuredRows) (e : Edit) : (r.edit e).count = e.countAfter r.count := by
  cases e with
  | measure i size => exact count_replace r i _
  | forget i => exact count_replace r i _
  | forgetAll => exact count_forgetAll r
  | resize count => exact count_resize r count

theorem level_edit {r : MeasuredRows} {height : UInt32} (level : r.Level height) {e : Edit}
    (keeps : e.KeepsHeight height) : (r.edit e).Level height := by
  have same : ∀ row ∈ (r.edit e).rows.toList, row.size = height := by
    rw [rows_edit]
    exact size_applyTo level.positive level.estimate_eq level.size_eq keeps
  have old := (fits_iff_of_size_eq level.positive level.size_eq).mp level.reached.sums.2
  have room : height.toNat * (r.edit e).count ≤ Offset.limit := by
    rw [count_edit]
    cases e with
    | resize count => exact keeps
    | measure | forget | forgetAll => exact old
  exact
    { reached := .edit e level.reached ((fits_iff_of_size_eq level.positive same).mpr room)
      positive := level.positive
      estimate_eq := fun i => by rw [estimate_edit, level.estimate_eq]
      size_eq := same }

theorem Level.record {r : MeasuredRows} {height : UInt32} (level : r.Level height) (i : Nat)
    {measured : Option UInt32} (same : ∀ size ∈ measured, size = height) :
    (r.record i measured).1.Level height ∧ (r.record i measured).2 = 0 := by
  have kept : (r.record i measured).1.Level height := by
    cases measured with
    | some size => exact level_edit (e := Edit.measure i size) level (same size rfl)
    | none => exact level_edit (e := .forget i) level trivial
  refine ⟨kept, ?_⟩
  obtain ⟨row, replaced⟩ := record_eq_replace r i measured
  have sizes : (r.record i measured).1.sizes = r.sizes := by
    rw [sizes_eq_replicate kept.size_eq, count_record, sizes_eq_replicate level.size_eq]
  rw [replaced] at sizes ⊢
  rw [change_replace, sizes, Int.sub_self]

instance : LevelLayout MeasuredRows where
  Level := Level
  laysOut {_ r} level := sizes_eq_replicate level.size_eq ▸ level.reached.laysOut
  level_record {_ _} i {measured} level same := by
    obtain ⟨kept, unchanged⟩ := level.record i same
    exact ⟨kept, count_record _ i measured, unchanged⟩
  level_resize {_ r count} level room :=
    ⟨level_edit (e := .resize count) level room, count_resize r count⟩
  level_forgetAll {_ r _} level same := by
    cases same
    exact ⟨level_edit (e := .forgetAll) level trivial, count_forgetAll r⟩

theorem exists_level {height : UInt32} {count : Nat} (positive : 0 < height.toNat)
    (fits : height.toNat * count ≤ Offset.limit) :
    ∃ r, MeasuredRows.ofEstimate count (fun _ => height) = .ok r ∧ r.Level height ∧
      r.count = count := by
  have nonzero : height ≠ 0 := by
    rintro rfl
    exact absurd positive (Nat.lt_irrefl 0)
  have constant : ∀ i, i < count → (fun _ : Nat => height) i ≠ 0 := fun _ _ => nonzero
  obtain ⟨r, built, estimate, rows⟩ := exists_ofEstimate constant
  have count_eq : r.count = count := by
    rw [MeasuredRows.count, ← Array.length_toList, rows, length_plainRows]
    rfl
  have same : ∀ row ∈ r.rows.toList, row.size = height := by
    rw [rows]
    intro row mem
    obtain ⟨i, _, rfl⟩ := List.mem_map.mp mem
    exact size_estimatedRow positive (fun _ => rfl) i
  refine ⟨r, built, ?_, count_eq⟩
  exact
    { reached := .ofEstimate built ((fits_iff_of_size_eq positive same).mpr (count_eq ▸ fits))
      positive := positive
      estimate_eq := fun i => congrFun estimate i
      size_eq := same }

end MeasuredRows

/-! ## The choice of layout -/

namespace Rows

/-- The chosen layout is level. -/
def Level (height : UInt32) : Rows → Prop
  | uniform rows => LevelLayout.Level height rows
  | measured rows => LevelLayout.Level height rows

instance : LevelLayout Rows where
  Level := Level
  laysOut {_ rows} level := by
    cases rows with
    | uniform rows =>
      have laid : LaysOut rows _ := LevelLayout.laysOut level
      exact { laid with }
    | measured rows =>
      have laid : LaysOut rows _ := LevelLayout.laysOut level
      exact { laid with }
  level_record {_ rows} i {_} level same := by
    cases rows with
    | uniform rows => exact ⟨level, rfl, rfl⟩
    | measured rows => exact @LevelLayout.level_record MeasuredRows _ _ rows i _ level same
  level_resize {_ rows _} level room := by
    cases rows with
    | uniform rows => exact @LevelLayout.level_resize UniformRows _ _ rows _ level room
    | measured rows => exact @LevelLayout.level_resize MeasuredRows _ _ rows _ level room
  level_forgetAll {_ rows _} level same := by
    cases rows with
    | uniform rows => exact nomatch same
    | measured rows =>
      cases same
      exact @LevelLayout.level_forgetAll MeasuredRows _ _ rows _ level rfl

end Rows

/-! ## Layouts with the same answers -/

/-- Two layouts, of any kinds, that answer every question alike. -/
structure SameAnswers {σ τ : Type} [RowLayout σ] [RowLayout τ] (rows : σ) (rows' : τ) : Prop where
  count_eq : RowLayout.count rows' = RowLayout.count rows
  extent_eq : RowLayout.extent rows' = RowLayout.extent rows
  start_eq : RowLayout.start rows' = RowLayout.start rows
  size_eq : RowLayout.size rows' = RowLayout.size rows
  rowAt_eq : RowLayout.rowAt rows' = RowLayout.rowAt rows

theorem LaysOut.sameAnswers {σ τ : Type} [RowLayout σ] [RowLayout τ] {rows : σ} {rows' : τ}
    {sizes : List UInt32} (laid : LaysOut rows sizes) (laid' : LaysOut rows' sizes) :
    SameAnswers rows rows' where
  count_eq := by rw [laid.count_eq, laid'.count_eq]
  extent_eq := by rw [laid.extent_eq, laid'.extent_eq]
  start_eq := funext fun i => by rw [laid.start_eq, laid'.start_eq]
  size_eq := funext fun i => by rw [laid.size_eq, laid'.size_eq]
  rowAt_eq := funext fun offset => by rw [laid.rowAt_eq_scan, laid'.rowAt_eq_scan]

end Windowing
