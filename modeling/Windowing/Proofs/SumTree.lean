import Windowing.Proofs.SumTree.Tally

/-!
# What a sum tree holds

`t.Sums sizes` says that `t` is the tree of the list `sizes`: each slot holds
the sum of its rows, and the two cached numbers are right. That is to say that
`t` tallies with the sizes as numbers, so that what every operation keeps is
known of the tallies already; what is left is how a tree is built, and searched.

Results, for sizes whose sum is an offset (`Fits`):
1. `sums_ofSizes`, `Sums.push`, `Sums.take`, `Sums.adjust`: each operation takes
   the tree of a list to the tree of the changed list.
2. `Sums.unique`: the sizes determine the tree, slot by slot.
3. `Sums.sumTake_eq`: the sum of the first rows is read off the tree.
4. `ofSizesWith_eq`: a tree is built alike over any exact arithmetic.
5. `Sums.located`: a search finds the first row that ends after an offset.
-/

namespace Windowing

/-- The sum of the sizes is an offset, so no sum of them stops at the limit. -/
def Fits (sizes : List UInt32) : Prop := extentOf sizes ≤ Offset.limit

instance (sizes : List UInt32) : Decidable (Fits sizes) := inferInstanceAs (Decidable (_ ≤ _))

theorem Fits.startOf_le {sizes : List UInt32} (fits : Fits sizes) (i : Nat) :
    startOf sizes i ≤ Offset.limit :=
  Nat.le_trans (startOf_le_extentOf sizes i) fits

theorem Fits.of_append {sizes more : List UInt32} (fits : Fits (sizes ++ more)) : Fits sizes := by
  unfold Fits at fits ⊢
  rw [extentOf_append] at fits
  exact Nat.le_trans (Nat.le_add_right _ _) fits

namespace SumTree

/-! ## The invariant -/

/-- Every slot holds the sum of the rows it stands for. -/
def SlotsSum (slots : Array Nat) (sizes : List UInt32) : Prop :=
  ∀ i sum, slots[i]? = some sum → startOf sizes (dropLow (i + 1)) + sum = startOf sizes (i + 1)

/-- The tree of a list of sizes. -/
structure Sums (t : SumTree) (sizes : List UInt32) : Prop where
  size_eq : t.size = sizes.length
  slots_sum : SlotsSum t.slots sizes
  total_eq : t.total = extentOf sizes
  topStep_eq : t.topStep = highBit sizes.length

variable {m : Type → Type} [Monad m] [LawfulMonad m] {arith : Arithmetic m} {t : SumTree}
  {sizes : List UInt32}

theorem slotsSum_iff {slots : Array Nat} :
    SlotsSum slots sizes ↔ SlotsTally slots (sizes.map UInt32.toNat) := by
  simp only [SlotsSum, SlotsTally, startOf_eq_sumTo]

theorem sums_iff_tallies : t.Sums sizes ↔ t.Tallies (sizes.map UInt32.toNat) := by
  constructor
  · rintro ⟨size, slots, total, topStep⟩
    exact ⟨by rwa [List.length_map], slotsSum_iff.mp slots, total, by rwa [List.length_map]⟩
  · rintro ⟨size, slots, total, topStep⟩
    rw [List.length_map] at size topStep
    exact ⟨size, slotsSum_iff.mpr slots, total, topStep⟩

/-! ## Operations -/

theorem Sums.sumTake_eq (h : t.Sums sizes) (fits : Fits sizes) (n : Nat) :
    t.sumTake n = startOf sizes n := by
  rw [(sums_iff_tallies.mp h).sumTake_eq fits, startOf_eq_sumTo]

theorem Sums.push (h : t.Sums sizes) {size : UInt32} (fits : Fits (sizes ++ [size])) :
    (t.push size).Sums (sizes ++ [size]) := by
  have numbers : (sizes ++ [size]).map UInt32.toNat = sizes.map UInt32.toNat ++ [size.toNat] :=
    List.map_append
  rw [Fits, extentOf, numbers] at fits
  obtain ⟨t', pushed, tallies⟩ :=
    (sums_iff_tallies.mp h).exists_pushWith Arithmetic.exact_stopping fits
  rw [← pushWith_stopping, pushed, sums_iff_tallies, numbers]
  exact tallies

theorem Sums.take (h : t.Sums sizes) (fits : Fits sizes) (n : Nat) :
    (t.take n).Sums (sizes.take n) := by
  obtain ⟨t', cut, tallies⟩ :=
    (sums_iff_tallies.mp h).exists_takeWith Arithmetic.exact_stopping fits n
  rw [← takeWith_stopping, cut, sums_iff_tallies, List.map_take]
  exact tallies

theorem Sums.adjust (h : t.Sums sizes) {row : Nat} {size : UInt32} (inside : row < sizes.length)
    (new : Fits (sizes.set row size)) {delta : Int}
    (delta_eq : delta = size.toNat - (sizeAt sizes row).toNat) :
    (t.adjust row delta).Sums (sizes.set row size) := by
  have inside' : row < (sizes.map UInt32.toNat).length := List.length_map UInt32.toNat ▸ inside
  have change : (sizes.map UInt32.toNat)[row] + delta = size.toNat := by
    rw [List.getElem_map, ← sizeAt_eq_getElem inside]
    omega
  rw [Fits, extentOf, List.map_set] at new
  obtain ⟨t', changed, tallies⟩ :=
    (sums_iff_tallies.mp h).exists_adjustWith Arithmetic.exact_stopping inside' change new
  rw [← adjustWith_stopping, changed, sums_iff_tallies, List.map_set]
  exact tallies

/-- A list of sizes has one tree, by whatever operations it came about. -/
theorem Sums.unique {t' : SumTree} (h : t.Sums sizes) (h' : t'.Sums sizes) : t = t' :=
  (sums_iff_tallies.mp h).unique (sums_iff_tallies.mp h')

/-! ## Building the tree -/

/-- What the slots hold once the first `m` of them have been added to theirs:
the row of the slot itself, and the rows joined to it so far. -/
def Joined (slots : Array Nat) (sizes : List UInt32) (m : Nat) : Prop :=
  ∀ i sum, slots[i]? = some sum →
    startOf sizes (dropLow (i + 1)) + sum =
      startOf sizes (joinedTo m (i + 1)) + (sizeAt sizes i).toNat

theorem joined_zero (sizes : List UInt32) :
    Joined (sizes.map UInt32.toNat).toArray sizes 0 := by
  intro i sum hi
  have size_eq : sum = (sizeAt sizes i).toNat := by
    rw [List.getElem?_toArray, List.getElem?_map] at hi
    obtain ⟨size, found, rfl⟩ := Option.map_eq_some_iff.mp hi
    rw [sizeAt, found, Option.getD_some]
  rw [joinedTo, size_eq]

theorem Joined.exists_raiseWith {slots : Array Nat} {k : Nat} (h : Joined slots sizes k)
    (exact : arith.Exact) (fits : Fits sizes) (inside : k < slots.size) :
    ∃ slots', raiseWith arith slots k = pure slots' ∧ slots'.size = slots.size ∧
      Joined slots' sizes (k + 1) := by
  -- Slot `k` is complete, and begins where the rows joined to the next slot end.
  have complete := h k slots[k] (Array.getElem?_eq_getElem inside)
  rw [joinedTo_succ, ← startOf_succ] at complete
  have slot : slots.getD k 0 = slots[k] := by
    rw [Array.getD_eq_getD_getElem?, Array.getElem?_eq_getElem inside, Option.getD_some]
  have skips {i : Nat} (other : k + lowBit (k + 1) ≠ i) :
      joinedTo (k + 1) (i + 1) = joinedTo k (i + 1) := by
    rw [joinedTo, if_neg (by omega)]
  rw [raiseWith, slot, Array.modifyM]
  generalize parent_eq : k + lowBit (k + 1) = parent at skips ⊢
  split
  · next parent_inside =>
    have held := h parent slots[parent] (Array.getElem?_eq_getElem parent_inside)
    have later : parent + 1 = k + 1 + lowBit (k + 1) := by omega
    rw [later, joinedTo_next, ← later] at held
    have order : k + 1 ≤ parent := by
      have pos : 0 < lowBit (k + 1) := lowBit_pos (Nat.succ_ne_zero k)
      omega
    have mono := startOf_le_startOf sizes order
    have bound := fits.startOf_le (parent + 1)
    rw [startOf_succ sizes parent] at bound
    refine ⟨slots.set parent (slots[k] + slots[parent]), ?_, Array.size_set _, ?_⟩
    · dsimp only
      rw [exact.add_eq (by omega), pure_bind]
    · intro i sum found
      by_cases same : parent = i
      · subst same
        rw [Array.getElem?_set_self, Option.some.injEq] at found
        rw [joinedTo, if_pos later.symm]
        omega
      · rw [Array.getElem?_set_ne parent_inside same] at found
        rw [skips same]
        exact h i sum found
  · next past =>
    refine ⟨slots, rfl, rfl, fun i sum found => ?_⟩
    have bound := (Array.getElem?_eq_some_iff.mp found).1
    rw [skips (by omega)]
    exact h i sum found

theorem exists_foldlM_raiseWith (exact : arith.Exact) (fits : Fits sizes) {k : Nat}
    (hk : k ≤ sizes.length) :
    ∃ slots, (List.range k).foldlM (raiseWith arith) (sizes.map UInt32.toNat).toArray = pure slots ∧
      slots.size = sizes.length ∧ Joined slots sizes k := by
  induction k with
  | zero => exact ⟨_, rfl, by simp, joined_zero sizes⟩
  | succ k ih =>
    obtain ⟨slots, before, size, joined⟩ := ih (Nat.le_of_succ_le hk)
    obtain ⟨slots', raised, size', joined'⟩ := joined.exists_raiseWith exact fits (size ▸ hk)
    refine ⟨slots', ?_, size'.trans size, joined'⟩
    rw [List.range_succ, List.foldlM_append, before, pure_bind, List.foldlM_cons, raised, pure_bind,
      List.foldlM_nil]

theorem foldlM_add_eq (exact : arith.Exact) (sum : Nat)
    (fits : sum + extentOf sizes ≤ Offset.limit) :
    sizes.foldlM (fun sum size => arith.add sum size.toNat) sum = pure (sum + extentOf sizes) := by
  induction sizes generalizing sum with
  | nil => rfl
  | cons size sizes ih =>
    rw [extentOf_cons] at fits ⊢
    rw [List.foldlM_cons, exact.add_eq (by omega), pure_bind, ih _ (by omega), Nat.add_assoc]

theorem exists_ofSizesWith (exact : arith.Exact) (fits : Fits sizes) :
    ∃ t, ofSizesWith arith sizes = pure t ∧ t.Sums sizes := by
  obtain ⟨slots, built, size, joined⟩ := exists_foldlM_raiseWith exact fits (Nat.le_refl _)
  have total := foldlM_add_eq exact 0 (by rwa [Nat.zero_add])
  refine ⟨⟨slots, extentOf sizes, highBit sizes.length⟩, ?_, size, ?_, rfl, rfl⟩
  · rw [ofSizesWith, built, pure_bind, total, pure_bind, Nat.zero_add]
  · intro i sum found
    have inside : i < sizes.length := size ▸ (Array.getElem?_eq_some_iff.mp found).1
    have held := joined i sum found
    rw [joinedTo_eq_of_skips (Nat.le_of_lt inside) fun c low _ next => ?_, joinedTo_succ,
      ← startOf_succ] at held
    · exact held
    · have := dropLow_lt_of_next (by omega) next
      omega

theorem sums_ofSizes (fits : Fits sizes) : (ofSizes sizes).Sums sizes := by
  obtain ⟨t, built, sums⟩ := exists_ofSizesWith Arithmetic.exact_stopping fits
  rw [← ofSizesWith_stopping, built]
  exact sums

/-- All exact arithmetics agree on the tree of a list. -/
theorem ofSizesWith_eq (exact : arith.Exact) (fits : Fits sizes) :
    ofSizesWith arith sizes = pure (ofSizes sizes) := by
  obtain ⟨t, built, sums⟩ := exists_ofSizesWith exact fits
  rw [built, sums.unique (sums_ofSizes fits)]

/-! ## Searching -/

/-- The search keeps `row` at a multiple of `2 ^ k`, twice the step, with the
offset between row `row` and row `row + 2 ^ k`. -/
theorem located_descend {slots : Array Nat} (sums : SlotsSum slots sizes)
    (size_eq : slots.size = sizes.length) {k m row offset : Nat}
    (aligned : row = m * Nat.pow 2 k) (le_length : row ≤ sizes.length)
    (start_le : startOf sizes row ≤ offset)
    (lt_stop : row + Nat.pow 2 k ≤ sizes.length → offset < startOf sizes (row + Nat.pow 2 k)) :
    Located sizes offset (descend slots row (offset - startOf sizes row) (Nat.pow 2 k / 2)) := by
  induction k generalizing m row with
  | zero =>
    rw [descend, dif_pos (by decide)]
    exact ⟨le_length, start_le, lt_stop⟩
  | succ k ih =>
    have pos : 0 < Nat.pow 2 k := Nat.pow_pos Nat.two_pos
    have twice : Nat.pow 2 (k + 1) = 2 * Nat.pow 2 k := Nat.mul_comm _ _
    have step : Nat.pow 2 (k + 1) / 2 = Nat.pow 2 k := by omega
    have even : row = 2 * m * Nat.pow 2 k := by rw [aligned, twice, Nat.mul_left_comm, Nat.mul_assoc]
    have odd : row + Nat.pow 2 k = (2 * m + 1) * Nat.pow 2 k := by
      rw [even, Nat.add_mul, Nat.one_mul]
    -- The slot to look at holds exactly the rows that the step would pass over.
    have begins : dropLow (row + Nat.pow 2 k) = row := by rw [aligned, dropLow_add_pow]
    rw [step, descend, dif_neg (by omega)]
    split
    · next sum found =>
      have inside := (Array.getElem?_eq_some_iff.mp found).1
      have held := sums _ sum found
      rw [show row + Nat.pow 2 k - 1 + 1 = row + Nat.pow 2 k by omega, begins] at held
      split
      · next passed =>
        rw [show offset - startOf sizes row - sum = offset - startOf sizes (row + Nat.pow 2 k) by
          omega]
        refine ih odd (by omega) (by omega) fun bound => ?_
        rw [show row + Nat.pow 2 k + Nat.pow 2 k = row + Nat.pow 2 (k + 1) by omega] at bound ⊢
        exact lt_stop bound
      · next short => exact ih even le_length start_le fun _ => by omega
    · next missing =>
      rw [Array.getElem?_eq_none_iff] at missing
      exact ih even le_length start_le fun _ => by omega

theorem Sums.located (h : t.Sums sizes) (offset : Nat) : Located sizes offset (t.locate offset) := by
  unfold locate
  rw [h.topStep_eq, highBit]
  split
  · next empty =>
    rw [descend, dif_pos rfl]
    exact ⟨Nat.zero_le _, Nat.zero_le _, fun bound => by omega⟩
  · next some =>
    have above : sizes.length < 0 + Nat.pow 2 (sizes.length.log2 + 1) := by
      rw [Nat.zero_add]
      exact Nat.lt_log2_self
    have found : Located sizes offset
        (descend t.slots 0 (offset - 0) (Nat.pow 2 (sizes.length.log2 + 1) / 2)) :=
      located_descend h.slots_sum h.size_eq (Nat.zero_mul _).symm (Nat.zero_le _) (Nat.zero_le _)
        fun bound => absurd above (Nat.not_lt.mpr bound)
    rwa [show Nat.pow 2 (sizes.length.log2 + 1) / 2 = Nat.pow 2 sizes.length.log2 from
      Nat.mul_div_cancel _ Nat.two_pos] at found

end SumTree

end Windowing
