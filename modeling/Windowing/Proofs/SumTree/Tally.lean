import Windowing.Proofs.LowBit
import Windowing.Proofs.SumTree.Arithmetic
import Windowing.Proofs.Track

/-!
# Trees that tally

`t.Tallies numbers` says that `t` is the tree of the list `numbers`, whatever their size: each slot
holds the sum of the numbers it stands for, and the two cached numbers are right. The invariant does
not mention the order in which the tree came about, so that an operation keeps it as soon as it
keeps the sums.

Every operation is followed over any arithmetic that is exact within the range of offsets. As long
as the sum of the numbers is an offset, no operation leaves that range, so that all these
arithmetics agree on the result, the one that stops and the one that has no answer there alike.

Results, over an exact arithmetic and for numbers whose sum is an offset:
1. `Tallies.sumTakeWith_eq`: a sum of the first numbers is read off the tree.
2. `Tallies.exists_pushWith`, `Tallies.exists_takeWith`, `Tallies.exists_adjustWith`: each operation
   has a result, the tree of the changed list.
3. `Tallies.unique`: the numbers determine the tree, slot by slot.
-/

namespace Windowing.SumTree

/-! ## The invariant -/

/-- Every slot holds the sum of the numbers it stands for. -/
def SlotsTally (slots : Array Nat) (numbers : List Nat) : Prop :=
  ∀ i sum, slots[i]? = some sum → sumTo numbers (dropLow (i + 1)) + sum = sumTo numbers (i + 1)

/-- The tree of a list of numbers. -/
structure Tallies (t : SumTree) (numbers : List Nat) : Prop where
  size_eq : t.size = numbers.length
  slots_tally : SlotsTally t.slots numbers
  total_eq : t.total = numbers.sum
  topStep_eq : t.topStep = highBit numbers.length

variable {m : Type → Type} [Monad m] [LawfulMonad m] {arith : Arithmetic m} {t : SumTree}
  {slots : Array Nat} {numbers : List Nat}

/-- A list of numbers has one tree, by whatever operations it came about. -/
theorem Tallies.unique {t' : SumTree} (h : t.Tallies numbers) (h' : t'.Tallies numbers) :
    t = t' := by
  have slots : t.slots = t'.slots := by
    refine Array.ext (h.size_eq.trans h'.size_eq.symm) fun i inside inside' => ?_
    have sum := h.slots_tally i _ (Array.getElem?_eq_getElem inside)
    have sum' := h'.slots_tally i _ (Array.getElem?_eq_getElem inside')
    exact Nat.add_left_cancel (sum.trans sum'.symm)
  have total := h.total_eq.trans h'.total_eq.symm
  have topStep := h.topStep_eq.trans h'.topStep_eq.symm
  cases t
  cases t'
  cases slots
  cases total
  cases topStep
  rfl

/-! ## Sums of the first numbers -/

theorem SlotsTally.sumDownWith_eq (tally : SlotsTally slots numbers) (exact : arith.Exact)
    (fits : numbers.sum ≤ Offset.limit) {n : Nat} (hn : n ≤ slots.size) :
    sumDownWith arith slots n = pure (sumTo numbers n) := by
  induction n using Nat.strongRecOn with
  | ind n ih =>
    rw [sumDownWith]
    split
    · next h => rw [h, sumTo_zero]
    · next h =>
      have rest := ih (dropLow n) (dropLow_lt h) (Nat.le_trans (dropLow_le n) hn)
      have last := tally (n - 1) (slots.getD (n - 1) 0) (by
        rw [Array.getElem?_eq_getElem (by omega), Array.getD_eq_getD_getElem?,
          Array.getElem?_eq_getElem (by omega), Option.getD_some])
      rw [Nat.sub_add_cancel (Nat.pos_of_ne_zero h)] at last
      rw [rest, pure_bind, exact.add_eq (last ▸ Nat.le_trans (sumTo_le_sum numbers n) fits), last]

theorem Tallies.sumTakeWith_eq (h : t.Tallies numbers) (exact : arith.Exact)
    (fits : numbers.sum ≤ Offset.limit) (n : Nat) :
    t.sumTakeWith arith n = pure (sumTo numbers n) := by
  have inside : min n t.size ≤ t.slots.size := Nat.min_le_right n t.size
  rw [sumTakeWith, h.slots_tally.sumDownWith_eq exact fits inside, h.size_eq, sumTo_min]

theorem Tallies.sumTake_eq (h : t.Tallies numbers) (fits : numbers.sum ≤ Offset.limit) (n : Nat) :
    t.sumTake n = sumTo numbers n := by
  rw [← sumTakeWith_stopping, h.sumTakeWith_eq Arithmetic.exact_stopping fits]
  rfl

/-! ## Appending -/

/-- The new slot ends with the list, and begins where the numbers begin that it holds besides the
new one. -/
theorem SlotsTally.push (tally : SlotsTally slots numbers) (size_eq : slots.size = numbers.length)
    (number : Nat) :
    SlotsTally
      (slots.push (numbers.sum - sumTo numbers (dropLow (numbers.length + 1)) + number))
      (numbers ++ [number]) := by
  intro i sum found
  rw [Array.getElem?_push] at found
  split at found
  · next at_end =>
    obtain rfl : i = numbers.length := at_end.trans size_eq
    have begins := sumTo_le_sum numbers (dropLow (numbers.length + 1))
    have whole : sumTo (numbers ++ [number]) (numbers.length + 1) = numbers.sum + number := by
      rw [sumTo_of_length_le (by simp), List.sum_append_nat, List.sum_singleton]
    rw [← Option.some.inj found, sumTo_append (dropLow_succ_le _), whole, ← Nat.add_assoc,
      Nat.add_sub_cancel' begins]
  · have bound : i < numbers.length := size_eq ▸ (Array.getElem?_eq_some_iff.mp found).1
    rw [sumTo_append bound, sumTo_append (Nat.le_trans (dropLow_le _) bound)]
    exact tally i sum found

theorem Tallies.exists_pushWith (h : t.Tallies numbers) (exact : arith.Exact) {size : UInt32}
    (fits : (numbers ++ [size.toNat]).sum ≤ Offset.limit) :
    ∃ t', t.pushWith arith size = pure t' ∧ t'.Tallies (numbers ++ [size.toNat]) := by
  have sum : (numbers ++ [size.toNat]).sum = numbers.sum + size.toNat := by
    rw [List.sum_append_nat, List.sum_singleton]
  have length : (numbers ++ [size.toNat]).length = numbers.length + 1 := List.length_append
  rw [sum] at fits
  have old : numbers.sum ≤ Offset.limit := Nat.le_of_add_right_le fits
  have begins := sumTo_le_sum numbers (dropLow (numbers.length + 1))
  let held := numbers.sum - sumTo numbers (dropLow (numbers.length + 1))
  have slot_fits : held + size.toNat ≤ Offset.limit :=
    Nat.le_trans (Nat.add_le_add_right (Nat.sub_le _ _) _) fits
  refine ⟨⟨t.slots.push (held + size.toNat), _, highBit (numbers.length + 1)⟩, ?_, ?_,
    h.slots_tally.push h.size_eq size.toNat, sum.symm, congrArg highBit length.symm⟩
  · rw [pushWith, h.sumTakeWith_eq exact old, pure_bind, h.sumTakeWith_eq exact old, pure_bind,
      h.size_eq, sumTo_of_length_le (Nat.le_refl _), exact.sub_eq begins, pure_bind,
      exact.add_eq slot_fits, pure_bind, h.total_eq, exact.add_eq fits, pure_bind]
  · rw [length, ← h.size_eq]
    exact Array.size_push _

/-! ## Cutting off -/

theorem SlotsTally.take (tally : SlotsTally slots numbers) (n : Nat) :
    SlotsTally (slots.take n) (numbers.take n) := by
  intro i sum found
  have cut : (slots.take n).toList = slots.toList.take n := by simp
  rw [← Array.getElem?_toList, cut] at found
  have bound : i < n :=
    Nat.lt_of_lt_of_le (List.getElem?_eq_some_iff.mp found).1 (List.length_take_le n _)
  rw [List.getElem?_take_of_lt bound, Array.getElem?_toList] at found
  rw [sumTo_take, sumTo_take, Nat.min_eq_left bound,
    Nat.min_eq_left (Nat.le_trans (dropLow_le _) bound)]
  exact tally i sum found

theorem Tallies.exists_takeWith (h : t.Tallies numbers) (exact : arith.Exact)
    (fits : numbers.sum ≤ Offset.limit) (n : Nat) :
    ∃ t', t.takeWith arith n = pure t' ∧ t'.Tallies (numbers.take n) := by
  unfold takeWith
  split
  · next whole =>
    refine ⟨t, rfl, ?_⟩
    rwa [List.take_of_length_le (h.size_eq ▸ whole)]
  · next cut =>
    have inside : n ≤ numbers.length := h.size_eq ▸ Nat.le_of_not_le cut
    have length : (numbers.take n).length = n := List.length_take_of_le inside
    refine ⟨⟨t.slots.take n, sumTo numbers n, highBit n⟩, ?_, ?_, h.slots_tally.take n, rfl,
      congrArg highBit length.symm⟩
    · rw [h.sumTakeWith_eq exact fits, pure_bind]
    · rw [length]
      show (t.slots.take n).size = n
      have size : t.slots.size = numbers.length := h.size_eq
      simp [size, inside]

/-! ## Changing one number -/

/-- Every slot that holds `row` is shifted, and no other. -/
theorem exists_shiftUpWith (exact : arith.Exact) {delta : Int} {row : Nat}
    (inRange : ∀ slot sum, Holds slot row → slots[slot]? = some sum →
      0 ≤ sum + delta ∧ sum + delta ≤ Offset.limit) :
    ∃ slots', shiftUpWith arith slots delta row = pure slots' ∧ slots'.size = slots.size ∧
      ∀ slot, slots'[slot]? =
        if Holds slot row then slots[slot]?.map fun sum : Nat => (sum + delta).toNat
        else slots[slot]? := by
  fun_induction shiftUpWith arith slots delta row with
  | case1 slots row inside ih =>
    have step (slot : Nat) : Holds slot row ↔ slot = row ∨ Holds slot (row + lowBit (row + 1)) :=
      holds_iff_eq_or_holds_next
    have apart {slot : Nat} (holds : Holds slot (row + lowBit (row + 1))) : row ≠ slot := by
      have pos := lowBit_pos (Nat.succ_ne_zero row)
      exact Nat.ne_of_lt (Nat.lt_of_lt_of_le (Nat.lt_add_of_pos_right pos) holds.2)
    have range := inRange row slots[row] ((step row).mpr (Or.inl rfl))
      (Array.getElem?_eq_getElem inside)
    let moved := (slots[row] + delta).toNat
    have moved_eq : slots[row] + delta = moved := (Int.toNat_of_nonneg range.1).symm
    obtain ⟨slots', result, size, all⟩ := ih moved fun slot sum holds found => by
      rw [Array.getElem?_set_ne inside (apart holds)] at found
      exact inRange slot sum ((step slot).mpr (Or.inr holds)) found
    refine ⟨slots', ?_, size.trans (Array.size_set inside), fun slot => ?_⟩
    · rw [exact.shift_eq moved_eq (by omega), pure_bind, result]
    · rw [all]
      by_cases same : row = slot
      · subst same
        rw [if_neg fun holds => apart holds rfl, if_pos ((step row).mpr (Or.inl rfl)),
          Array.getElem?_set_self inside, Array.getElem?_eq_getElem inside, Option.map_some]
      · rw [Array.getElem?_set_ne inside same]
        refine if_congr ?_ rfl rfl
        rw [step slot]
        exact ⟨Or.inr, fun holds => holds.resolve_left (Ne.symm same)⟩
  | case2 slots row outside =>
    refine ⟨slots, rfl, rfl, fun slot => ?_⟩
    split
    · next holds =>
      have past : slots.size ≤ slot := Nat.le_trans (Nat.not_lt.mp outside) holds.2
      rw [Array.getElem?_eq_none past, Option.map_none]
    · rfl

section

variable {row number : Nat} {delta : Int}

/-- A slot that holds the changed number is to be shifted by the change. -/
theorem SlotsTally.exists_shifted (tally : SlotsTally slots numbers) (inside : row < numbers.length)
    (change : numbers[row] + delta = number) {slot sum : Nat} (holds : Holds slot row)
    (found : slots[slot]? = some sum) :
    ∃ sum' : Nat, sum + delta = sum' ∧ sumTo (numbers.set row number) (dropLow (slot + 1)) + sum' =
      sumTo (numbers.set row number) (slot + 1) := by
  have held := tally slot sum found
  have begins : sumTo (numbers.set row number) (dropLow (slot + 1)) = _ :=
    sumTo_set_of_le number holds.1
  have after : row < slot + 1 := Nat.lt_succ_of_le holds.2
  have ends := sumTo_set_of_lt number inside after
  have mono := sumTo_le_sumTo (numbers.set row number)
    (Nat.le_trans (dropLow_succ_le slot) (Nat.le_add_right slot 1))
  exact ⟨sumTo (numbers.set row number) (slot + 1) - sumTo numbers (dropLow (slot + 1)),
    by omega, by omega⟩

/-- A slot that does not hold the changed number is right as it is. -/
theorem SlotsTally.kept (tally : SlotsTally slots numbers) (inside : row < numbers.length)
    {slot sum : Nat} (apart : ¬ Holds slot row) (found : slots[slot]? = some sum) :
    sumTo (numbers.set row number) (dropLow (slot + 1)) + sum =
      sumTo (numbers.set row number) (slot + 1) := by
  have held := tally slot sum found
  rcases Nat.lt_or_ge slot row with low | high
  · have begins : dropLow (slot + 1) ≤ row :=
      Nat.le_trans (dropLow_succ_le slot) (Nat.le_of_lt low)
    rw [sumTo_set_of_le number low, sumTo_set_of_le number begins]
    exact held
  · -- The slot begins after the number: both of its ends move alike.
    have begins : row < dropLow (slot + 1) := Nat.lt_of_not_le fun low => apart ⟨low, high⟩
    have after : row < slot + 1 := Nat.lt_succ_of_le high
    have first := sumTo_set_of_lt number inside begins
    have last := sumTo_set_of_lt number inside after
    omega

theorem Tallies.exists_adjustWith (h : t.Tallies numbers) (exact : arith.Exact)
    (inside : row < numbers.length) (change : numbers[row] + delta = number)
    (fits : (numbers.set row number).sum ≤ Offset.limit) :
    ∃ t', t.adjustWith arith row delta = pure t' ∧ t'.Tallies (numbers.set row number) := by
  unfold adjustWith
  split
  · have total := sumTo_set_of_lt number inside inside
    rw [sumTo_of_length_le (Nat.le_refl _), sumTo_of_length_le (by simp)] at total
    have total_eq : t.total + delta = (numbers.set row number).sum := by rw [h.total_eq]; omega
    have inRange (slot sum : Nat) (holds : Holds slot row) (found : t.slots[slot]? = some sum) :
        0 ≤ sum + delta ∧ sum + delta ≤ Offset.limit := by
      obtain ⟨sum', moved, ends⟩ := h.slots_tally.exists_shifted inside change holds found
      have bound := sumTo_le_sum (numbers.set row number) (slot + 1)
      omega
    obtain ⟨slots, shifted, size, all⟩ := exists_shiftUpWith exact inRange
    refine ⟨{ t with slots, total := (numbers.set row number).sum }, ?_, ?_, ?_, rfl, ?_⟩
    · rw [exact.shift_eq total_eq fits, pure_bind, shifted, pure_bind]
    · rw [List.length_set]
      exact size.trans h.size_eq
    · intro slot sum found
      rw [all] at found
      split at found
      · next holds =>
        obtain ⟨before, old, rfl⟩ := Option.map_eq_some_iff.mp found
        obtain ⟨sum', moved, ends⟩ := h.slots_tally.exists_shifted inside change holds old
        rwa [moved, Int.toNat_natCast]
      · next apart => exact h.slots_tally.kept inside apart found
    · rw [List.length_set]
      exact h.topStep_eq
  · next same =>
    have rowInside : row < t.size := h.size_eq ▸ inside
    have unchanged : number = numbers[row] := by omega
    refine ⟨t, rfl, ?_⟩
    rwa [unchanged, List.set_getElem_self]

omit [LawfulMonad m] in
/-- A number past the end is not there to be changed. -/
theorem Tallies.adjustWith_of_length_le (h : t.Tallies numbers) (past : numbers.length ≤ row) :
    t.adjustWith arith row delta = pure t :=
  if_neg fun changed => absurd (h.size_eq ▸ changed.1) (Nat.not_lt.mpr past)

end

end Windowing.SumTree
