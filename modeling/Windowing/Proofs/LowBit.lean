import Windowing.SumTree

/-!
# Which slots hold which rows

Slot `i` of a sum tree holds the rows `dropLow (i + 1), …, i`. How the slots
overlap is arithmetic of lowest set bits, and all of it goes by halving: a
number is `2 * n` or `2 * n + 1`, and its lowest set bit is known once that of
`n` is.

Results:
1. `holds_iff_eq_or_holds_next`: the slots that hold row `i` are slot `i` and
   those that hold row `i + lowBit (i + 1)`, which is where `adjust` goes next.
2. `joinedTo_next`: what a slot holds before slot `i` is added to it ends where
   slot `i` begins; `joinedTo_succ`: by then slot `i` itself is complete.
3. `dropLow_add_pow`: the slot that a search looks at holds exactly the rows
   that the search would pass over.
-/

namespace Windowing

/-! ## Halving -/

theorem dropLow_le (n : Nat) : dropLow n ≤ n := Nat.and_le_left

theorem dropLow_succ_le (n : Nat) : dropLow (n + 1) ≤ n :=
  Nat.le_of_lt_succ (dropLow_lt (Nat.succ_ne_zero n))

theorem dropLow_double (n : Nat) : dropLow (2 * n) = 2 * dropLow n := by
  unfold dropLow
  cases n with
  | zero => rfl
  | succ n =>
    apply Nat.eq_of_testBit_eq
    intro i
    rw [show 2 * (n + 1) - 1 = 2 * n + 1 by omega, Nat.testBit_and]
    cases i with
    | zero => simp
    | succ i =>
      simp only [Nat.testBit_succ]
      rw [show 2 * (n + 1) / 2 = n + 1 by omega, show (2 * n + 1) / 2 = n by omega,
        Nat.mul_div_cancel_left _ Nat.two_pos, Nat.testBit_and, Nat.add_sub_cancel]

theorem dropLow_double_succ (n : Nat) : dropLow (2 * n + 1) = 2 * n := by
  unfold dropLow
  apply Nat.eq_of_testBit_eq
  intro i
  rw [Nat.add_sub_cancel, Nat.testBit_and]
  cases i with
  | zero => simp
  | succ i =>
    simp only [Nat.testBit_succ]
    rw [show (2 * n + 1) / 2 = n by omega, Nat.mul_div_cancel_left _ Nat.two_pos, Bool.and_self]

theorem lowBit_double (n : Nat) : lowBit (2 * n) = 2 * lowBit n := by
  rw [lowBit, lowBit, dropLow_double, Nat.mul_sub]

theorem lowBit_double_succ (n : Nat) : lowBit (2 * n + 1) = 1 := by
  rw [lowBit, dropLow_double_succ, Nat.add_sub_cancel_left]

theorem exists_half (n : Nat) : ∃ m, n = 2 * m ∨ n = 2 * m + 1 :=
  ⟨n / 2, by omega⟩

/-! ## The slots that hold a row -/

/-- Slot `slot` holds the row `row`. -/
def Holds (slot row : Nat) : Prop := dropLow (slot + 1) ≤ row ∧ row ≤ slot

instance (slot row : Nat) : Decidable (Holds slot row) := inferInstanceAs (Decidable (_ ∧ _))

/-- `holds_iff_eq_or_holds_next` with slots and rows counted from one. -/
theorem covers_iff {j k : Nat} (hk : k ≠ 0) :
    (dropLow j < k ∧ k ≤ j) ↔ j = k ∨ (dropLow j < k + lowBit k ∧ k + lowBit k ≤ j) := by
  -- The induction halves both numbers. Even numbers cover as their halves do; an
  -- odd `k` is covered by itself and by the even numbers that cover `k + 1`.
  induction k using Nat.strongRecOn generalizing j with
  | ind k ih =>
    obtain ⟨d, hj⟩ := exists_half j
    obtain ⟨c, rfl | rfl⟩ := exists_half k
    · have half := ih c (by omega) (j := d) (by omega)
      rw [lowBit_double]
      rcases hj with rfl | rfl
      · rw [dropLow_double]
        omega
      · rw [dropLow_double_succ]
        omega
    · rw [lowBit_double_succ]
      rcases hj with rfl | rfl
      · rw [dropLow_double]
        omega
      · rw [dropLow_double_succ]
        omega

theorem holds_iff_eq_or_holds_next {slot row : Nat} :
    Holds slot row ↔ slot = row ∨ Holds slot (row + lowBit (row + 1)) := by
  have step := covers_iff (j := slot + 1) (k := row + 1) (by omega)
  unfold Holds
  omega

/-! ## Adding a slot to the next -/

theorem dropLow_lt_of_next {c k : Nat} (hc : c ≠ 0) (next : c + lowBit c = k) :
    dropLow k < c ∧ c < k := by
  have pos := lowBit_pos hc
  have covers := covers_iff (j := k) hc
  have low : dropLow k < k := dropLow_lt (by omega)
  omega

/-- Clearing the lowest bit of `k` leads to the slot before slot `k` among
those added to `k + lowBit k`, or to where that slot begins. -/
theorem dropLow_next {k : Nat} (hk : k ≠ 0) :
    (dropLow k ≠ 0 ∧ dropLow k + lowBit (dropLow k) = k + lowBit k) ∨
      dropLow (k + lowBit k) = dropLow k := by
  induction k using Nat.strongRecOn with
  | ind k ih =>
    obtain ⟨c, rfl | rfl⟩ := exists_half k
    · have half := ih c (by omega) (by omega)
      rw [dropLow_double, lowBit_double, lowBit_double, ← Nat.mul_add 2 c, dropLow_double]
      omega
    · rw [dropLow_double_succ, lowBit_double_succ, lowBit_double,
        show 2 * c + 1 + 1 = 2 * (c + 1) by omega, dropLow_double]
      obtain ⟨d, rfl | rfl⟩ := exists_half c
      · right
        rw [dropLow_double_succ]
      · left
        rw [lowBit_double_succ]
        omega

/-- Where the rows end that slot `k`, counted from one, holds besides its own
row once the slots `1, …, m` have been added to theirs: at the last of them that
was added to `k`, or where slot `k` begins. -/
def joinedTo : Nat → Nat → Nat
  | 0, k => dropLow k
  | m + 1, k => if m + 1 + lowBit (m + 1) = k then m + 1 else joinedTo m k

theorem joinedTo_eq_of_skips {a m k : Nat} (h : a ≤ m)
    (skips : ∀ c, a < c → c ≤ m → c + lowBit c ≠ k) : joinedTo m k = joinedTo a k := by
  induction h with
  | refl => rfl
  | @step m hm ih =>
    have hm : a ≤ m := hm
    rw [Nat.succ_eq_add_one, joinedTo, if_neg (skips (m + 1) (by omega) (by omega))]
    exact ih fun c low high => skips c low (by omega)

theorem joinedTo_dropLow (k : Nat) : joinedTo (dropLow k) k = dropLow k := by
  refine joinedTo_eq_of_skips (Nat.zero_le _) fun c low high next => ?_
  have := dropLow_lt_of_next (by omega) next
  omega

theorem joinedTo_succ (m : Nat) : joinedTo m (m + 1) = m := by
  obtain ⟨d, rfl | rfl⟩ := exists_half m
  · have whole := joinedTo_dropLow (2 * d + 1)
    rwa [dropLow_double_succ] at whole
  · rw [joinedTo, if_pos (by rw [lowBit_double_succ])]

theorem joinedTo_next (m : Nat) :
    joinedTo m (m + 1 + lowBit (m + 1)) = dropLow (m + 1) := by
  have low := dropLow_succ_le m
  -- The slots between `dropLow (m + 1)` and `m + 1` are added to slots up to `m + 1`.
  rw [joinedTo_eq_of_skips low fun c above below next => ?_]
  · rcases dropLow_next (Nat.succ_ne_zero m) with ⟨pos, next⟩ | same
    · obtain ⟨d, hd⟩ := Nat.exists_eq_succ_of_ne_zero pos
      rw [hd] at next ⊢
      exact if_pos next
    · rw [← same]
      exact joinedTo_dropLow _
  · have covers := covers_iff (j := m + 1) (k := c) (by omega)
    have pos := lowBit_pos (i := m + 1) (by omega)
    omega

/-! ## Searching -/

theorem dropLow_add_pow (m k : Nat) :
    dropLow (m * Nat.pow 2 (k + 1) + Nat.pow 2 k) = m * Nat.pow 2 (k + 1) := by
  induction k with
  | zero =>
    show dropLow (m * 2 + 1) = m * 2
    rw [Nat.mul_comm, dropLow_double_succ]
  | succ k ih =>
    have twice (k : Nat) : Nat.pow 2 (k + 1) = 2 * Nat.pow 2 k := Nat.mul_comm _ _
    rw [twice (k + 1), Nat.mul_left_comm m, twice k, ← Nat.mul_add, ← twice k, dropLow_double, ih]

end Windowing
