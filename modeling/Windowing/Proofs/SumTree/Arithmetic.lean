import Windowing.SumTree

/-!
# Sum trees over an arithmetic

The operations of a sum tree add sums, take one from another and shift them, in an arithmetic that
stops at the ends of the range of offsets. Here they are written over any arithmetic. With the one
that stops they are the operations of the tree, for every tree and every argument; with one that
has no answer where the other stops, they tell whether an operation ever did.

Results:
1. `ofSizesWith_stopping`, `takeWith_stopping`, `pushWith_stopping`, `adjustWith_stopping`,
   `sumTakeWith_stopping`: over the arithmetic that stops, the operations of the tree.
2. `exact_stopping`, `exact_checked`: both arithmetics are exact within the range of offsets.
-/

namespace Windowing

/-! ## Arithmetics -/

/-- How two sums are added, one is taken from another, and one is shifted. -/
structure Arithmetic (m : Type → Type) where
  add : Nat → Nat → m Nat
  sub : Nat → Nat → m Nat
  shift : Nat → Int → m Nat

namespace Arithmetic

/-- The arithmetic of offsets, which stops at `0` and at the limit. -/
def stopping : Arithmetic Id where
  add := Offset.add
  sub := Nat.sub
  shift := Offset.shift

/-- An answer that is withheld unless it is the integer it should be. -/
def whenExact (answer : Nat) (value : Int) : Option Nat :=
  if answer = value then some answer else none

/-- The arithmetic that has no answer where the one of offsets stops. -/
def checked : Arithmetic Option where
  add a b := whenExact (Offset.add a b) (a + b)
  sub a b := whenExact (a - b) (a - b)
  shift a delta := whenExact (Offset.shift a delta) (a + delta)

/-- Exact as long as the result is an offset. -/
structure Exact {m : Type → Type} [Monad m] (arith : Arithmetic m) : Prop where
  add_eq : ∀ {a b : Nat}, a + b ≤ Offset.limit → arith.add a b = pure (a + b)
  sub_eq : ∀ {a b : Nat}, b ≤ a → arith.sub a b = pure (a - b)
  shift_eq : ∀ {a b : Nat} {delta : Int}, a + delta = b → b ≤ Offset.limit →
    arith.shift a delta = pure b

theorem shift_eq {a b : Nat} {delta : Int} (moved : a + delta = b) (bound : b ≤ Offset.limit) :
    Offset.shift a delta = b := by
  rw [Offset.shift, moved, Int.toNat_natCast, Nat.min_eq_left bound]

theorem exact_stopping : stopping.Exact where
  add_eq bound := Offset.add_eq bound
  sub_eq _ := rfl
  shift_eq moved bound := shift_eq moved bound

theorem whenExact_eq {answer number : Nat} {value : Int} (eq : answer = number)
    (value_eq : value = number) : whenExact answer value = some number := by
  rw [whenExact, eq, value_eq, if_pos rfl]

theorem exact_checked : checked.Exact where
  add_eq bound := whenExact_eq (Offset.add_eq bound) (Int.natCast_add _ _).symm
  sub_eq bound := whenExact_eq rfl (Int.ofNat_sub bound).symm
  shift_eq moved bound := whenExact_eq (shift_eq moved bound) moved

end Arithmetic

namespace SumTree

/-! ## Operations -/

section

variable {m : Type → Type} [Monad m] (arith : Arithmetic m)

/-- `raise` over an arithmetic. -/
def raiseWith (slots : Array Nat) (i : Nat) : m (Array Nat) :=
  slots.modifyM (i + lowBit (i + 1)) (arith.add (slots.getD i 0))

/-- `ofSizes` over an arithmetic. -/
def ofSizesWith (sizes : List UInt32) : m SumTree := do
  let slots ← (List.range sizes.length).foldlM (raiseWith arith) (sizes.map UInt32.toNat).toArray
  let total ← sizes.foldlM (fun sum size => arith.add sum size.toNat) 0
  return { slots, total, topStep := highBit sizes.length }

/-- `sumDown` over an arithmetic. -/
def sumDownWith (slots : Array Nat) (n : Nat) : m Nat :=
  if h : n = 0 then pure 0
  else do
    have := dropLow_lt h
    arith.add (← sumDownWith slots (dropLow n)) (slots.getD (n - 1) 0)
termination_by n

/-- `sumTake` over an arithmetic. -/
def sumTakeWith (t : SumTree) (n : Nat) : m Nat := sumDownWith arith t.slots (min n t.size)

/-- `take` over an arithmetic. -/
def takeWith (t : SumTree) (n : Nat) : m SumTree :=
  if t.size ≤ n then pure t
  else do
    let total ← t.sumTakeWith arith n
    return { slots := t.slots.take n, total, topStep := highBit n }

/-- `push` over an arithmetic. -/
def pushWith (t : SumTree) (size : UInt32) : m SumTree := do
  let all ← t.sumTakeWith arith t.size
  let before ← t.sumTakeWith arith (dropLow (t.size + 1))
  let held ← arith.sub all before
  let slot ← arith.add held size.toNat
  let total ← arith.add t.total size.toNat
  return { slots := t.slots.push slot, total, topStep := highBit (t.size + 1) }

/-- `shiftUp` over an arithmetic. -/
def shiftUpWith (slots : Array Nat) (delta : Int) (i : Nat) : m (Array Nat) :=
  if h : i < slots.size then do
    let sum ← arith.shift slots[i] delta
    shiftUpWith (slots.set i sum) delta (i + lowBit (i + 1))
  else pure slots
termination_by slots.size - i
decreasing_by
  have := lowBit_pos (Nat.succ_ne_zero i)
  rw [Array.size_set]
  exact Nat.sub_lt_sub_left h (Nat.lt_add_of_pos_right this)

/-- `adjust` over an arithmetic. -/
def adjustWith (t : SumTree) (i : Nat) (delta : Int) : m SumTree :=
  if i < t.size ∧ delta ≠ 0 then do
    let total ← arith.shift t.total delta
    let slots ← shiftUpWith arith t.slots delta i
    return { t with slots, total }
  else pure t

end

/-! ## The arithmetic that stops -/

open Arithmetic (stopping)

theorem ofSizesWith_stopping (sizes : List UInt32) :
    (ofSizesWith stopping sizes).run = ofSizes sizes := by
  unfold ofSizes
  rw [List.foldl_eq_foldlM, List.foldl_eq_foldlM]
  rfl

theorem sumDownWith_stopping (slots : Array Nat) (n : Nat) :
    (sumDownWith stopping slots n).run = sumDown slots n := by
  fun_induction sumDown slots n with
  | case1 =>
    rw [sumDownWith]
    rfl
  | case2 n some _ ih =>
    rw [sumDownWith, dif_neg some, ← ih]
    rfl

theorem sumTakeWith_stopping (t : SumTree) (n : Nat) :
    (t.sumTakeWith stopping n).run = t.sumTake n :=
  sumDownWith_stopping t.slots (min n t.size)

theorem takeWith_stopping (t : SumTree) (n : Nat) : (t.takeWith stopping n).run = t.take n := by
  unfold takeWith take
  split
  · rfl
  · rw [← sumTakeWith_stopping]
    rfl

theorem pushWith_stopping (t : SumTree) (size : UInt32) :
    (t.pushWith stopping size).run = t.push size := by
  simp only [push, ← sumTakeWith_stopping]
  rfl

theorem shiftUpWith_stopping (slots : Array Nat) (delta : Int) (i : Nat) :
    (shiftUpWith stopping slots delta i).run = shiftUp slots delta i := by
  fun_induction shiftUp slots delta i with
  | case1 slots i inside ih =>
    have moved : slots.modify i (Offset.shift · delta) =
        slots.set i (Offset.shift slots[i] delta) := by
      simp [Array.modify, Array.modifyM, inside]
    rw [moved] at ih ⊢
    rw [shiftUpWith, dif_pos inside, ← ih]
    rfl
  | case2 slots i outside =>
    rw [shiftUpWith, dif_neg outside]
    rfl

theorem adjustWith_stopping (t : SumTree) (i : Nat) (delta : Int) :
    (t.adjustWith stopping i delta).run = t.adjust i delta := by
  unfold adjustWith adjust
  split
  · rw [← shiftUpWith_stopping]
    rfl
  · rfl

end SumTree

end Windowing
