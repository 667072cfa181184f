import Windowing.Offset

/-!
# Binary indexed sums

A `SumTree` keeps the sums of a list of row sizes so that one size can change,
and a prefix can be summed or searched, in logarithmic time.

Slot `i` holds the sum of the sizes of rows `dropLow (i + 1), …, i`: as many
rows as the lowest set bit of `i + 1`. The sum of the first `n` sizes is then
the sum of the slots met while the set bits of `n` are cleared from the lowest
up, and the slots that hold row `i` are met by adding lowest bits to `i + 1`.
-/

namespace Windowing

/-! ## Lowest and highest bits -/

/-- The number `i` with its lowest set bit cleared. -/
def dropLow (i : Nat) : Nat := i &&& (i - 1)

/-- The value of the lowest set bit of `i`; `0` for `0`. -/
def lowBit (i : Nat) : Nat := i - dropLow i

/-- The greatest power of two that is at most `n`; `0` for `0`. -/
def highBit (n : Nat) : Nat := if n = 0 then 0 else Nat.pow 2 n.log2

theorem dropLow_lt {i : Nat} (h : i ≠ 0) : dropLow i < i := by
  have := Nat.and_le_right (n := i) (m := i - 1)
  unfold dropLow
  omega

theorem lowBit_pos {i : Nat} (h : i ≠ 0) : 0 < lowBit i := by
  have := dropLow_lt h
  unfold lowBit
  omega

/-! ## The tree -/

/-- Sums over a list of row sizes. -/
structure SumTree where
  /-- One partial sum per row. -/
  slots : Array Nat
  /-- The sum of all sizes. -/
  total : Nat
  /-- The step at which a search starts: `highBit` of the number of rows. -/
  topStep : Nat
  deriving DecidableEq, Repr

namespace SumTree

/-- The number of rows. -/
def size (t : SumTree) : Nat := t.slots.size

/-- Adds slot `i` to its parent, the next slot whose rows include those of `i`. -/
def raise (slots : Array Nat) (i : Nat) : Array Nat :=
  slots.modify (i + lowBit (i + 1)) (Offset.add (slots.getD i 0))

/-- The tree of a list of sizes: each size starts in its own slot, and from
left to right every finished slot is added to its parent. -/
def ofSizes (sizes : List UInt32) : SumTree where
  slots := (List.range sizes.length).foldl raise (sizes.map UInt32.toNat).toArray
  total := sizes.foldl (fun sum size => Offset.add sum size.toNat) 0
  topStep := highBit sizes.length

/-- The sum of the slots met on the way down from `n`. -/
def sumDown (slots : Array Nat) (n : Nat) : Nat :=
  if h : n = 0 then 0
  else
    have := dropLow_lt h
    Offset.add (sumDown slots (dropLow n)) (slots.getD (n - 1) 0)
termination_by n

/-- The sum of the first `n` sizes, or of all of them when there are fewer. -/
def sumTake (t : SumTree) (n : Nat) : Nat := sumDown t.slots (min n t.size)

/-- Keeps the first `n` rows. -/
def take (t : SumTree) (n : Nat) : SumTree :=
  if t.size ≤ n then t
  else { slots := t.slots.take n, total := t.sumTake n, topStep := highBit n }

/-- Appends one row. The new slot also holds the rows from `dropLow (n + 1)`
on, whose sum is a difference of two prefix sums. -/
def push (t : SumTree) (size : UInt32) : SumTree :=
  let n := t.size
  let held := t.sumTake n - t.sumTake (dropLow (n + 1))
  { slots := t.slots.push (Offset.add held size.toNat)
    total := Offset.add t.total size.toNat
    topStep := highBit (n + 1) }

/-- Moves every slot that holds row `i` by `delta`. -/
def shiftUp (slots : Array Nat) (delta : Int) (i : Nat) : Array Nat :=
  if i < slots.size then
    shiftUp (slots.modify i (Offset.shift · delta)) delta (i + lowBit (i + 1))
  else slots
termination_by slots.size - i
decreasing_by
  have := lowBit_pos (Nat.succ_ne_zero i)
  rw [Array.size_modify]
  exact Nat.sub_lt_sub_left ‹i < slots.size› (Nat.lt_add_of_pos_right this)

/-- Changes the size of row `i` by `delta`. -/
def adjust (t : SumTree) (i : Nat) (delta : Int) : SumTree :=
  if i < t.size ∧ delta ≠ 0 then
    { t with slots := shiftUp t.slots delta i, total := Offset.shift t.total delta }
  else t

/-- Moves `row` right by `step` when the rows passed over end at or before
`offset`, and goes on with half the step. -/
def descend (slots : Array Nat) (row offset step : Nat) : Nat :=
  if h : step = 0 then row
  else
    have : step / 2 < step := Nat.div_lt_self (Nat.pos_of_ne_zero h) (by decide)
    match slots[row + step - 1]? with
    | some sum =>
      if sum ≤ offset then descend slots (row + step) (offset - sum) (step / 2)
      else descend slots row offset (step / 2)
    | none => descend slots row offset (step / 2)
termination_by step

/-- The number of leading rows that end at or before `offset`: for an offset
inside the list, the row that holds it. -/
def locate (t : SumTree) (offset : Nat) : Nat := descend t.slots 0 offset t.topStep

/-! ## The number of rows after each operation -/

theorem size_foldl_raise (slots : Array Nat) (is : List Nat) :
    (is.foldl raise slots).size = slots.size := by
  induction is generalizing slots with
  | nil => rfl
  | cons i is ih => rw [List.foldl_cons, ih, raise, Array.size_modify]

@[simp] theorem size_ofSizes (sizes : List UInt32) : (ofSizes sizes).size = sizes.length := by
  rw [size, ofSizes, size_foldl_raise]
  simp

@[simp] theorem size_take (t : SumTree) (n : Nat) : (t.take n).size = min n t.size := by
  unfold take
  split
  · next h => exact (Nat.min_eq_right h).symm
  · simp [size]

@[simp] theorem size_push (t : SumTree) (size : UInt32) :
    (t.push size).size = t.size + 1 :=
  Array.size_push _

theorem size_shiftUp (slots : Array Nat) (delta : Int) (i : Nat) :
    (shiftUp slots delta i).size = slots.size := by
  fun_induction shiftUp slots delta i with
  | case1 slots i _ ih => rw [ih, Array.size_modify]
  | case2 => rfl

@[simp] theorem size_adjust (t : SumTree) (i : Nat) (delta : Int) :
    (t.adjust i delta).size = t.size := by
  unfold adjust
  split
  · exact size_shiftUp _ _ _
  · rfl

end SumTree

end Windowing
