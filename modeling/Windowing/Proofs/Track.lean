import Mathlib.Algebra.GroupWithZero.Nat
import Windowing.Offset

/-!
# Rows on the track

The plain account of a row layout: a list of row sizes, laid one after another.
The layouts of the library are measured against it, so everything here is said
of lists, and nothing of how a layout keeps its sums.
-/

namespace Windowing

/-! ## Sums of the first numbers -/

/-- The sum of the first `n` numbers, or of all of them when there are fewer. -/
def sumTo (numbers : List Nat) (n : Nat) : Nat := (numbers.take n).sum

section

variable {numbers more : List Nat} {i n : Nat}

@[simp] theorem sumTo_zero (numbers : List Nat) : sumTo numbers 0 = 0 := rfl

theorem sumTo_succ (numbers : List Nat) (i : Nat) :
    sumTo numbers (i + 1) = sumTo numbers i + numbers.getD i 0 := by
  rw [sumTo, List.take_add_one, List.sum_append_nat, List.getD_eq_getElem?_getD, sumTo]
  cases numbers[i]? with
  | none => rfl
  | some number => rfl

theorem sumTo_le_sumTo (numbers : List Nat) (h : i ≤ n) : sumTo numbers i ≤ sumTo numbers n := by
  induction h with
  | refl => exact Nat.le_refl _
  | step _ ih => exact Nat.le_trans ih (sumTo_succ numbers _ ▸ Nat.le_add_right _ _)

theorem sumTo_of_length_le (h : numbers.length ≤ n) : sumTo numbers n = numbers.sum := by
  rw [sumTo, List.take_of_length_le h]

theorem sumTo_le_sum (numbers : List Nat) (n : Nat) : sumTo numbers n ≤ numbers.sum := by
  have mono := sumTo_le_sumTo numbers (Nat.le_max_left n numbers.length)
  rwa [sumTo_of_length_le (Nat.le_max_right n numbers.length)] at mono

theorem sumTo_min (numbers : List Nat) (n : Nat) :
    sumTo numbers (min n numbers.length) = sumTo numbers n := by
  rw [sumTo, List.take_eq_take_min.symm, sumTo]

theorem sumTo_append (h : n ≤ numbers.length) : sumTo (numbers ++ more) n = sumTo numbers n := by
  rw [sumTo, List.take_append_of_le_length h, sumTo]

theorem sumTo_take (numbers : List Nat) (n i : Nat) :
    sumTo (numbers.take n) i = sumTo numbers (min i n) := by
  rw [sumTo, List.take_take, sumTo]

theorem sumTo_set_of_le (number : Nat) (h : n ≤ i) :
    sumTo (numbers.set i number) n = sumTo numbers n := by
  rw [sumTo, List.take_set_of_le h, sumTo]

/-- Past a number that is replaced, the sums differ by what it differs. -/
theorem sumTo_set_of_lt (number : Nat) (inside : i < numbers.length) (h : i < n) :
    sumTo (numbers.set i number) n + numbers[i] = sumTo numbers n + number := by
  induction h with
  | refl =>
    have new : (numbers.set i number).getD i 0 = number := by simp [inside]
    have old : numbers.getD i 0 = numbers[i] := by simp [inside]
    rw [Nat.succ_eq_add_one, sumTo_succ, sumTo_succ, sumTo_set_of_le number (Nat.le_refl i), new,
      old]
    exact Nat.add_right_comm _ _ _
  | @step n hn ih =>
    have other : i ≠ n := Nat.ne_of_lt hn
    rw [Nat.succ_eq_add_one, sumTo_succ, sumTo_succ, List.getD_eq_getElem?_getD,
      List.getElem?_set_ne other, ← List.getD_eq_getElem?_getD]
    omega

end

/-! ## Rows -/

/-- The length of the track: the sum of all sizes. -/
def extentOf (sizes : List UInt32) : Nat := (sizes.map UInt32.toNat).sum

/-- The first pixel of row `i`: the sum of the sizes before it. Rows past the
end start where the track ends. -/
def startOf (sizes : List UInt32) (i : Nat) : Nat := extentOf (sizes.take i)

/-- The size of row `i`; `0` past the end. -/
def sizeAt (sizes : List UInt32) (i : Nat) : UInt32 := sizes[i]?.getD 0

@[simp] theorem extentOf_nil : extentOf [] = 0 := rfl

@[simp] theorem extentOf_cons (size : UInt32) (sizes : List UInt32) :
    extentOf (size :: sizes) = size.toNat + extentOf sizes :=
  rfl

theorem extentOf_append (sizes more : List UInt32) :
    extentOf (sizes ++ more) = extentOf sizes + extentOf more := by
  rw [extentOf, List.map_append, List.sum_append_nat]
  rfl

theorem startOf_eq_sumTo (sizes : List UInt32) (i : Nat) :
    startOf sizes i = sumTo (sizes.map UInt32.toNat) i := by
  rw [startOf, extentOf, List.map_take, sumTo]

theorem sizeAt_eq_zero {sizes : List UInt32} {i : Nat} (h : sizes.length ≤ i) :
    sizeAt sizes i = 0 := by
  rw [sizeAt, List.getElem?_eq_none h, Option.getD_none]

theorem sizeAt_eq_getElem {sizes : List UInt32} {i : Nat} (h : i < sizes.length) :
    sizeAt sizes i = sizes[i] := by
  rw [sizeAt, List.getElem?_eq_getElem h, Option.getD_some]

theorem lt_length_of_sizeAt_pos {sizes : List UInt32} {i : Nat} (h : 0 < (sizeAt sizes i).toNat) :
    i < sizes.length := by
  rcases Nat.lt_or_ge i sizes.length with inside | outside
  · exact inside
  · rw [sizeAt_eq_zero outside] at h
    exact absurd h (Nat.lt_irrefl 0)

theorem sizeAt_set_self {sizes : List UInt32} {i : Nat} {size : UInt32} (h : i < sizes.length) :
    sizeAt (sizes.set i size) i = size := by
  rw [sizeAt, List.getElem?_set_self h, Option.getD_some]

theorem sizeAt_set_ne {sizes : List UInt32} {i j : Nat} {size : UInt32} (h : i ≠ j) :
    sizeAt (sizes.set i size) j = sizeAt sizes j := by
  rw [sizeAt, List.getElem?_set_ne h, sizeAt]

theorem set_sizeAt_self (sizes : List UInt32) (i : Nat) :
    sizes.set i (sizeAt sizes i) = sizes := by
  rcases Nat.lt_or_ge i sizes.length with h | h
  · rw [sizeAt_eq_getElem h, List.set_getElem_self]
  · exact List.set_eq_of_length_le h

@[simp] theorem startOf_zero (sizes : List UInt32) : startOf sizes 0 = 0 := rfl

theorem startOf_succ (sizes : List UInt32) (i : Nat) :
    startOf sizes (i + 1) = startOf sizes i + (sizeAt sizes i).toNat := by
  unfold startOf sizeAt
  rw [List.take_add_one, extentOf_append]
  cases sizes[i]? with
  | none => rfl
  | some size => rfl

theorem startOf_eq_sum (sizes : List UInt32) (i : Nat) :
    startOf sizes i = ((List.range i).map fun j => (sizeAt sizes j).toNat).sum := by
  induction i with
  | zero => rfl
  | succ i ih =>
    rw [startOf_succ, ih, List.range_succ, List.map_append, List.sum_append_nat, List.map_singleton,
      List.sum_singleton]

theorem startOf_of_length_le {sizes : List UInt32} {i : Nat} (h : sizes.length ≤ i) :
    startOf sizes i = extentOf sizes := by
  rw [startOf, List.take_of_length_le h]

theorem startOf_le_startOf (sizes : List UInt32) {i j : Nat} (h : i ≤ j) :
    startOf sizes i ≤ startOf sizes j := by
  rw [startOf_eq_sumTo, startOf_eq_sumTo]
  exact sumTo_le_sumTo _ h

theorem startOf_le_extentOf (sizes : List UInt32) (i : Nat) :
    startOf sizes i ≤ extentOf sizes :=
  startOf_eq_sumTo sizes i ▸ sumTo_le_sum _ i

theorem length_ne_zero_of_lt_extentOf {sizes : List UInt32} {n : Nat} (h : n < extentOf sizes) :
    sizes.length ≠ 0 := by
  intro empty
  rw [List.length_eq_zero_iff.mp empty] at h
  exact absurd h (Nat.not_lt_zero n)

theorem startOf_min (sizes : List UInt32) (i : Nat) :
    startOf sizes (min i sizes.length) = startOf sizes i := by
  rcases Nat.le_total i sizes.length with h | h
  · rw [Nat.min_eq_left h]
  · rw [Nat.min_eq_right h, startOf_of_length_le h, startOf_of_length_le (Nat.le_refl _)]

theorem startOf_set_of_le {sizes : List UInt32} {i n : Nat} (size : UInt32) (h : n ≤ i) :
    startOf (sizes.set i size) n = startOf sizes n := by
  rw [startOf, List.take_set_of_le h, startOf]

theorem startOf_set_of_lt {sizes : List UInt32} {i n : Nat} (size : UInt32)
    (hi : i < sizes.length) (h : i < n) :
    startOf (sizes.set i size) n + (sizeAt sizes i).toNat = startOf sizes n + size.toNat := by
  have inside : i < (sizes.map UInt32.toNat).length := List.length_map UInt32.toNat ▸ hi
  have moved := sumTo_set_of_lt size.toNat inside h
  rwa [← List.map_set, ← startOf_eq_sumTo, ← startOf_eq_sumTo, List.getElem_map,
    ← sizeAt_eq_getElem hi] at moved

theorem extentOf_set {sizes : List UInt32} {i : Nat} (size : UInt32) (h : i < sizes.length) :
    extentOf (sizes.set i size) + (sizeAt sizes i).toNat = extentOf sizes + size.toNat := by
  have moved := startOf_set_of_lt size h h
  rwa [startOf_of_length_le (Nat.le_of_eq List.length_set),
    startOf_of_length_le (Nat.le_refl _)] at moved

/-! ## The row at an offset -/

/-- Row `row` is the first that ends after `offset`, or there is none and `row`
is the number of rows. -/
structure Located (sizes : List UInt32) (offset row : Nat) : Prop where
  le_length : row ≤ sizes.length
  start_le : startOf sizes row ≤ offset
  lt_stop : row < sizes.length → offset < startOf sizes (row + 1)

namespace Located

variable {sizes : List UInt32} {offset row : Nat}

theorem lt_length (h : Located sizes offset row) (inside : offset < extentOf sizes) :
    row < sizes.length := by
  rcases Nat.lt_or_ge row sizes.length with lt | ge
  · exact lt
  · have start := h.start_le
    rw [startOf_of_length_le ge] at start
    exact absurd inside (Nat.not_lt.mpr start)

theorem eq_length (h : Located sizes offset row) (past : extentOf sizes ≤ offset) :
    row = sizes.length := by
  rcases Nat.lt_or_eq_of_le h.le_length with lt | eq
  · have bound := startOf_le_extentOf sizes (row + 1)
    exact absurd (h.lt_stop lt) (Nat.not_lt.mpr (Nat.le_trans bound past))
  · exact eq

theorem le_row_iff (h : Located sizes offset row) {i : Nat} (inside : i ≤ sizes.length) :
    i ≤ row ↔ startOf sizes i ≤ offset := by
  constructor
  · intro le
    exact Nat.le_trans (startOf_le_startOf sizes le) h.start_le
  · intro start
    rcases Nat.lt_or_ge row i with lt | ge
    · have stop := h.lt_stop (Nat.lt_of_lt_of_le lt inside)
      have mono := startOf_le_startOf sizes lt
      exact absurd stop (Nat.not_lt.mpr (Nat.le_trans mono start))
    · exact ge

theorem row_le_iff (h : Located sizes offset row) {i : Nat} (inside : i < sizes.length) :
    row ≤ i ↔ offset < startOf sizes (i + 1) := by
  have next : i + 1 ≤ row ↔ startOf sizes (i + 1) ≤ offset := h.le_row_iff inside
  omega

/-- Of two offsets, the one further down the track is in no earlier row. -/
theorem row_le_row (h : Located sizes offset row) {offset' row' : Nat}
    (h' : Located sizes offset' row') (order : offset ≤ offset') : row ≤ row' :=
  (h'.le_row_iff h.le_length).mpr (Nat.le_trans h.start_le order)

end Located

end Windowing
