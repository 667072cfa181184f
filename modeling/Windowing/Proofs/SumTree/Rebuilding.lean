import Windowing.Proofs.SumTree

/-!
# Upkeep and rebuilding

A tree that is kept up, one change after another, is the tree that is built from the changed list.
The list is one of numbers: a change may take a number beyond a size on the way, as long as it does
not take it below zero and the sum of all numbers stays an offset.

Results:
1. `Tallies.exists_changeWith`: a permitted change has a result over any exact arithmetic, the tree
   of the changed list.
2. `Tallies.changeAllWith_eq`: over any exact arithmetic a permitted run has the result that it has
   over the arithmetic that stops.
3. `keptUp`: a permitted run from a tree that was built leaves the tree that is built from the
   changed list, and has not stopped at an end of the range of offsets.
-/

namespace Windowing.SumTree

/-! ## Changes -/

/-- A change of a sum tree, with its arguments. -/
inductive Change where
  | push (size : UInt32)
  | take (count : Nat)
  | adjust (row : Nat) (delta : Int)
  deriving DecidableEq, Repr

namespace Change

/-- The list of numbers after a change. -/
def applyTo (numbers : List Nat) : Change → List Nat
  | push size => numbers ++ [size.toNat]
  | take count => numbers.take count
  | adjust row delta => numbers.modify row fun number => (number + delta).toNat

/-- The change takes no number below zero. -/
def Allowed (numbers : List Nat) : Change → Prop
  | push _ => True
  | take _ => True
  | adjust row delta => ∀ number ∈ numbers[row]?, 0 ≤ (number : Int) + delta

instance (numbers : List Nat) : (change : Change) → Decidable (change.Allowed numbers)
  | push _ => .isTrue trivial
  | take _ => .isTrue trivial
  | adjust row delta =>
    inferInstanceAs (Decidable (∀ number ∈ numbers[row]?, 0 ≤ (number : Int) + delta))

end Change

/-- No change of the run takes a number below zero, and the sum of the numbers is an offset all the
way. -/
def Permits (numbers : List Nat) : List Change → Prop
  | [] => numbers.sum ≤ Offset.limit
  | change :: changes =>
    numbers.sum ≤ Offset.limit ∧ change.Allowed numbers ∧ Permits (change.applyTo numbers) changes

instance decidablePermits (numbers : List Nat) :
    (changes : List Change) → Decidable (Permits numbers changes)
  | [] => inferInstanceAs (Decidable (numbers.sum ≤ Offset.limit))
  | change :: changes =>
    have := decidablePermits (change.applyTo numbers) changes
    inferInstanceAs (Decidable (_ ∧ _ ∧ _))

/-- The tree after a change. -/
def change (t : SumTree) : Change → SumTree
  | .push size => t.push size
  | .take count => t.take count
  | .adjust row delta => t.adjust row delta

/-- The tree after a sequence of changes. -/
def changeAll (t : SumTree) (changes : List Change) : SumTree := changes.foldl change t

section

variable {m : Type → Type} [Monad m] (arith : Arithmetic m)

/-- `change` over an arithmetic. -/
def changeWith (t : SumTree) : Change → m SumTree
  | .push size => t.pushWith arith size
  | .take count => t.takeWith arith count
  | .adjust row delta => t.adjustWith arith row delta

/-- `changeAll` over an arithmetic. -/
def changeAllWith (t : SumTree) (changes : List Change) : m SumTree :=
  changes.foldlM (changeWith arith) t

end

theorem changeWith_stopping (t : SumTree) (change : Change) :
    (t.changeWith Arithmetic.stopping change).run = t.change change := by
  cases change with
  | push size => exact pushWith_stopping t size
  | take count => exact takeWith_stopping t count
  | adjust row delta => exact adjustWith_stopping t row delta

theorem changeAllWith_stopping (t : SumTree) (changes : List Change) :
    (t.changeAllWith Arithmetic.stopping changes).run = t.changeAll changes := by
  rw [changeAllWith, List.idRun_foldlM, changeAll]
  simp only [changeWith_stopping]

/-! ## Runs -/

variable {m : Type → Type} [Monad m] [LawfulMonad m] {arith : Arithmetic m} {t : SumTree}
  {numbers : List Nat} {changes : List Change}

theorem Permits.sum_le (permits : Permits numbers changes) : numbers.sum ≤ Offset.limit := by
  cases changes with
  | nil => exact permits
  | cons change changes => exact permits.1

theorem Tallies.exists_changeWith (h : t.Tallies numbers) (exact : arith.Exact) {change : Change}
    (fits : numbers.sum ≤ Offset.limit) (allowed : change.Allowed numbers)
    (fits' : (change.applyTo numbers).sum ≤ Offset.limit) :
    ∃ t', t.changeWith arith change = pure t' ∧ t'.Tallies (change.applyTo numbers) := by
  cases change with
  | push size => exact h.exists_pushWith exact fits'
  | take count => exact h.exists_takeWith exact fits count
  | adjust row delta =>
    rcases Nat.lt_or_ge row numbers.length with inside | past
    · have whole : 0 ≤ (numbers[row] : Int) + delta :=
        allowed numbers[row] (List.getElem?_eq_getElem inside)
      have changed : (Change.adjust row delta).applyTo numbers =
          numbers.set row (numbers[row] + delta).toNat := by
        simp [Change.applyTo, List.modify_eq_set, inside]
      rw [changed] at fits' ⊢
      exact h.exists_adjustWith exact inside (Int.toNat_of_nonneg whole).symm fits'
    · have unchanged : (Change.adjust row delta).applyTo numbers = numbers := by
        simp [Change.applyTo, List.modify_eq_self past]
      rw [unchanged]
      exact ⟨t, h.adjustWith_of_length_le past, h⟩

theorem Tallies.exists_changeAllWith (h : t.Tallies numbers) (exact : arith.Exact)
    (permits : Permits numbers changes) :
    ∃ t', t.changeAllWith arith changes = pure t' ∧
      t'.Tallies (changes.foldl Change.applyTo numbers) := by
  induction changes generalizing t numbers with
  | nil => exact ⟨t, rfl, h⟩
  | cons change changes ih =>
    obtain ⟨fits, allowed, rest⟩ := permits
    obtain ⟨next, changed, tallies⟩ := h.exists_changeWith exact fits allowed rest.sum_le
    obtain ⟨last, run, tallies'⟩ := ih tallies rest
    refine ⟨last, ?_, tallies'⟩
    rw [changeAllWith, List.foldlM_cons, changed, pure_bind]
    exact run

theorem Tallies.changeAll (h : t.Tallies numbers) (permits : Permits numbers changes) :
    (t.changeAll changes).Tallies (changes.foldl Change.applyTo numbers) := by
  obtain ⟨t', run, tallies⟩ := h.exists_changeAllWith Arithmetic.exact_stopping permits
  rw [← changeAllWith_stopping, run]
  exact tallies

/-- All exact arithmetics agree on a permitted run. -/
theorem Tallies.changeAllWith_eq (h : t.Tallies numbers) (exact : arith.Exact)
    (permits : Permits numbers changes) :
    t.changeAllWith arith changes = pure (t.changeAll changes) := by
  obtain ⟨t', run, tallies⟩ := h.exists_changeAllWith exact permits
  rw [run, tallies.unique (h.changeAll permits)]

theorem Permits.sum_foldl_le (permits : Permits numbers changes) :
    (changes.foldl Change.applyTo numbers).sum ≤ Offset.limit := by
  induction changes generalizing numbers with
  | nil => exact permits
  | cons change changes ih => exact ih permits.2.2

/-! ## Built trees -/

/-- The run `changes` keeps up the tree of `sizes`. -/
structure KeptUp (sizes : List UInt32) (changes : List Change) : Prop where
  /-- What is left is the tree built from the sizes that are left. -/
  eq_ofSizes : ∀ sizes' : List UInt32,
    changes.foldl Change.applyTo (sizes.map UInt32.toNat) = sizes'.map UInt32.toNat →
      (ofSizes sizes).changeAll changes = ofSizes sizes'
  /-- Nothing stops while the tree is built and changed. -/
  checked : (do (← ofSizesWith .checked sizes).changeAllWith .checked changes) =
    some ((ofSizes sizes).changeAll changes)
  /-- Nothing stops while a sum is read off. -/
  sumTake_checked : ∀ n, ((ofSizes sizes).changeAll changes).sumTakeWith .checked n =
    some (((ofSizes sizes).changeAll changes).sumTake n)

theorem tallies_ofSizes {sizes : List UInt32} (fits : Fits sizes) :
    (ofSizes sizes).Tallies (sizes.map UInt32.toNat) :=
  sums_iff_tallies.mp (sums_ofSizes fits)

theorem keptUp {sizes : List UInt32} (permits : Permits (sizes.map UInt32.toNat) changes) :
    KeptUp sizes changes := by
  have built := tallies_ofSizes permits.sum_le
  have kept := built.changeAll permits
  have fits := permits.sum_foldl_le
  refine { eq_ofSizes := fun sizes' same => ?_, checked := ?_, sumTake_checked := fun n => ?_ }
  · -- Both trees tally with the numbers that are left, and these have one tree.
    rw [same] at kept fits
    exact kept.unique (tallies_ofSizes fits)
  · rw [ofSizesWith_eq Arithmetic.exact_checked permits.sum_le]
    exact built.changeAllWith_eq Arithmetic.exact_checked permits
  · rw [kept.sumTakeWith_eq Arithmetic.exact_checked fits, kept.sumTake_eq fits]
    rfl

end Windowing.SumTree
