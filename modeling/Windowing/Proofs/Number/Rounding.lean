import Mathlib.Algebra.Order.Ring.Nat
import Windowing.Number.Binary64

/-!
# Offsets that are numbers of a host

An offset goes to the host as the nearest binary64 number and comes back as the integer
part of a number. Up to two to the power `53` nothing is lost on the way: such an offset
has no more bits than a significand, so that it is a number itself.

Results:
1. `value_ofFields`: the value of a pattern that is put together from its fields.
2. `value_ofNat`: an integer of at most `53` bits is not rounded.
3. `toOffset_ofNat`: an offset up to two to the power `53` comes back unchanged.
-/

namespace Windowing.Binary64

/-! ## Patterns from their fields -/

section

variable {exponent fraction : Nat}

theorem toNat_ofFields (finite : exponent < 2047) (inside : fraction < fractionSpan) :
    (UInt64.ofNat (exponent * fractionSpan + fraction)).toNat =
      exponent * fractionSpan + fraction := by
  refine UInt64.toNat_ofNat_of_lt' ?_
  unfold fractionSpan at *
  unfold UInt64.size
  omega

/-- The fields of a positive number can be read back from its pattern. -/
theorem value_ofFields (normal : 0 < exponent) (finite : exponent < 2047)
    (inside : fraction < fractionSpan) :
    value ⟨UInt64.ofNat (exponent * fractionSpan + fraction)⟩ =
      .finite false (fractionSpan + fraction) (exponent - 1075) := by
  have bits := toNat_ofFields finite inside
  have exponent_eq :
      exponentBits ⟨UInt64.ofNat (exponent * fractionSpan + fraction)⟩ = exponent := by
    rw [exponentBits, bits, Nat.mul_comm, Nat.mul_add_div (by decide), Nat.div_eq_of_lt inside,
      Nat.add_zero, Nat.mod_eq_of_lt (Nat.lt_succ_of_lt finite)]
  have fraction_eq :
      fractionBits ⟨UInt64.ofNat (exponent * fractionSpan + fraction)⟩ = fraction := by
    rw [fractionBits, bits, Nat.mul_add_mod_of_lt inside]
  have positive : isNegative ⟨UInt64.ofNat (exponent * fractionSpan + fraction)⟩ = false := by
    rw [isNegative, bits, decide_eq_false_iff_not, Nat.not_le]
    unfold fractionSpan at *
    omega
  rw [value, exponent_eq, fraction_eq, positive]
  rw [if_neg (Nat.ne_of_lt finite), if_neg (Nat.ne_of_gt normal)]

end

/-! ## Integers of at most fifty-three bits -/

section

variable {n : Nat}

/-- Shifted up until they have `53` bits, they keep the leading one there. -/
theorem shifted_bounds (nonzero : n ≠ 0) (short : n.log2 ≤ 52) :
    fractionSpan ≤ n * 2 ^ (52 - n.log2) ∧ n * 2 ^ (52 - n.log2) < 2 * fractionSpan := by
  have span : fractionSpan = 2 ^ n.log2 * 2 ^ (52 - n.log2) := by
    rw [← Nat.pow_add, Nat.add_sub_cancel' short]
    rfl
  have low : 2 ^ n.log2 ≤ n := Nat.log2_self_le nonzero
  have high : n < 2 * 2 ^ n.log2 := Nat.pow_succ' ▸ Nat.lt_log2_self
  rw [span, ← Nat.mul_assoc]
  exact ⟨Nat.mul_le_mul_right _ low, Nat.mul_lt_mul_of_pos_right high (Nat.two_pow_pos _)⟩

theorem value_ofNat (nonzero : n ≠ 0) (short : n.log2 ≤ 52) :
    (ofNat n).value = .finite false (n * 2 ^ (52 - n.log2)) (n.log2 - 52) := by
  obtain ⟨low, high⟩ := shifted_bounds nonzero short
  obtain ⟨fraction, significand⟩ := Nat.exists_eq_add_of_le low
  have inside : fraction < fractionSpan := by
    rw [significand, Nat.two_mul] at high
    exact Nat.lt_of_add_lt_add_left high
  -- The leading one of the significand is one step of the exponent.
  have fields : (n.log2 + 1022) * fractionSpan + roundSignificand n =
      (n.log2 + 1023) * fractionSpan + fraction := by
    rw [roundSignificand, if_pos short, Nat.pow_eq, significand, ← Nat.add_assoc,
      ← Nat.succ_mul]
  have finite : ¬1024 ≤ n.log2 := by omega
  have exponent : ((n.log2 + 1023 : Nat) : Int) - 1075 = n.log2 - 52 := by omega
  rw [ofNat, if_neg nonzero, if_neg finite, fields]
  rw [value_ofFields (Nat.succ_pos _) (by omega) inside]
  rw [← significand, exponent]

theorem floor_shifted (short : n.log2 ≤ 52) :
    floor (n * 2 ^ (52 - n.log2)) (n.log2 - 52) = n := by
  unfold floor
  split
  · next whole =>
    have full : n.log2 = 52 := by omega
    simp [full]
  · have places : (-((n.log2 : Int) - 52)).toNat = 52 - n.log2 := by omega
    rw [places]
    exact Nat.mul_div_cancel n (Nat.two_pow_pos _)

end

/-- An offset that fits into a significand goes to the host and back unchanged. -/
theorem toOffset_ofNat {n : Nat} (exact : n ≤ 2 ^ 53) : (ofNat n).toOffset = n := by
  rcases Nat.eq_zero_or_pos n with rfl | positive
  · decide +kernel
  rcases Nat.eq_or_lt_of_le exact with rfl | below
  · decide +kernel
  have nonzero : n ≠ 0 := Nat.ne_of_gt positive
  have short : n.log2 ≤ 52 := Nat.le_of_lt_succ ((Nat.log2_lt nonzero).mpr below)
  have fits : n ≤ Offset.limit := exact.trans (by decide)
  rw [toOffset, clamp, value_ofNat nonzero short]
  simp [floor_shifted short, fits]

end Windowing.Binary64
