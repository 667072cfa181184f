import Mathlib.Algebra.Order.Floor.Semifield
import Mathlib.Data.Rat.Floor
import Mathlib.Order.WithBot
import Windowing.Proofs.Number.Rounding

/-!
# What the numbers of a host stand for

A pattern of 64 bits stands for a rational number, for an infinity, or for nothing. `reading` says
for which, field by field and without a word on offsets. Against it an offset is the integer part of
a number, cut down to the range of offsets, and a height is the same cut down further.

Results:
1. `number_value`: a pattern is decoded to what it stands for.
2. `floor_eq`: the integer part is taken without an error, for every exponent.
3. `cutsDown_clamp`: every pattern is cut down as its reading says.
4. `CutsDown.mono`: of two readings the greater is not cut down to less.
5. `sanitizes_host_numbers`: the offsets and heights of all patterns, and the offset of a pattern
   that is nearest to an integer.
-/

namespace Windowing.Binary64

variable {x : Binary64}

/-! ## Readings -/

/-- The line of all numbers, with an infinity at either end. -/
abbrev NumberLine := WithBot (WithTop ℚ)

/-- The place of a number on the line. -/
def NumberLine.ofRat (v : ℚ) : NumberLine := WithBot.some (WithTop.some v)

open NumberLine (ofRat)

/-- A place on the line is an infinity or that of a number. -/
@[elab_as_elim]
theorem NumberLine.cases {motive : NumberLine → Prop} (bot : motive ⊥) (top : motive ⊤)
    (number : ∀ v : ℚ, motive (ofRat v)) : ∀ r : NumberLine, motive r
  | none => bot
  | some none => top
  | some (some v) => number v

theorem NumberLine.ofRat_inj {v w : ℚ} (same : some (ofRat v) = some (ofRat w)) : v = w :=
  WithTop.coe_inj.mp (WithBot.coe_inj.mp (Option.some.inj same))

theorem NumberLine.ofRat_ne_top (v : ℚ) : some (ofRat v) ≠ some ⊤ := fun same =>
  WithTop.coe_ne_top (WithBot.coe_inj.mp (Option.some.inj same))

theorem NumberLine.ofRat_ne_bot (v : ℚ) : some (ofRat v) ≠ some ⊥ := fun same =>
  WithBot.coe_ne_bot (Option.some.inj same)

/-- The sign of a pattern, as a factor. -/
def signFactor (x : Binary64) : ℚ := if x.isNegative then -1 else 1

/-- What a pattern stands for; `none` when it is not a number. Fifty-two fraction bits follow a
leading one, or a zero when the exponent field is zero. -/
def reading (x : Binary64) : Option NumberLine :=
  if x.exponentBits = 2047 then
    if x.fractionBits = 0 then some (if x.isNegative then ⊥ else ⊤) else none
  else if x.exponentBits = 0 then
    some (ofRat (x.signFactor * 2 ^ (-1022 : ℤ) * (x.fractionBits / 2 ^ 52)))
  else
    some (ofRat (x.signFactor * 2 ^ ((x.exponentBits : ℤ) - 1023) * (1 + x.fractionBits / 2 ^ 52)))

/-- The number of a pattern is at least as close to `n` as that of any other pattern. -/
def IsNearest (x : Binary64) (n : ℤ) : Prop :=
  ∃ v : ℚ, x.reading = some (ofRat v) ∧
    ∀ (y : Binary64) (w : ℚ), y.reading = some (ofRat w) → |v - n| ≤ |w - n|

/-- A reading cut down to a natural number of at most `limit`: nothing is left of what is not a
number and of what is not above zero, and of any other number its integer part, as far as the limit
goes. -/
structure CutsDown (limit : Nat) (reading : Option NumberLine) (n : Nat) : Prop where
  of_none : reading = none → n = 0
  of_bot : reading = some ⊥ → n = 0
  of_top : reading = some ⊤ → n = limit
  of_nonpos : ∀ v : ℚ, reading = some (ofRat v) → v ≤ 0 → n = 0
  of_pos : ∀ v : ℚ, reading = some (ofRat v) → 0 < v → (n : ℤ) = min ⌊v⌋ limit

/-! ## Readings of decoded patterns -/

/-- What a decoded pattern stands for. -/
def Value.number : Value → Option NumberLine
  | nan => none
  | infinite negative => some (if negative then ⊥ else ⊤)
  | finite negative significand exponent =>
    some (ofRat ((if negative then -1 else 1) * (significand * 2 ^ exponent)))

/-- Fifty-two places of a fraction are fifty-two steps of the exponent. -/
theorem mul_zpow_mul_div (sign fraction : ℚ) (exponent : ℤ) :
    sign * 2 ^ exponent * (fraction / 2 ^ 52) = sign * (fraction * 2 ^ (exponent - 52)) := by
  have places : (2 : ℚ) ^ (exponent - 52) = 2 ^ exponent / 2 ^ 52 := zpow_sub₀ two_ne_zero _ _
  rw [places]
  ring

/-- A leading one is as much as all values of the fraction field together. -/
theorem one_add_div (fraction : Nat) :
    (1 : ℚ) + fraction / 2 ^ 52 = ((fractionSpan + fraction : Nat) : ℚ) / 2 ^ 52 := by
  have span : ((fractionSpan : Nat) : ℚ) = 2 ^ 52 := by norm_num [fractionSpan]
  rw [Nat.cast_add, span, add_div, div_self (by norm_num)]

theorem number_value (x : Binary64) : x.value.number = x.reading := by
  unfold value reading signFactor
  dsimp only
  split
  · split <;> rfl
  · split
    · rw [mul_zpow_mul_div]
      rfl
    · have steps : (x.exponentBits : ℤ) - 1075 = x.exponentBits - 1023 - 52 := by omega
      rw [one_add_div, mul_zpow_mul_div, steps]
      rfl

/-! ## Integer parts -/

/-- The integer part is taken without an error, whichever way the significand is shifted. -/
theorem floor_eq (significand : Nat) (exponent : ℤ) :
    floor significand exponent = ⌊(significand : ℚ) * 2 ^ exponent⌋₊ := by
  have power (places : Nat) : (2 : ℚ) ^ places = ((2 ^ places : Nat) : ℚ) := by push_cast; rfl
  unfold floor
  split
  · next whole =>
    obtain ⟨places, rfl⟩ := Int.eq_ofNat_of_zero_le whole
    rw [zpow_natCast, power, ← Nat.cast_mul, Nat.floor_natCast, Int.toNat_natCast]
    rfl
  · next fractional =>
    obtain ⟨places, opposite⟩ := Int.exists_eq_neg_ofNat (Int.le_of_lt (Int.not_le.mp fractional))
    rw [opposite, neg_neg, zpow_neg, zpow_natCast, power, ← div_eq_mul_inv, Nat.floor_div_eq_div,
      Int.toNat_natCast]
    rfl

/-- Nothing is left of a number with a sign, and the integer part of any other. -/
theorem cutsDown_signed (limit : Nat) (negative : Bool) {magnitude : ℚ} (low : 0 ≤ magnitude) :
    CutsDown limit (some (ofRat ((if negative then -1 else 1) * magnitude)))
      (if negative then 0 else min ⌊magnitude⌋₊ limit) := by
  cases negative with
  | true =>
    refine ⟨by simp, fun _ => rfl, fun top => absurd top (NumberLine.ofRat_ne_top _),
      fun _ _ _ => rfl, ?_⟩
    intro v found positive
    have opposite : -1 * magnitude = v := NumberLine.ofRat_inj found
    linarith
  | false =>
    refine ⟨by simp, fun bot => absurd bot (NumberLine.ofRat_ne_bot _),
      fun top => absurd top (NumberLine.ofRat_ne_top _), ?_, ?_⟩
    · intro v found nonpos
      obtain rfl : 1 * magnitude = v := NumberLine.ofRat_inj found
      rw [one_mul] at nonpos
      show min ⌊magnitude⌋₊ limit = 0
      rw [Nat.floor_of_nonpos nonpos, Nat.zero_min]
    · intro v found _
      obtain rfl : 1 * magnitude = v := NumberLine.ofRat_inj found
      show ((min ⌊magnitude⌋₊ limit : Nat) : ℤ) = _
      rw [one_mul, Nat.cast_min, Int.natCast_floor_eq_floor low]

theorem cutsDown_clamp (limit : Nat) (x : Binary64) : CutsDown limit x.reading (x.clamp limit) := by
  rw [← number_value, clamp]
  cases x.value with
  | nan => constructor <;> simp [Value.number]
  | infinite negative =>
    cases negative <;> constructor <;> simp [Value.number, NumberLine.ofRat]
  | finite negative significand exponent =>
    have low : 0 ≤ (significand : ℚ) * 2 ^ exponent :=
      mul_nonneg (Nat.cast_nonneg _) (zpow_nonneg zero_le_two _)
    simp only [floor_eq]
    exact cutsDown_signed limit negative low

/-! ## Greater numbers -/

theorem CutsDown.le_limit {limit : Nat} {r : NumberLine} {n : Nat}
    (h : CutsDown limit (some r) n) : n ≤ limit := by
  cases r using NumberLine.cases with
  | bot => exact (h.of_bot rfl).trans_le (Nat.zero_le limit)
  | top => exact Nat.le_of_eq (h.of_top rfl)
  | number v =>
    rcases le_or_gt v 0 with nonpos | positive
    · exact (h.of_nonpos v rfl nonpos).trans_le (Nat.zero_le limit)
    · have integer := h.of_pos v rfl positive
      omega

/-- Of two readings the greater is not cut down to less. -/
theorem CutsDown.mono {limit : Nat} {r s : NumberLine} {m n : Nat} (h : CutsDown limit (some r) m)
    (h' : CutsDown limit (some s) n) (order : r ≤ s) : m ≤ n := by
  cases r using NumberLine.cases with
  | bot => exact (h.of_bot rfl).trans_le (Nat.zero_le n)
  | top =>
    obtain rfl := top_unique order
    exact Nat.le_of_eq ((h.of_top rfl).trans (h'.of_top rfl).symm)
  | number v =>
    cases s using NumberLine.cases with
    | bot => exact absurd order (WithBot.not_coe_le_bot _)
    | top => exact h'.of_top rfl ▸ h.le_limit
    | number w =>
      have order : v ≤ w := WithTop.coe_le_coe.mp (WithBot.coe_le_coe.mp order)
      rcases le_or_gt v 0 with nonpos | positive
      · exact (h.of_nonpos v rfl nonpos).trans_le (Nat.zero_le n)
      · have lower := h.of_pos v rfl positive
        have upper := h'.of_pos w rfl (lt_of_lt_of_le positive order)
        have floors : ⌊v⌋ ≤ ⌊w⌋ := Int.floor_le_floor order
        omega

/-! ## Offsets and heights -/

theorem toNat_toHeight (x : Binary64) : x.toHeight.toNat = min x.toOffset (2 ^ 32 - 1) := by
  have narrow : x.clamp 4294967295 = min (x.clamp Offset.limit) 4294967295 := by
    unfold clamp
    cases x.value with
    | nan => rfl
    | infinite negative => cases negative <;> rfl
    | finite negative significand exponent =>
      cases negative with
      | true => rfl
      | false =>
        show min _ 4294967295 = min (min _ 18446744073709551615) 4294967295
        omega
  have small : x.clamp 4294967295 < 2 ^ 32 := by rw [narrow]; omega
  rw [toHeight, UInt32.toNat_ofNat_of_lt' small, narrow]
  rfl

/-- The pattern made of an integer that fits into a significand stands for that integer. -/
theorem reading_ofNat {n : Nat} (exact : n ≤ 2 ^ 53) : (ofNat n).reading = some (ofRat n) := by
  have of_value {significand : Nat} {exponent : ℤ}
      (value : (ofNat n).value = .finite false significand exponent)
      (same : (significand : ℚ) * 2 ^ exponent = n) : (ofNat n).reading = some (ofRat n) := by
    rw [← number_value, value, ← same, ← one_mul ((significand : ℚ) * 2 ^ exponent)]
    rfl
  rcases Nat.eq_zero_or_pos n with rfl | positive
  · have value : (ofNat 0).value = .finite false 0 (-1074) := by decide +kernel
    exact of_value value (zero_mul _)
  rcases Nat.eq_or_lt_of_le exact with rfl | below
  · have value : (ofNat (2 ^ 53)).value = .finite false (2 ^ 52) 1 := by decide +kernel
    exact of_value value (by norm_num)
  · have nonzero : n ≠ 0 := Nat.ne_of_gt positive
    have short : n.log2 ≤ 52 := Nat.le_of_lt_succ ((Nat.log2_lt nonzero).mpr below)
    have back : (n.log2 : ℤ) - 52 = -((52 - n.log2 : Nat) : ℤ) := by omega
    refine of_value (value_ofNat nonzero short) ?_
    rw [back, zpow_neg, zpow_natCast, Nat.cast_mul, Nat.cast_pow, Nat.cast_ofNat]
    exact mul_inv_cancel_right₀ (pow_ne_zero _ two_ne_zero) _

/-! ## Nearest patterns -/

theorem isNearest_ofNat {n : Nat} (exact : n ≤ 2 ^ 53) : (ofNat n).IsNearest n := by
  refine ⟨n, reading_ofNat exact, fun y w _ => ?_⟩
  rw [Int.cast_natCast, sub_self, abs_zero]
  exact abs_nonneg _

/-- Nothing but the integer itself is nearest to an integer that fits into a significand. -/
theorem IsNearest.reading_eq {n : Nat} (nearest : x.IsNearest n) (exact : n ≤ 2 ^ 53) :
    x.reading = some (ofRat n) := by
  obtain ⟨v, found, closest⟩ := nearest
  have distance := closest (ofNat n) n (reading_ofNat exact)
  rw [Int.cast_natCast, sub_self, abs_zero] at distance
  rw [found, sub_eq_zero.mp (abs_nonpos_iff.mp distance)]

/-- Zero is closer to a negative integer than any positive number. -/
theorem IsNearest.exists_nonpos {n : ℤ} (nearest : x.IsNearest n) (negative : n < 0) :
    ∃ v : ℚ, x.reading = some (ofRat v) ∧ v ≤ 0 := by
  obtain ⟨v, found, closest⟩ := nearest
  refine ⟨v, found, ?_⟩
  have distance := closest (ofNat 0) _ (reading_ofNat (Nat.zero_le _))
  have below : (n : ℚ) < 0 := Int.cast_lt_zero.mpr negative
  rw [Nat.cast_zero, zero_sub, abs_neg, abs_of_neg below] at distance
  have := (le_abs_self _).trans distance
  linarith

/-! ## All patterns -/

/-- An offset is the reading of a pattern cut down to the offsets, and a height is the offset cut
down to the heights. Neither falls while the reading grows. A pattern that is nearest to an integer
of at most fifty-three bits gives that integer back, or zero in place of a negative one. -/
theorem sanitizes_host_numbers :
    (∀ x : Binary64, CutsDown (2 ^ 64 - 1) x.reading x.toOffset ∧
      x.toHeight.toNat = min x.toOffset (2 ^ 32 - 1)) ∧
    (∀ (x y : Binary64) (r s : NumberLine), x.reading = some r → y.reading = some s →
      r ≤ s → x.toOffset ≤ y.toOffset ∧ x.toHeight ≤ y.toHeight) ∧
    (∀ n : ℤ, n ≤ 2 ^ 53 → ∀ x : Binary64, x.IsNearest n → (x.toOffset : ℤ) = max n 0) ∧
    ∀ n : Nat, n ≤ 2 ^ 53 → (ofNat n).IsNearest n := by
  have cuts (x : Binary64) : CutsDown (2 ^ 64 - 1) x.reading x.toOffset :=
    cutsDown_clamp Offset.limit x
  refine ⟨fun x => ⟨cuts x, toNat_toHeight x⟩, ?_, ?_, fun n exact => isNearest_ofNat exact⟩
  · intro x y r s found found' order
    have offsets : x.toOffset ≤ y.toOffset := (found ▸ cuts x).mono (found' ▸ cuts y) order
    refine ⟨offsets, UInt32.le_iff_toNat_le.mpr ?_⟩
    rw [toNat_toHeight, toNat_toHeight]
    exact min_le_min_right _ offsets
  · intro n exact x nearest
    rcases lt_or_ge n 0 with negative | whole
    · obtain ⟨v, found, nonpos⟩ := nearest.exists_nonpos negative
      rw [(cuts x).of_nonpos v found nonpos, max_eq_right negative.le, Nat.cast_zero]
    · obtain ⟨n, rfl⟩ := Int.eq_ofNat_of_zero_le whole
      have exact : n ≤ 2 ^ 53 := Int.ofNat_le.mp exact
      have found := nearest.reading_eq exact
      rcases Nat.eq_zero_or_pos n with rfl | positive
      · rw [(cuts x).of_nonpos _ found (le_of_eq Nat.cast_zero)]
        rfl
      · have integer := (cuts x).of_pos _ found (Nat.cast_pos.mpr positive)
        rw [Int.floor_natCast] at integer
        omega

/-- The patterns of `-12.5`, of `599.75` and of infinity, and of the number nearest to the greatest
integer that fits into a significand. -/
theorem sanitizes_host_numbers_quarters :
    (reading ⟨0xC029000000000000⟩ = some (ofRat (-25 / 2)) ∧ (-25 / 2 : ℚ) ≤ 0 ∧
      toOffset ⟨0xC029000000000000⟩ = 0) ∧
    (reading ⟨0x4082BE0000000000⟩ = some (ofRat (2399 / 4)) ∧ (0 : ℚ) < 2399 / 4 ∧
      (toOffset ⟨0x4082BE0000000000⟩ : ℤ) = min ⌊(2399 / 4 : ℚ)⌋ (2 ^ 64 - 1 : Nat)) ∧
    (reading ⟨0x7FF0000000000000⟩ = some ⊤ ∧
      toHeight ⟨0x4082BE0000000000⟩ ≤ toHeight ⟨0x7FF0000000000000⟩) ∧
    ((ofNat (2 ^ 53)).IsNearest (2 ^ 53 : Nat) ∧ ((ofNat (2 ^ 53)).toOffset : ℤ) = 2 ^ 53) := by
  have low : reading ⟨0xC029000000000000⟩ = some (ofRat (-25 / 2)) := by
    have value : value ⟨0xC029000000000000⟩ = .finite true 7036874417766400 (-49) := by
      decide +kernel
    rw [← number_value, value]
    norm_num [Value.number]
  have high : reading ⟨0x4082BE0000000000⟩ = some (ofRat (2399 / 4)) := by
    have value : value ⟨0x4082BE0000000000⟩ = .finite false 5275456790069248 (-43) := by
      decide +kernel
    rw [← number_value, value]
    norm_num [Value.number]
  have infinite : reading ⟨0x7FF0000000000000⟩ = some ⊤ := by
    have value : value ⟨0x7FF0000000000000⟩ = .infinite false := by decide +kernel
    rw [← number_value, value]
    rfl
  obtain ⟨cuts, grows, comesBack, nearest⟩ := sanitizes_host_numbers
  have greatest := nearest (2 ^ 53) (Nat.le_refl _)
  refine ⟨⟨low, by norm_num, (cuts _).1.of_nonpos _ low (by norm_num)⟩,
    ⟨high, by norm_num, (cuts _).1.of_pos _ high (by norm_num)⟩,
    ⟨infinite, (grows _ _ _ _ high infinite le_top).2⟩, greatest, ?_⟩
  exact comesBack _ (Int.le_refl _) _ greatest

end Windowing.Binary64
