import Windowing.Offset

/-!
# Binary64 numbers from a host

A scroll container reports its position and height as IEEE 754 binary64
numbers, which may be negative, fractional, infinite or not numbers at all.
This module decodes the 64-bit pattern to an exact value, cuts that value down
to an offset or a height, and rounds an offset to the nearest pattern for the
way back. No floating-point operation is involved.
-/

namespace Windowing

/-- A binary64 number, as its bit pattern. -/
structure Binary64 where
  bits : UInt64
  deriving DecidableEq, Repr

namespace Binary64

/-- What a bit pattern stands for. -/
inductive Value where
  | nan
  | infinite (negative : Bool)
  /-- The number `significand * 2 ^ exponent`, or its negative. -/
  | finite (negative : Bool) (significand : Nat) (exponent : Int)
  deriving DecidableEq, Repr

/-- The number of values of the fraction field: two to the power `52`. -/
def fractionSpan : Nat := 0x10000000000000

/-- The eleven exponent bits. -/
def exponentBits (x : Binary64) : Nat := x.bits.toNat / fractionSpan % 2048

/-- The fifty-two fraction bits. -/
def fractionBits (x : Binary64) : Nat := x.bits.toNat % fractionSpan

/-- The sign bit. -/
def isNegative (x : Binary64) : Bool := decide (0x8000000000000000 ≤ x.bits.toNat)

/-- The value of a pattern. The exponent field `0` holds the numbers without
the leading one, the greatest field the infinities and the patterns that are
not numbers. -/
def value (x : Binary64) : Value :=
  let exponent := x.exponentBits
  let fraction := x.fractionBits
  if exponent = 2047 then
    if fraction = 0 then .infinite x.isNegative else .nan
  else if exponent = 0 then .finite x.isNegative fraction (-1074)
  else .finite x.isNegative (fractionSpan + fraction) ((exponent : Int) - 1075)

/-- The integer part of `significand * 2 ^ exponent`. -/
def floor (significand : Nat) (exponent : Int) : Nat :=
  if 0 ≤ exponent then significand * Nat.pow 2 exponent.toNat
  else significand / Nat.pow 2 (-exponent).toNat

/-- The integer part of a number, cut down to the range from `0` to `limit`;
`0` for a pattern that is not a number. -/
def clamp (limit : Nat) (x : Binary64) : Nat :=
  match x.value with
  | .nan => 0
  | .infinite negative => if negative then 0 else limit
  | .finite negative significand exponent =>
    if negative then 0 else min (floor significand exponent) limit

/-- The scroll offset for a reported position. -/
def toOffset (x : Binary64) : Nat := x.clamp Offset.limit

/-- The viewport height for a reported height. -/
def toHeight (x : Binary64) : UInt32 := UInt32.ofNat (x.clamp 4294967295)

/-- The significand of `53` bits, leading one included, that is nearest to
`n / 2 ^ (n.log2 - 52)`; a tie goes to the even neighbour. It is `2 ^ 53` when
the rounding carries. -/
def roundSignificand (n : Nat) : Nat :=
  if n.log2 ≤ 52 then n * Nat.pow 2 (52 - n.log2)
  else
    let unit := Nat.pow 2 (n.log2 - 52)
    let quotient := n / unit
    let twice := 2 * (n % unit)
    if unit < twice ∨ (unit = twice ∧ quotient % 2 = 1) then quotient + 1 else quotient

/-- The number nearest to `n`. The exponent field and the significand are added:
the leading one of the significand counts as one exponent step, and so does a
carry out of the rounding. -/
def ofNat (n : Nat) : Binary64 :=
  if n = 0 then ⟨0⟩
  else if 1024 ≤ n.log2 then ⟨0x7FF0000000000000⟩
  else ⟨UInt64.ofNat ((n.log2 + 1022) * fractionSpan + roundSignificand n)⟩

end Binary64

end Windowing
