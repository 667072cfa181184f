/-!
# Pixel offsets

Positions in a list and sums of row sizes are natural numbers up to
`Offset.limit`, the greatest 64-bit word. The operations here are the only ones
that can reach it. Sums and moves stop there; a product does not, and begins
again at `0`.
-/

namespace Windowing.Offset

/-- The greatest offset, `2 ^ 64 - 1`. -/
def limit : Nat := 18446744073709551615

/-- The sum of two offsets, stopping at `limit`. -/
def add (a b : Nat) : Nat := min (a + b) limit

/-- An offset moved by a signed amount, stopping at `0` and at `limit`. -/
def shift (offset : Nat) (delta : Int) : Nat := min (offset + delta).toNat limit

/-- The product of two numbers, beginning again at `0` past `limit`. -/
def mul (a b : Nat) : Nat := a * b % (limit + 1)

theorem add_eq {a b : Nat} (h : a + b ≤ limit) : add a b = a + b :=
  Nat.min_eq_left h

theorem mul_eq {a b : Nat} (h : a * b ≤ limit) : mul a b = a * b :=
  Nat.mod_eq_of_lt (Nat.lt_succ_of_le h)

end Windowing.Offset
