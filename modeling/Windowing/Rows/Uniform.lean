import Windowing.Offset
import Windowing.SetupError
import Windowing.Rows.Layout

/-!
# Rows of one height

Every row has the same positive height, so positions are products and the row
at an offset is a quotient. Nothing is stored but the number of rows and their
height, and nothing stops a product that is greater than every offset: positions
are right as long as the whole track fits.
-/

namespace Windowing

/-- A number of rows of one positive height. -/
structure UniformRows where
  count : Nat
  height : UInt32
  height_pos : 0 < height.toNat
  deriving DecidableEq, Repr

namespace UniformRows

/-- Rows of the given height, which may not be zero. -/
def ofHeight (count : Nat) (height : UInt32) : Except SetupError UniformRows :=
  if h : 0 < height.toNat then .ok ⟨count, height, h⟩ else .error (.nonPositiveHeight 0)

/-- The row at an offset is the number of whole rows before it, and the last
row past the end. -/
def rowAt (rows : UniformRows) (offset : Nat) : Option Nat :=
  if rows.count = 0 then none else some (min (offset / rows.height.toNat) (rows.count - 1))

instance : RowLayout UniformRows where
  count rows := rows.count
  extent rows := Offset.mul rows.height.toNat rows.count
  start rows row := Offset.mul rows.height.toNat (min row rows.count)
  size rows row := if row < rows.count then rows.height else 0
  rowAt := rowAt
  resize rows count := { rows with count }

/-- Rows of one height take no measurements. -/
instance : Refinable UniformRows where
  record rows _ _ := (rows, 0)
  forgetAll? _ := none

end UniformRows

end Windowing
