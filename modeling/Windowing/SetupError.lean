/-!
# Rejected settings

The causes for which a list is refused when it is set up, the message of each,
and the two checks that turn signed numbers from outside into row heights and
row counts. Nothing is rejected after set-up.
-/

namespace Windowing

/-- Why a list cannot be set up. -/
inductive SetupError where
  /-- A row height is zero or negative. -/
  | nonPositiveHeight (height : Int)
  /-- The estimate for a row is zero. -/
  | nonPositiveEstimate (row : Nat) (height : Int)
  /-- A row height needs more than 32 bits. -/
  | heightTooLarge (height : Int) (greatest : UInt32)
  /-- The number of extra rows is negative. -/
  | negativeOverscan (overscan : Int)
  /-- No row height is given, neither a fixed one nor an estimate. -/
  | missingHeight
  deriving DecidableEq, Repr

namespace SetupError

/-- The text shown for a rejected setting. -/
def message : SetupError → String
  | nonPositiveHeight height => "item size must be positive, got " ++ toString height
  | nonPositiveEstimate row height =>
    "estimated size for item " ++ toString row ++ " must be positive, got " ++ toString height
  | heightTooLarge height greatest =>
    "item size must be at most " ++ toString greatest.toNat ++ ", got " ++ toString height
  | negativeOverscan overscan => "overscan must not be negative, got " ++ toString overscan
  | missingHeight => "either a fixed item height or an estimated item height is required"

end SetupError

/-- The greatest row height and viewport height, `2 ^ 32 - 1`. -/
def greatestHeight : UInt32 := 4294967295

/-- A row height given as a signed number: positive and at most
`greatestHeight`. A height that is too large is rejected, not cut down. -/
def checkHeight (height : Int) : Except SetupError UInt32 :=
  if height ≤ 0 then .error (.nonPositiveHeight height)
  else if height ≤ greatestHeight.toNat then .ok (UInt32.ofNat height.toNat)
  else .error (.heightTooLarge height greatestHeight)

/-- A number of extra rows given as a signed number. -/
def checkOverscan (overscan : Int) : Except SetupError Nat :=
  if overscan < 0 then .error (.negativeOverscan overscan) else .ok overscan.toNat

end Windowing
