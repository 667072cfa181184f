import Windowing.Options
import Windowing.Rows.Strategy

/-!
# Configurations

What a host says about a list: signed numbers, possibly nonsensical, which are
checked when the list is mounted. All checks give the same verdict, so a
configuration either yields a layout and options or is refused as a whole.
-/

namespace Windowing

/-- A list as a host describes it. -/
structure Config where
  /-- The height of every row; it wins over an estimate. -/
  rowHeight : Option Int := none
  /-- The height taken for a row that was not measured. -/
  estimatedHeight : Option Int := none
  overscan : Int := 3
  /-- The text shown in place of rows when there are none. -/
  emptyMessage : String := "No items"
  settleDelay : Nat := 150
  deriving DecidableEq, Repr

/-- The heights of the rows of a valid configuration. -/
inductive HeightRule where
  | fixed (height : UInt32)
  | estimated (height : UInt32)
  deriving DecidableEq, Repr

namespace Config

/-- Rows of one height. -/
def fixed (height : Int) : Config := { rowHeight := some height }

/-- Rows that are measured once drawn. -/
def estimated (height : Int) : Config := { estimatedHeight := some height }

/-- Checks the overscan first and then the height that counts. -/
def check (config : Config) : Except SetupError (HeightRule × Nat) := do
  let overscan ← checkOverscan config.overscan
  match config.rowHeight, config.estimatedHeight with
  | some height, _ => return (.fixed (← checkHeight height), overscan)
  | none, some height => return (.estimated (← checkHeight height), overscan)
  | none, none => throw .missingHeight

/-- The layout of `count` rows. -/
def rows (config : Config) (count : Nat) : Except SetupError Rows := do
  match (← config.check).1 with
  | .fixed height => return .uniform (← UniformRows.ofHeight count height)
  | .estimated height => return .measured (← MeasuredRows.ofEstimate count fun _ => height)

/-- The options of the list. -/
def options (config : Config) : Except SetupError Options := do
  return { overscan := (← config.check).2, settleDelay := config.settleDelay }

end Config

end Windowing
