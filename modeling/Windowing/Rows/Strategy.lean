import Windowing.Rows.Measured
import Windowing.Rows.Uniform

/-!
# A choice of layout

A list decides when it runs whether its rows have one height or are measured.
-/

namespace Windowing

/-- Rows of one height, or measured rows. -/
inductive Rows where
  | uniform (rows : UniformRows)
  | measured (rows : MeasuredRows)

namespace Rows

/-- The measured rows, if these are. -/
def measured? : Rows → Option MeasuredRows
  | uniform _ => none
  | measured rows => some rows

instance : RowLayout Rows where
  count
    | uniform rows => RowLayout.count rows
    | measured rows => RowLayout.count rows
  extent
    | uniform rows => RowLayout.extent rows
    | measured rows => RowLayout.extent rows
  start
    | uniform rows => RowLayout.start rows
    | measured rows => RowLayout.start rows
  size
    | uniform rows => RowLayout.size rows
    | measured rows => RowLayout.size rows
  rowAt
    | uniform rows => RowLayout.rowAt rows
    | measured rows => RowLayout.rowAt rows
  resize
    | uniform rows, count => uniform (RowLayout.resize rows count)
    | measured rows, count => measured (RowLayout.resize rows count)

instance : Refinable Rows where
  record
    | uniform rows, _, _ => (uniform rows, 0)
    | measured rows, row, size => ((rows.record row size).map measured id)
  forgetAll?
    | uniform _ => none
    | measured rows => some (measured rows.forgetAll)

end Rows

end Windowing
