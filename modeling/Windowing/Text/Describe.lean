import Windowing.Hosted.HostedList
import Windowing.Text.Record

/-!
# Descriptions

The one-line texts that describe layouts, options, windows and hosted lists in
logs.
-/

namespace Windowing

open Text

/-- For instance `UniformSizes { count: 10, item_size: 7 }`. -/
def UniformRows.describe (rows : UniformRows) : String :=
  closedRecord "UniformSizes"
    [field "count" (toString rows.count), field "item_size" (toString rows.height.toNat)]

/-- For instance `MeasuredSizes { count: 8, measured: 1, total_size: 110, .. }`. -/
def MeasuredRows.describe (rows : MeasuredRows) : String :=
  openRecord "MeasuredSizes"
    [field "count" (toString rows.count), field "measured" (toString rows.measuredCount),
      field "total_size" (toString rows.sums.total)]

/-- The text of the chosen layout, under the name of the choice. -/
def Rows.describe : Rows → String
  | .uniform rows => tagged "Uniform" rows.describe
  | .measured rows => tagged "Measured" rows.describe

/-- For instance
`ListOptions { overscan: 3, is_scrolling_reset_delay_ms: 150, on_change: false }`. -/
def Options.describe (options : Options) : String :=
  closedRecord "ListOptions"
    [field "overscan" (toString options.overscan),
      field "is_scrolling_reset_delay_ms" (toString options.settleDelay),
      field "on_change" (toString options.announces)]

/-- For instance
`Window { start_index: 0, end_index: 5, offset_y: 0, total_height: 25 }`. -/
def Window.describe (window : Window) : String :=
  closedRecord "Window"
    [field "start_index" (toString window.range.start),
      field "end_index" (toString window.range.stop),
      field "offset_y" (toString window.top),
      field "total_height" (toString window.extent)]

/-- The number of items, whether the list is mounted, and its window. -/
def HostedList.describe {ι : Type} (l : HostedList ι) : String :=
  openRecord "ListView"
    [field "items" (toString l.items.size), field "mounted" (toString l.isMounted),
      field "window" l.list.published.describe]

end Windowing
