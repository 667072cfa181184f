import Windowing.Config
import Windowing.Json.Basic
import Windowing.WindowedList.Basic

/-!
# JSON forms

The JSON form of the values that a host stores or sends: viewports, ranges, windows, alignments,
directions and configurations. Each type has a writer `toJson` and a reader `ofJson?`. Objects may
have their entries in any order, and entries that are not known are passed over.
-/

namespace Windowing

/-! ## Viewports, ranges and windows -/

namespace Viewport

/-- Writes a viewport. -/
def toJson (view : Viewport) : Json :=
  .obj [("scroll_offset", .int view.offset), ("height", .int view.height.toNat)]

/-- The fields of a viewport. -/
def fields : Json.Fields Viewport :=
  Json.Fields.make (fun offset height => { offset, height })
    |>.field "scroll_offset" Json.offset?
    |>.field "height" Json.height?

/-- Reads a viewport. -/
def ofJson? : Json → Option Viewport := fields.read?

end Viewport

namespace RowRange

/-- Writes a range. -/
def toJson (range : RowRange) : Json :=
  .obj [("start_index", .int range.start), ("end_index", .int range.stop)]

/-- The fields of a range. -/
def fields : Json.Fields RowRange :=
  Json.Fields.make (fun start stop => { start, stop })
    |>.field "start_index" Json.offset?
    |>.field "end_index" Json.offset?

/-- Reads a range. -/
def ofJson? : Json → Option RowRange := fields.read?

end RowRange

namespace Window

/-- Writes a window. -/
def toJson (window : Window) : Json :=
  .obj [("start_index", .int window.range.start), ("end_index", .int window.range.stop),
    ("offset_y", .int window.top), ("total_height", .int window.extent)]

/-- The fields of a window. -/
def fields : Json.Fields Window :=
  Json.Fields.make (fun start stop top extent => { range := { start, stop }, top, extent })
    |>.field "start_index" Json.offset?
    |>.field "end_index" Json.offset?
    |>.field "offset_y" Json.offset?
    |>.field "total_height" Json.offset?

/-- Reads a window. -/
def ofJson? : Json → Option Window := fields.read?

end Window

/-! ## Alignments and directions -/

namespace Align

/-- The name of an alignment. -/
def label : Align → String
  | top => "Start"
  | middle => "Center"
  | bottom => "End"
  | nearest => "Auto"

/-- The alignment of a name. -/
def ofLabel? : String → Option Align
  | "Start" => some top
  | "Center" => some middle
  | "End" => some bottom
  | "Auto" => some nearest
  | _ => none

/-- Writes an alignment. -/
def toJson (align : Align) : Json := .str align.label

/-- Reads an alignment. -/
def ofJson? (json : Json) : Option Align := json.label?.bind ofLabel?

end Align

namespace Direction

/-- The name of a direction. -/
def label : Direction → String
  | forward => "Forward"
  | backward => "Backward"

/-- The direction of a name. -/
def ofLabel? : String → Option Direction
  | "Forward" => some forward
  | "Backward" => some backward
  | _ => none

/-- Writes a direction. -/
def toJson (direction : Direction) : Json := .str direction.label

/-- Reads a direction. -/
def ofJson? (json : Json) : Option Direction := json.label?.bind ofLabel?

end Direction

/-! ## Configurations -/

namespace Config

/-- Writes a configuration. -/
def toJson (config : Config) : Json :=
  .obj [("itemHeight", .ofOption .int config.rowHeight),
    ("estimatedItemHeight", .ofOption .int config.estimatedHeight),
    ("overscan", .int config.overscan),
    ("emptyMessage", .str config.emptyMessage),
    ("isScrollingResetDelayMs", .int config.settleDelay)]

/-- The fields of a configuration. One that is missing takes its default. -/
def fields : Json.Fields Config :=
  let default : Config := {}
  let height := Json.nullable? Json.signed?
  Json.Fields.make (fun rowHeight estimatedHeight overscan emptyMessage settleDelay =>
      { rowHeight, estimatedHeight, overscan, emptyMessage, settleDelay })
    |>.field "itemHeight" height (some default.rowHeight)
    |>.field "estimatedItemHeight" height (some default.estimatedHeight)
    |>.field "overscan" Json.signed? (some default.overscan)
    |>.field "emptyMessage" Json.text? (some default.emptyMessage)
    |>.field "isScrollingResetDelayMs" Json.offset? (some default.settleDelay)

/-- Reads a configuration. -/
def ofJson? : Json → Option Config := fields.read?

end Config

end Windowing
