import Windowing.Json.Codec
import Windowing.Text.Describe
import Windowing.WindowedList.Action
import Windowing.Proofs.LowBit
import Windowing.Proofs.SumTree
import Windowing.Proofs.Rows.Edit
import Windowing.Proofs.Rows.History
import Windowing.Proofs.Rows.Exact
import Windowing.Proofs.Rows.Contract
import Windowing.Proofs.Rows.Level
import Windowing.Proofs.Rows.Settling
import Windowing.Proofs.Coverage
import Windowing.Proofs.WindowedList.Publishing
import Windowing.Proofs.WindowedList.Twins
import Windowing.Proofs.Hosted.Measuring
import Windowing.Proofs.Hosted.Operation
import Windowing.Proofs.Hosted.Mounted
import Windowing.Proofs.Hosted.Drawing
import Windowing.Proofs.Hosted.Stabilizing
import Windowing.Proofs.Hosted.Isolation
import Windowing.Proofs.Hosted.Redrawing
import Windowing.Proofs.Number.Reading
import Windowing.Proofs.Hosted.Echoing
import Windowing.Proofs.Counting
import Windowing.Proofs.Rows.Positive
import Windowing.Proofs.Hosted.Bounding
import Windowing.Proofs.Revealing
import Windowing.Proofs.Hosted.Accepting
import Windowing.Proofs.Hosted.Subscribing
import Windowing.Proofs.WindowedList.Growing
import Windowing.Proofs.Rows.Rebuilding
import Windowing.Proofs.WindowedList.Independent
import Windowing.Proofs.WindowedList.Forgetting
import Windowing.Proofs.WindowedList.Batching
import Windowing.Proofs.Nesting
import Windowing.Proofs.Ends
import Windowing.Proofs.Dividing
import Windowing.Proofs.AnyLayout
import Windowing.Proofs.WindowedList.Scrolling
import Windowing.Proofs.WindowedList.Interleaving
import Windowing.Proofs.Json.RoundTrip
import Windowing.Proofs.SumTree.Rebuilding
