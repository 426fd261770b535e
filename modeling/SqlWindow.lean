import SqlWindow.DataType.Name
import SqlWindow.Operator.Basic
import SqlWindow.Proofs.Frame.IntegerEdge
import SqlWindow.Proofs.Frame.Received
import SqlWindow.Proofs.Function.Extremes
import SqlWindow.Proofs.Function.MeanOfHeld
import SqlWindow.Proofs.Group.Buckets
import SqlWindow.Proofs.Group.Lookups
import SqlWindow.Proofs.Group.Peers
import SqlWindow.Proofs.Group.SlidingSums
import SqlWindow.Proofs.Operator.Batches
import SqlWindow.Proofs.Operator.NoError
import SqlWindow.Proofs.Operator.Repeat
import SqlWindow.Proofs.Operator.Retraction
import SqlWindow.Proofs.Operator.SortedInput
import SqlWindow.Proofs.Operator.Streaming
import SqlWindow.Proofs.Operator.WindowSize
import SqlWindow.Proofs.Options.Query
import SqlWindow.Proofs.Record.Canonical
import SqlWindow.Proofs.Store.Budget
import SqlWindow.Proofs.Store.Calls
import SqlWindow.Proofs.Store.ChangedByte
import SqlWindow.Proofs.Value.Comparison
import SqlWindow.Proofs.Value.LeapSecond
