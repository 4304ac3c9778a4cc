import GateGrid.Cell
import GateGrid.Circuit
import GateGrid.Compile
import GateGrid.Grid
import GateGrid.Json.Document
import GateGrid.Json.Numeral
import GateGrid.Json.Quoted
import GateGrid.Json.Reader
import GateGrid.Json.Record
import GateGrid.Json.Skip
import GateGrid.Json.Value
import GateGrid.Node.Basic
import GateGrid.Node.Build
import GateGrid.Node.Codec
import GateGrid.Node.Kind
import GateGrid.Number.Binary64
import GateGrid.Number.Decimal
import GateGrid.Number.Shortest
import GateGrid.Number.Style
import GateGrid.Operation.Basic
import GateGrid.Operation.Codec
import GateGrid.Policy
import GateGrid.Resolution
import GateGrid.Workspace
import GateGrid.Proofs.Grid.Content
import GateGrid.Proofs.Grid.Run
import GateGrid.Proofs.Grid.Board
import GateGrid.Proofs.Grid.Scan
import GateGrid.Proofs.Node.Fits
import GateGrid.Proofs.Resolution
import GateGrid.Proofs.Report
import GateGrid.Proofs.Compile
import GateGrid.Proofs.Grid.Invariant
import GateGrid.Proofs.Grid.Address
import GateGrid.Proofs.Text.Delimited
import GateGrid.Proofs.Number.Display
import GateGrid.Proofs.Circuit.Display
import GateGrid.Proofs.Node.Display
import GateGrid.Proofs.Grid.Display
import GateGrid.Proofs.Grid.Store
import GateGrid.Proofs.Clean
import GateGrid.Proofs.Event
import GateGrid.Proofs.Log
import GateGrid.Proofs.Number.Nearest
import GateGrid.Proofs.Number.Spelling
import GateGrid.Proofs.Number.Order
import GateGrid.Proofs.Number.Front
import GateGrid.Proofs.Json.Token
import GateGrid.Proofs.Json.Conveys
import GateGrid.Proofs.Json.Needs
import GateGrid.Proofs.Json.Truncated
import GateGrid.Proofs.Json.Yields
import GateGrid.Proofs.Operation.Codec
import GateGrid.Proofs.Circuit
import GateGrid.Proofs.Node.Codec
import GateGrid.Proofs.RoundTrip
import GateGrid.Proofs.CutOff
import GateGrid.Proofs.Join
import GateGrid.Proofs.Edit
import GateGrid.Proofs.Grid.Independent
import GateGrid.Proofs.Workspace
import GateGrid.Proofs.Equal
import GateGrid.Proofs.Node.Fault
import GateGrid.Proofs.Origin
import GateGrid.Proofs.Renumber
import GateGrid.Proofs.Node.Build
import GateGrid.Proofs.Node.Kind
import GateGrid.Proofs.Tally
import GateGrid.Proofs.Json.Grammar
import GateGrid.Proofs.Json.Skip
import GateGrid.Proofs.Json.Gather
import GateGrid.Proofs.Node.Layout
