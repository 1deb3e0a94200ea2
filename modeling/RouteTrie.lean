import RouteTrie.Main
import RouteTrie.Proofs.Rearrangement
import RouteTrie.Proofs.OrderedMap
import RouteTrie.Proofs.Endpoint.Registration
import RouteTrie.Proofs.Endpoint.Columns
import RouteTrie.Proofs.Node.Upsert
import RouteTrie.Proofs.Node.Position
import RouteTrie.Proofs.Node.Trim
import RouteTrie.Proofs.Node.Equality
import RouteTrie.Proofs.Path.Pattern
import RouteTrie.Proofs.Path.Literal
import RouteTrie.Proofs.Path.Append
import RouteTrie.Proofs.Build.Binding
import RouteTrie.Proofs.Build.Growth
import RouteTrie.Proofs.Build.Order
import RouteTrie.Proofs.Build.Blocked
import RouteTrie.Proofs.Build.Methods
import RouteTrie.Proofs.Build.Shape
import RouteTrie.Proofs.Build.Check
import RouteTrie.Proofs.Build.Lookup
import RouteTrie.Proofs.Build.Equality
import RouteTrie.Proofs.Key.Method
import RouteTrie.Proofs.Key.Normal
import RouteTrie.Proofs.Build.Extensional
import RouteTrie.Proofs.Build.Below
import RouteTrie.Proofs.Table.Collect
import RouteTrie.Proofs.Equivalence
import RouteTrie.Proofs.Config.Sites
import RouteTrie.Proofs.Config.Compile
import RouteTrie.Proofs.Registry.Run
import RouteTrie.Proofs.Command.Agreement
import RouteTrie.Proofs.Json.Equality
import RouteTrie.Proofs.Path.Template
import RouteTrie.Proofs.Endpoint.Groups
import RouteTrie.Proofs.Build.Summary
import RouteTrie.Proofs.Binary64.Rounding
import RouteTrie.Proofs.Binary64.Shortest
import RouteTrie.Proofs.Json.Number
import RouteTrie.Proofs.Json.Text
import RouteTrie.Proofs.Text.Lines
import RouteTrie.Proofs.Endpoint.Line
import RouteTrie.Proofs.Node.Outline
import RouteTrie.Proofs.Build.Outline
import RouteTrie.Proofs.Config.Clash
import RouteTrie.Proofs.Config.Sound
import RouteTrie.Proofs.Config.Faults
import RouteTrie.Proofs.Config.Bases
import RouteTrie.Proofs.Config.Report
import RouteTrie.Proofs.Table.Extend
import RouteTrie.Proofs.Config.Program
import RouteTrie.Proofs.Config.Mount
import RouteTrie.Proofs.Endpoint.Partition
import RouteTrie.Proofs.Key.Written
import RouteTrie.Proofs.Build.Failure
import RouteTrie.Proofs.Path.Names
import RouteTrie.Proofs.Build.Events
import RouteTrie.Proofs.Build.Stats
import RouteTrie.Proofs.Node.Observers
import RouteTrie.Proofs.Replay
import RouteTrie.Proofs.Table.History
import RouteTrie.Proofs.Path.Variables
import RouteTrie.Proofs.Endpoint.Recall
import RouteTrie.Proofs.Node.Frame
