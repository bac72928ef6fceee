import StreetMap.Main
import StreetMap.Proofs.Computation
import StreetMap.Proofs.Extract
import StreetMap.Proofs.Store.Admission
import StreetMap.Proofs.Table
import StreetMap.Proofs.Store.Step
import StreetMap.Proofs.Store.Calls
import StreetMap.Proofs.Store.Frame
import StreetMap.Proofs.Store.Marking
import StreetMap.Proofs.Store.Retention
import StreetMap.Proofs.Store.Overlap
import StreetMap.Proofs.Store.Harvest
import StreetMap.Proofs.Store.Verdict
import StreetMap.Proofs.Area
import StreetMap.Proofs.Store.AreaVerdict
import StreetMap.Proofs.Store.Keyed
import StreetMap.Proofs.Store.Alike
import StreetMap.Proofs.Store.Order
import StreetMap.Proofs.Level
import StreetMap.Proofs.Tags
import StreetMap.Proofs.TurnRestriction
import StreetMap.Proofs.Ring
import StreetMap.Proofs.Ring.Degree
import StreetMap.Proofs.Ring.Tour
import StreetMap.Proofs.Schedule
import StreetMap.Proofs.Store.LevelTag
import StreetMap.Proofs.Store.TurnIndex
import StreetMap.Proofs.Store.Conclusion
import StreetMap.Proofs.Store.Placing
import StreetMap.Proofs.Store.Boundary
import StreetMap.Proofs.Store.Candidates
import StreetMap.Proofs.Store.Independence
import StreetMap.Proofs.Store.NodeSources
import StreetMap.Proofs.Store.StopAreas
import StreetMap.Proofs.Store.SharedNodes
import StreetMap.Proofs.Store.Findings
import StreetMap.Proofs.Store.Interleaving
import StreetMap.Proofs.Store.Preservation
import StreetMap.Proofs.Store.IntakeLevel
import StreetMap.Proofs.Store.WayLevel
import StreetMap.Proofs.Store.Numbering
import StreetMap.Proofs.Load
import StreetMap.Proofs.Store.Fault
import StreetMap.Proofs.Store.Protocol
import StreetMap.Proofs.Store.Buckets
import StreetMap.Proofs.Store.Reingestion
import StreetMap.Proofs.Report
import StreetMap.Proofs.Store.Safety
import StreetMap.Proofs.Text.Pieces
import StreetMap.Proofs.Number.Order
import StreetMap.Proofs.Area.Holes
import StreetMap.Proofs.Store.Routes
import StreetMap.Proofs.Store.Multipolygon
import StreetMap.Proofs.Text.Blank
import StreetMap.Proofs.Number.Numeral
import StreetMap.Proofs.Number.Rounding
import StreetMap.Proofs.Level.Names
import StreetMap.Proofs.Level.Lists
import StreetMap.Proofs.Ring.Circuit
import StreetMap.Proofs.Ring.Reordering
import StreetMap.Proofs.Schedule.Grammar
import StreetMap.Proofs.Access
import StreetMap.Proofs.Text.Utf8
import StreetMap.Proofs.Json.Limits
import StreetMap.Proofs.Load.Sources
