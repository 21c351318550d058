import DataOpsStudio.Library.Dict
import DataOpsStudio.Library.Outcome
import DataOpsStudio.Library.Tiling
import DataOpsStudio.Compare.Segment
import DataOpsStudio.Compare.Value
import DataOpsStudio.Compare.Diff
import DataOpsStudio.Compare.Hashdiff
import DataOpsStudio.Compare.Normalize
import DataOpsStudio.Compare.Reader
import DataOpsStudio.Compare.Accounting
import DataOpsStudio.Compare.Fingerprint
import DataOpsStudio.Workflow.Interpolate
import DataOpsStudio.Workflow.Spec
import DataOpsStudio.Workflow.Order
import DataOpsStudio.Workflow.Execution
import DataOpsStudio.Workflow.Pass
import DataOpsStudio.Workflow.Progress
import DataOpsStudio.Workflow.Locality
import DataOpsStudio.Library.TransitionSystem
import DataOpsStudio.Workflow.Run
import DataOpsStudio.Workflow.Safety
import DataOpsStudio.Broker.State
import DataOpsStudio.Broker.Store
import DataOpsStudio.Broker.Session
import DataOpsStudio.Broker.System
import DataOpsStudio.Broker.Machine
import DataOpsStudio.Broker.Frame
import DataOpsStudio.Broker.Sections
import DataOpsStudio.Broker.Lane
import DataOpsStudio.Broker.Clients
import DataOpsStudio.Broker.Registry
import DataOpsStudio.Broker.Evolution
import DataOpsStudio.Broker.Simulation
import DataOpsStudio.Broker.Attach
import DataOpsStudio.Broker.Runs
import DataOpsStudio.Broker.Limits
import DataOpsStudio.Broker.Epochs
import DataOpsStudio.Broker.Mailbox
import DataOpsStudio.Broker.Fence
import DataOpsStudio.Broker.Orphans
import DataOpsStudio.Broker.Atomicity
import DataOpsStudio.Results.Console
import DataOpsStudio.Results.Eviction
import DataOpsStudio.Jobs.Table
import DataOpsStudio.Jobs.System
import DataOpsStudio.Jobs.Ownership
import DataOpsStudio.Jobs.Reaper
import DataOpsStudio.Jobs.Executor
import DataOpsStudio.Jobs.Budget
import DataOpsStudio.Results.Attempts
import DataOpsStudio.Scheduler.Anchors
import DataOpsStudio.Workflow.References
import DataOpsStudio.Workflow.Noninterference
import DataOpsStudio.Workflow.Rendering
import DataOpsStudio.Workflow.Branches
import DataOpsStudio.Compare.DecimalText
import DataOpsStudio.Compare.Agreement
import DataOpsStudio.Secrets.Rotation
import DataOpsStudio.Sql.Dialects
import DataOpsStudio.Sql.Statements
import DataOpsStudio.Updater.Files
import DataOpsStudio.Updater.Pointer
import DataOpsStudio.Updater.Recovery
import DataOpsStudio.Results.Paging
import DataOpsStudio.Results.Streaming
import DataOpsStudio.Broker.Alike
import DataOpsStudio.Broker.Outage
import DataOpsStudio.Broker.Harmless
import DataOpsStudio.Broker.Survival
import DataOpsStudio.Sql.Paging
import DataOpsStudio.Sql.Skeleton
import DataOpsStudio.Sql.Shield
import DataOpsStudio.Sql.PlainView
import DataOpsStudio.Sql.Restore
import DataOpsStudio.Compare.Canonical
import DataOpsStudio.Compare.Materialized
import DataOpsStudio.Results.Totals
import DataOpsStudio.Compare.Run
import DataOpsStudio.Compare.Naturality
import DataOpsStudio.Compare.Records
import DataOpsStudio.Compare.Ignored
import DataOpsStudio.Compare.Reported
import DataOpsStudio.Compare.Cells
import DataOpsStudio.Compare.Interference
import DataOpsStudio.Compare.Leaks
import DataOpsStudio.Compare.Inert
import DataOpsStudio.Library.Rewriting
import DataOpsStudio.Library.Templates
import DataOpsStudio.Library.Seams
import DataOpsStudio.Library.SqlTokens
import DataOpsStudio.Library.Graphs
import DataOpsStudio.Workflow.Names
import DataOpsStudio.Workflow.Sugar
import DataOpsStudio.Workflow.Literals
import DataOpsStudio.Workflow.Usable
import DataOpsStudio.Workflow.Injection
import DataOpsStudio.Workflow.SqlIn
import DataOpsStudio.Workflow.Acyclic
import DataOpsStudio.Workflow.Traversals
import DataOpsStudio.Library.Regex
import DataOpsStudio.Lineage.Segments
import DataOpsStudio.Lineage.Words
import DataOpsStudio.Lineage.Variables
import DataOpsStudio.Lineage.CursorHeads
import DataOpsStudio.Lineage.CursorLoops
import DataOpsStudio.Lineage.Marks
import DataOpsStudio.Lineage.MarkWords
import DataOpsStudio.Lineage.Bodies
import DataOpsStudio.Lineage.Offsets
import DataOpsStudio.Lineage.DdlSchema
import DataOpsStudio.Lineage.Ast
import DataOpsStudio.Lineage.Resolve
import DataOpsStudio.Lineage.Mappings
import DataOpsStudio.Export.Cells
import DataOpsStudio.Export.Json
import DataOpsStudio.Export.Sheets
import DataOpsStudio.Export.Highlight
import DataOpsStudio.Compare.Upstream
import DataOpsStudio.Compare.Tracing
import DataOpsStudio.Compare.WeakestLink
import DataOpsStudio.Compare.Rounding
import DataOpsStudio.Compare.KeyOrder
import DataOpsStudio.Compare.Locate
import DataOpsStudio.Compare.Located
import DataOpsStudio.Compare.Splitting
import DataOpsStudio.Library.Positional
import DataOpsStudio.Compare.HexHash
import DataOpsStudio.Readers.Columns
import DataOpsStudio.Updater.Extraction
import DataOpsStudio.Lineage.Scripts
import DataOpsStudio.Library.Operations
import DataOpsStudio.Results.HardLinks
import DataOpsStudio.Results.Aliasing
import DataOpsStudio.Results.Snapshots
import DataOpsStudio.Results.Inputs
import DataOpsStudio.Results.InputLeases
import DataOpsStudio.Results.InputReads
import DataOpsStudio.Access.RateLimiter
import DataOpsStudio.Compare.Infer
import DataOpsStudio.Workflow.Plain
import DataOpsStudio.Workflow.Chain
import DataOpsStudio.Lineage.Trace
import DataOpsStudio.Lineage.TraceCompare
