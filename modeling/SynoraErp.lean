import SynoraErp.Agent.Secrets
import SynoraErp.Gateway.AtMostOnce
import SynoraErp.Gateway.Client
import SynoraErp.Gateway.Consistent
import SynoraErp.Gateway.Contract
import SynoraErp.Gateway.Execute
import SynoraErp.Gateway.Identity
import SynoraErp.Gateway.Invocation
import SynoraErp.Gateway.Ledger
import SynoraErp.Gateway.Promises
import SynoraErp.Gateway.Registry
import SynoraErp.Gateway.Serving
import SynoraErp.Gateway.Tools
import SynoraErp.Gateway.Transactions
import SynoraErp.Governance.ActionState
import SynoraErp.Governance.CanonicalBytes
import SynoraErp.Governance.Decision
import SynoraErp.Governance.Document
import SynoraErp.Governance.ErpFacts
import SynoraErp.Governance.Fault
import SynoraErp.Governance.Fields
import SynoraErp.Governance.GoalCompletion
import SynoraErp.Governance.InvoicePlan
import SynoraErp.Governance.NextCandidate
import SynoraErp.Governance.Orchestration
import SynoraErp.Governance.Payload
import SynoraErp.Governance.PlanProjection
import SynoraErp.Governance.ProposedAction
import SynoraErp.Governance.ReadBack
import SynoraErp.Governance.ReadBackEvidence
import SynoraErp.Governance.Receipt
import SynoraErp.Governance.Receiptable
import SynoraErp.Governance.RoundTrip
import SynoraErp.Governance.RowExact
import SynoraErp.Governance.Separation
import SynoraErp.Governance.Service
import SynoraErp.Governance.Superseded
import SynoraErp.Memory.Codec
import SynoraErp.Memory.Contracts
import SynoraErp.Memory.Decisions
import SynoraErp.Memory.Ledger
import SynoraErp.Memory.Lineage
import SynoraErp.Memory.Lossless
import SynoraErp.Memory.Persistence
import SynoraErp.Memory.Recall
import SynoraErp.Memory.SqliteStore
import SynoraErp.Order.DepthFirst
import SynoraErp.Order.Capped
import SynoraErp.Order.SortedByKey
import SynoraErp.Python.Datetime
import SynoraErp.Python.Decimal
import SynoraErp.Python.Digits
import SynoraErp.Python.Doubles
import SynoraErp.Python.Encodes
import SynoraErp.Python.Equality
import SynoraErp.Python.Except
import SynoraErp.Python.Instant
import SynoraErp.Python.Interpreter
import SynoraErp.Python.Json
import SynoraErp.Python.JsonCanonical
import SynoraErp.Python.JsonRoundTrip
import SynoraErp.Python.Model
import SynoraErp.Python.Sha256
import SynoraErp.Python.Text
import SynoraErp.Python.Value
import SynoraErp.Python.Wire
import SynoraErp.Python.Zoned
import SynoraErp.Transition.Alone
import SynoraErp.Transition.Path
import SynoraErp.Transition.Program
import SynoraErp.Workflow.AtMostOnce
import SynoraErp.Workflow.Checkpoint
import SynoraErp.Workflow.CheckpointRoundTrip
import SynoraErp.Workflow.Codec
import SynoraErp.Workflow.Coherence
import SynoraErp.Workflow.Completion
import SynoraErp.Workflow.Contracts
import SynoraErp.Workflow.Discipline
import SynoraErp.Workflow.Driven
import SynoraErp.Workflow.Engine
import SynoraErp.Workflow.EngineSteps
import SynoraErp.Workflow.ExclusiveLease
import SynoraErp.Workflow.Favourable
import SynoraErp.Workflow.Holding
import SynoraErp.Workflow.Processes
import SynoraErp.Workflow.Runtime
import SynoraErp.Workflow.Schedule
import SynoraErp.Workflow.Stages
import SynoraErp.Workflow.State
import SynoraErp.Workflow.Storable
import SynoraErp.Workflow.Succession
import SynoraErp.Workflow.Wedge
import SynoraErp.Python.JsonLines
import SynoraErp.Lab.ReservationLedger
import SynoraErp.Lab.Replay
import SynoraErp.Lab.LiveCommand
import SynoraErp.Lab.Accounting
import SynoraErp.Lab.PaidCalls
import SynoraErp.Coach.Grounding
import SynoraErp.Coach.ProseIndependence
import SynoraErp.Coach.Authority
import SynoraErp.Python.KeyOrder
import SynoraErp.Coach.Evidence
import SynoraErp.Coach.Readable
import SynoraErp.Coach.Accepted
import SynoraErp.Coach.Savepoints
import SynoraErp.Coach.AllOrNothing
import SynoraErp.Python.JsonSize
import SynoraErp.Coach.Wire
import SynoraErp.Coach.WireReaders
import SynoraErp.Coach.Signing
import SynoraErp.Governance.Gate
import SynoraErp.Governance.CancelGate
import SynoraErp.Provider.Contracts
import SynoraErp.Provider.Envelope
import SynoraErp.Provider.Complete
import SynoraErp.Provider.ToolCallIds
import SynoraErp.Provider.Failover
import SynoraErp.Agent.Budget
import SynoraErp.Agent.OutputTokens
import SynoraErp.Agent.Preflight
import SynoraErp.Workflow.ManualRecovery
import SynoraErp.Python.Regex
import SynoraErp.Agent.Numerals
import SynoraErp.Agent.TraceSemantics
import SynoraErp.Agent.NumericGrounding
import SynoraErp.Python.Masked
import SynoraErp.Agent.Redaction
import SynoraErp.Governance.PolicyGates
import SynoraErp.Governance.ExecutionScope
import SynoraErp.Order.KeyedMatching
import SynoraErp.Python.Rounding
import SynoraErp.Governance.ReadBackExact
import SynoraErp.Governance.FailsClosed
import SynoraErp.Coach.Packages
import SynoraErp.Coach.Shown
import SynoraErp.Coach.Boundary
import SynoraErp.Python.Lines
import SynoraErp.Python.Labels
import SynoraErp.Retrieval.Chunks
import SynoraErp.Retrieval.Pieces
import SynoraErp.Retrieval.Outline
import SynoraErp.Retrieval.Coverage
import SynoraErp.Retrieval.SoundChunks
import SynoraErp.Retrieval.Sources
import SynoraErp.Coach.Compatibility
import SynoraErp.Coach.PatchedCitations
import SynoraErp.Python.Naive
import SynoraErp.Governance.Expiry
import SynoraErp.Order.Window
import SynoraErp.Governance.ApprovalQueue
import SynoraErp.Governance.QueueComplete
import SynoraErp.Order.TopUp
import SynoraErp.Retrieval.Index
import SynoraErp.Retrieval.Search
import SynoraErp.Retrieval.Ingest
import SynoraErp.Execution.Lifecycle
import SynoraErp.Run.Lifecycle
