import SynoraErp.Gateway.Transactions
import SynoraErp.Transition.Program

/-!
# A request

The program a request runs: `reserve_invocation`, `dispatch`, `complete_invocation` and the
`execute` of the API around them, up to the response.
-/

namespace Gateway

open Python
open Governance (GatewayFault Exn Result invalid conflict Uuid Digest)
open Transition (Program Config Event Moves)

/-- A program of a request. -/
abbrev Prog (α : Type) := Program Call Call.Reply Exn α

/-- One call. -/
def call (c : Call) : Prog c.Value := .call c fun reply => .ofExcept reply

variable (I : Interpreter)

/-- The reservation of a row that is already there. -/
def readReservation (invocationId expectedDigest : Digest) : Prog InvocationReservation := do
  let doc ← call (.getDoc invocationId)
  .ofExcept (existingReservation I doc expectedDigest)

/-- The row `reserve_invocation` inserts. -/
def startedInvocation (request : ReceivedRequest) (run : RunContext) (metadata : Metadata)
    (startedAt : Text) : Invocation where
  invocationId := metadata.invocationId
  identity := { request.identity metadata with runId := run.runId }
  initiator := run.initiator
  status := .started
  responseJson := none
  observationDigest := none
  startedAt := startedAt
  completedAt := none
  correlationId := request.correlationId

/-- The insert of `reserve_invocation`, and what follows where another request was first. -/
def insertReservation (request : ReceivedRequest) (run : RunContext) (metadata : Metadata) :
    Prog InvocationReservation := do
  let startedAt ← call .now
  let inserted ← call (.insert (startedInvocation request run metadata startedAt))
  if inserted = true then pure ⟨metadata.invocationId, none⟩
  else
    let found ← call (.exists metadata.invocationId)
    if found = true then readReservation I metadata.invocationId metadata.argsDigest
    else throw (conflict "workflow invocation reservation raced")

/-- `reserve_invocation`. -/
def reserveInvocation (request : ReceivedRequest) (run : RunContext) :
    Prog (Option InvocationReservation) :=
  match request.metadata with
  | none => pure none
  | some _ => do
      let metadata ← Program.ofExcept (validateWorkflowMetadata I request)
      let spec ← Program.ofExcept (getToolSpec request.tool.name request.tool.version)
      call (.recheckRunScope run spec.requiredDoctypes)
      let found ← call (.exists metadata.invocationId)
      if found = true then
        let reservation ← readReservation I metadata.invocationId metadata.argsDigest
        pure (some reservation)
      else
        let reservation ← insertReservation I request run metadata
        pure (some reservation)

/-- `dispatch`. -/
def dispatch (request : ReceivedRequest) (run : RunContext) : Prog Dict := do
  let startedAt ← call .monotonic
  let spec ← Program.ofExcept (getToolSpec request.tool.name request.tool.version)
  call (.recheckRunScope run spec.requiredDoctypes)
  let input ← Program.ofExcept
    (parseToolInput request.tool.input spec.inputFields spec.maxPageSize)
  let handled ← call (.handle request run input)
  let result ← Program.ofExcept handled
  let endedAt ← call .monotonic
  if (spec.timeoutMs : ℚ) < (endedAt - startedAt) * 1000 then
    throw (.gatewayFault ⟨"TIMEOUT",
      "tool execution exceeded its post-hoc timeout classification budget", 504⟩)
  else
    Program.ofExcept (checkResult (intItem input "limit") result)
    let capturedAt ← call .now
    pure (toolResponse request run spec input result capturedAt)

/-- `complete_invocation` of a reservation without a cached response. -/
def completeInvocation (invocationId : Digest) (response : Dict) : Prog Dict := do
  let (safeResponse, observationDigest) ← Program.ofExcept (boundedResponse I (.dict response))
  let doc ← call (.getDoc invocationId)
  match doc.status with
  | .succeeded => Program.ofExcept (loadCached I doc)
  | .started =>
      let text ← Program.ofExcept (canonicalJson I (.dict safeResponse))
      let completedAt ← call .now
      call (.save doc (doc.completed text observationDigest completedAt) true)
      pure safeResponse

/-- The body of `execute` once a reservation is made. -/
def proceed (request : ReceivedRequest) (run : RunContext) :
    Option InvocationReservation → Prog Dict
  | some ⟨_, some cached⟩ => do
      call (.audit run request "CACHED")
      pure cached
  | some ⟨invocationId, none⟩ => do
      -- The row that is started is committed before the handler can run.
      call .commit
      let result ← dispatch request run
      let response ← completeInvocation I invocationId result
      call .commit
      call (.audit run request "SUCCEEDED")
      pure response
  | none => do
      let result ← dispatch request run
      call (.audit run request "SUCCEEDED")
      pure result

/-- The handlers of `execute`: a row that is started is kept. -/
def rejected {α : Type} (request : ReceivedRequest) (run : RunContext)
    (reservation : Option InvocationReservation) (e : Exn) : Prog α := do
  tryCatch (call (.audit run request "REJECTED")) fun _ => pure ()
  match reservation with
  | some ⟨_, none⟩ => tryCatch (call .commit) fun _ => pure ()
  | _ => pure ()
  throw e

/-- `execute`, past the check of the headers. -/
def execute (payload : Dict) : Prog (ReceivedRequest × Dict) := do
  let body := payload.filter fun entry => entry.1 ≠ Text.ofString "cmd"
  let request ← Program.ofExcept (parseRequest (.dict body))
  let run ← call (.resolveRun request.runId request.capability)
  let reservation ← tryCatch (reserveInvocation I request run) (rejected request run none)
  let response ← tryCatch (proceed I request run reservation) (rejected request run reservation)
  pure (request, response)

/-- A request from its connection to its response. -/
def serve (payload : Dict) : Prog Unit := do
  call .connect
  let (request, response) ← tryCatch (execute I payload) fun e => do
    call .endRequest
    throw e
  call .endRequest
  call (.answer request response)

/-- The database rolls back what a connection that is gone has left. -/
def recover : Prog Unit := call .connect

/-- What a process runs. -/
def Entry (p : Prog Unit) : Prop := (∃ payload, p = serve I payload) ∨ p = recover

/-- A step of one process among the requests. -/
abbrev RequestStep {ι : Type} [DecidableEq ι] (I : Interpreter) :
    Config ι (Database ι) Call Call.Reply Exn Unit → Event ι →
      Config ι (Database ι) Call Call.Reply Exn Unit → Prop :=
  Moves Database.Perform (Entry I) fun _ => none

end Gateway
