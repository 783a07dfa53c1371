import SynoraErp.Run.Document
import SynoraErp.Transition.Documents

/-!
# Capabilities

The programs of `gateway/security.py`: how a Run is issued, revoked, cancelled and expired,
how its capability is rotated and resolved, and how a read checks the Run again under the
lock of its row before its handler starts.
-/

namespace Run

open Python
open Governance (RunState Uuid Digest sha256)
open Gateway (RunContext ToolResult)
open Transition (Program)
open Transition.Documents (Call)

/-- The calls to the outside: the clock and the random source, the questions to Frappe, the
handler of a tool, and what the service asks of the Runtime and of other tables. -/
inductive External where
  | now
  | today
  | uuid4
  | tokenUrlsafe
  | roles (actor : Text)
  | companies (company : Text) (user : Option Text)
  | warehouses (warehouse company : Text) (user : Option Text)
  | enabled (user : Text)
  | hasPermission (doctype user : Text)
  | handle (run : RunContext) (tool : Text) (input : Dict)
  | agentRuntime (run : Uuid) (correlationId goal capability : Text)
  | workflowRuntime (path : String) (payload : Dict) (capability : Option Text)
  | persistAgentTrace (run : Uuid) (code correlationId : Text)
  | persistWorkflowTrace (run : Uuid) (workflow : Dict) (correlationId : Text)
  | persistAnalysis (run : Uuid) (itemCode : Text) (rows : List (List Dict)) (correlationId : Text)
  | deleteAnalyses (run : Uuid) (correlationId : Text)
  | analyses (run : Uuid)
  | enhancePlan (run : Uuid) (rows : List Dict)
  | insertPlan (run : Uuid) (correlationId : Text)
  | deletePlan (run : Uuid) (correlationId : Text)
  | refuseCoach (run : Uuid) (correlationId : Text)
  | answerCoach (run : Uuid) (capability : Text)

/-- A page of rows that a handler returns. -/
structure Page where
  data : List Dict
  hasMore : Bool

/-- What a call to the outside gives back. -/
abbrev External.Value : External → Type
  | .now | .today => Reading
  | .uuid4 => Uuid
  | .tokenUrlsafe => Text
  | .roles _ | .companies .. | .warehouses .. => List Text
  | .enabled _ | .hasPermission .. => Bool
  | .handle .. => Page
  | .agentRuntime .. => Text
  | .workflowRuntime .. => Dict
  | .analyses _ => List Dict
  | _ => Unit

/-- A program of a request. -/
abbrev Prog (α : Type) :=
  Program (Call Uuid AgentRun External) (Call.Reply External.Value Raised) Raised α

/-- One call. -/
def call (c : Call Uuid AgentRun External) : Prog (c.Value External.Value) :=
  .call c fun reply => .ofExcept reply

/-- One call to the outside. -/
def external (x : External) : Prog x.Value := call (.external x)

/-- A computation that raises an exception of the services. -/
def lift {α : Type} (result : Governance.Result α) : Prog α :=
  .ofExcept (result.mapError .exn)

/-- A document in memory, as it was loaded or last saved. -/
structure Loaded where
  name : Uuid
  document : AgentRun
  flags : Flags := {}

/-- `frappe.get_doc`. -/
def getDoc (runId : Uuid) : Prog Loaded := do
  match ← call (.get runId) with
  | some document => pure { name := runId, document := document }
  | none => throw .databaseError

/-- `run.save(ignore_permissions=True)` of a document with changed fields. -/
def save (run : Loaded) (after : AgentRun) (flags : Flags) : Prog Loaded := do
  Program.ofExcept (validate run.document after flags)
  call (.save run.name run.document after)
  pure { run with document := after, flags := flags }

/-! ## Digests and contexts -/

/-- `CAPABILITY_AUDIENCE`. -/
def capabilityAudience : Text := "synora-agent-runtime"

/-- `CAPABILITY_TTL`, in microseconds. -/
def capabilityTtl : ℤ := 300000000

/-- `WORKFLOW_TTL`, in microseconds. -/
def workflowTtl : ℤ := 86400000000

/-- `_digest`. -/
def capabilityDigest (runId : Uuid) (capability : Text) : Governance.Result Digest := do
  let bytes ← Gateway.encode (runId.text ++ codePoint ':' :: capability)
  .ok (sha256 bytes)

/-- `_run_context`. -/
def runContext (run : Loaded) : RunContext where
  runId := run.name
  initiator := run.document.identity.initiator
  company := run.document.identity.companyScope
  warehouse := run.document.identity.warehouseScope
  stateVersion := run.document.stateVersion

/-- The check that the caller started the Run or manages the system. -/
def authorize (actor : Text) (run : AgentRun) (refused : Raised) : Prog Unit :=
  if actor = run.identity.initiator then pure ()
  else do
    let roles ← external (.roles actor)
    if Text.ofString "System Manager" ∈ roles then pure () else throw refused

def permissionDenied : Raised := faultOf "PERMISSION_DENIED" "run is not available" 403

def runRejected : Raised := faultOf "RUN_REJECTED" "run is not available" 404

/-- The start of a call on a Run: that it exists and that the caller may change it. -/
def loadFor (actor : Text) (runId : Uuid) : Prog Loaded := do
  match ← call (.get runId) with
  | none => throw runRejected
  | some _ =>
      let run ← getDoc runId
      authorize actor run.document permissionDenied
      pure run

/-- `workflow_expired`. -/
def workflowExpired (run : AgentRun) : Prog Bool :=
  if run.identity.executionMode ≠ .planExecute then pure false
  else
    match run.identity.workflowExpiresAt with
    | none => pure true
    | some deadline => do
        let now ← external .now
        pure (decide (deadline ≤ now))

/-! ## The life of a Run -/

/-- What `issue_run` is asked for; mode and purpose have been checked. -/
structure IssueRequest where
  company : Text
  goal : Text
  warehouse : Option Text
  timeWindowDays : ℤ
  correlationId : Text
  executionMode : ExecutionMode
  purpose : Text

/-- The document that `issue_run` inserts. -/
def issuedRun (request : IssueRequest) (initiator : Text) (digest : Digest) (issuedAt : Reading) :
    AgentRun where
  purpose := request.purpose
  identity :=
    { initiator := initiator
      companyScope := request.company
      warehouseScope := request.warehouse
      goal := request.goal
      executionMode := request.executionMode
      timeWindowDays := request.timeWindowDays
      capabilityAudience := capabilityAudience
      workflowExpiresAt :=
        if request.executionMode = .planExecute then some (issuedAt + workflowTtl) else none
      correlationId := request.correlationId }
  credential :=
    { capabilityDigest := digest
      issuedAt := issuedAt
      expiresAt := issuedAt + capabilityTtl }
  lifecycle :=
    { revoked := false
      status := .active
      runState := .created
      stateVersion := 1
      revokedAt := none
      revokedBy := none
      revocationCorrelationId := none }
  p2pGoal :=
    { schemaVersion := "1"
      json := none
      version := 0
      digest := none
      state := "MISSING"
      confirmedBy := none
      confirmedAt := none }

def scopeDenied : Raised := faultOf "SCOPE_DENIED" "requested scope is not available" 403

/-- `issue_run`. -/
def issueRun (actor : Text) (request : IssueRequest) : Prog (Uuid × Text) := do
  if actor = [] ∨ actor = Text.ofString "Guest" then
    throw (faultOf "AUTHENTICATION_REQUIRED" "authenticated user required" 401)
  let companies ← external (.companies request.company none)
  if request.company ∉ companies then throw scopeDenied
  match request.warehouse with
  | none => pure ()
  | some warehouse =>
      let warehouses ← external (.warehouses warehouse request.company none)
      if warehouse ∉ warehouses then throw scopeDenied
  let runId ← external .uuid4
  let capability ← external .tokenUrlsafe
  let issuedAt ← external .now
  let digest ← lift (capabilityDigest runId capability)
  let inserted ← call (.insert runId (issuedRun request actor digest issuedAt))
  if inserted = true then pure (runId, capability) else throw .duplicateEntry

/-- The fields of a Run that is over. -/
def Lifecycle.closed (before : Lifecycle) (status : RunStatus) (now : Reading) (actor : Text)
    (correlationId : Option Text) : Lifecycle :=
  { before with
    revoked := true
    status := status
    revokedAt := some now
    revokedBy := some actor
    revocationCorrelationId := correlationId }

def notActive : Raised := faultOf "CONFLICT" "run is not active" 409

/-- `revoke_run`. -/
def revokeRun (actor : Text) (runId : Uuid) (correlationId : Text) : Prog Loaded := do
  let run ← loadFor actor runId
  if ¬run.document.IsActive then throw notActive
  let now ← external .now
  let lifecycle := run.document.lifecycle
  save run
    { run.document with
      lifecycle :=
        { lifecycle.closed .revoked now actor (some correlationId) with
          stateVersion := lifecycle.stateVersion + 1 } }
    { run.flags with revocation := true }

/-- `rotate_run_capability`. -/
def rotateRunCapability (run : Loaded) : Prog (Text × Loaded) := do
  if ¬run.document.IsActive ∨ run.document.runState ≠ .analyzing then throw notActive
  let expired ← workflowExpired run.document
  if expired = true then throw (faultOf "CONFLICT" "workflow has expired" 409)
  let capability ← external .tokenUrlsafe
  let issuedAt ← external .now
  let digest ← lift (capabilityDigest run.name capability)
  let saved ← save run
    { run.document with
      credential :=
        { capabilityDigest := digest
          issuedAt := issuedAt
          expiresAt := issuedAt + capabilityTtl } }
    { run.flags with capabilityRotation := true }
  pure (capability, saved)

/-- The save of a transition that closes the Run. -/
def closeInState (run : Loaded) (target : RunState) (status : RunStatus) (actor : Text)
    (correlationId : Text) : Prog Loaded := do
  Program.ofExcept (validateTransition run.document.runState target)
  let now ← external .now
  let lifecycle := run.document.lifecycle
  save run
    { run.document with
      lifecycle :=
        { lifecycle.closed status now actor (some correlationId) with
          runState := target
          stateVersion := lifecycle.stateVersion + 1 } }
    { run.flags with stateChange := true, revocation := true }

/-- `_expire_loaded_run`. -/
def expireLoadedRun (run : Loaded) (correlationId actor : Text) : Prog Loaded := do
  if ¬run.document.IsActive then throw notActive
  if run.document.runState ∉ [RunState.created, .analyzing] then
    throw (faultOf "CONFLICT" "run cannot expire" 409)
  closeInState run .expired .expired actor correlationId

/-- `cancel_run`. -/
def cancelRun (actor : Text) (runId : Uuid) (correlationId : Text) : Prog Loaded := do
  let run ← loadFor actor runId
  let expired ← workflowExpired run.document
  if run.document.identity.executionMode = .planExecute ∧ expired = true then
    expireLoadedRun run correlationId actor
  else if run.document.runState ∉ cancellableStates ∨ ¬run.document.IsActive then
    throw (faultOf "CONFLICT" "run cannot be cancelled" 409)
  else closeInState run .cancelled .revoked actor correlationId

/-- `expire_run`. -/
def expireRun (actor : Text) (runId : Uuid) (correlationId : Text) : Prog Loaded := do
  let run ← loadFor actor runId
  let expired ← workflowExpired run.document
  if run.document.identity.executionMode ≠ .planExecute ∨ expired = false then
    throw (faultOf "CONFLICT" "workflow has not expired" 409)
  expireLoadedRun run correlationId actor

/-! ## Reads -/

def invalidCapability : Raised := faultOf "RUN_REJECTED" "run capability is invalid" 401

/-- `resolve_run`. -/
def resolveRun (runId : Uuid) (capability : Text) : Prog RunContext := do
  match ← call (.get runId) with
  | none => throw invalidCapability
  | some _ =>
      let run ← getDoc runId
      if ¬run.document.IsActive ∨ run.document.identity.capabilityAudience ≠ capabilityAudience then
        throw invalidCapability
      let now ← external .now
      if run.document.credential.expiresAt ≤ now then throw invalidCapability
      let expired ← workflowExpired run.document
      if expired = true then throw invalidCapability
      let digest ← lift (capabilityDigest runId capability)
      if run.document.credential.capabilityDigest ≠ digest then throw invalidCapability
      pure (runContext run)

def resourceDenied : Raised :=
  faultOf "PERMISSION_DENIED" "requested resource is not available" 403

/-- The checks of `recheck_run_scope` as the user who started the Run. -/
def recheckPermissions (run : RunContext) (requiredDoctypes : List Text) : Prog Unit := do
  let enabled ← external (.enabled run.initiator)
  if enabled = false then throw resourceDenied
  let companies ← external (.companies run.company (some run.initiator))
  if run.company ∉ companies then throw resourceDenied
  match run.warehouse with
  | none => pure ()
  | some warehouse =>
      let warehouses ← external (.warehouses warehouse run.company (some run.initiator))
      if warehouse ∉ warehouses then throw resourceDenied
  requiredDoctypes.forM fun doctype => do
    let permitted ← external (.hasPermission doctype run.initiator)
    if permitted = false then throw resourceDenied

def noLongerActive : Raised := faultOf "CONFLICT" "run is no longer active" 409

/-- The part of `recheck_run_scope` that reads the locked row. -/
def recheckRun (run : RunContext) : Prog Unit := do
  match ← call (.lock run.runId) with
  | none => throw (faultOf "RUN_REJECTED" "run is not available" 401)
  | some current =>
      if ¬current.IsActive ∨ current.stateVersion ≠ run.stateVersion then throw noLongerActive
      let now ← external .now
      if current.credential.expiresAt ≤ now then throw noLongerActive
      let expired ← workflowExpired current
      if expired = true then throw noLongerActive

/-- `recheck_run_scope`. -/
def recheckRunScope (run : RunContext) (requiredDoctypes : List Text) : Prog Unit := do
  recheckRun run
  recheckPermissions run requiredDoctypes

/-- `dispatch`: the handler starts after the check, in the transaction that holds the row. -/
def dispatch (run : RunContext) (tool : Text) (input : Dict) (requiredDoctypes : List Text) :
    Prog Page := do
  recheckRunScope run requiredDoctypes
  external (.handle run tool input)

end Run
