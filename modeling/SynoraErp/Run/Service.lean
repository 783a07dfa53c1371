import SynoraErp.Run.Security

/-!
# The services of a Run

The programs of `agent/service.py` that read or change a Run, and the transitions that the
governance services make. The figures of an item are computed from the rows that are handed
to `persistAnalysis`, and the text of a plan from those handed to `enhancePlan`.
-/

namespace Run

open Python
open Governance (RunState Uuid Digest)
open Gateway (RunContext)
open Transition (Program)
open Transition.Documents (Call)

/-- `except GatewayFault: pass`. -/
def ignoringFault (p : Prog Unit) : Prog Unit :=
  tryCatch p fun e =>
    match e with
    | .exn (.gatewayFault _) => pure ()
    | e => throw e

/-- `except Exception: pass`. -/
def ignoringAll (p : Prog Unit) : Prog Unit := tryCatch p fun _ => pure ()

/-- A conflict of a service. -/
def conflict (message : String) : Raised := faultOf "CONFLICT" message 409

/-! ## Loading -/

/-- The close of a workflow that is found to be over its deadline. -/
def expireQuietly (actor : Text) (run : Loaded) : Prog Unit :=
  ignoringFault do
    let _ ← expireRun actor run.name run.document.identity.correlationId

/-- `_load_active_run`. -/
def loadActiveRun (actor : Text) (runId : Uuid) (expectedStates : List RunState) :
    Prog Loaded := do
  let run ← loadFor actor runId
  if ¬run.document.IsActive then throw notActive
  let expired ← workflowExpired run.document
  if expired = true then
    expireQuietly actor run
    throw (conflict "workflow has expired")
  let now ← external .now
  if run.document.credential.expiresAt ≤ now then throw (conflict "run capability has expired")
  if run.document.runState ∉ expectedStates then throw (conflict "run is not in required state")
  pure run

/-- `_load_workflow_run`. -/
def loadWorkflowRun (actor : Text) (runId : Uuid) (expectedStates : List RunState) :
    Prog Loaded := do
  let run ← loadFor actor runId
  if run.document.identity.executionMode ≠ .planExecute then
    throw (conflict "run is not a durable workflow")
  if ¬run.document.IsActive then throw notActive
  let expired ← workflowExpired run.document
  if expired = true then
    expireQuietly actor run
    throw (conflict "workflow has expired")
  if run.document.runState ∉ expectedStates then throw (conflict "run is not in required state")
  pure run

/-- `_load_workflow_read_run`. -/
def loadWorkflowReadRun (actor : Text) (runId : Uuid) : Prog Loaded := do
  match ← call (.get runId) with
  | none => throw runRejected
  | some _ =>
      let run ← getDoc runId
      authorize actor run.document runRejected
      if run.document.identity.executionMode ≠ .planExecute then
        throw (conflict "run is not a durable workflow")
      if run.document.status ≠ .active ∨ run.document.runState ∉ [RunState.created, .analyzing] then
        pure run
      else
        let expired ← workflowExpired run.document
        if expired = true then
          expireQuietly actor run
          getDoc runId
        else pure run

/-! ## Transitions -/

def changedConcurrently : Raised := conflict "run state changed concurrently"

/-- `_set_run_state` of a document whose lifecycle fields may have been set before. -/
def setRunStateOf (run : Loaded) (pending : Lifecycle) (flags : Flags) (target : RunState) :
    Prog Loaded := do
  Program.ofExcept (validateTransition pending.runState target)
  let current ← tryCatch
    (do
      let row ← call (.get run.name)
      pure (row.map AgentRun.stateVersion))
    fun _ => pure (some pending.stateVersion)
  if current ≠ some pending.stateVersion then throw changedConcurrently
  tryCatch
    (save run
      { run.document with
        lifecycle :=
          { pending with
            runState := target
            stateVersion := pending.stateVersion + 1 } }
      { flags with stateChange := true })
    fun e => if e = .timestampMismatch then throw changedConcurrently else throw e

/-- `_set_run_state`. -/
def setRunState (run : Loaded) (target : RunState) : Prog Loaded :=
  setRunStateOf run run.document.lifecycle run.flags target

/-- `_recover_failed_analysis`. -/
def recoverFailedAnalysis (runId : Uuid) (correlationId : Text) : Prog Unit := do
  ignoringAll (external (.deleteAnalyses runId correlationId))
  tryCatch
    (do
      let current ← getDoc runId
      if current.document.runState ≠ .analyzing then pure ()
      else
        let _ ← setRunState current .created)
    fun e =>
      match e with
      | .exn (.gatewayFault _) | .timestampMismatch => pure ()
      | e => throw e

/-- The save that closes a Run which has its last state. -/
def revokeIn (run : Loaded) (status : RunStatus) (actor correlationId : Text) : Prog Loaded := do
  let now ← external .now
  save run
    { run.document with
      lifecycle := run.document.lifecycle.closed status now actor (some correlationId) }
    { run.flags with revocation := true }

/-- The status of a Run that is closed in a state. -/
def statusIn (target : RunState) : RunStatus := if target = .expired then .expired else .revoked

/-- `_mark_workflow_terminal`. -/
def markWorkflowTerminal (actor : Text) (run : Loaded) (target : RunState)
    (correlationId : Text) : Prog Loaded := do
  if target ∉ [RunState.failed, .cancelled, .expired] then
    throw (faultOf "INVALID_TRANSITION" "workflow terminal state is invalid" 409)
  if run.document.runState = target then pure run
  else
    let moved ← setRunState run target
    revokeIn moved (statusIn target) actor correlationId

/-! ## The deterministic analysis -/

/-- `_call_tool`. -/
def callTool (run : RunContext) (tool : Text) (input : Dict) : Prog Page := do
  match ← call (.get run.runId) with
  | none => throw runRejected
  | some _ =>
      let current ← getDoc run.runId
      if ¬current.document.IsActive ∨ current.document.runState ≠ .analyzing ∨
          current.document.stateVersion ≠ run.stateVersion then
        throw (conflict "run is no longer active for analysis")
      let now ← external .now
      if current.document.credential.expiresAt ≤ now then
        throw (conflict "run is no longer active for analysis")
      let spec ← lift (Gateway.getToolSpec tool "1")
      dispatch run tool input (spec.requiredDoctypes.map Text.ofString)

/-- `_TOOL_PAGE_SIZE`. -/
def toolPageSize : ℤ := 50

/-- `_collect_rows`, for a source of at most so many pages. -/
def collectRows (run : RunContext) (tool : Text) (input : Dict) : ℕ → ℤ → Prog (List Dict)
  | 0, _ => throw .databaseError
  | pages + 1, offset => do
      let page ← callTool run tool
        (input ++ [(Text.ofString "limit", .int toolPageSize), (Text.ofString "offset", .int offset)])
      if page.hasMore = true then
        let rest ← collectRows run tool input pages (offset + toolPageSize)
        pure (page.data ++ rest)
      else pure page.data

/-- `row["item_code"]`. -/
def itemCode (row : Dict) : Except Raised Text :=
  match row.get? "item_code" with
  | some (.str code) => .ok code
  | _ => .error (.exn .lookupError)

/-- `sorted({row["item_code"] for row in rows})`. -/
def itemCodes (rows : List Dict) : Except Raised (List Text) := do
  let codes ← rows.mapM itemCode
  .ok (codes.dedup.insertionSort fun a b => a ≤ b)

/-- The rows of an item. -/
def rowsOf (code : Text) (rows : List Dict) : List Dict :=
  rows.filter fun row => row.get? "item_code" = some (.str code)

/-- `MAX_ANALYSIS_ITEMS`. -/
def maxAnalysisItems : ℕ := 200

/-- `_analyze_item` and `_persist_analysis`. -/
def analyzeItem (pages : ℕ) (run : RunContext) (requests orders : List Dict)
    (correlationId code : Text) : Prog Unit := do
  let _ ← external .today
  let projected ← collectRows run "stock.projected" [(Text.ofString "item_code", .str code)] pages 0
  external (.persistAnalysis run.runId code [projected, rowsOf code requests, rowsOf code orders]
    correlationId)

/-- The part of `_analyze_deterministic_run` that reads and proposes. -/
def propose (pages : ℕ) (run : Loaded) (correlationId : Text) : Prog Loaded := do
  let context := runContext run
  let requests ← collectRows context "material_request.open" [] pages 0
  let orders ← collectRows context "purchase_order.open" [] pages 0
  let codes ← Program.ofExcept (itemCodes requests)
  if maxAnalysisItems < codes.length then
    throw (faultOf "RESULT_LIMIT" "analysis item scope is too large" 422)
  codes.forM (analyzeItem pages context requests orders correlationId)
  setRunState run .proposed

/-- The handlers of an analysis that has started. -/
def recovering {α : Type} (runId : Uuid) (correlationId : Text) (p : Prog α) : Prog α :=
  tryCatch p fun e => do
    recoverFailedAnalysis runId correlationId
    throw e

/-- `_analyze_deterministic_run`. -/
def analyzeDeterministicRun (pages : ℕ) (run : Loaded) (correlationId : Text)
    (alreadyAnalyzing : Bool) : Prog Loaded :=
  if alreadyAnalyzing = true then recovering run.name correlationId (propose pages run correlationId)
  else do
    let started ← setRunState run .analyzing
    recovering run.name correlationId (propose pages started correlationId)

/-! ## The other modes -/

/-- `_AGENT_FALLBACK_CODES` and `FINAL_ANSWER`. -/
def closeoutCodes : List Text :=
  [("FINAL_ANSWER" : Text), "MODEL_ERROR", "REPEATED_CALL", "NO_PROGRESS", "TOKEN_BUDGET",
    "COST_BUDGET", "CONTEXT_INVALID", "CONTEXT_BUDGET", "WALL_TIME_BUDGET", "MAX_STEPS",
    "TOOL_FREQUENCY", "TOOL_NOT_ALLOWED", "INVALID_TOOL_ARGS", "UNSUPPORTED_FINAL_ANSWER"]

def toolExecutionFailed : Raised := faultOf "ERP_ERROR" "Agent tool execution failed" 502

/-- `_analyze_agent_run`. -/
def analyzeAgentRun (pages : ℕ) (actor : Text) (run : Loaded) (correlationId : Text) :
    Prog Loaded := do
  let started ← setRunState run .analyzing
  recovering run.name correlationId do
    let (capability, rotated) ← rotateRunCapability started
    -- The new digest is committed before the capability leaves the process.
    call .commit
    let code ← external
      (.agentRuntime run.name correlationId rotated.document.identity.goal capability)
    external (.persistAgentTrace run.name code correlationId)
    call .commit
    if code ∈ closeoutCodes then
      let current ← loadActiveRun actor run.name [.analyzing]
      analyzeDeterministicRun pages current correlationId true
    else if code = Text.ofString "CANCELLED" then throw (conflict "run was cancelled")
    else throw toolExecutionFailed

/-- `workflow.get("status")`. -/
def workflowStatus (workflow : Dict) : Option Text :=
  match workflow.get? "status" with
  | some (.str status) => some status
  | _ => none

def workflowFailed : Raised := faultOf "ERP_ERROR" "workflow execution failed" 502

/-- `_workflow_terminal_from_response`, and the same branches of
`_analyze_plan_execute_run` with the loader of that function. -/
def concludeWorkflow (load : Prog Loaded) (pages : ℕ) (actor : Text) (run : Loaded)
    (workflow : Dict) (correlationId : Text) : Prog Loaded :=
  let status := workflowStatus workflow
  if status = some (Text.ofString "SUCCEEDED") then do
    let current ← load
    analyzeDeterministicRun pages current correlationId true
  else if status = some (Text.ofString "FAILED") then do
    let _ ← markWorkflowTerminal actor run .failed correlationId
    throw workflowFailed
  else if status = some (Text.ofString "CANCELLED") then do
    let _ ← markWorkflowTerminal actor run .cancelled correlationId
    throw (conflict "workflow was cancelled")
  else if status = some (Text.ofString "EXPIRED") then do
    let _ ← markWorkflowTerminal actor run .expired correlationId
    throw (conflict "workflow has expired")
  else if status = some (Text.ofString "INTERRUPTED") then pure run
  else throw (faultOf "ERP_ERROR" "workflow runtime returned an invalid state" 502)

/-- The start of a segment of a workflow: its Runtime call, with the capability that is
published before it. -/
def callRuntime (path : String) (run : Loaded) (payload : Dict) (correlationId : Text) :
    Prog (Loaded × Dict) := do
  let (capability, rotated) ← rotateRunCapability run
  call .commit
  let workflow ← external (.workflowRuntime path payload (some capability))
  external (.persistWorkflowTrace run.name workflow correlationId)
  call .commit
  pure (rotated, workflow)

/-- The codes of a fault. -/
def faultCode : Raised → Option String
  | .exn (.gatewayFault fault) => some fault.code
  | _ => none

/-- The handlers of `_analyze_plan_execute_run`, once the analysis has started. -/
def afterWorkflowError (actor : Text) (runId : Uuid) (correlationId : Text) (e : Raised) :
    Prog Loaded :=
  match faultCode e with
  | some code => do
      if code ∉ ["UNAVAILABLE", "CONFLICT"] then
        ignoringAll do
          let current ← getDoc runId
          if current.document.runState = .analyzing ∧ code ≠ "ERP_ERROR" then
            recoverFailedAnalysis runId correlationId
      throw e
  | none => do
      ignoringAll do
        let current ← getDoc runId
        if current.document.runState = .analyzing then
          let _ ← markWorkflowTerminal actor current .failed correlationId
      throw workflowFailed

/-- `_analyze_plan_execute_run`. -/
def analyzePlanExecuteRun (pages : ℕ) (actor : Text) (run : Loaded) (payload : Dict)
    (correlationId : Text) : Prog Loaded := do
  let started ← tryCatch (setRunState run .analyzing) fun e =>
    if (faultCode e).isSome then throw e else throw workflowFailed
  tryCatch
    (do
      let (rotated, workflow) ← callRuntime "start" started payload correlationId
      concludeWorkflow (loadActiveRun actor run.name [.analyzing]) pages actor rotated workflow
        correlationId)
    (afterWorkflowError actor run.name correlationId)

/-- `analyze_run`. -/
def analyzeRun (pages : ℕ) (actor : Text) (runId : Uuid) (payload : Dict) (correlationId : Text) :
    Prog Loaded := do
  let run ← loadActiveRun actor runId [.created]
  match run.document.identity.executionMode with
  | .agent => analyzeAgentRun pages actor run correlationId
  | .planExecute => analyzePlanExecuteRun pages actor run payload correlationId
  | .deterministic => analyzeDeterministicRun pages run correlationId false

/-- `resume_plan_execute_run`. -/
def resumePlanExecuteRun (pages : ℕ) (actor : Text) (runId : Uuid) (payload : Dict)
    (correlationId : Text) : Prog Loaded := do
  let run ← loadWorkflowRun actor runId [.analyzing]
  let (rotated, workflow) ← callRuntime "resume" run payload correlationId
  concludeWorkflow (loadWorkflowRun actor runId [.analyzing]) pages actor rotated workflow
    correlationId

/-- `get_workflow_status`; a Run that is over is answered from its own document. -/
def getWorkflowStatus (actor : Text) (runId : Uuid) (payload : Dict) : Prog Loaded := do
  let run ← loadWorkflowReadRun actor runId
  if run.document.runState ∈ [RunState.cancelled, .failed, .expired] ∨
      run.document.status = .expired then
    pure run
  else
    let workflow ← external (.workflowRuntime "status" payload none)
    external (.persistWorkflowTrace runId workflow run.document.identity.correlationId)
    pure run

/-- `plan_run`. -/
def planRun (actor : Text) (runId : Uuid) (correlationId : Text) : Prog Loaded := do
  match ← call (.lock runId) with
  | none => throw runRejected
  | some _ =>
      let run ← loadActiveRun actor runId [.proposed]
      let rows ← external (.analyses runId)
      external (.enhancePlan runId rows)
      tryCatch (external (.insertPlan runId correlationId)) fun e =>
        if e = .duplicateEntry then throw (conflict "plan already generated") else throw e
      let now ← external .now
      let lifecycle := run.document.lifecycle
      tryCatch
        (setRunStateOf run
          (lifecycle.closed .revoked now actor lifecycle.revocationCorrelationId)
          { run.flags with revocation := true } .succeeded)
        fun e => do
          if (faultCode e).isSome then ignoringAll (external (.deletePlan runId correlationId))
          throw e

/-! ## Governed steps -/

/-- What the governance services do to a Run that they have loaded. -/
inductive GovernedStep where
  | moveToExecuting
  | close (target : RunState)
  | markTerminal (target : RunState)
  | setState (target : RunState)
  | confirmGoal (goal : P2pGoal)
  | commit

/-- `_move_run_to_executing`. -/
def moveRunToExecuting (run : Loaded) : Prog Loaded := do
  let moved ← if run.document.runState = .proposed then setRunState run .awaitingApproval
    else pure run
  if moved.document.runState = .executing then pure moved
  else if moved.document.runState ≠ .awaitingApproval then
    throw (conflict "Run is not ready for governed execution")
  else setRunState moved .executing

/-- A Run is brought to a state and closed there. -/
def closeAt (actor : Text) (run : Loaded) (target : RunState) (status : RunStatus)
    (correlationId : Text) : Prog Loaded := do
  let moved ← if run.document.runState = target then pure run else setRunState run target
  revokeIn moved status actor correlationId

/-- `_close_run`. -/
def closeRun (actor : Text) (run : Loaded) (target : RunState) (correlationId : Text) :
    Prog Loaded := do
  if target ∉ [RunState.succeeded, .failed, .reconciliationRequired] then
    throw (faultOf "INVALID_INPUT" "Run terminal state is invalid" 400)
  closeAt actor run target .revoked correlationId

/-- `_mark_terminal`. -/
def markTerminal (actor : Text) (run : Loaded) (target : RunState) (correlationId : Text) :
    Prog Loaded :=
  closeAt actor run target (statusIn target) correlationId

/-- The save of `confirm_p2p_goal`, and the transition after it. -/
def confirmGoal (run : Loaded) (goal : P2pGoal) : Prog Loaded := do
  let saved ← save run { run.document with p2pGoal := goal } { run.flags with p2pGoalUpdate := true }
  if saved.document.runState = .created then setRunState saved .proposed else pure saved

def governedStep (actor correlationId : Text) (run : Loaded) : GovernedStep → Prog Loaded
  | .moveToExecuting => moveRunToExecuting run
  | .close target => closeRun actor run target correlationId
  | .markTerminal target => markTerminal actor run target correlationId
  | .setState target => setRunState run target
  | .confirmGoal goal => confirmGoal run goal
  | .commit => do
      call .commit
      pure run

/-- Any steps of the governance services on a Run that is loaded under its lock. -/
def governed (actor : Text) (runId : Uuid) (correlationId : Text) (steps : List GovernedStep) :
    Prog Loaded := do
  match ← call (.lock runId) with
  | none => throw runRejected
  | some _ =>
      let run ← getDoc runId
      steps.foldlM (governedStep actor correlationId) run

/-! ## Requests -/

/-- The Gateway's `execute`: with a reservation, its row is committed before the dispatch. -/
def execute (runId : Uuid) (capability : Text) (tool : Text) (input : Dict)
    (requiredDoctypes : List Text) (reserves : Bool) : Prog Page := do
  let run ← resolveRun runId capability
  if reserves = true then
    recheckRunScope run requiredDoctypes
    call .commit
    dispatch run tool input requiredDoctypes
  else dispatch run tool input requiredDoctypes

/-- `start_erp_coach`: a Run that cannot be answered is undone, or revoked once it is
committed. -/
def startErpCoach (actor : Text) (request : IssueRequest) (hasContext : Bool) : Prog Unit := do
  call .savepoint
  let (runId, capability) ← tryCatch
    (do
      let (runId, capability) ← issueRun actor request
      if hasContext = true then call .commit else external (.refuseCoach runId request.correlationId)
      pure (runId, capability))
    fun e => do
      tryCatch (call .rollbackTo) fun _ => call .rollback
      throw e
  if hasContext = true then
    tryCatch (external (.answerCoach runId capability)) fun e => do
      tryCatch
        (do
          let _ ← revokeRun actor runId request.correlationId
          call .commit)
        fun _ => call .rollback
      throw e

/-- What a user, an agent or the Runtime asks for. -/
inductive Request where
  | issue (request : IssueRequest)
  | startCoach (request : IssueRequest) (hasContext : Bool)
  | revoke (runId : Uuid)
  | cancel (runId : Uuid)
  | expire (runId : Uuid)
  | execute (runId : Uuid) (capability tool : Text) (input : Dict) (requiredDoctypes : List Text)
      (reserves : Bool)
  | analyze (runId : Uuid) (payload : Dict)
  | resume (runId : Uuid) (payload : Dict)
  | status (runId : Uuid) (payload : Dict)
  | plan (runId : Uuid)
  | governed (runId : Uuid) (steps : List GovernedStep)
  /-- A connection is lost, and its transaction with it. -/
  | abandon

/-- The program of a request. -/
def Request.program (pages : ℕ) (actor correlationId : Text) : Request → Prog Unit
  | .issue request => do
      let _ ← issueRun actor request
  | .startCoach request hasContext => startErpCoach actor request hasContext
  | .revoke runId => do
      let _ ← revokeRun actor runId correlationId
  | .cancel runId => do
      let _ ← cancelRun actor runId correlationId
  | .expire runId => do
      let _ ← expireRun actor runId correlationId
  | .execute runId capability tool input requiredDoctypes reserves => do
      let _ ← Run.execute runId capability tool input requiredDoctypes reserves
  | .analyze runId payload => do
      let _ ← analyzeRun pages actor runId payload correlationId
  | .resume runId payload => do
      let _ ← resumePlanExecuteRun pages actor runId payload correlationId
  | .status runId payload => do
      let _ ← getWorkflowStatus actor runId payload
  | .plan runId => do
      let _ ← planRun actor runId correlationId
  | .governed runId steps => do
      let _ ← Run.governed actor runId correlationId steps
  | .abandon => call .rollback

/-- A request to its end. A fault is an answer, and what was written before it is committed;
any other exception rolls back, as does the end of a request that only reads. -/
def serve (commits : Bool) (p : Prog Unit) : Prog Unit :=
  let finish (kept : Bool) : Prog Unit := if kept = true then call .commit else call .rollback
  tryCatch
    (do
      p
      finish commits)
    fun e => finish (commits && (faultCode e).isSome)

/-- The programs that the connections run. -/
def Entry (p : Prog Unit) : Prop :=
  ∃ pages actor correlationId request commits,
    p = serve commits (Request.program pages actor correlationId request)

end Run
