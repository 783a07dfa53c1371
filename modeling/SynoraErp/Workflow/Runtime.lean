import SynoraErp.Transition.Program
import SynoraErp.Workflow.Checkpoint
import SynoraErp.Workflow.Engine

/-!
# Workflow runtime

The methods of `WorkflowRuntime` on one run, each a program over the checkpoint store,
the clock and the Gateway adapter. A method that reaches the head of the loop of
`_advance` returns the local variables of the loop, and goes on from there.
-/

namespace Workflow

open Python Transition
open Governance (Uuid)

/-- `Action`. -/
structure Action where
  step : ℕ
  toolName : ToolName
  canonicalArgs : JsonMapping
  correlationId : Uuid
  step_bounds : 1 ≤ step ∧ step ≤ 64

/-- The checks of the constructor; a `JsonMapping` has passed those of the arguments. -/
def Action.create (step : ℕ) (toolName : ToolName) (canonicalArgs : JsonMapping)
    (correlationId : Uuid) : Result Action :=
  if h : 1 ≤ step ∧ step ≤ 64 then .ok ⟨step, toolName, canonicalArgs, correlationId, h⟩
  else .error (.valueError "1 validation error for Action")

/-- `WorkflowResult`. -/
structure WorkflowResult where
  state : WorkflowState
  observations : List Text
  resumed : Bool

/-- `result`. -/
def result (state : WorkflowState) (resumed : Bool) : WorkflowResult := ⟨state, [], resumed⟩

namespace Runtime

/-- How a call of the adapter ends: with an observation, a `ToolExecutionFailure` of a
code, or another exception. -/
inductive ToolOutcome where
  | observed (observation : Observation)
  | failed (code : Text)
  | raised (e : Exn)

/-- The request `_advance` runs for. -/
inductive Requester where
  | workflow (correlationId : Uuid)
  | p2pPlan
  deriving DecidableEq

/-- The local variables of `_advance` at the head of its loop. -/
structure Loop where
  requester : Requester
  current : WorkflowState
  heldLease : Option Text
  /-- `state is not current`. -/
  resumed : Bool
  /-- `adapter is not None`. -/
  connected : Bool

/-- What a method returns: its response, or the head of the loop. -/
inductive Outcome where
  | response (result : WorkflowResult)
  | recovered (count : ℕ)
  | again (l : Loop)

/-- What the runtime calls. `execute` hands an action to the adapter, in the context of
the plan version of a state and of a step. -/
inductive Call where
  | create (state : WorkflowState)
  | load
  | recoverable
  | acquireLease (expectedRevision : ℕ)
  | save (state : WorkflowState) (expectedRevision : ℕ) (leaseId : Text) (keepLease : Bool)
  | releaseLease (leaseId : Text)
  | now
  | connect
  | execute (current : WorkflowState) (ready : PlanStep) (action : Action)

abbrev Call.Reply : Call → Type
  | .create _ | .save .. | .releaseLease _ | .connect => Result Unit
  | .load => Result WorkflowState
  | .recoverable => Result (Option WorkflowState)
  | .acquireLease _ => Result Text
  | .now => Instant
  | .execute .. => ToolOutcome

abbrev Method := Program Call Call.Reply Exn

def create (state : WorkflowState) : Method Unit := .call (.create state) .ofExcept

def load : Method WorkflowState := .call .load .ofExcept

def recoverable : Method (Option WorkflowState) := .call .recoverable .ofExcept

def acquireLease (expectedRevision : ℕ) : Method Text :=
  .call (.acquireLease expectedRevision) .ofExcept

def save (state : WorkflowState) (expectedRevision : ℕ) (leaseId : Text) (keepLease : Bool) :
    Method Unit :=
  .call (.save state expectedRevision leaseId keepLease) .ofExcept

def releaseLease (leaseId : Text) : Method Unit := .call (.releaseLease leaseId) .ofExcept

def now : Method Instant := .call .now .done

def connect : Method Unit := .call .connect .ofExcept

def execute (current : WorkflowState) (ready : PlanStep) (action : Action) : Method ToolOutcome :=
  .call (.execute current ready action) .done

/-- `str(exc)[:400] or "workflow execution failed"`. -/
def describe (message : String) : String :=
  if message = "" then "workflow execution failed" else .ofList (message.toList.take 400)

/-! ## Transitions under a lease -/

section

variable {α : Type}

/-- `except Exception: release_lease(...); raise`. -/
def orRelease (lease : Text) (body : Method α) : Method α :=
  tryCatch body fun e => do
    releaseLease lease
    throw e

/-- A new state in place of the one that was loaded, under a lease of its own. -/
def checkpoint (state : WorkflowState) (operation : Method WorkflowState)
    (keepLease : WorkflowState → Bool) : Method (WorkflowState × Text) := do
  let lease ← acquireLease state.revision
  let next ← orRelease lease do
    let next ← operation
    save next state.revision lease (keepLease next)
    return next
  return (next, lease)

/-- The lease a failing `_advance` holds is released. -/
def releaseHeld : Option Text → Method Unit
  | none => return ()
  | some lease => releaseLease lease

/-- The `except` clauses of `_advance`, but the one of a `ToolExecutionFailure`. Of the
text of an error of the interpreter only the reason is kept. -/
def unwind (heldLease : Option Text) : Exn → Method α
  | .checkpointError code detail => throw (.checkpointError code detail)
  | .workflowError code detail => do
      releaseHeld heldLease
      throw (.workflowError code detail)
  | .valueError message => do
      releaseHeld heldLease
      throw (.workflowError "TOOL_ERROR" (describe message))
  | .unicodeEncodeError => do
      releaseHeld heldLease
      throw (.workflowError "TOOL_ERROR" (describe "surrogates not allowed"))

/-- A part of the body of `_advance`, under its `except` clauses. -/
def Loop.guarded (l : Loop) (body : Method α) : Method α := tryCatch body (unwind l.heldLease)

end

/-- `held_lease or self.store.acquire_lease(...)`. -/
def Loop.hold (l : Loop) : Method Text :=
  match l.heldLease with
  | some lease => return lease
  | none => acquireLease l.current.revision

/-- An operation on the current state and the save of its result. -/
def Loop.replace (l : Loop) (lease : Text) (operation : Instant → Result WorkflowState)
    (keepLease : Bool) : Method WorkflowState := do
  let reading ← now
  let next ← Program.ofExcept (operation reading)
  save next l.current.revision lease keepLease
  return next

/-- An operation that goes on under the lease it is saved with. -/
def Loop.transition (l : Loop) (operation : Instant → Result WorkflowState) : Method Loop := do
  let lease ← l.guarded l.hold
  let held := { l with heldLease := some lease }
  let next ← held.guarded (held.replace lease operation true)
  return { held with current := next, resumed := true }

/-- An operation that ends the segment. -/
def Loop.conclude (l : Loop) (operation : Instant → Result WorkflowState) : Method Outcome := do
  let next ← l.guarded (l.replace (l.heldLease.getD []) operation false)
  return .response (result next false)

/-! ## The loop -/

section

variable (I : Interpreter)

/-- The step to begin. -/
def requireReady (s : WorkflowState) : Result PlanStep := do
  let ready ← readyStep s
  match ready with
  | none => .error (.workflowError "WORKFLOW_INVALID" "running workflow has no ready step")
  | some step => .ok step

/-- The tool of a step, as far as the request may execute it. -/
def requireTool (requester : Requester) (ready : PlanStep) : Result (ToolName × Uuid) :=
  match ready.toolName, requester with
  | none, _ => .error (.workflowError "WORKFLOW_INVALID" "tool step is incomplete")
  | some _, .p2pPlan =>
      .error (.workflowError "WORKFLOW_INVALID" "P2P request cannot execute a tool step")
  | some toolName, .workflow correlationId => .ok (toolName, correlationId)

/-- The adapter, built where there is none yet. -/
def Loop.reachAdapter (l : Loop) : Method Unit := if l.connected then return () else connect

/-- The action the adapter is handed. -/
def Loop.prepare (l : Loop) (ready : PlanStep) : Method Action := do
  let (toolName, correlationId) ← Program.ofExcept (requireTool l.requester ready)
  l.reachAdapter
  Program.ofExcept (Action.create ready.order toolName ready.parameters correlationId)

/-- `complete_step` and its save. -/
def Loop.complete (l : Loop) (observation : Observation) : Method Outcome := do
  let completed ← l.guarded do
    let reading ← now
    let stamp ← now
    let completed ← Program.ofExcept (completeStep I reading stamp l.current observation)
    save completed l.current.revision (l.heldLease.getD []) false
    return completed
  return .again { l with current := completed, heldLease := none, resumed := true, connected := true }

/-- `fail_step`, with the reason of a replan. -/
def failTool (s : WorkflowState) (code : Text) (reading : Instant) : Result WorkflowState := do
  let failed ← failStep I reading s "TOOL_ERROR" code
  .ok { failed with replanReason := some .toolError }

/-- The clause of a `ToolExecutionFailure`. No other clause is about what it raises. -/
def Loop.fail (l : Loop) (code : Text) : Method Outcome :=
  match l.heldLease with
  | none => throw (.workflowError "TOOL_ERROR" "tool execution failed")
  | some lease =>
      if l.current.status = .running ∧ l.current.currentStepId ≠ none then do
        let failed ← l.replace lease (failTool I l.current code) false
        return .response (result failed true)
      else throw (.workflowError "TOOL_ERROR" "tool execution failed")

/-- The call of the adapter for the step that has begun. -/
def Loop.dispatch (l : Loop) (ready : PlanStep) : Method Outcome := do
  let action ← l.guarded (l.prepare ready)
  let outcome ← execute l.current ready action
  match outcome with
  | .observed observation => l.complete I observation
  | .failed code => l.fail I code
  | .raised e => unwind l.heldLease e

/-- What follows the save of a step that has begun. -/
def Loop.proceed (l : Loop) (ready : PlanStep) : Method Outcome :=
  match ready.type with
  | .clarification =>
      match ready.clarification with
      | none =>
          l.guarded (throw (.workflowError "WORKFLOW_INVALID" "clarification step is incomplete"))
      | some request => l.conclude fun reading => interrupt I reading l.current request
  | .governedAction =>
      l.conclude fun reading => waitForGovernedAction I reading l.current ready.stepId
  | .tool | .finalize => l.dispatch I ready

/-- `while current.status == "RUNNING"`. -/
def Loop.iterate (l : Loop) : Method Outcome :=
  if l.current.status ≠ .running then return .response (result l.current l.resumed)
  else do
    let ready ← l.guarded (Program.ofExcept (requireReady l.current))
    let l ← l.transition fun reading => beginStep I reading l.current ready.stepId
    l.proceed I ready

/-- The check of `_advance` that no tool was left running. -/
def checkNoneRunning (s : WorkflowState) : Result Unit :=
  match s.currentStepId with
  | none => .ok ()
  | some stepId =>
      match s.steps.find? fun step => step.stepId = stepId with
      | none => .error (.valueError "")
      | some active =>
          if active.status = .running then
            .error (.workflowError "UNCERTAIN_TOOL_RESULT"
              "a running tool has no durable result; manual recovery is required")
          else .ok ()

/-- `_advance` up to its loop. -/
def Loop.enter (l : Loop) : Method Outcome :=
  if l.current.status = .interrupted ∨ l.current.status.Terminal then
    return .response (result l.current l.resumed)
  else do
    l.guarded (Program.ofExcept (checkNoneRunning l.current))
    return .again l

/-- `_advance`. -/
def advance (requester : Requester) (state : WorkflowState) (lease : Option Text) :
    Method Outcome :=
  let l : Loop := ⟨requester, state, lease, false, false⟩
  if state.status = .ready then do
    let started ← l.transition fun reading => Workflow.start I reading state
    started.enter
  else l.enter

/-! ## Methods -/

/-- `WorkflowStartRequest`: `steps` are those of the request or the default plan, and
`deadline` is that of the request or the default. -/
structure StartRequest where
  correlationId : Uuid
  steps : Plan
  deadline : Text

/-- What `start` does where the plan is not stored: a run that has a checkpoint loads it. -/
def loadOnConflict (e : Exn) : Method WorkflowState :=
  match e with
  | .checkpointError "CHECKPOINT_CONFLICT" _ => load
  | e => throw e

/-- `start`. A run that has a checkpoint goes on from it. -/
def start (runId : Uuid) (request : StartRequest) : Method Outcome := do
  let initial ← Program.ofExcept
    (createState I runId request.correlationId request.steps request.deadline)
  let state ← tryCatch (do create initial; return initial) fun e =>
    match e with
    | .checkpointError "CHECKPOINT_CONFLICT" _ => load
    | e => throw e
  advance I (.workflow request.correlationId) state none

/-- `WorkflowP2PPlanRequest`. -/
structure P2PPlanRequest where
  correlationId : Uuid
  deadline : Text
  intent : GovernedActionIntent

/-- `_p2p_step_id`. -/
def p2pStepId (intent : GovernedActionIntent) : Result Text :=
  match Text.encodeUtf8 (Json.render I (Wire.governedAction.write intent)) with
  | none => .error .unicodeEncodeError
  | some bytes =>
      .ok (Text.ofString "p2p-" ++ natText intent.goalVersion ++ Text.ofString "-" ++
        natText intent.runVersion ++ Text.ofString "-" ++
        (Sha256.hexdigest bytes).take 16)

/-- `_p2p_step`, with the checks of `PlanStep`. -/
def p2pStep (intent : GovernedActionIntent) (stepId : Text) (order : ℕ) (dependsOn : List Text) :
    Result PlanStep :=
  let step : PlanStep :=
    { stepId := stepId
      order := order
      type := .governedAction
      dependsOn := dependsOn
      allowedTools := []
      toolName := none
      clarification := none
      governedAction := some intent
      parameters := .empty
      status := .pending
      observationDigest := none
      error := none
      completedAt := none }
  if step.Valid then .ok step else .error (.valueError "1 validation error for PlanStep")

/-- `step.governed_action == intent`. -/
def declares (intent : GovernedActionIntent) (step : PlanStep) : Bool :=
  step.governedAction.any fun other =>
    { other with items := [], payment := none } = { intent with items := [], payment := none } ∧
      other.items.map JsonMapping.normal = intent.items.map JsonMapping.normal ∧
      other.payment.map JsonMapping.normal = intent.payment.map JsonMapping.normal

/-- The checkpoint of the run, or a new one with the intent for its plan. -/
def loadOrCreate (runId : Uuid) (request : P2PPlanRequest) (stepId : Text) :
    Method WorkflowState :=
  tryCatch load fun e =>
    match e with
    | .checkpointError "CHECKPOINT_NOT_FOUND" _ => do
        let step ← Program.ofExcept (p2pStep request.intent stepId 1 [])
        let initial ← Program.ofExcept
          (createState I runId request.correlationId [step] request.deadline)
        create initial
        return initial
    | e => throw e

/-- The step a state names, if it is under way. -/
def activeStep (s : WorkflowState) : Option PlanStep := do
  let stepId ← s.currentStepId
  let step ← s.steps.find? fun step => step.stepId = stepId
  if step.Active then some step else none

def conflicts {α : Type} (detail : String) : Method α :=
  throw (.workflowError "WORKFLOW_CONFLICT" detail)

/-- The plan with one more step, the intent. -/
def appendIntent (s : WorkflowState) (intent : GovernedActionIntent) (stepId : Text) :
    Method WorkflowState := do
  let next ← Program.ofExcept (p2pStep intent stepId (s.steps.length + 1)
    ((s.steps.getLast?.map PlanStep.stepId).toList))
  let (replanned, _) ← checkpoint s
    (do
      let reading ← now
      Program.ofExcept (replan I reading s (s.steps ++ [next]) .noProgress))
    fun _ => false
  return replanned

/-- `plan_governed_action`. -/
def planGovernedAction (runId : Uuid) (request : P2PPlanRequest) : Method Outcome := do
  let stepId ← Program.ofExcept (p2pStepId I request.intent)
  let state ← loadOrCreate I runId request stepId
  match activeStep state with
  | some current =>
      if current.type = .governedAction ∧ declares request.intent current then
        return .response (result state false)
      else conflicts "another governed P2P candidate is already current"
  | none =>
      if state.status = .ready then
        if state.steps.length = 1 ∧ state.steps.all (declares request.intent) then
          advance I .p2pPlan state none
        else conflicts "workflow has an incompatible pending plan"
      else if state.status ∈ [.failed, .cancelled, .expired, .interrupted] then
        conflicts "workflow cannot accept a new P2P candidate"
      else if stepId ∈ stepIds state.steps then
        conflicts "P2P candidate identity was already used"
      else do
        let replanned ← appendIntent I state request.intent stepId
        advance I .p2pPlan replanned none

/-- The checkpoint of the run at the revision a request names. -/
def loadAt (revision : ℕ) : Method WorkflowState := do
  let state ← load
  if state.revision ≠ revision then throw (conflict "workflow revision is stale")
  else return state

/-- `WorkflowResumeRequest`. -/
structure ResumeRequest where
  correlationId : Uuid
  workflowRevision : ℕ
  interruptId : Uuid
  answer : Text

/-- `resume`. -/
def resume (request : ResumeRequest) : Method Outcome := do
  let state ← loadAt request.workflowRevision
  let (resumed, lease) ← checkpoint state
    (do
      let reading ← now
      let stamp ← now
      Program.ofExcept (Workflow.resume I reading stamp state request.interruptId request.answer))
    fun resumed => resumed.status = .running
  if resumed.status ≠ .running then return .response (result resumed true)
  else advance I (.workflow request.correlationId) resumed (some lease)

/-- `status`. -/
def status : Method Outcome := do
  let state ← load
  if state.status.Terminal then return .response (result state false)
  else do
    let reading ← now
    let expired ← Program.ofExcept (isExpired I reading state)
    if expired then do
      let (state, _) ← checkpoint state (return expire state) fun _ => false
      return .response (result state false)
    else return .response (result state false)

/-- `cancel`. -/
def cancel (workflowRevision : ℕ) : Method Outcome := do
  let state ← loadAt workflowRevision
  let (cancelled, _) ← checkpoint state
    (Program.ofExcept (Workflow.cancel state "cancelled")) fun _ => false
  return .response (result cancelled false)

/-- `WorkflowGovernedActionCompleteRequest`. -/
structure CompleteRequest where
  workflowRevision : ℕ
  stepId : Text
  receiptDigest : Text

/-- `complete_governed_action`. -/
def completeGovernedAction (request : CompleteRequest) : Method Outcome := do
  let state ← loadAt request.workflowRevision
  let (completed, _) ← checkpoint state
    (do
      let reading ← now
      let stamp ← now
      Program.ofExcept (Workflow.completeGovernedAction I reading stamp state request.stepId
        request.receiptDigest))
    fun _ => false
  return .response (result completed true)

/-- The question a recovery leaves. -/
def crashRequest (interruptId : Uuid) : ClarificationRequest where
  interruptId := interruptId
  question := "Runtime 在只读工具调用期间重启。结果不确定。请选择 inspect; 重试必须先创建新的计划版本。"
  answerType := .choice
  answerMaxLength := 20
  choices := ["inspect"]

/-- The interrupt of a step that was running when its process stopped. -/
def markUncertain (s : WorkflowState) (interruptId : Uuid) (reading : Instant) :
    Result WorkflowState := do
  let interrupted ← interrupt I reading s (crashRequest interruptId)
  .ok { interrupted with crashRecovered := true, replanReason := some .stateDrift }

/-- Whether a state was left with a step that was running. -/
def leftRunning (s : WorkflowState) : Result Bool :=
  match s.status, s.currentStepId with
  | .running, some stepId =>
      match s.steps.find? fun step => step.stepId = stepId with
      | none => .error (.valueError "coroutine raised StopIteration")
      | some step => .ok (step.status = .running)
  | _, _ => .ok false

/-- `recover`, as far as the run is concerned. `interruptId` is the `uuid5` of the run and
the revision. -/
def recover (interruptId : WorkflowState → Uuid) : Method Outcome := do
  let found ← recoverable
  match found with
  | none => return .recovered 0
  | some state => do
      let uncertain ← Program.ofExcept (leftRunning state)
      if uncertain then do
        let _ ← checkpoint state
          (do
            let reading ← now
            Program.ofExcept (markUncertain I state (interruptId state) reading))
          fun _ => false
        return .recovered 1
      else return .recovered 0

/-- A call of the runtime. -/
inductive Request where
  | start (request : StartRequest)
  | planGovernedAction (request : P2PPlanRequest)
  | resume (request : ResumeRequest)
  | status
  | cancel (workflowRevision : ℕ)
  | completeGovernedAction (request : CompleteRequest)
  | recover (interruptId : WorkflowState → Uuid)

/-- The method a call runs. -/
def Request.method (runId : Uuid) : Request → Method Outcome
  | .start request => Runtime.start I runId request
  | .planGovernedAction request => Runtime.planGovernedAction I runId request
  | .resume request => Runtime.resume I request
  | .status => Runtime.status I
  | .cancel workflowRevision => Runtime.cancel workflowRevision
  | .completeGovernedAction request => Runtime.completeGovernedAction I request
  | .recover interruptId => Runtime.recover I interruptId

/-- Where a method that has reached the loop goes on. -/
def continuation : Outcome → Option (Method Outcome)
  | .again l => some (l.iterate I)
  | _ => none

end

end Runtime

end Workflow
