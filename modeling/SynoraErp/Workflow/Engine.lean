import SynoraErp.Python.Sha256
import SynoraErp.Workflow.State

/-!
# Workflow engine

The operations of the engine, each a function of the state and of what it reads of
the clock. A call of the engine is an event, and `EngineStep` is the step relation of
its runs.
-/

namespace Workflow

open Python
open Governance (Uuid)

/-- `Observation`. -/
structure Observation where
  step : ℕ
  toolName : ToolName
  ok : Bool
  summary : Text
  digest : Text
  errorCode : Option Text
  retryable : Bool
  step_bounds : 1 ≤ step ∧ step ≤ 64
  summary_bounds : 1 ≤ summary.length ∧ summary.length ≤ 4000
  errorCode_le : ∀ code ∈ errorCode, code.length ≤ 80
  digest_eq : ∃ bytes, Text.encodeUtf8 summary = some bytes ∧ digest = Sha256.hexdigest bytes

/-! ## Steps of a plan -/

/-- A step that has not begun. -/
def PlanStep.Startable (step : PlanStep) : Prop := step.status = .pending ∨ step.status = .ready

instance (step : PlanStep) : Decidable step.Startable := inferInstanceAs (Decidable (_ ∨ _))

/-- A step that is under way. -/
def PlanStep.Active (step : PlanStep) : Prop := step.status = .running ∨ step.status = .waiting

instance (step : PlanStep) : Decidable step.Active := inferInstanceAs (Decidable (_ ∨ _))

/-- The names of the steps that have succeeded. -/
def doneIds (steps : Plan) : List Text :=
  stepIds (steps.filter fun step => step.status = .succeeded)

/-- The first step that can begin. -/
def nextStep (steps : Plan) : Option PlanStep :=
  steps.find? fun step => step.Startable ∧ ∀ d ∈ step.dependsOn, d ∈ doneIds steps

/-- `step.model_copy(update=...)` of the step of a name. -/
def updateStep (steps : Plan) (stepId : Text) (update : PlanStep → PlanStep) : Plan :=
  steps.map fun step => if step.stepId = stepId then update step else step

/-- `_replace_step`. -/
def replaceStep (steps : Plan) (stepId : Text) (update : PlanStep → PlanStep) : Result Plan :=
  if stepId ∉ stepIds steps then .error (.workflowError "WORKFLOW_INVALID" "step is unknown")
  else .ok (updateStep steps stepId update)

def PlanStep.withStatus (status : StepStatus) (step : PlanStep) : PlanStep :=
  { step with status := status }

/-- The step, done with the digest of what it observed. -/
def PlanStep.complete (digest : Text) (stamp : Instant) (step : PlanStep) : PlanStep :=
  { step with
    status := .succeeded
    observationDigest := some digest
    completedAt := some stamp.isoformat
    error := none }

def PlanStep.fail (error : Text) (step : PlanStep) : PlanStep :=
  { step with status := .failed, error := some error }

/-! ## Operations -/

section

variable (I : Interpreter)

/-- `create_state`. The steps are records already and are not checked again. -/
def createState (runId traceId : Uuid) (steps : Plan) (deadline : Text) : Result WorkflowState := do
  validatePlanDag steps
  if steps = [] ∨ 256 < steps.length ∨ deadline = [] ∨ 64 < deadline.length then
    .error (.valueError "validation error")
  else do
    let _ ← parseDeadline I deadline
    .ok
      { runId := runId
        revision := 0
        planVersion := 1
        graphVersion := "workflow-v1"
        status := .ready
        currentStepId := none
        steps := steps
        clarification := none
        replanReason := none
        budget := .default
        deadline := deadline
        traceId := traceId
        stopReason := none
        crashRecovered := false }

/-- `_ensure_not_expired`. -/
def ensureNotExpired (now : Instant) (s : WorkflowState) : Result Unit := do
  let deadline ← parseDeadline I s.deadline
  if deadline ≤ now.microseconds then
    .error (.workflowError "WORKFLOW_EXPIRED" "workflow deadline expired")
  else .ok ()

/-- `_ensure_running`. -/
def ensureRunning (now : Instant) (s : WorkflowState) : Result Unit := do
  ensureNotExpired I now s
  if s.status ≠ .running then
    .error (.workflowError "WORKFLOW_CONFLICT" "workflow is not running")
  else .ok ()

/-- `ready_step`. -/
def readyStep (s : WorkflowState) : Result (Option PlanStep) :=
  if s.status ≠ .running then .ok none
  else
    match s.currentStepId with
    | none => .ok (nextStep s.steps)
    | some stepId => do
        let current ← s.getStep stepId
        .ok (if current.Active then none else nextStep s.steps)

/-- `start`. -/
def start (now : Instant) (s : WorkflowState) : Result WorkflowState := do
  ensureNotExpired I now s
  if s.status ≠ .ready then .error (.workflowError "WORKFLOW_CONFLICT" "workflow is not ready")
  else do
    let ready ← readyStep { s with status := .running }
    match ready with
    | none => .error (.workflowError "WORKFLOW_INVALID" "workflow has no executable step")
    | some step => do
        let steps ← replaceStep s.steps step.stepId (.withStatus .ready)
        .ok { s with status := .running, steps := steps, revision := s.revision + 1 }

/-- `begin_step`. -/
def beginStep (now : Instant) (s : WorkflowState) (stepId : Text) : Result WorkflowState := do
  ensureRunning I now s
  let step ← s.getStep stepId
  let ready ← readyStep s
  if ¬step.Startable ∨ ready.map PlanStep.stepId ≠ some stepId then
    .error (.workflowError "WORKFLOW_CONFLICT" "step is not ready")
  else do
    let steps ← replaceStep s.steps stepId (.withStatus .running)
    .ok { s with currentStepId := some stepId, steps := steps, revision := s.revision + 1 }

/-- `wait_for_governed_action`. -/
def waitForGovernedAction (now : Instant) (s : WorkflowState) (stepId : Text) :
    Result WorkflowState := do
  ensureRunning I now s
  let step ← s.getStep stepId
  if step.status ≠ .running ∨ step.type ≠ .governedAction then
    .error (.workflowError "WORKFLOW_CONFLICT" "step is not waiting for a governed action")
  else do
    let steps ← replaceStep s.steps stepId (.withStatus .waiting)
    .ok { s with steps := steps, currentStepId := some stepId, revision := s.revision + 1 }

/-- The state once a step has succeeded: the workflow ends when no step is left, and
otherwise names the next one. -/
def afterCompletion (s : WorkflowState) (steps : Plan) (stopReason : Text) : WorkflowState :=
  if ∀ step ∈ steps, step.status = .succeeded ∨ step.status = .skipped then
    { s with
      steps := steps
      currentStepId := none
      status := .succeeded
      stopReason := some stopReason
      revision := s.revision + 1 }
  else
    { s with
      steps := steps
      currentStepId := (nextStep steps).map PlanStep.stepId
      revision := s.revision + 1 }

/-- `complete_governed_action`. -/
def completeGovernedAction (now stamp : Instant) (s : WorkflowState)
    (stepId observationDigest : Text) : Result WorkflowState := do
  ensureRunning I now s
  if isDigest observationDigest = false then
    .error (.workflowError "INVALID_OBSERVATION" "governed action Receipt digest is invalid")
  else do
    let step ← s.getStep stepId
    if step.status ≠ .waiting ∨ step.type ≠ .governedAction then
      .error (.workflowError "WORKFLOW_CONFLICT" "governed action is not waiting for a Receipt")
    else
      .ok (afterCompletion s (updateStep s.steps stepId (.complete observationDigest stamp))
        "governed action Receipt recorded")

/-- The step an operation on the running step is about. -/
def runningStep (s : WorkflowState) : Result PlanStep :=
  match s.currentStepId with
  | none => .error (.workflowError "WORKFLOW_CONFLICT" "no running step")
  | some stepId => s.getStep stepId

/-- `complete_step`. -/
def completeStep (now stamp : Instant) (s : WorkflowState) (observation : Observation) :
    Result WorkflowState := do
  ensureRunning I now s
  let step ← runningStep s
  if step.status ≠ .running ∨ step.toolName ≠ some observation.toolName then
    .error (.workflowError "WORKFLOW_CONFLICT" "observation does not belong to running step")
  else
    .ok (afterCompletion s (updateStep s.steps step.stepId (.complete observation.digest stamp))
      "workflow completed")

/-- `f"{code}: {detail}"[:500]`. -/
def failure (code detail : Text) : Text := (code ++ (": " ++ detail)).take 500

/-- `fail_step`. -/
def failStep (now : Instant) (s : WorkflowState) (code detail : Text) : Result WorkflowState := do
  ensureRunning I now s
  let step ← runningStep s
  if step.status ≠ .running then
    .error (.workflowError "WORKFLOW_CONFLICT" "step is not running")
  else
    .ok { s with
      steps := updateStep s.steps step.stepId (.fail (failure code detail))
      status := .failed
      currentStepId := some step.stepId
      stopReason := some (failure code detail)
      revision := s.revision + 1 }

/-- `interrupt`. -/
def interrupt (now : Instant) (s : WorkflowState) (request : ClarificationRequest) :
    Result WorkflowState := do
  ensureRunning I now s
  let step ← runningStep s
  if step.status ≠ .running then
    .error (.workflowError "WORKFLOW_CONFLICT" "step is not running")
  else do
    let steps ← replaceStep s.steps step.stepId (.withStatus .waiting)
    .ok { s with
      steps := steps
      status := .interrupted
      clarification := some request
      revision := s.revision + 1 }

/-- The answers a request admits. -/
def checkAnswer (request : ClarificationRequest) (answer : Text) : Result Unit :=
  if Text.isBlank answer = true ∨ request.answerMaxLength < answer.length then
    .error (.workflowError "INVALID_ANSWER" "clarification answer is invalid")
  else if request.answerType = .choice ∧ answer ∉ request.choices then
    .error (.workflowError "INVALID_ANSWER" "clarification answer is not an allowed choice")
  else .ok ()

def manualRecovery : Text := "MANUAL_RECOVERY_REQUIRED: inspect uncertain tool result"

/-- `sha256(b"clarification-answer-accepted").hexdigest()`. -/
def acceptedDigest : Text :=
  Sha256.hexdigest ("clarification-answer-accepted".toUTF8)

/-- The answer to the question a recovery left: only `inspect` is taken, and it ends
the workflow. -/
def acknowledgeRecovery (s : WorkflowState) (answer : Text) : Result WorkflowState :=
  if answer ≠ Text.ofString "inspect" then
    .error (.workflowError "MANUAL_RECOVERY_REQUIRED"
      "a new plan version is required before retrying an uncertain tool")
  else
    match s.currentStepId with
    | none => .error (.workflowError "WORKFLOW_CONFLICT" "no recoverable step")
    | some stepId => do
        let failed ← replaceStep s.steps stepId (.fail manualRecovery)
        .ok { s with
          status := .failed
          steps := failed
          clarification := none
          stopReason := some manualRecovery
          replanReason := some .stateDrift
          revision := s.revision + 1 }

/-- The answer to the question of a clarification step. -/
def acceptAnswer (stamp : Instant) (s : WorkflowState) : Result WorkflowState := do
  let steps ← replaceStep s.steps (s.currentStepId.getD []) (.complete acceptedDigest stamp)
  .ok { s with
    status := .running
    steps := steps
    currentStepId := none
    clarification := none
    replanReason := some .inputClarified
    revision := s.revision + 1 }

/-- `resume`. -/
def resume (now stamp : Instant) (s : WorkflowState) (interruptId : Uuid) (answer : Text) :
    Result WorkflowState := do
  ensureNotExpired I now s
  if s.status ≠ .interrupted then
    .error (.workflowError "WORKFLOW_CONFLICT" "workflow is not waiting for clarification")
  else
    match s.clarification with
    | none => .error (.workflowError "WORKFLOW_CONFLICT" "workflow is not waiting for clarification")
    | some request =>
        if request.interruptId ≠ interruptId then
          .error (.workflowError "INTERRUPT_CONFLICT" "interrupt is no longer current")
        else do
          checkAnswer request answer
          if s.crashRecovered then acknowledgeRecovery s answer else acceptAnswer stamp s

/-- Why a step of a replacement plan is refused. -/
def replanConflict (s : WorkflowState) (item : PlanStep) : Option String :=
  match s.steps.reverse.find? fun step => step.stepId = item.stepId with
  | none => if item.Startable then none else some "new steps must start pending"
  | some old =>
      if old.status = .succeeded ∨ item.Startable then none
      else some "unstarted steps cannot be completed by replan"

/-- A step that has succeeded has an equal step in a plan. -/
def KeptBy (steps : Plan) (old : PlanStep) : Prop :=
  ∃ new ∈ steps.find? (fun step => step.stepId = old.stepId), new.Equal old

instance (steps : Plan) (old : PlanStep) : Decidable (KeptBy steps old) :=
  inferInstanceAs (Decidable (∃ new ∈ _, _))

/-- `replan`. -/
def replan (now : Instant) (s : WorkflowState) (steps : Plan) (reason : ReplanReason) :
    Result WorkflowState := do
  ensureNotExpired I now s
  validatePlanDag steps
  if ¬∀ old ∈ s.steps, old.status = .succeeded → KeptBy steps old then
    .error (.workflowError "PLAN_CONFLICT" "completed steps cannot be modified")
  else if ∃ item ∈ steps, item.status = .running then
    .error (.workflowError "PLAN_CONFLICT" "replacement plan cannot contain running steps")
  else
    match steps.findSome? (replanConflict s) with
    | some detail => .error (.workflowError "PLAN_CONFLICT" detail)
    | none =>
        .ok { s with
          steps := steps
          planVersion := s.planVersion + 1
          revision := s.revision + 1
          status := .running
          currentStepId := none
          clarification := none
          replanReason := some reason
          stopReason := none }

/-- `cancel`. -/
def cancel (s : WorkflowState) (detail : Text) : Result WorkflowState :=
  if s.status.Terminal then .error (.workflowError "WORKFLOW_CONFLICT" "workflow is terminal")
  else
    .ok { s with
      status := .cancelled
      stopReason := some (detail.take 500)
      revision := s.revision + 1
      clarification := none }

/-- `expire`. -/
def expire (s : WorkflowState) : WorkflowState :=
  if s.status.Terminal then s
  else
    { s with
      status := .expired
      stopReason := some "workflow deadline expired"
      revision := s.revision + 1
      clarification := none }

/-- `is_expired`. -/
def isExpired (now : Instant) (s : WorkflowState) : Result Bool := do
  let deadline ← parseDeadline I s.deadline
  .ok (decide (deadline ≤ now.microseconds))

end

/-! ## Runs -/

/-- A call of the engine, with the readings of the clock it makes. -/
inductive EngineCall where
  | start (now : Instant)
  | beginStep (now : Instant) (stepId : Text)
  | waitForGovernedAction (now : Instant) (stepId : Text)
  | completeGovernedAction (now stamp : Instant) (stepId observationDigest : Text)
  | completeStep (now stamp : Instant) (observation : Observation)
  | failStep (now : Instant) (code detail : Text)
  | interrupt (now : Instant) (request : ClarificationRequest)
  | resume (now stamp : Instant) (interruptId : Uuid) (answer : Text)
  | replan (now : Instant) (steps : Plan) (reason : ReplanReason)
  | cancel (detail : Text)
  | expire

/-- What a call returns. -/
def EngineCall.run (I : Interpreter) (s : WorkflowState) : EngineCall → Result WorkflowState
  | .start now => Workflow.start I now s
  | .beginStep now stepId => Workflow.beginStep I now s stepId
  | .waitForGovernedAction now stepId => Workflow.waitForGovernedAction I now s stepId
  | .completeGovernedAction now stamp stepId digest =>
      Workflow.completeGovernedAction I now stamp s stepId digest
  | .completeStep now stamp observation => Workflow.completeStep I now stamp s observation
  | .failStep now code detail => Workflow.failStep I now s code detail
  | .interrupt now request => Workflow.interrupt I now s request
  | .resume now stamp interruptId answer => Workflow.resume I now stamp s interruptId answer
  | .replan now steps reason => Workflow.replan I now s steps reason
  | .cancel detail => Workflow.cancel s detail
  | .expire => .ok (Workflow.expire s)

/-- A call that returns a state. -/
def EngineStep (I : Interpreter) (s : WorkflowState) (call : EngineCall) (s' : WorkflowState) :
    Prop :=
  call.run I s = .ok s'

end Workflow
