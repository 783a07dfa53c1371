import SynoraErp.Workflow.Engine

/-!
# What the engine's operations do

One lemma an operation: the guards a successful call has passed and the state it
returns. What is proved of the engine later rests on these and opens no operation
again.
-/

namespace Workflow

open Python
open Governance (Uuid)

/-! ## Plans -/

/-- A change that leaves the name, the place and the dependencies of a step. -/
structure KeepsPlace (update : PlanStep → PlanStep) : Prop where
  stepId : ∀ step, (update step).stepId = step.stepId
  order : ∀ step, (update step).order = step.order
  dependsOn : ∀ step, (update step).dependsOn = step.dependsOn

theorem keepsPlace_withStatus (status : StepStatus) : KeepsPlace (.withStatus status) :=
  ⟨fun _ => rfl, fun _ => rfl, fun _ => rfl⟩

theorem keepsPlace_complete (digest : Text) (stamp : Instant) :
    KeepsPlace (.complete digest stamp) :=
  ⟨fun _ => rfl, fun _ => rfl, fun _ => rfl⟩

theorem keepsPlace_fail (error : Text) : KeepsPlace (.fail error) :=
  ⟨fun _ => rfl, fun _ => rfl, fun _ => rfl⟩

theorem mem_doneIds {steps : Plan} {d : Text} :
    d ∈ doneIds steps ↔ ∃ step ∈ steps, step.status = .succeeded ∧ step.stepId = d := by
  simp [doneIds, stepIds, and_assoc]

section UpdateStep

variable {steps : Plan} {stepId : Text} {update : PlanStep → PlanStep}

theorem map_updateStep {β : Type} (f : PlanStep → β) (hf : ∀ step, f (update step) = f step) :
    (updateStep steps stepId update).map f = steps.map f := by
  rw [updateStep, List.map_map]
  refine List.map_congr_left fun step _ => ?_
  by_cases hid : step.stepId = stepId
  · simp [hid, hf]
  · simp [hid]

theorem length_updateStep : (updateStep steps stepId update).length = steps.length := by
  simp [updateStep]

theorem stepIds_updateStep (h : KeepsPlace update) :
    stepIds (updateStep steps stepId update) = stepIds steps :=
  map_updateStep _ h.stepId

theorem mem_updateStep {x : PlanStep} :
    x ∈ updateStep steps stepId update ↔
      ∃ y ∈ steps, (if y.stepId = stepId then update y else y) = x :=
  List.mem_map

/-- A step of another name is kept. -/
theorem mem_updateStep_of_ne {x : PlanStep} (hx : x ∈ steps) (hne : x.stepId ≠ stepId) :
    x ∈ updateStep steps stepId update :=
  mem_updateStep.mpr ⟨x, hx, by rw [if_neg hne]⟩

theorem find?_updateStep (h : KeepsPlace update) (id : Text) :
    (updateStep steps stepId update).find? (fun step => step.stepId = id) =
      (steps.find? fun step => step.stepId = id).map fun step =>
        if step.stepId = stepId then update step else step := by
  rw [updateStep, List.find?_map]
  congr 2
  refine funext fun step => ?_
  simp only [Function.comp_apply]
  by_cases hid : step.stepId = stepId
  · simp [hid, h.stepId]
  · simp [hid]

theorem dependencyGraph_updateStep (h : KeepsPlace update) :
    dependencyGraph (updateStep steps stepId update) = dependencyGraph steps := by
  refine funext fun id => ?_
  rw [dependencyGraph, dependencyGraph, find?_updateStep h, Option.map_map]
  congr 2
  refine funext fun step => ?_
  simp only [Function.comp_apply]
  by_cases hid : step.stepId = stepId
  · simp [hid, h.dependsOn]
  · simp [hid]

/-- The shape of the plan is kept. -/
theorem PlanDag.updateStep (h : PlanDag steps) (hkeeps : KeepsPlace update) :
    PlanDag (updateStep steps stepId update) := by
  have hids : stepIds (Workflow.updateStep steps stepId update) = stepIds steps :=
    stepIds_updateStep hkeeps
  refine ⟨by rw [hids]; exact h.nodup, ?_, fun step hstep d hd => ?_, ?_⟩
  · rw [map_updateStep _ hkeeps.order, length_updateStep]
    exact h.orders
  · obtain ⟨old, hold, rfl⟩ := mem_updateStep.mp hstep
    rw [hids]
    refine h.known old hold d ?_
    by_cases hid : old.stepId = stepId
    · rwa [if_pos hid, hkeeps.dependsOn] at hd
    · rwa [if_neg hid] at hd
  · rw [dependencyGraph_updateStep hkeeps, hids]
    exact h.acyclic

/-- Of a plan with names of their own, the step that is changed and the others. -/
theorem PlanDag.mem_updateStep (h : PlanDag steps) {step : PlanStep} (hstep : step ∈ steps)
    {x : PlanStep} (hx : x ∈ Workflow.updateStep steps step.stepId update) :
    x = update step ∨ x ∈ steps ∧ x.stepId ≠ step.stepId := by
  obtain ⟨y, hy, rfl⟩ := Workflow.mem_updateStep.mp hx
  by_cases hid : y.stepId = step.stepId
  · rw [if_pos hid, h.eq_of_stepId_eq hy hstep hid]
    exact Or.inl rfl
  · rw [if_neg hid]
    exact Or.inr ⟨hy, hid⟩

theorem mem_updateStep_self {step : PlanStep} (hstep : step ∈ steps) :
    update step ∈ updateStep steps step.stepId update :=
  mem_updateStep.mpr ⟨step, hstep, if_pos rfl⟩

theorem replaceStep_eq_ok {steps' : Plan} (h : replaceStep steps stepId update = .ok steps') :
    steps' = updateStep steps stepId update := by
  rw [replaceStep, Except.ite_error_eq_ok] at h
  exact (Except.ok.inj h.2).symm

end UpdateStep

/-- What makes a step the next one. -/
theorem nextStep_eq_some {steps : Plan} {step : PlanStep} (h : nextStep steps = some step) :
    step ∈ steps ∧ step.Startable ∧ ∀ d ∈ step.dependsOn, d ∈ doneIds steps := by
  have hfound := List.find?_some h
  rw [decide_eq_true_iff] at hfound
  exact ⟨List.mem_of_find?_eq_some h, hfound⟩

/-! ## Operations -/

section Operations

variable {I : Interpreter} {now stamp : Instant} {s s' : WorkflowState}

theorem ensureRunning_eq_ok {u : Unit} (h : ensureRunning I now s = .ok u) :
    s.status = .running := by
  simp only [ensureRunning, Except.bind_eq_ok, Except.ite_error_eq_ok, not_not] at h
  obtain ⟨-, -, hstatus, -⟩ := h
  exact hstatus

/-- A ready step of a running workflow: its current step, if there is one, is not under
way. -/
theorem readyStep_eq_some {step : PlanStep} (h : readyStep s = .ok (some step)) :
    s.status = .running ∧ nextStep s.steps = some step ∧
      ∀ id, s.currentStepId = some id → ∃ current, s.getStep id = .ok current ∧ ¬current.Active := by
  unfold readyStep at h
  split_ifs at h with hstatus
  · cases h
  · rw [not_not] at hstatus
    split at h
    · next hcurrent =>
        refine ⟨hstatus, Except.ok.inj h, fun id hid => ?_⟩
        rw [hcurrent] at hid
        cases hid
    · next id hcurrent =>
        obtain ⟨current, hget, hnext⟩ := Except.bind_eq_ok.mp h
        have hnext := Except.ok.inj hnext
        split_ifs at hnext with hactive
        refine ⟨hstatus, hnext, fun id' hid' => ?_⟩
        rw [hcurrent, Option.some.injEq] at hid'
        exact ⟨current, hid' ▸ hget, hactive⟩

/-- `create_state` keeps the plan it accepts. -/
theorem createState_eq_ok {runId traceId : Uuid} {steps : Plan} {deadline : Text}
    (h : createState I runId traceId steps deadline = .ok s) :
    validatePlanDag steps = .ok () ∧ (steps ≠ [] ∧ steps.length ≤ 256) ∧
      (deadline ≠ [] ∧ deadline.length ≤ 64) ∧ (∃ d, parseDeadline I deadline = .ok d) ∧
      s = { runId := runId, revision := 0, planVersion := 1, graphVersion := "workflow-v1",
            status := .ready, currentStepId := none, steps := steps, clarification := none,
            replanReason := none, budget := .default, deadline := deadline, traceId := traceId,
            stopReason := none, crashRecovered := false } := by
  simp only [createState, Except.bind_eq_ok, Except.ite_error_eq_ok, not_or, Except.ok.injEq,
    not_lt] at h
  obtain ⟨u, hdag, ⟨hsteps, hlength, hdeadline, hdeadlineLength⟩, d, hd, hs⟩ := h
  exact ⟨hdag, ⟨hsteps, hlength⟩, ⟨hdeadline, hdeadlineLength⟩, ⟨d, hd⟩, hs.symm⟩

theorem start_eq_ok (h : start I now s = .ok s') :
    s.status = .ready ∧ ∃ step, readyStep { s with status := .running } = .ok (some step) ∧
      s' = { s with
        status := .running
        steps := updateStep s.steps step.stepId (.withStatus .ready)
        revision := s.revision + 1 } := by
  simp only [start, Except.bind_eq_ok, Except.ite_error_eq_ok, not_not] at h
  obtain ⟨-, -, hstatus, ready, hready, h⟩ := h
  cases ready with
  | none => cases h
  | some step =>
      obtain ⟨steps, hsteps, h⟩ := Except.bind_eq_ok.mp h
      obtain rfl := replaceStep_eq_ok hsteps
      exact ⟨hstatus, step, hready, (Except.ok.inj h).symm⟩

theorem beginStep_eq_ok {stepId : Text} (h : beginStep I now s stepId = .ok s') :
    ∃ step, readyStep s = .ok (some step) ∧ step.stepId = stepId ∧
      s' = { s with
        currentStepId := some stepId
        steps := updateStep s.steps stepId (.withStatus .running)
        revision := s.revision + 1 } := by
  simp only [beginStep, Except.bind_eq_ok, Except.ite_error_eq_ok, not_or, not_not] at h
  obtain ⟨-, -, -, -, ready, hready, ⟨-, hid⟩, steps, hsteps, h⟩ := h
  obtain rfl := replaceStep_eq_ok hsteps
  obtain ⟨step, rfl, rfl⟩ := Option.map_eq_some_iff.mp hid
  exact ⟨step, hready, rfl, (Except.ok.inj h).symm⟩

theorem waitForGovernedAction_eq_ok {stepId : Text}
    (h : waitForGovernedAction I now s stepId = .ok s') :
    s.status = .running ∧ ∃ step, s.getStep stepId = .ok step ∧ step.status = .running ∧
      step.type = .governedAction ∧
      s' = { s with
        steps := updateStep s.steps stepId (.withStatus .waiting)
        currentStepId := some stepId
        revision := s.revision + 1 } := by
  simp only [waitForGovernedAction, Except.bind_eq_ok, Except.ite_error_eq_ok, not_or,
    not_not] at h
  obtain ⟨u, hrunning, step, hget, ⟨hstatus, htype⟩, steps, hsteps, h⟩ := h
  obtain rfl := replaceStep_eq_ok hsteps
  exact ⟨ensureRunning_eq_ok hrunning, step, hget, hstatus, htype, (Except.ok.inj h).symm⟩

theorem completeGovernedAction_eq_ok {stepId digest : Text}
    (h : completeGovernedAction I now stamp s stepId digest = .ok s') :
    s.status = .running ∧ isDigest digest = true ∧ ∃ step, s.getStep stepId = .ok step ∧
      step.status = .waiting ∧ step.type = .governedAction ∧
      s' = afterCompletion s (updateStep s.steps stepId (.complete digest stamp))
        "governed action Receipt recorded" := by
  simp only [completeGovernedAction, Except.bind_eq_ok, Except.ite_error_eq_ok, not_or, not_not,
    Bool.not_eq_false] at h
  obtain ⟨u, hrunning, hdigest, step, hget, ⟨hstatus, htype⟩, h⟩ := h
  exact ⟨ensureRunning_eq_ok hrunning, hdigest, step, hget, hstatus, htype,
    (Except.ok.inj h).symm⟩

theorem runningStep_eq_ok {step : PlanStep} (h : runningStep s = .ok step) :
    step ∈ s.steps ∧ s.currentStepId = some step.stepId := by
  unfold runningStep at h
  split at h
  · cases h
  · next id hcurrent =>
      obtain ⟨hmem, hid⟩ := WorkflowState.getStep_eq_ok h
      exact ⟨hmem, by rw [hcurrent, hid]⟩

theorem completeStep_eq_ok {observation : Observation}
    (h : completeStep I now stamp s observation = .ok s') :
    s.status = .running ∧ ∃ step, runningStep s = .ok step ∧ step.status = .running ∧
      step.toolName = some observation.toolName ∧
      s' = afterCompletion s (updateStep s.steps step.stepId (.complete observation.digest stamp))
        "workflow completed" := by
  simp only [completeStep, Except.bind_eq_ok, Except.ite_error_eq_ok, not_or, not_not] at h
  obtain ⟨u, hrunning, step, hstep, ⟨hstatus, htool⟩, h⟩ := h
  exact ⟨ensureRunning_eq_ok hrunning, step, hstep, hstatus, htool, (Except.ok.inj h).symm⟩

theorem failStep_eq_ok {code detail : Text} (h : failStep I now s code detail = .ok s') :
    s.status = .running ∧ ∃ step, runningStep s = .ok step ∧ step.status = .running ∧
      s' = { s with
        steps := updateStep s.steps step.stepId (.fail (failure code detail))
        status := .failed
        currentStepId := some step.stepId
        stopReason := some (failure code detail)
        revision := s.revision + 1 } := by
  simp only [failStep, Except.bind_eq_ok, Except.ite_error_eq_ok, not_not] at h
  obtain ⟨u, hrunning, step, hstep, hstatus, h⟩ := h
  exact ⟨ensureRunning_eq_ok hrunning, step, hstep, hstatus, (Except.ok.inj h).symm⟩

theorem interrupt_eq_ok {request : ClarificationRequest} (h : interrupt I now s request = .ok s') :
    s.status = .running ∧ ∃ step, runningStep s = .ok step ∧ step.status = .running ∧
      s' = { s with
        steps := updateStep s.steps step.stepId (.withStatus .waiting)
        status := .interrupted
        clarification := some request
        revision := s.revision + 1 } := by
  simp only [interrupt, Except.bind_eq_ok, Except.ite_error_eq_ok, not_not] at h
  obtain ⟨u, hrunning, step, hstep, hstatus, steps, hsteps, h⟩ := h
  obtain rfl := replaceStep_eq_ok hsteps
  exact ⟨ensureRunning_eq_ok hrunning, step, hstep, hstatus, (Except.ok.inj h).symm⟩

theorem acknowledgeRecovery_eq_ok {answer : Text} (h : acknowledgeRecovery s answer = .ok s') :
    answer = Text.ofString "inspect" ∧ ∃ stepId, s.currentStepId = some stepId ∧
      s' = { s with
        status := .failed
        steps := updateStep s.steps stepId (.fail manualRecovery)
        clarification := none
        stopReason := some manualRecovery
        replanReason := some .stateDrift
        revision := s.revision + 1 } := by
  rw [acknowledgeRecovery, Except.ite_error_eq_ok, not_not] at h
  obtain ⟨hanswer, h⟩ := h
  split at h
  · cases h
  · next stepId hcurrent =>
      obtain ⟨failed, hfailed, h⟩ := Except.bind_eq_ok.mp h
      obtain rfl := replaceStep_eq_ok hfailed
      exact ⟨hanswer, stepId, hcurrent, (Except.ok.inj h).symm⟩

theorem acceptAnswer_eq_ok (h : acceptAnswer stamp s = .ok s') :
    s' = { s with
      status := .running
      steps := updateStep s.steps (s.currentStepId.getD []) (.complete acceptedDigest stamp)
      currentStepId := none
      clarification := none
      replanReason := some .inputClarified
      revision := s.revision + 1 } := by
  obtain ⟨steps, hsteps, h⟩ := Except.bind_eq_ok.mp h
  obtain rfl := replaceStep_eq_ok hsteps
  exact (Except.ok.inj h).symm

/-- An answer is taken for the question that is current. A workflow that a recovery
interrupted is ended, any other goes on. -/
theorem resume_eq_ok {interruptId : Uuid} {answer : Text}
    (h : resume I now stamp s interruptId answer = .ok s') :
    s.status = .interrupted ∧ ∃ request, s.clarification = some request ∧
      request.interruptId = interruptId ∧ checkAnswer request answer = .ok () ∧
      ((s.crashRecovered = true ∧ acknowledgeRecovery s answer = .ok s') ∨
        (s.crashRecovered = false ∧ acceptAnswer stamp s = .ok s')) := by
  simp only [resume, Except.bind_eq_ok, Except.ite_error_eq_ok, not_not] at h
  obtain ⟨-, -, hstatus, h⟩ := h
  split at h
  · cases h
  · next request hrequest =>
      rw [Except.ite_error_eq_ok, not_not] at h
      obtain ⟨hid, h⟩ := h
      obtain ⟨u, hanswer, h⟩ := Except.bind_eq_ok.mp h
      refine ⟨hstatus, request, hrequest, hid, hanswer, ?_⟩
      split_ifs at h with hrecovered
      · exact Or.inl ⟨hrecovered, h⟩
      · exact Or.inr ⟨by simpa using hrecovered, h⟩

theorem replan_eq_ok {steps : Plan} {reason : ReplanReason}
    (h : replan I now s steps reason = .ok s') :
    validatePlanDag steps = .ok () ∧ (∀ old ∈ s.steps, old.status = .succeeded → KeptBy steps old) ∧
      (∀ item ∈ steps, replanConflict s item = none) ∧
      s' = { s with
        steps := steps
        planVersion := s.planVersion + 1
        revision := s.revision + 1
        status := .running
        currentStepId := none
        clarification := none
        replanReason := some reason
        stopReason := none } := by
  simp only [replan, Except.bind_eq_ok, Except.ite_error_eq_ok, not_not] at h
  obtain ⟨-, -, u, hdag, hkept, -, h⟩ := h
  split at h
  · cases h
  · next hnone => exact ⟨hdag, hkept, List.findSome?_eq_none_iff.mp hnone, (Except.ok.inj h).symm⟩

theorem cancel_eq_ok {detail : Text} (h : cancel s detail = .ok s') :
    ¬s.status.Terminal ∧
      s' = { s with
        status := .cancelled
        stopReason := some (detail.take 500)
        revision := s.revision + 1
        clarification := none } := by
  rw [cancel, Except.ite_error_eq_ok] at h
  exact ⟨h.1, (Except.ok.inj h.2).symm⟩

end Operations

/-- The fields no operation on a step touches. -/
structure SameFrame (s s' : WorkflowState) : Prop where
  planVersion : s'.planVersion = s.planVersion
  graphVersion : s'.graphVersion = s.graphVersion
  budget : s'.budget = s.budget
  deadline : s'.deadline = s.deadline

/-! ## A plan of one read -/

theorem exampleRun_canonical :
    Governance.isCanonicalUuid "00000000-0000-4000-8000-000000000001" = true := by decide

def exampleRun : Uuid := ⟨"00000000-0000-4000-8000-000000000001", exampleRun_canonical⟩

def exampleDeadline : Text := "2030-01-01T00:00:00+00:00"

/-- A read of the open material requests. -/
def openRequests : PlanStep where
  stepId := "open-material-requests"
  order := 1
  type := .tool
  dependsOn := []
  allowedTools := [.materialRequestOpen]
  toolName := some .materialRequestOpen
  clarification := none
  governedAction := none
  parameters := .empty
  status := .pending
  observationDigest := none
  error := none
  completedAt := none

/-- The state a plan of the example starts in. -/
def initialState (steps : Plan) : WorkflowState where
  runId := exampleRun
  revision := 0
  planVersion := 1
  graphVersion := "workflow-v1"
  status := .ready
  currentStepId := none
  steps := steps
  clarification := none
  replanReason := none
  budget := .default
  deadline := exampleDeadline
  traceId := exampleRun
  stopReason := none
  crashRecovered := false

theorem createState_of_toBool {I : Interpreter} {steps : Plan}
    (h : (createState I exampleRun exampleRun steps exampleDeadline).toBool = true) :
    createState I exampleRun exampleRun steps exampleDeadline = .ok (initialState steps) := by
  cases hcreate : createState I exampleRun exampleRun steps exampleDeadline with
  | ok s =>
      obtain ⟨-, -, -, -, rfl⟩ := createState_eq_ok hcreate
      rfl
  | error e =>
      rw [hcreate] at h
      cases h

theorem createState_openRequests :
    createState Interpreter.ascii exampleRun exampleRun [openRequests] exampleDeadline =
      .ok (initialState [openRequests]) :=
  createState_of_toBool (by decide)

end Workflow
