import SynoraErp.Workflow.CheckpointRoundTrip
import SynoraErp.Workflow.Schedule

/-!
# The stages of a workflow

A workflow whose steps all come to their end goes through the stages of its plan: it is
ready, between two steps, in a step, waiting for a receipt or for an answer, or over.
Every operation of the engine that moves it on leaves fewer stages ahead, and what it
leaves can be stored and read back.
-/

namespace Workflow

open Python

/-! ## Steps that can be passed -/

/-- A step the runtime can bring to its end: it hands tools to the adapter up to step 64
and finalize steps not at all, and a question needs an answer it admits. -/
structure PlanStep.Passable (step : PlanStep) : Prop where
  finalize : step.type ≠ .finalize
  order_le : step.type = .tool → step.order ≤ 64
  answerable : ∀ r ∈ step.clarification, ∃ answer, checkAnswer r answer = .ok ()

theorem PlanStep.Passable.of_declared {a b : PlanStep} (h : a.Passable)
    (hdeclared : a.declared = b.declared) : b.Passable := by
  have hb : b.declared.Passable := hdeclared ▸ ⟨h.finalize, h.order_le, h.answerable⟩
  exact ⟨hb.finalize, hb.order_le, hb.answerable⟩

/-! ## Stages -/

/-- No step is under way and some are left. -/
structure Between (P : Plan) (done : List Text) (rest : List PlanStep) (s : WorkflowState) :
    Prop where
  tracks : Tracks P done none s.steps
  remaining : Remaining P done rest
  rest_ne : rest ≠ []

/-- A step is under way, and what is left after it. -/
structure Busy (P : Plan) (done : List Text) (step : PlanStep) (moving : StepStatus)
    (rest : List PlanStep) (s : WorkflowState) : Prop where
  mem : step ∈ s.steps
  current : s.currentStepId = some step.stepId
  tracks : Tracks P done (some (step.stepId, moving)) s.steps
  notDone : step.stepId ∉ done
  remaining : Remaining P (step.stepId :: done) rest
  last : rest = [] → step.type ≠ .clarification

/-- A stage of a plan, and how many changes of the state are at most ahead. -/
inductive Stage (P : Plan) (s : WorkflowState) : ℕ → Prop
  | ready (rest : List PlanStep) (status : s.status = .ready) (current : s.currentStepId = none)
      (between : Between P [] rest s) : Stage P s (3 * rest.length + 2)
  | idle (done : List Text) (rest : List PlanStep) (status : s.status = .running)
      (between : Between P done rest s) : Stage P s (3 * rest.length + 1)
  | active (done : List Text) (step : PlanStep) (rest : List PlanStep) (status : s.status = .running)
      (busy : Busy P done step .running rest s) : Stage P s (3 * rest.length + 3)
  | waiting (done : List Text) (step : PlanStep) (rest : List PlanStep)
      (status : s.status = .running) (busy : Busy P done step .waiting rest s)
      (type : step.type = .governedAction) : Stage P s (3 * rest.length + 2)
  | interrupted (done : List Text) (step : PlanStep) (rest : List PlanStep)
      (status : s.status = .interrupted) (busy : Busy P done step .waiting rest s)
      (question : s.clarification = step.clarification) : Stage P s (3 * rest.length + 2)
  | succeeded (status : s.status = .succeeded) (current : s.currentStepId = none) : Stage P s 0

section Stages

variable {P : Plan} {s : WorkflowState} {done : List Text} {rest : List PlanStep} {step : PlanStep}
  {moving : StepStatus}

theorem Busy.status (h : Busy P done step moving rest s) : step.status = moving := by
  have hstands := h.tracks.stands step h.mem
  rwa [Stands, if_neg h.notDone, if_pos rfl] at hstands

theorem Busy.mem_plan (h : Busy P done step moving rest s) : step.stepId ∈ stepIds P :=
  h.tracks.stepIds_eq ▸ List.mem_map_of_mem h.mem

theorem getStep_of_mem (hdag : PlanDag s.steps) (hstep : step ∈ s.steps) :
    s.getStep step.stepId = .ok step := by
  obtain ⟨found, hfound⟩ : ∃ found, s.steps.find? (fun x => x.stepId = step.stepId) = some found :=
    Option.isSome_iff_exists.mp (List.find?_isSome.mpr ⟨step, hstep, by simp⟩)
  have hid : found.stepId = step.stepId := by simpa using List.find?_some hfound
  have heq := hdag.eq_of_stepId_eq (List.mem_of_find?_eq_some hfound) hstep hid
  simp only [WorkflowState.getStep, hfound, heq]

theorem replaceStep_of_mem {steps : Plan} {update : PlanStep → PlanStep} (hstep : step ∈ steps) :
    replaceStep steps step.stepId update = .ok (updateStep steps step.stepId update) := by
  rw [replaceStep, if_neg (not_not.mpr (mem_stepIds hstep))]

theorem Between.not_active (h : Between P done rest s) (hstep : step ∈ s.steps) : ¬step.Active := by
  have hstands := h.tracks.stands step hstep
  unfold Stands at hstands
  split_ifs at hstands
  · simp [PlanStep.Active, hstands]
  · rcases hstands with hstatus | hstatus <;> simp [PlanStep.Active, hstatus]

/-- Between two steps the engine has a step to begin: the first of those left. -/
theorem Between.exists_readyStep (h : Between P done rest s) (hdag : PlanDag s.steps)
    (hstatus : s.status = .running) (hcurrent : ∀ id ∈ s.currentStepId, id ∈ stepIds s.steps) :
    ∃ ready next, readyStep s = .ok (some ready) ∧ ready ∈ s.steps ∧ ready.stepId ∉ done ∧
      ready.Startable ∧ Remaining P (ready.stepId :: done) next ∧
      (next = [] → ready.type ≠ .clarification) ∧ rest.length = next.length + 1 := by
  have hremaining := h.remaining
  cases hremaining with
  | nil _ all => exact absurd rfl h.rest_ne
  | cons _ step next chosen last remaining =>
      have hnext := h.tracks.nextStep
      rw [chosen, Option.map_some, Option.map_eq_some_iff] at hnext
      obtain ⟨ready, hready, hdeclared⟩ := hnext
      have hid : ready.stepId = step.stepId := congrArg (fun x => x.stepId) hdeclared
      have htype : ready.type = step.type := congrArg (fun x => x.type) hdeclared
      obtain ⟨hmem, hstartable, -⟩ := nextStep_eq_some hready
      refine ⟨ready, next, ?_, hmem, hid ▸ (chooseNext_eq_some chosen).2.1, hstartable,
        hid ▸ remaining, fun hnil => htype ▸ last hnil, rfl⟩
      unfold readyStep
      rw [if_neg (not_not.mpr hstatus)]
      split
      · rw [hready]
      · next id hsome =>
          obtain ⟨current, hcurrentMem, rfl⟩ := List.mem_map.mp (hcurrent id hsome)
          simp [getStep_of_mem hdag hcurrentMem, h.not_active hcurrentMem, hready]

/-- The step that begins is under way. -/
theorem Between.begin (h : Between P done rest s) {ready : PlanStep} {next : List PlanStep}
    (hmem : ready ∈ s.steps) (hnotDone : ready.stepId ∉ done)
    (hremaining : Remaining P (ready.stepId :: done) next)
    (hlast : next = [] → ready.type ≠ .clarification) {s' : WorkflowState}
    (hsteps : s'.steps = updateStep s.steps ready.stepId (.withStatus .running))
    (hcurrent : s'.currentStepId = some ready.stepId) :
    Busy P done (ready.withStatus .running) .running next s' := by
  refine ⟨?_, hcurrent, ?_, hnotDone, hremaining, hlast⟩
  · rw [hsteps]
    exact mem_updateStep_self hmem
  · rw [hsteps]
    exact h.tracks.begin hnotDone

/-- The step that waits is under way. -/
theorem Busy.wait (h : Busy P done step .running rest s) {s' : WorkflowState}
    (hsteps : s'.steps = updateStep s.steps step.stepId (.withStatus .waiting))
    (hcurrent : s'.currentStepId = some step.stepId) :
    Busy P done (step.withStatus .waiting) .waiting rest s' := by
  refine ⟨?_, hcurrent, ?_, h.notDone, h.remaining, h.last⟩
  · rw [hsteps]
    exact mem_updateStep_self h.mem
  · rw [hsteps]
    exact h.tracks.wait h.notDone

/-- After a step the workflow is over or between two steps. -/
theorem Busy.afterCompletion (h : Busy P done step moving rest s) (hstatus : s.status = .running)
    (digest : Text) (stamp : Instant) (reason : Text) {s' : WorkflowState}
    (hs' : s' = afterCompletion s (updateStep s.steps step.stepId (.complete digest stamp)) reason) :
    (s'.status = .succeeded ∧ s'.currentStepId = none) ∨
      s'.status = .running ∧ Between P (step.stepId :: done) rest s' := by
  have htracks := h.tracks.complete h.mem_plan digest stamp
  rw [Workflow.afterCompletion] at hs'
  cases h.remaining with
  | nil _ all =>
      rw [if_pos (htracks.all_succeeded_iff.mpr all)] at hs'
      subst hs'
      exact Or.inl ⟨rfl, rfl⟩
  | cons _ next rest chosen last remaining =>
      have hnot : ¬∀ x ∈ updateStep s.steps step.stepId (.complete digest stamp),
          x.status = .succeeded ∨ x.status = .skipped := fun hall => by
        obtain ⟨hmem, hnotDone, -⟩ := chooseNext_eq_some chosen
        exact hnotDone (htracks.all_succeeded_iff.mp hall next hmem)
      rw [if_neg hnot] at hs'
      subst hs'
      exact Or.inr ⟨hstatus, htracks, .cons _ next rest chosen last remaining, List.cons_ne_nil _ _⟩

/-- A step is left after an answer. -/
theorem Busy.acceptAnswer (h : Busy P done step .waiting rest s)
    (htype : step.type = .clarification) (stamp : Instant) {s' : WorkflowState}
    (hsteps : s'.steps = updateStep s.steps step.stepId (.complete acceptedDigest stamp)) :
    Between P (step.stepId :: done) rest s' :=
  ⟨hsteps ▸ h.tracks.complete h.mem_plan acceptedDigest stamp, h.remaining,
    fun hnil => h.last hnil htype⟩

end Stages

/-! ## Operations before the deadline -/

section Operations

variable {I : Interpreter} {now stamp : Instant} {s : WorkflowState} {step : PlanStep}

/-- A reading of the clock before a deadline. -/
def InTime (I : Interpreter) (deadline : Text) (now : Instant) : Prop :=
  ∃ d, parseDeadline I deadline = .ok d ∧ now.microseconds < d

theorem InTime.ensureNotExpired (h : InTime I s.deadline now) : ensureNotExpired I now s = .ok () := by
  obtain ⟨d, hd, hlt⟩ := h
  simp [Workflow.ensureNotExpired, hd, not_le.mpr hlt]

theorem InTime.ensureRunning (h : InTime I s.deadline now) (hstatus : s.status = .running) :
    ensureRunning I now s = .ok () := by
  simp [Workflow.ensureRunning, h.ensureNotExpired, hstatus]

theorem InTime.start (h : InTime I s.deadline now) (hstatus : s.status = .ready)
    (hready : readyStep { s with status := .running } = .ok (some step)) (hstep : step ∈ s.steps) :
    start I now s = .ok { s with
      status := .running
      steps := updateStep s.steps step.stepId (.withStatus .ready)
      revision := s.revision + 1 } := by
  simp [Workflow.start, h.ensureNotExpired, hstatus, hready, replaceStep_of_mem hstep]

theorem InTime.beginStep (h : InTime I s.deadline now) (hstatus : s.status = .running)
    (hdag : PlanDag s.steps) (hready : readyStep s = .ok (some step)) (hstep : step ∈ s.steps)
    (hstartable : step.Startable) :
    beginStep I now s step.stepId = .ok { s with
      currentStepId := some step.stepId
      steps := updateStep s.steps step.stepId (.withStatus .running)
      revision := s.revision + 1 } := by
  simp [Workflow.beginStep, h.ensureRunning hstatus, getStep_of_mem hdag hstep, hready, hstartable,
    replaceStep_of_mem hstep]

theorem InTime.waitForGovernedAction (h : InTime I s.deadline now) (hstatus : s.status = .running)
    (hdag : PlanDag s.steps) (hstep : step ∈ s.steps) (hrunning : step.status = .running)
    (htype : step.type = .governedAction) :
    waitForGovernedAction I now s step.stepId = .ok { s with
      steps := updateStep s.steps step.stepId (.withStatus .waiting)
      currentStepId := some step.stepId
      revision := s.revision + 1 } := by
  simp [Workflow.waitForGovernedAction, h.ensureRunning hstatus, getStep_of_mem hdag hstep, hrunning,
    htype, replaceStep_of_mem hstep]

theorem InTime.completeGovernedAction (h : InTime I s.deadline now) (hstatus : s.status = .running)
    (hdag : PlanDag s.steps) (hstep : step ∈ s.steps) (hwaiting : step.status = .waiting)
    (htype : step.type = .governedAction) {digest : Text} (hdigest : isDigest digest = true) :
    completeGovernedAction I now stamp s step.stepId digest =
      .ok (afterCompletion s (updateStep s.steps step.stepId (.complete digest stamp))
        "governed action Receipt recorded") := by
  simp [Workflow.completeGovernedAction, h.ensureRunning hstatus, getStep_of_mem hdag hstep, hwaiting,
    htype, hdigest]

theorem runningStep_of_current (hdag : PlanDag s.steps) (hstep : step ∈ s.steps)
    (hcurrent : s.currentStepId = some step.stepId) : runningStep s = .ok step := by
  simp only [runningStep, hcurrent, getStep_of_mem hdag hstep]

theorem InTime.completeStep (h : InTime I s.deadline now) (hstatus : s.status = .running)
    (hdag : PlanDag s.steps) (hstep : step ∈ s.steps)
    (hcurrent : s.currentStepId = some step.stepId) (hrunning : step.status = .running)
    {observation : Observation} (htool : step.toolName = some observation.toolName) :
    completeStep I now stamp s observation =
      .ok (afterCompletion s
        (updateStep s.steps step.stepId (.complete observation.digest stamp)) "workflow completed") := by
  simp [Workflow.completeStep, h.ensureRunning hstatus, runningStep_of_current hdag hstep hcurrent,
    hrunning, htool]

theorem InTime.interrupt (h : InTime I s.deadline now) (hstatus : s.status = .running)
    (hdag : PlanDag s.steps) (hstep : step ∈ s.steps)
    (hcurrent : s.currentStepId = some step.stepId) (hrunning : step.status = .running)
    (request : ClarificationRequest) :
    interrupt I now s request = .ok { s with
      steps := updateStep s.steps step.stepId (.withStatus .waiting)
      status := .interrupted
      clarification := some request
      revision := s.revision + 1 } := by
  simp [Workflow.interrupt, h.ensureRunning hstatus, runningStep_of_current hdag hstep hcurrent,
    hrunning, replaceStep_of_mem hstep]

theorem InTime.resume (h : InTime I s.deadline now) (hstatus : s.status = .interrupted)
    {request : ClarificationRequest} (hrequest : s.clarification = some request) {answer : Text}
    (hanswer : checkAnswer request answer = .ok ()) (hfresh : s.crashRecovered = false)
    (hstep : step ∈ s.steps) (hcurrent : s.currentStepId = some step.stepId) :
    resume I now stamp s request.interruptId answer = .ok { s with
      status := .running
      steps := updateStep s.steps step.stepId (.complete acceptedDigest stamp)
      currentStepId := none
      clarification := none
      replanReason := some .inputClarified
      revision := s.revision + 1 } := by
  simp [Workflow.resume, h.ensureNotExpired, hstatus, hrequest, hanswer, hfresh, acceptAnswer,
    hcurrent, replaceStep_of_mem hstep]

end Operations

end Workflow
