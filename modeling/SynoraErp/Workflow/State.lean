import SynoraErp.Order.DepthFirst
import SynoraErp.Workflow.Contracts

/-!
# Workflow state

The plan as a dependency graph, the deadline, and the durable state of a workflow
with the checks its constructor makes.
-/

namespace Workflow

open Python
open Governance (Uuid replaceZulu)

/-! ## The plan -/

abbrev Plan := List PlanStep

def stepIds (steps : Plan) : List Text := steps.map PlanStep.stepId

/-- `graph[step_id]`. -/
def dependencyGraph (steps : Plan) (stepId : Text) : List Text :=
  ((steps.find? fun step => step.stepId = stepId).map PlanStep.dependsOn).getD []

/-- `validate_plan_dag`. -/
def validatePlanDag (steps : Plan) : Result Unit :=
  if ¬(stepIds steps).Nodup then .error (.valueError "plan step ids must be unique")
  else if steps.map PlanStep.order ≠ List.range' 1 steps.length then
    .error (.valueError "plan step order must be contiguous and deterministic")
  else if ∃ step ∈ steps, ∃ d ∈ step.dependsOn, d ∉ stepIds steps then
    .error (.valueError "plan contains a dangling dependency")
  else if DepthFirst.search (dependencyGraph steps) (steps.length + 1) (stepIds steps) = none then
    .error (.valueError "plan dependency graph contains a cycle")
  else .ok ()

/-- A plan whose steps have names of their own, stand in their order and depend on
one another without a cycle. -/
structure PlanDag (steps : Plan) : Prop where
  nodup : (stepIds steps).Nodup
  orders : steps.map PlanStep.order = List.range' 1 steps.length
  known : ∀ step ∈ steps, ∀ d ∈ step.dependsOn, d ∈ stepIds steps
  acyclic : ∃ order, DepthFirst.Topological (dependencyGraph steps) order ∧ stepIds steps ⊆ order

theorem planDag_of_validatePlanDag {steps : Plan} {u : Unit} (h : validatePlanDag steps = .ok u) :
    PlanDag steps := by
  simp only [validatePlanDag, Except.ite_error_eq_ok, not_not, not_exists, not_and] at h
  obtain ⟨hnodup, horders, hknown, hsearch, -⟩ := h
  obtain ⟨l, hl⟩ := Option.ne_none_iff_exists'.mp hsearch
  exact ⟨hnodup, horders, hknown, l, DepthFirst.search_topological hl⟩

namespace PlanDag

variable {steps : Plan}

/-- A name belongs to one step. -/
theorem eq_of_stepId_eq (h : PlanDag steps) {a b : PlanStep} (ha : a ∈ steps) (hb : b ∈ steps)
    (hid : a.stepId = b.stepId) : a = b :=
  List.inj_on_of_nodup_map h.nodup ha hb hid

theorem dependencyGraph_stepId (h : PlanDag steps) {step : PlanStep} (hstep : step ∈ steps) :
    dependencyGraph steps step.stepId = step.dependsOn := by
  obtain ⟨found, hfound⟩ : ∃ found, steps.find? (fun x => x.stepId = step.stepId) = some found :=
    Option.isSome_iff_exists.mp (List.find?_isSome.mpr ⟨step, hstep, by simp⟩)
  have hid : found.stepId = step.stepId := by simpa using List.find?_some hfound
  have heq := h.eq_of_stepId_eq (List.mem_of_find?_eq_some hfound) hstep hid
  simp [dependencyGraph, hfound, heq]

end PlanDag

/-! ## The state -/

section

variable (I : Interpreter)

/-- `parse_deadline`, in microseconds. -/
def parseDeadline (value : Text) : Result ℤ :=
  match I.fromisoformat (replaceZulu value) with
  | none => .error (.valueError "deadline must be an ISO-8601 datetime")
  | some parsed =>
      match parsed.utcoffset with
      | none => .error (.valueError "deadline must include a timezone")
      | some offset => .ok (parsed.microseconds offset)

end

/-- `WorkflowBudget`. -/
structure WorkflowBudget where
  maxSteps : ℕ
  maxElapsedMs : ℕ
  maxObservationBytes : ℕ
  deriving DecidableEq

namespace WorkflowBudget

/-- `WorkflowBudget()`. -/
def default : WorkflowBudget := ⟨64, 300000, 4000⟩

def Valid (b : WorkflowBudget) : Prop :=
  (1 ≤ b.maxSteps ∧ b.maxSteps ≤ 256) ∧ (1000 ≤ b.maxElapsedMs ∧ b.maxElapsedMs ≤ 3600000) ∧
  (128 ≤ b.maxObservationBytes ∧ b.maxObservationBytes ≤ 32000)

instance (b : WorkflowBudget) : Decidable b.Valid := inferInstanceAs (Decidable (_ ∧ _))

theorem valid_default : default.Valid := by decide

end WorkflowBudget

/-- `WorkflowState`. -/
structure WorkflowState where
  runId : Uuid
  revision : ℕ
  planVersion : ℕ
  graphVersion : Text
  status : WorkflowStatus
  currentStepId : Option Text
  steps : Plan
  clarification : Option ClarificationRequest
  replanReason : Option ReplanReason
  budget : WorkflowBudget
  deadline : Text
  traceId : Uuid
  stopReason : Option Text
  crashRecovered : Bool
  deriving DecidableEq

/-- A workflow that has ended. -/
def WorkflowStatus.Terminal (s : WorkflowStatus) : Prop :=
  s = .succeeded ∨ s = .failed ∨ s = .cancelled ∨ s = .expired

instance (s : WorkflowStatus) : Decidable s.Terminal := inferInstanceAs (Decidable (_ ∨ _))

namespace WorkflowState

/-- `validate_state_shape`. -/
def shapeError (s : WorkflowState) : Option String :=
  if s.status = .interrupted ∧ (s.clarification = none ∨ s.currentStepId = none) then
    some "interrupted workflow requires clarification and current step"
  else if s.status ≠ .interrupted ∧ s.clarification ≠ none then
    some "clarification is only valid while interrupted"
  else if ∃ id ∈ s.currentStepId, id ∉ stepIds s.steps then some "current_step_id is unknown"
  else if s.status.Terminal ∧ s.stopReason.getD [] = [] then
    some "terminal workflow requires stop_reason"
  else none

/-- The checks of the constructor. -/
def Valid (I : Interpreter) (s : WorkflowState) : Prop :=
  (1 ≤ s.planVersion ∧ s.planVersion ≤ 10000) ∧
  (1 ≤ s.graphVersion.length ∧ s.graphVersion.length ≤ 80) ∧
  (1 ≤ s.steps.length ∧ s.steps.length ≤ 256) ∧ (∀ step ∈ s.steps, step.Valid) ∧
  validatePlanDag s.steps = .ok () ∧ (∀ r ∈ s.clarification, r.Valid) ∧ s.budget.Valid ∧
  (1 ≤ s.deadline.length ∧ s.deadline.length ≤ 64) ∧ (parseDeadline I s.deadline).toBool = true ∧
  (∀ r ∈ s.stopReason, r.length ≤ 500) ∧ s.shapeError = none

instance (I : Interpreter) (s : WorkflowState) : Decidable (s.Valid I) :=
  inferInstanceAs (Decidable (_ ∧ _))

/-- The step of a name: `_get_step`. -/
def getStep (s : WorkflowState) (stepId : Text) : Result PlanStep :=
  match s.steps.find? fun step => step.stepId = stepId with
  | some step => .ok step
  | none => .error (.workflowError "WORKFLOW_INVALID" "step is unknown")

theorem getStep_eq_ok {s : WorkflowState} {stepId : Text} {step : PlanStep}
    (h : s.getStep stepId = .ok step) : step ∈ s.steps ∧ step.stepId = stepId := by
  unfold getStep at h
  split at h
  · next found hfound =>
      obtain rfl := Except.ok.inj h
      exact ⟨List.mem_of_find?_eq_some hfound, by simpa using List.find?_some hfound⟩
  · cases h

end WorkflowState

end Workflow
