import SynoraErp.Transition.Path
import SynoraErp.Workflow.Storable

/-!
# The checkpoint round trip

A payload that was stored is read back as the state it was made of exactly when that
state passes the checks of its constructor. The operations copy states without
making these checks, and all but two of them stay inside the checks for every
argument: `cancel` with an empty detail leaves a terminal state without a reason,
and `replan` exceeds the plan versions and takes a plan without steps.
-/

namespace Workflow

open Python Transition
open Governance (Uuid isLowerHex)

/-! ## Payloads -/

mutual

theorem readable_of_isJson {I : Interpreter} (hI : Json.ReadsDoubles I) :
    ∀ (v : Value) (_ : IsJson v = true), Json.Readable I v
  | .none, _ | .bool _, _ | .str _, _ => by simp [Json.Readable]
  | .int n, hv => by simpa [IsJson, Json.Readable] using hv
  | .float (.finite q), hv => by
      rw [Json.Readable]
      exact hI q (by simpa only [IsJson] using hv)
  | .float (.infinity _), hv | .float .nan, hv => by simp [IsJson] at hv
  | .list xs, hv => by
      rw [Json.Readable]
      exact readableItems_of_isJson hI xs (by simpa only [IsJson] using hv)
  | .dict entries, hv => by
      rw [IsJson, Bool.and_eq_true, decide_eq_true_iff] at hv
      rw [Json.Readable]
      exact ⟨hv.1, readableEntries_of_isJson hI entries hv.2⟩

theorem readableItems_of_isJson {I : Interpreter} (hI : Json.ReadsDoubles I) :
    ∀ (xs : List Value) (_ : IsJsonItems xs = true), Json.ReadableItems I xs
  | [], _ => trivial
  | x :: xs, h => by
      rw [IsJsonItems, Bool.and_eq_true] at h
      exact ⟨readable_of_isJson hI x h.1, readableItems_of_isJson hI xs h.2⟩

theorem readableEntries_of_isJson {I : Interpreter} (hI : Json.ReadsDoubles I) :
    ∀ (entries : List (Text × Value)) (_ : IsJsonEntries entries = true),
      Json.ReadableEntries I entries
  | [], _ => trivial
  | (_, v) :: entries, h => by
      rw [IsJsonEntries, Bool.and_eq_true] at h
      exact ⟨readable_of_isJson hI v h.1, readableEntries_of_isJson hI entries h.2⟩

end

section Payloads

variable {W : Agent.WordClass} {I : Interpreter} {s : WorkflowState} {payload : Text}

/-- A stored payload is the JSON of its state, and is read as far as the state passes the
checks. -/
theorem validateJson_storedPayload (hI : Json.ReadsDoubles I)
    (h : storedPayload W I s = .ok payload) :
    Json.loads I .default payload = some (Wire.workflowState.write s) ∧
      (Json.dumps I (Wire.workflowState.write s)).bind (validateJson I) =
        if s.Valid I then some s else none := by
  obtain ⟨-, hjson, rfl, hutf⟩ := storedPayload_eq_ok h
  have hreadable := readable_of_isJson hI _ hjson
  have hloads := Json.loads_of_readable I Json.Hooks.keepDistinct_default hreadable
  obtain ⟨bytes, hbytes⟩ := Option.ne_none_iff_exists'.mp hutf
  refine ⟨hloads, ?_⟩
  simp only [Json.dumps_of_readable I hreadable, Option.bind_some, validateJson, hbytes, hloads,
    Wire.workflowState.read_write, Option.bind_eq_bind]

/-- A stored payload is read back as its state, as far as the state passes the checks. -/
theorem decode_storedPayload (hI : Json.ReadsDoubles I)
    (h : storedPayload W I s = .ok payload) :
    decode W I payload =
      if s.Valid I then .ok s else .error (incompatible "checkpoint payload is invalid") := by
  have hsafe := (storedPayload_eq_ok h).1
  obtain ⟨hloads, hvalidate⟩ := validateJson_storedPayload hI h
  have hversion : hasSchemaVersion (Wire.workflowState.write s) = true := rfl
  simp only [decode, hloads, hsafe, Except.ok_bind, hversion, Bool.true_eq_false, if_false,
    hvalidate]
  split_ifs <;> rfl

end Payloads

/-! ## Checked steps -/

theorem isDigest_hexdigest (data : ByteArray) : isDigest (Sha256.hexdigest data) = true := by
  have hhex : ∀ d, isLowerHex (Json.hexDigit d) = true := by decide
  simp only [isDigest, Sha256.length_hexdigest, Bool.and_eq_true, List.all_eq_true]
  refine ⟨by decide, fun c hc => ?_⟩
  obtain ⟨d, rfl⟩ := Sha256.exists_hexDigit_of_mem hc
  exact hhex d

theorem Observation.isDigest_digest (observation : Observation) :
    isDigest observation.digest = true := by
  obtain ⟨bytes, -, hdigest⟩ := observation.digest_eq
  rw [hdigest]
  exact isDigest_hexdigest bytes

theorem length_failure_le (code detail : Text) : (failure code detail).length ≤ 500 :=
  List.length_take_le _ _

theorem failure_ne_nil (code detail : Text) : failure code detail ≠ [] := by
  intro h
  have hlength := congrArg List.length h
  simp [failure, Text.ofString_eq] at hlength

namespace PlanStep

variable {step : PlanStep}

theorem shapeError_eq_none :
    step.shapeError = none ↔ step.typeError = none ∧ step.statusError = none := by
  rw [shapeError, Option.or_eq_none_iff]

/-- A status that calls for no record of its own. -/
theorem Valid.withStatus (h : step.Valid) {status : StepStatus}
    (hstatus : status = .ready ∨ status = .running ∨ status = .waiting) :
    (step.withStatus status).Valid := by
  obtain ⟨hid, horder, hdeps, htools, hclar, haction, hdigest, herror, hcompleted, hshape⟩ := h
  refine ⟨hid, horder, hdeps, htools, hclar, haction, hdigest, herror, hcompleted, ?_⟩
  rw [shapeError_eq_none] at hshape ⊢
  exact ⟨hshape.1, by rcases hstatus with rfl | rfl | rfl <;> rfl⟩

theorem Valid.complete (h : step.Valid) {digest : Text} (stamp : Instant)
    (hdigest : isDigest digest = true) : (step.complete digest stamp).Valid := by
  obtain ⟨hid, horder, hdeps, htools, hclar, haction, -, -, -, hshape⟩ := h
  refine ⟨hid, horder, hdeps, htools, hclar, haction, by simpa [PlanStep.complete] using hdigest,
    by simp [PlanStep.complete], by simp [PlanStep.complete], ?_⟩
  rw [shapeError_eq_none] at hshape ⊢
  exact ⟨hshape.1, rfl⟩

theorem Valid.fail (h : step.Valid) {error : Text} (hlength : error.length ≤ 500)
    (hne : error ≠ []) : (step.fail error).Valid := by
  obtain ⟨hid, horder, hdeps, htools, hclar, haction, hdigest, -, hcompleted, hshape⟩ := h
  refine ⟨hid, horder, hdeps, htools, hclar, haction, hdigest,
    by simpa [PlanStep.fail] using hlength, hcompleted, ?_⟩
  rw [shapeError_eq_none] at hshape ⊢
  exact ⟨hshape.1, by simp [statusError, PlanStep.fail, hne]⟩

end PlanStep

/-- A plan is accepted as it was before a change of one of its steps. -/
theorem validatePlanDag_updateStep {steps : Plan} {stepId : Text} {update : PlanStep → PlanStep}
    (h : KeepsPlace update) :
    validatePlanDag (updateStep steps stepId update) = validatePlanDag steps := by
  have hdangling : (∃ step ∈ updateStep steps stepId update, ∃ d ∈ step.dependsOn,
      d ∉ stepIds steps) ↔ ∃ step ∈ steps, ∃ d ∈ step.dependsOn, d ∉ stepIds steps := by
    have hmap : (updateStep steps stepId update).map PlanStep.dependsOn =
        steps.map PlanStep.dependsOn := map_updateStep _ h.dependsOn
    constructor <;> rintro ⟨step, hstep, d, hd, hnot⟩
    · have hmem : step.dependsOn ∈ steps.map PlanStep.dependsOn :=
        hmap ▸ List.mem_map_of_mem hstep
      obtain ⟨old, hold, heq⟩ := List.mem_map.mp hmem
      exact ⟨old, hold, d, heq ▸ hd, hnot⟩
    · have hmem : step.dependsOn ∈ (updateStep steps stepId update).map PlanStep.dependsOn :=
        hmap.symm ▸ List.mem_map_of_mem hstep
      obtain ⟨new, hnew, heq⟩ := List.mem_map.mp hmem
      exact ⟨new, hnew, d, heq ▸ hd, hnot⟩
  simp only [validatePlanDag, stepIds_updateStep h, map_updateStep _ h.order, length_updateStep,
    dependencyGraph_updateStep h, hdangling]

/-! ## Checked states -/

/-- The shape `validate_state_shape` asks for. -/
structure Shaped (s : WorkflowState) : Prop where
  interrupted : s.status = .interrupted → s.clarification ≠ none ∧ s.currentStepId ≠ none
  clarification : s.status ≠ .interrupted → s.clarification = none
  current : ∀ id ∈ s.currentStepId, id ∈ stepIds s.steps
  stopReason : s.status.Terminal → s.stopReason.getD [] ≠ []

theorem shapeError_eq_none {s : WorkflowState} : s.shapeError = none ↔ Shaped s := by
  constructor
  · intro h
    unfold WorkflowState.shapeError at h
    split_ifs at h with hinterrupted hclarification hcurrent hterminal
    refine ⟨?_, ?_, ?_, ?_⟩ <;> grind
  · rintro ⟨hinterrupted, hclarification, hcurrent, hstop⟩
    unfold WorkflowState.shapeError
    rw [if_neg, if_neg, if_neg, if_neg]
    all_goals grind

namespace WorkflowState

variable {I : Interpreter} {s s' : WorkflowState}

theorem Valid.shaped (h : s.Valid I) : Shaped s :=
  shapeError_eq_none.mp h.2.2.2.2.2.2.2.2.2.2

theorem Valid.step (h : s.Valid I) : ∀ step ∈ s.steps, step.Valid := h.2.2.2.1

/-- A state after a change of one step. -/
theorem Valid.update (h : s.Valid I) (hframe : SameFrame s s') {stepId : Text}
    {update : PlanStep → PlanStep} (hplace : KeepsPlace update)
    (hupdate : ∀ step, step.Valid → (update step).Valid)
    (hsteps : s'.steps = updateStep s.steps stepId update)
    (hclarification : ∀ r ∈ s'.clarification, r.Valid)
    (hstop : ∀ r ∈ s'.stopReason, r.length ≤ 500) (hshape : Shaped s') : s'.Valid I := by
  obtain ⟨hversion, hgraph, hlength, hvalid, hdag, -, hbudget, hdeadline, hparsed, -, -⟩ := h
  refine ⟨hframe.planVersion ▸ hversion, hframe.graphVersion ▸ hgraph, ?_, fun step hstep => ?_,
    ?_, hclarification, hframe.budget ▸ hbudget, hframe.deadline ▸ hdeadline,
    hframe.deadline ▸ hparsed, hstop, shapeError_eq_none.mpr hshape⟩
  · rw [hsteps, length_updateStep]
    exact hlength
  · rw [hsteps] at hstep
    obtain ⟨old, hold, rfl⟩ := mem_updateStep.mp hstep
    split_ifs
    · exact hupdate old (hvalid old hold)
    · exact hvalid old hold
  · rw [hsteps, validatePlanDag_updateStep hplace]
    exact hdag

end WorkflowState

/-! ## Operations -/

/-- The arguments are records that passed the checks of their constructors. -/
def EngineCall.Checked : EngineCall → Prop
  | .interrupt _ request => request.Valid
  | .replan _ steps _ => ∀ step ∈ steps, step.Valid
  | _ => True

/-- The call leaves a terminal state its reason, a plan its steps and the plan version
its bound. -/
def StaysLoadable (s : WorkflowState) : EngineCall → Prop
  | .cancel detail => detail ≠ []
  | .replan _ steps _ => steps ≠ [] ∧ s.planVersion < 10000
  | _ => True

section Operations

variable {I : Interpreter} {s s' : WorkflowState}

theorem WorkflowState.Valid.clarification_eq_none (h : s.Valid I) (hstatus : s.status = .running) :
    s.clarification = none :=
  h.shaped.clarification (by simp [hstatus])

theorem WorkflowState.Valid.stopReason_le (h : s.Valid I) : ∀ r ∈ s.stopReason, r.length ≤ 500 :=
  h.2.2.2.2.2.2.2.2.2.1

theorem WorkflowState.Valid.clarification_valid (h : s.Valid I) :
    ∀ r ∈ s.clarification, r.Valid :=
  h.2.2.2.2.2.1

/-- The name of a step is known after a change of a step. -/
theorem current_known {steps : Plan} {stepId id : Text} {update : PlanStep → PlanStep}
    (hplace : KeepsPlace update) (hid : id ∈ stepIds steps) :
    id ∈ stepIds (updateStep steps stepId update) := by
  rwa [stepIds_updateStep hplace]

theorem mem_stepIds {steps : Plan} {step : PlanStep} (h : step ∈ steps) :
    step.stepId ∈ stepIds steps :=
  List.mem_map_of_mem h

/-- The state after a success. -/
theorem valid_afterCompletion (h : s.Valid I) (hstatus : s.status = .running) {stepId digest : Text}
    (stamp : Instant) (hdigest : isDigest digest = true) {stopReason : Text}
    (hstop : stopReason.length ≤ 500 ∧ stopReason ≠ []) :
    (afterCompletion s (updateStep s.steps stepId (.complete digest stamp)) stopReason).Valid I := by
  have hnone := h.clarification_eq_none hstatus
  have hupdate : ∀ step : PlanStep, step.Valid → (step.complete digest stamp).Valid :=
    fun step hstep => hstep.complete stamp hdigest
  unfold afterCompletion
  split_ifs
  · exact h.update ⟨rfl, rfl, rfl, rfl⟩ (keepsPlace_complete digest stamp) hupdate rfl
      h.clarification_valid (by simpa using hstop.1)
      ⟨by simp, by simp [hnone], by simp, by simp [hstop.2]⟩
  · refine h.update ⟨rfl, rfl, rfl, rfl⟩ (keepsPlace_complete digest stamp) hupdate rfl
      h.clarification_valid h.stopReason_le
      ⟨by simp [hstatus], by simp [hnone], fun id hid => ?_,
        by simp [hstatus, WorkflowStatus.Terminal]⟩
    obtain ⟨next, hnext, rfl⟩ := Option.map_eq_some_iff.mp hid
    exact mem_stepIds (nextStep_eq_some hnext).1

/-- The state after a change of the status of a running workflow's step. -/
theorem valid_withStatus (h : s.Valid I) (hstatus : s.status = .running) {stepId : Text}
    {status : StepStatus} (hnew : status = .ready ∨ status = .running ∨ status = .waiting)
    (hframe : SameFrame s s') (hsteps : s'.steps = updateStep s.steps stepId (.withStatus status))
    (hrunning : s'.status = .running) (hclarification : s'.clarification = s.clarification)
    (hstop : s'.stopReason = s.stopReason)
    (hcurrent : ∀ id ∈ s'.currentStepId, id ∈ stepIds s.steps) : s'.Valid I := by
  have hnone := h.clarification_eq_none hstatus
  refine h.update hframe (keepsPlace_withStatus status) (fun step hstep => hstep.withStatus hnew)
    hsteps (by rw [hclarification]; exact h.clarification_valid)
    (by rw [hstop]; exact h.stopReason_le)
    ⟨by simp [hrunning], fun _ => hclarification.trans hnone, fun id hid => ?_,
      by simp [hrunning, WorkflowStatus.Terminal]⟩
  rw [hsteps]
  exact current_known (keepsPlace_withStatus status) (hcurrent id hid)

/-- The state after a failure that ends the workflow. -/
theorem valid_failed (h : s.Valid I) {stepId error : Text} (hlength : error.length ≤ 500)
    (hne : error ≠ []) (hframe : SameFrame s s')
    (hsteps : s'.steps = updateStep s.steps stepId (.fail error)) (hstatus : s'.status = .failed)
    (hclarification : s'.clarification = none) (hstop : s'.stopReason = some error)
    (hcurrent : ∀ id ∈ s'.currentStepId, id ∈ stepIds s.steps) : s'.Valid I := by
  refine h.update hframe (keepsPlace_fail error) (fun step hstep => hstep.fail hlength hne) hsteps
    (by simp [hclarification]) (by simpa [hstop] using hlength)
    ⟨by simp [hstatus], fun _ => hclarification, fun id hid => ?_, by simp [hstop, hne]⟩
  rw [hsteps]
  exact current_known (keepsPlace_fail error) (hcurrent id hid)

theorem valid_replan (h : s.Valid I) {now : Instant} {steps : Plan} {reason : ReplanReason}
    (hvalid : ∀ step ∈ steps, step.Valid) (hne : steps ≠ []) (hversion : s.planVersion < 10000)
    (hreplan : replan I now s steps reason = .ok s') : s'.Valid I := by
  obtain ⟨hdag, -, -, rfl⟩ := replan_eq_ok hreplan
  obtain ⟨⟨hpos, -⟩, hgraph, -, -, -, -, hbudget, hdeadline, hparsed, -, -⟩ := h
  have hpositive : 1 ≤ steps.length := List.length_pos_of_ne_nil hne
  have hlast : steps.length ∈ steps.map PlanStep.order := by
    rw [(planDag_of_validatePlanDag hdag).orders, List.mem_range'_1]
    omega
  obtain ⟨step, hstep, horder⟩ := List.mem_map.mp hlast
  have hbound := (hvalid step hstep).2.1.2
  refine ⟨⟨by simp, by simp; omega⟩, hgraph, ⟨hpositive, by simp; omega⟩, hvalid, hdag, by simp,
    hbudget, hdeadline, hparsed, by simp, shapeError_eq_none.mpr
      ⟨by simp, by simp, by simp, by simp [WorkflowStatus.Terminal]⟩⟩

/-- The state after the end of a workflow that had not ended. -/
theorem valid_ended (h : s.Valid I) {status : WorkflowStatus} {reason : Text}
    (hstatus : status ≠ .interrupted) (hlength : reason.length ≤ 500) (hne : reason ≠ []) :
    ({ s with
      status := status
      stopReason := some reason
      revision := s.revision + 1
      clarification := none } : WorkflowState).Valid I := by
  have hcurrent := h.shaped.current
  obtain ⟨hversion, hgraph, hlengths, hvalid, hdag, -, hbudget, hdeadline, hparsed, -, -⟩ := h
  exact ⟨hversion, hgraph, hlengths, hvalid, hdag, by simp, hbudget, hdeadline, hparsed,
    by simpa using hlength, shapeError_eq_none.mpr
      ⟨by simp [hstatus], by simp, hcurrent, by simp [hne]⟩⟩

/-- Every call within the condition stays inside the checks. -/
theorem valid_of_step {call : EngineCall} (h : s.Valid I) (hchecked : call.Checked)
    (hstays : StaysLoadable s call) (hstep : EngineStep I s call s') : s'.Valid I := by
  cases call with
  | start now =>
      obtain ⟨hstatus, step, hready, rfl⟩ := start_eq_ok hstep
      have hnone := h.shaped.clarification (by simp [hstatus])
      refine h.update ⟨rfl, rfl, rfl, rfl⟩ (keepsPlace_withStatus .ready)
        (fun step hstep => hstep.withStatus (Or.inl rfl)) rfl h.clarification_valid h.stopReason_le
        ⟨by simp, by simp [hnone], fun id hid => ?_, by simp [WorkflowStatus.Terminal]⟩
      exact current_known (keepsPlace_withStatus .ready) (h.shaped.current id hid)
  | beginStep now stepId =>
      obtain ⟨step, hready, rfl, rfl⟩ := beginStep_eq_ok hstep
      obtain ⟨hstatus, hnext, -⟩ := readyStep_eq_some hready
      exact valid_withStatus h hstatus (Or.inr (Or.inl rfl)) ⟨rfl, rfl, rfl, rfl⟩ rfl hstatus rfl rfl
        (by simpa using mem_stepIds (nextStep_eq_some hnext).1)
  | waitForGovernedAction now stepId =>
      obtain ⟨hstatus, step, hget, -, -, rfl⟩ := waitForGovernedAction_eq_ok hstep
      obtain ⟨hmem, rfl⟩ := WorkflowState.getStep_eq_ok hget
      exact valid_withStatus h hstatus (Or.inr (Or.inr rfl)) ⟨rfl, rfl, rfl, rfl⟩ rfl hstatus rfl rfl
        (by simpa using mem_stepIds hmem)
  | completeGovernedAction now stamp stepId digest =>
      obtain ⟨hstatus, hdigest, -, -, -, -, rfl⟩ := completeGovernedAction_eq_ok hstep
      exact valid_afterCompletion h hstatus stamp hdigest (by decide)
  | completeStep now stamp observation =>
      obtain ⟨hstatus, step, -, -, -, rfl⟩ := completeStep_eq_ok hstep
      exact valid_afterCompletion h hstatus stamp observation.isDigest_digest (by decide)
  | failStep now code detail =>
      obtain ⟨hstatus, step, hget, -, rfl⟩ := failStep_eq_ok hstep
      exact valid_failed h (length_failure_le code detail) (failure_ne_nil code detail)
        ⟨rfl, rfl, rfl, rfl⟩ rfl rfl (h.clarification_eq_none hstatus) rfl
        (by simpa using mem_stepIds (runningStep_eq_ok hget).1)
  | interrupt now request =>
      obtain ⟨hstatus, step, hget, -, rfl⟩ := interrupt_eq_ok hstep
      obtain ⟨hmem, hcurrent⟩ := runningStep_eq_ok hget
      have hrequest : request.Valid := hchecked
      refine h.update ⟨rfl, rfl, rfl, rfl⟩ (keepsPlace_withStatus .waiting)
        (fun step hstep => hstep.withStatus (Or.inr (Or.inr rfl))) rfl (by simpa using hrequest)
        h.stopReason_le
        ⟨by simp [hcurrent], by simp, fun id hid => ?_, by simp [WorkflowStatus.Terminal]⟩
      exact current_known (keepsPlace_withStatus .waiting) (h.shaped.current id hid)
  | resume now stamp interruptId answer =>
      obtain ⟨-, request, -, -, -, ⟨-, hfail⟩ | ⟨-, haccept⟩⟩ := resume_eq_ok hstep
      · obtain ⟨-, stepId, hcurrent, rfl⟩ := acknowledgeRecovery_eq_ok hfail
        exact valid_failed h (by decide) (by decide) ⟨rfl, rfl, rfl, rfl⟩ rfl rfl rfl rfl
          h.shaped.current
      · obtain rfl := acceptAnswer_eq_ok haccept
        exact h.update ⟨rfl, rfl, rfl, rfl⟩ (keepsPlace_complete acceptedDigest stamp)
          (fun step hstep => hstep.complete stamp (isDigest_hexdigest _)) rfl (by simp)
          h.stopReason_le ⟨by simp, by simp, by simp, by simp [WorkflowStatus.Terminal]⟩
  | replan now steps reason => exact valid_replan h hchecked hstays.1 hstays.2 hstep
  | cancel detail =>
      obtain ⟨-, rfl⟩ := cancel_eq_ok hstep
      have hdetail : detail ≠ [] := hstays
      exact valid_ended h (by decide) (List.length_take_le _ _) (by simpa using hdetail)
  | expire =>
      obtain rfl := Except.ok.inj hstep
      unfold expire
      split_ifs
      · exact h
      · exact valid_ended h (by decide) (by decide) (by decide)

theorem valid_createState {runId traceId : Uuid} {steps : Plan} {deadline : Text}
    (h : createState I runId traceId steps deadline = .ok s) (hsteps : ∀ step ∈ steps, step.Valid) :
    s.Valid I := by
  obtain ⟨hdag, ⟨hne, hlength⟩, ⟨hdeadline, hdeadlineLength⟩, ⟨d, hd⟩, rfl⟩ := createState_eq_ok h
  have hgraph : 1 ≤ (Text.ofString "workflow-v1").length ∧
      (Text.ofString "workflow-v1").length ≤ 80 := by decide
  exact ⟨by simp, hgraph, ⟨List.length_pos_of_ne_nil hne, hlength⟩, hsteps, hdag, by simp,
    WorkflowBudget.valid_default, ⟨List.length_pos_of_ne_nil hdeadline, hdeadlineLength⟩,
    by simp [hd, Except.toBool], by simp, shapeError_eq_none.mpr
      ⟨by simp, by simp, by simp, by simp [WorkflowStatus.Terminal]⟩⟩

end Operations

/-! ## Runs -/

/-- Every state of a run within the condition is refused by the store or read back as
it is. -/
theorem decode_of_run {W : Agent.WordClass} {I : Interpreter} (hI : Json.ReadsDoubles I)
    {runId traceId : Uuid} {steps : Plan} {deadline : Text} {s₀ s : WorkflowState}
    {trace : List (Step WorkflowState EngineCall)}
    (hcreate : createState I runId traceId steps deadline = .ok s₀)
    (hsteps : ∀ step ∈ steps, step.Valid) (hpath : Path (EngineStep I) s₀ trace s)
    (hcalls : ∀ x ∈ trace, x.event.Checked ∧ StaysLoadable x.before x.event) :
    ∀ payload, storedPayload W I s = .ok payload → decode W I payload = .ok s := by
  intro payload hpayload
  have hrestricted : Path (fun s call t => (call.Checked ∧ StaysLoadable s call) ∧
      EngineStep I s call t) s₀ trace s := hpath.restrict hcalls
  have hvalid : s.Valid I := hrestricted.invariant (P := fun s => s.Valid I)
    (fun _ _ _ hs hstep => valid_of_step hs hstep.1.1 hstep.1.2 hstep.2)
    (valid_createState hcreate hsteps)
  rw [decode_storedPayload hI hpayload, if_pos hvalid]

/-- The state of the example after a cancellation. -/
def cancelledState (detail : Text) : WorkflowState :=
  { initialState [openRequests] with
    status := .cancelled
    stopReason := some detail
    revision := 1 }

theorem createState_fractional :
    createState Interpreter.fractional exampleRun exampleRun [openRequests] exampleDeadline =
      .ok (initialState [openRequests]) :=
  createState_openRequests

theorem path_cancelledState {detail : Text} (hlength : detail.length ≤ 500) :
    Path (EngineStep Interpreter.fractional) (initialState [openRequests])
      [⟨initialState [openRequests], .cancel detail, cancelledState detail⟩]
      (cancelledState detail) := by
  refine .cons ?_ (.nil _)
  have htake : detail.take 500 = detail := List.take_of_length_le hlength
  simp [EngineStep, EngineCall.run, cancel, cancelledState, initialState, WorkflowStatus.Terminal,
    htake]

theorem storable_cancelledState {detail : Text}
    (hdetail : detail = [] ∨ detail = Text.ofString "cancelled") :
    (cancelledState detail).Storable Agent.WordClass.ascii Interpreter.fractional := by
  have hadmits : Admits Agent.WordClass.ascii Interpreter.fractional (.str detail) := by
    rcases hdetail with rfl | rfl
    · exact @admits_ofString _ _ "" (by decide)
    · exact @admits_ofString _ _ "cancelled" (by decide)
  have hsteps : (cancelledState detail).steps =
      updateStep (initialState [openRequests]).steps openRequests.stepId id := by
    simp [cancelledState, initialState, updateStep]
  have hrevision : (natDigits 1).length ≤ Json.maxStrDigits := by decide
  refine storable_initialState.update ⟨rfl, rfl, rfl, rfl⟩ hsteps (fun _ hstep => hstep) ⟨rfl, rfl⟩
    rfl hrevision ?_ ?_ (Or.inr ⟨detail, rfl, hadmits⟩)
  · simp [cancelledState, initialState]
  · simp [cancelledState, initialState]

/-- A cancellation with a reason is stored and read back. -/
theorem decode_cancelledState :
    ∃ payload, storedPayload Agent.WordClass.ascii Interpreter.fractional
        (cancelledState "cancelled") = .ok payload ∧
      decode Agent.WordClass.ascii Interpreter.fractional payload =
        .ok (cancelledState "cancelled") := by
  obtain ⟨payload, hpayload⟩ := storable_cancelledState (Or.inr rfl)
  refine ⟨payload, hpayload, decode_of_run Json.readsDoubles_fractional createState_fractional
    (by decide) (path_cancelledState (by decide)) (fun x hx => ?_) payload hpayload⟩
  obtain rfl := List.mem_singleton.mp hx
  exact ⟨trivial, by simp [StaysLoadable, Text.ofString_eq]⟩

/-- A cancellation with an empty detail is stored and cannot be read back. -/
theorem empty_cancellation_not_loadable :
    createState Interpreter.fractional exampleRun exampleRun [openRequests] exampleDeadline =
      .ok (initialState [openRequests]) ∧
    Path (EngineStep Interpreter.fractional) (initialState [openRequests])
      [⟨initialState [openRequests], .cancel [], cancelledState []⟩] (cancelledState []) ∧
    ∃ payload, storedPayload Agent.WordClass.ascii Interpreter.fractional (cancelledState []) =
        .ok payload ∧
      decode Agent.WordClass.ascii Interpreter.fractional payload =
        .error (.checkpointError "CHECKPOINT_INCOMPATIBLE" "checkpoint payload is invalid") := by
  refine ⟨createState_fractional, path_cancelledState (by decide), ?_⟩
  obtain ⟨payload, hpayload⟩ := storable_cancelledState (Or.inl rfl)
  have hinvalid : ¬(cancelledState []).Valid Interpreter.fractional := fun h =>
    h.shaped.stopReason (Or.inr (Or.inr (Or.inl rfl))) rfl
  exact ⟨payload, hpayload, by
    rw [decode_storedPayload Json.readsDoubles_fractional hpayload, if_neg hinvalid]; rfl⟩

end Workflow
