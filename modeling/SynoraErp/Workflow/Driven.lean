import SynoraErp.Workflow.Discipline
import SynoraErp.Workflow.Runtime
import SynoraErp.Workflow.Stages

/-!
# A workflow that is driven to its end

Every state the driver of a plan stores is in a stage of the plan, and the operations it
calls take it on. They succeed before the deadline, what they leave is in a stage with
less ahead, and it can be stored and read back.
-/

namespace Workflow

open Python

/-! ## Calls that take a workflow on -/

/-- The calls of a driver. The question it asks is the one of a step, and an answer is to
such a question. -/
def MovesOn (s : WorkflowState) : EngineCall → Prop
  | .start _ | .beginStep .. | .waitForGovernedAction .. | .completeGovernedAction ..
  | .completeStep .. => True
  | .interrupt _ request => ∃ step ∈ s.steps, step.clarification = some request
  | .resume .. => s.crashRecovered = false
  | .failStep .. | .replan .. | .cancel _ | .expire => False

section MovesOn

variable {W : Agent.WordClass} {I : Interpreter} {s s' : WorkflowState} {call : EngineCall}

/-- What every such call leaves, and the revision it counts. -/
structure Onward (s s' : WorkflowState) : Prop where
  frame : SameFrame s s'
  runId : s'.runId = s.runId
  traceId : s'.traceId = s.traceId
  crashRecovered : s'.crashRecovered = s.crashRecovered
  revision : s'.revision = s.revision + 1

theorem onward_afterCompletion (s : WorkflowState) (steps : Plan) (reason : Text) :
    Onward s (afterCompletion s steps reason) := by
  unfold afterCompletion
  split_ifs <;> exact ⟨⟨rfl, rfl, rfl, rfl⟩, rfl, rfl, rfl, rfl⟩

theorem onward_of_step (hstep : EngineStep I s call s') (hmoves : MovesOn s call) : Onward s s' := by
  cases call with
  | start now =>
      obtain ⟨-, step, -, rfl⟩ := start_eq_ok hstep
      exact ⟨⟨rfl, rfl, rfl, rfl⟩, rfl, rfl, rfl, rfl⟩
  | beginStep now stepId =>
      obtain ⟨step, -, -, rfl⟩ := beginStep_eq_ok hstep
      exact ⟨⟨rfl, rfl, rfl, rfl⟩, rfl, rfl, rfl, rfl⟩
  | waitForGovernedAction now stepId =>
      obtain ⟨-, step, -, -, -, rfl⟩ := waitForGovernedAction_eq_ok hstep
      exact ⟨⟨rfl, rfl, rfl, rfl⟩, rfl, rfl, rfl, rfl⟩
  | completeGovernedAction now stamp stepId digest =>
      obtain ⟨-, -, step, -, -, -, rfl⟩ := completeGovernedAction_eq_ok hstep
      exact onward_afterCompletion _ _ _
  | completeStep now stamp observation =>
      obtain ⟨-, step, -, -, -, rfl⟩ := completeStep_eq_ok hstep
      exact onward_afterCompletion _ _ _
  | interrupt now request =>
      obtain ⟨-, step, -, -, rfl⟩ := interrupt_eq_ok hstep
      exact ⟨⟨rfl, rfl, rfl, rfl⟩, rfl, rfl, rfl, rfl⟩
  | resume now stamp interruptId answer =>
      obtain ⟨-, request, -, -, -, ⟨hcrashed, -⟩ | ⟨-, haccept⟩⟩ := resume_eq_ok hstep
      · exact absurd (hcrashed.symm.trans hmoves) (by decide)
      · obtain rfl := acceptAnswer_eq_ok haccept
        exact ⟨⟨rfl, rfl, rfl, rfl⟩, rfl, rfl, rfl, rfl⟩
  | failStep | replan | cancel | expire => exact hmoves.elim

/-- A success can be stored. -/
theorem storable_afterCompletion (h : s.Storable W I) (hvalid : s.Valid I)
    (hstatus : s.status = .running)
    (hrevision : (natDigits (s.revision + 1)).length ≤ Json.maxStrDigits) {stepId digest : Text}
    (stamp : Instant) (hdigest : isDigest digest = true) {reason : Text}
    (hreason : Admits W I (.str reason)) :
    (afterCompletion s (updateStep s.steps stepId (.complete digest stamp)) reason).Storable W I := by
  have honward := onward_afterCompletion s (updateStep s.steps stepId (.complete digest stamp)) reason
  have hnone := hvalid.clarification_eq_none hstatus
  refine h.update honward.frame (steps_afterCompletion _ _ _)
    (fun step hstep => hstep.complete hdigest stamp) ⟨honward.runId, honward.traceId⟩
    honward.crashRecovered (honward.revision ▸ hrevision) (fun id hid => ?_) (fun r hr => ?_) ?_
  · unfold afterCompletion at hid
    split_ifs at hid
    · cases hid
    · obtain ⟨next, hnext, rfl⟩ := Option.map_eq_some_iff.mp hid
      rw [← stepIds_updateStep (keepsPlace_complete digest stamp)]
      exact mem_stepIds (nextStep_eq_some hnext).1
  · unfold afterCompletion at hr
    split_ifs at hr <;> simp [hnone] at hr
  · unfold afterCompletion
    split_ifs
    · exact Or.inr ⟨reason, rfl, hreason⟩
    · exact Or.inl rfl

/-- What such a call leaves can be stored. -/
theorem storable_of_step (h : s.Storable W I) (hvalid : s.Valid I)
    (hrevision : (natDigits (s.revision + 1)).length ≤ Json.maxStrDigits) (hmoves : MovesOn s call)
    (hstep : EngineStep I s call s') : s'.Storable W I := by
  have hstatusUpdate : ∀ status, ∀ step : PlanStep, step.Storable W I →
      (step.withStatus status).Storable W I := fun status step hstorable => hstorable.withStatus status
  cases call with
  | start now =>
      obtain ⟨hstatus, step, hready, rfl⟩ := start_eq_ok hstep
      have hnone := hvalid.shaped.clarification (by simp [hstatus])
      exact h.update ⟨rfl, rfl, rfl, rfl⟩ rfl (hstatusUpdate .ready) ⟨rfl, rfl⟩ rfl hrevision
        hvalid.shaped.current (fun r hr => by simp [hnone] at hr) (Or.inl rfl)
  | beginStep now stepId =>
      obtain ⟨step, hready, rfl, rfl⟩ := beginStep_eq_ok hstep
      obtain ⟨hstatus, hnext, -⟩ := readyStep_eq_some hready
      have hnone := hvalid.clarification_eq_none hstatus
      refine h.update ⟨rfl, rfl, rfl, rfl⟩ rfl (hstatusUpdate .running) ⟨rfl, rfl⟩ rfl hrevision
        (fun id hid => ?_) (fun r hr => by simp [hnone] at hr) (Or.inl rfl)
      obtain rfl := Option.some.inj hid
      exact mem_stepIds (nextStep_eq_some hnext).1
  | waitForGovernedAction now stepId =>
      obtain ⟨hstatus, step, hget, -, -, rfl⟩ := waitForGovernedAction_eq_ok hstep
      obtain ⟨hmem, rfl⟩ := WorkflowState.getStep_eq_ok hget
      have hnone := hvalid.clarification_eq_none hstatus
      refine h.update ⟨rfl, rfl, rfl, rfl⟩ rfl (hstatusUpdate .waiting) ⟨rfl, rfl⟩ rfl hrevision
        (fun id hid => ?_) (fun r hr => by simp [hnone] at hr) (Or.inl rfl)
      obtain rfl := Option.some.inj hid
      exact mem_stepIds hmem
  | completeGovernedAction now stamp stepId digest =>
      obtain ⟨hstatus, hdigest, step, -, -, -, rfl⟩ := completeGovernedAction_eq_ok hstep
      exact storable_afterCompletion h hvalid hstatus hrevision stamp hdigest
        (admits_ofString (by decide))
  | completeStep now stamp observation =>
      obtain ⟨hstatus, step, -, -, -, rfl⟩ := completeStep_eq_ok hstep
      exact storable_afterCompletion h hvalid hstatus hrevision stamp observation.isDigest_digest
        (admits_ofString (by decide))
  | interrupt now request =>
      obtain ⟨-, step, -, -, rfl⟩ := interrupt_eq_ok hstep
      refine h.update ⟨rfl, rfl, rfl, rfl⟩ rfl (hstatusUpdate .waiting) ⟨rfl, rfl⟩ rfl hrevision
        hvalid.shaped.current (fun r hr => ?_) (Or.inl rfl)
      obtain rfl := Option.some.inj hr
      exact hmoves
  | resume now stamp interruptId answer =>
      obtain ⟨-, request, -, -, -, ⟨hcrashed, -⟩ | ⟨-, haccept⟩⟩ := resume_eq_ok hstep
      · exact absurd (hcrashed.symm.trans hmoves) (by decide)
      · obtain rfl := acceptAnswer_eq_ok haccept
        exact h.update ⟨rfl, rfl, rfl, rfl⟩ rfl
          (fun step hstorable => hstorable.complete (isDigest_hexdigest _) stamp) ⟨rfl, rfl⟩ rfl
          hrevision (fun id hid => by cases hid) (fun r hr => by cases hr) (Or.inl rfl)
  | failStep | replan | cancel | expire => exact hmoves.elim

end MovesOn

/-! ## States of a driver -/

/-- Only a clarification declares a question. -/
theorem PlanStep.Valid.type_of_clarification {step : PlanStep} (h : step.Valid)
    {request : ClarificationRequest} (hrequest : step.clarification = some request) :
    step.type = .clarification := by
  have hshape := (PlanStep.shapeError_eq_none.mp h.2.2.2.2.2.2.2.2.2).1
  unfold PlanStep.typeError at hshape
  cases htype : step.type with
  | clarification => rfl
  | tool | governedAction | finalize =>
      simp only [htype, hrequest] at hshape
      split_ifs at hshape
      simp_all

/-- A clarification declares its question. -/
theorem PlanStep.Valid.exists_clarification {step : PlanStep} (h : step.Valid)
    (htype : step.type = .clarification) : ∃ request, step.clarification = some request := by
  have hshape := (PlanStep.shapeError_eq_none.mp h.2.2.2.2.2.2.2.2.2).1
  refine Option.ne_none_iff_exists'.mp fun hnone => ?_
  simp [PlanStep.typeError, htype, hnone] at hshape

/-- A tool step declares its tool. -/
theorem PlanStep.Valid.exists_toolName {step : PlanStep} (h : step.Valid) (htype : step.type = .tool) :
    ∃ tool, step.toolName = some tool := by
  have hshape := (PlanStep.shapeError_eq_none.mp h.2.2.2.2.2.2.2.2.2).1
  refine Option.ne_none_iff_exists'.mp fun hnone => ?_
  simp [PlanStep.typeError, htype, hnone] at hshape

/-- A state of a plan that is driven, with at most so many changes ahead. -/
structure Driven (W : Agent.WordClass) (I : Interpreter) (P : Plan) (deadline : Text)
    (s : WorkflowState) (m : ℕ) : Prop where
  stage : Stage P s m
  valid : s.Valid I
  storable : s.Storable W I
  bound : s.revision + m ≤ 3 * P.length + 2
  deadline_eq : s.deadline = deadline
  fresh : s.crashRecovered = false

section Driven

variable {W : Agent.WordClass} {I : Interpreter} {P : Plan} {deadline : Text} {s s' : WorkflowState}
  {m m' : ℕ} {now stamp : Instant}

theorem Driven.dag (h : Driven W I P deadline s m) : PlanDag s.steps :=
  planDag_of_validatePlanDag h.valid.2.2.2.2.1

theorem Driven.step {call : EngineCall} (h : Driven W I P deadline s m) (hlength : P.length ≤ 256)
    (hstep : EngineStep I s call s') (hmoves : MovesOn s call) (hchecked : call.Checked)
    (hstage : Stage P s' m') (hlt : m' < m) : Driven W I P deadline s' m' := by
  have honward := onward_of_step hstep hmoves
  have hbound := h.bound
  have hrevision : (natDigits (s.revision + 1)).length ≤ Json.maxStrDigits := by
    rw [length_natDigits]
    have hlog := Nat.log_le_self 10 (s.revision + 1)
    have hmax : Json.maxStrDigits = 4300 := rfl
    omega
  have hstays : StaysLoadable s call := by cases call <;> trivial
  refine ⟨hstage, valid_of_step h.valid hchecked hstays hstep,
    storable_of_step h.storable h.valid hrevision hmoves hstep, ?_,
    honward.frame.deadline.trans h.deadline_eq, honward.crashRecovered.trans h.fresh⟩
  rw [honward.revision]
  omega

/-! ## What the driver finds -/

/-- The check of the runtime that no step was left running. -/
theorem checkNoneRunning_of_status {step : PlanStep} (hdag : PlanDag s.steps) (hstep : step ∈ s.steps)
    (hcurrent : s.currentStepId = some step.stepId) (hstatus : step.status ≠ .running) :
    Runtime.checkNoneRunning s = .ok () := by
  have hget := getStep_of_mem hdag hstep
  unfold WorkflowState.getStep at hget
  split at hget
  · next found hfound =>
      obtain rfl := Except.ok.inj hget
      simp [Runtime.checkNoneRunning, hcurrent, hfound, hstatus]
  · cases hget

theorem checkNoneRunning_of_running {step : PlanStep} (hdag : PlanDag s.steps) (hstep : step ∈ s.steps)
    (hcurrent : s.currentStepId = some step.stepId) (hstatus : step.status = .running) :
    Runtime.checkNoneRunning s ≠ .ok () := by
  have hget := getStep_of_mem hdag hstep
  unfold WorkflowState.getStep at hget
  split at hget
  · next found hfound =>
      obtain rfl := Except.ok.inj hget
      simp [Runtime.checkNoneRunning, hcurrent, hfound, hstatus]
  · cases hget

theorem checkNoneRunning_of_between {done : List Text} {rest : List PlanStep}
    (h : Between P done rest s) (hvalid : s.Valid I) (hdag : PlanDag s.steps) :
    Runtime.checkNoneRunning s = .ok () := by
  cases hcurrent : s.currentStepId with
  | none => simp [Runtime.checkNoneRunning, hcurrent]
  | some id =>
      obtain ⟨step, hstep, rfl⟩ := List.mem_map.mp (hvalid.shaped.current id hcurrent)
      exact checkNoneRunning_of_status hdag hstep hcurrent fun hrunning =>
        h.not_active hstep (Or.inl hrunning)

/-- A state no process is working on. -/
structure Settled (W : Agent.WordClass) (I : Interpreter) (P : Plan) (deadline : Text)
    (s : WorkflowState) (m : ℕ) : Prop where
  driven : Driven W I P deadline s m
  noneRunning : Runtime.checkNoneRunning s = .ok ()

/-- What a call leaves in place of a state: a settled state with less ahead. -/
structure Settles (W : Agent.WordClass) (I : Interpreter) (P : Plan) (deadline : Text)
    (s : WorkflowState) (m : ℕ) (s' : WorkflowState) : Prop where
  revision : s'.revision = s.revision + 1
  settled : ∃ m' < m, Settled W I P deadline s' m'

/-- A state in which a step has begun. -/
structure InStep (W : Agent.WordClass) (I : Interpreter) (P : Plan) (deadline : Text)
    (s : WorkflowState) (step : PlanStep) (m : ℕ) : Prop where
  driven : Driven W I P deadline s m
  status : s.status = .running
  busy : ∃ done rest, Busy P done step .running rest s ∧ m = 3 * rest.length + 3

/-- A settled state of a running workflow waits for a receipt or has a step to begin. -/
theorem Settled.running (h : Settled W I P deadline s m) (hstatus : s.status = .running) :
    (∃ done step rest, Busy P done step .waiting rest s ∧ step.type = .governedAction ∧
      m = 3 * rest.length + 2) ∨
    ∃ done rest, Between P done rest s ∧ m = 3 * rest.length + 1 := by
  have hnone := h.noneRunning
  obtain ⟨hdriven, -⟩ := h
  have hdag := hdriven.dag
  have hstage := hdriven.stage
  cases hstage with
  | ready rest status current between => exact absurd (status.symm.trans hstatus) (by decide)
  | idle done rest status between => exact Or.inr ⟨done, rest, between, rfl⟩
  | active done step rest status busy =>
      exact absurd hnone (checkNoneRunning_of_running hdag busy.mem busy.current busy.status)
  | waiting done step rest status busy type => exact Or.inl ⟨done, step, rest, busy, type, rfl⟩
  | interrupted done step rest status busy question =>
      exact absurd (status.symm.trans hstatus) (by decide)
  | succeeded status current => exact absurd (status.symm.trans hstatus) (by decide)

theorem Settled.start (h : Settled W I P deadline s m) (hlength : P.length ≤ 256)
    (hstatus : s.status = .ready) (hnow : InTime I deadline now) :
    ∃ s', Workflow.start I now s = .ok s' ∧ Settles W I P deadline s m s' := by
  obtain ⟨hdriven, -⟩ := h
  have hdag := hdriven.dag
  have hstage := hdriven.stage
  cases hstage with
  | ready rest status current between =>
      have hrunning : Between P [] rest { s with status := .running } :=
        ⟨between.tracks, between.remaining, between.rest_ne⟩
      obtain ⟨step, next, hready, hmem, hnotDone, -⟩ :=
        hrunning.exists_readyStep hdag rfl (fun id hid => by simp [current] at hid)
      let started : WorkflowState := { s with
        status := .running
        steps := updateStep s.steps step.stepId (.withStatus .ready)
        revision := s.revision + 1 }
      have hstep : EngineStep I s (.start now) started :=
        InTime.start (hdriven.deadline_eq ▸ hnow) status hready hmem
      have hbetween : Between P [] rest started :=
        ⟨between.tracks.ready hnotDone, between.remaining, between.rest_ne⟩
      have hnext := hdriven.step hlength hstep trivial trivial (.idle [] rest rfl hbetween)
        (Nat.lt_succ_self _)
      exact ⟨started, hstep, rfl, _, Nat.lt_succ_self _, hnext,
        checkNoneRunning_of_between hbetween hnext.valid hnext.dag⟩
  | idle done rest status between => exact absurd (status.symm.trans hstatus) (by decide)
  | active done step rest status busy => exact absurd (status.symm.trans hstatus) (by decide)
  | waiting done step rest status busy type => exact absurd (status.symm.trans hstatus) (by decide)
  | interrupted done step rest status busy question =>
      exact absurd (status.symm.trans hstatus) (by decide)
  | succeeded status current => exact absurd (status.symm.trans hstatus) (by decide)

/-- Between two steps the runtime begins one. -/
theorem Settled.begin (h : Settled W I P deadline s m) (hlength : P.length ≤ 256)
    (hstatus : s.status = .running) {done : List Text} {rest : List PlanStep}
    (hbetween : Between P done rest s) (hm : m = 3 * rest.length + 1) :
    ∃ ready, readyStep s = .ok (some ready) ∧ ready ∈ s.steps ∧
      ∀ now, InTime I deadline now → ∃ s', beginStep I now s ready.stepId = .ok s' ∧
        s'.revision = s.revision + 1 ∧
        ∃ m' < m, InStep W I P deadline s' (ready.withStatus .running) m' := by
  obtain ⟨hdriven, -⟩ := h
  have hdag := hdriven.dag
  obtain ⟨ready, next, hready, hmem, hnotDone, hstartable, hremaining, hlast, hrest⟩ :=
    hbetween.exists_readyStep hdag hstatus hdriven.valid.shaped.current
  refine ⟨ready, hready, hmem, fun now hnow => ?_⟩
  let begun : WorkflowState := { s with
    currentStepId := some ready.stepId
    steps := updateStep s.steps ready.stepId (.withStatus .running)
    revision := s.revision + 1 }
  have hstep : EngineStep I s (.beginStep now ready.stepId) begun :=
    InTime.beginStep (hdriven.deadline_eq ▸ hnow) hstatus hdag hready hmem hstartable
  have hbusy : Busy P done (ready.withStatus .running) .running next begun :=
    hbetween.begin hmem hnotDone hremaining hlast rfl rfl
  refine ⟨begun, hstep, rfl, 3 * next.length + 3, by omega, ?_, hstatus, done, next, hbusy, rfl⟩
  exact hdriven.step hlength hstep trivial trivial (.active done _ next hstatus hbusy) (by omega)

theorem InStep.wait {step : PlanStep} (h : InStep W I P deadline s step m) (hlength : P.length ≤ 256)
    (htype : step.type = .governedAction) (hnow : InTime I deadline now) :
    ∃ s', waitForGovernedAction I now s step.stepId = .ok s' ∧ Settles W I P deadline s m s' := by
  obtain ⟨hdriven, hstatus, done, rest, hbusy, rfl⟩ := h
  let waiting : WorkflowState := { s with
    steps := updateStep s.steps step.stepId (.withStatus .waiting)
    currentStepId := some step.stepId
    revision := s.revision + 1 }
  have hstep : EngineStep I s (.waitForGovernedAction now step.stepId) waiting :=
    InTime.waitForGovernedAction (hdriven.deadline_eq ▸ hnow) hstatus hdriven.dag hbusy.mem hbusy.status
      htype
  have hbusy' : Busy P done (step.withStatus .waiting) .waiting rest waiting := hbusy.wait rfl rfl
  have hnext := hdriven.step hlength hstep trivial trivial (.waiting done _ rest hstatus hbusy' htype)
    (Nat.lt_succ_self _)
  exact ⟨waiting, hstep, rfl, _, Nat.lt_succ_self _, hnext,
    checkNoneRunning_of_status hnext.dag hbusy'.mem hbusy'.current (by simp [PlanStep.withStatus])⟩

theorem InStep.interrupt {step : PlanStep} (h : InStep W I P deadline s step m)
    (hlength : P.length ≤ 256) {request : ClarificationRequest}
    (hrequest : step.clarification = some request) (hnow : InTime I deadline now) :
    ∃ s', Workflow.interrupt I now s request = .ok s' ∧ Settles W I P deadline s m s' := by
  obtain ⟨hdriven, hstatus, done, rest, hbusy, rfl⟩ := h
  let interrupted : WorkflowState := { s with
    steps := updateStep s.steps step.stepId (.withStatus .waiting)
    status := .interrupted
    clarification := some request
    revision := s.revision + 1 }
  have hstep : EngineStep I s (.interrupt now request) interrupted :=
    InTime.interrupt (hdriven.deadline_eq ▸ hnow) hstatus hdriven.dag hbusy.mem hbusy.current
      hbusy.status request
  have hbusy' : Busy P done (step.withStatus .waiting) .waiting rest interrupted :=
    hbusy.wait rfl hbusy.current
  have hvalid : request.Valid := (hdriven.valid.step step hbusy.mem).2.2.2.2.1 request hrequest
  have hnext := hdriven.step hlength hstep ⟨step, hbusy.mem, hrequest⟩ hvalid
    (.interrupted done _ rest rfl hbusy' hrequest.symm) (Nat.lt_succ_self _)
  exact ⟨interrupted, hstep, rfl, _, Nat.lt_succ_self _, hnext,
    checkNoneRunning_of_status hnext.dag hbusy'.mem hbusy'.current (by simp [PlanStep.withStatus])⟩

/-- A step that was under way comes to its end. -/
theorem Driven.complete (h : Driven W I P deadline s m) (hlength : P.length ≤ 256)
    (hstatus : s.status = .running) {done : List Text} {step : PlanStep} {moving : StepStatus}
    {rest : List PlanStep} (hbusy : Busy P done step moving rest s) (hm : 3 * rest.length + 1 < m)
    {call : EngineCall} (hstep : EngineStep I s call s') (hmoves : MovesOn s call)
    (hchecked : call.Checked) {digest reason : Text} (hs' : s' =
      afterCompletion s (updateStep s.steps step.stepId (.complete digest stamp)) reason) :
    Settles W I P deadline s m s' := by
  refine ⟨(onward_of_step hstep hmoves).revision, ?_⟩
  rcases hbusy.afterCompletion hstatus digest stamp reason hs' with ⟨hover, hcurrent⟩ |
    ⟨hrunning, hbetween⟩
  · refine ⟨0, by omega, h.step hlength hstep hmoves hchecked (.succeeded hover hcurrent) (by omega), ?_⟩
    simp [Runtime.checkNoneRunning, hcurrent]
  · have hnext := h.step hlength hstep hmoves hchecked (.idle _ rest hrunning hbetween) hm
    exact ⟨_, hm, hnext, checkNoneRunning_of_between hbetween hnext.valid hnext.dag⟩

theorem InStep.complete {step : PlanStep} (h : InStep W I P deadline s step m)
    (hlength : P.length ≤ 256) (hnow : InTime I deadline now) {observation : Observation}
    (htool : step.toolName = some observation.toolName) :
    ∃ s', completeStep I now stamp s observation = .ok s' ∧ Settles W I P deadline s m s' := by
  obtain ⟨hdriven, hstatus, done, rest, hbusy, rfl⟩ := h
  have hstep : EngineStep I s (.completeStep now stamp observation) _ :=
    InTime.completeStep (hdriven.deadline_eq ▸ hnow) hstatus hdriven.dag hbusy.mem hbusy.current
      hbusy.status htool
  exact ⟨_, hstep, hdriven.complete hlength hstatus hbusy (by omega) hstep trivial trivial rfl⟩

/-- A receipt that is recorded takes the workflow on. -/
theorem Settled.completeGovernedAction (h : Settled W I P deadline s m) (hlength : P.length ≤ 256)
    {stepId digest : Text} (hstep : completeGovernedAction I now stamp s stepId digest = .ok s') :
    Settles W I P deadline s m s' := by
  obtain ⟨hstatus, -, step, hget, hwaiting, -, hs'⟩ := completeGovernedAction_eq_ok hstep
  obtain ⟨hmem, rfl⟩ := WorkflowState.getStep_eq_ok hget
  rcases h.running hstatus with ⟨done, busy, rest, hbusy, -, rfl⟩ | ⟨done, rest, hbetween, -⟩
  · have hid : step.stepId = busy.stepId := by
      by_contra hne
      have hstands := hbusy.tracks.stands step hmem
      simp only [Stands, hne, if_false, hwaiting] at hstands
      split_ifs at hstands
      rcases hstands with hstands | hstands <;> cases hstands
    rw [hid] at hs'
    have hcall : EngineStep I s (.completeGovernedAction now stamp step.stepId digest) s' := hstep
    exact h.driven.complete hlength hstatus hbusy (by omega) hcall trivial trivial hs'
  · exact absurd (Or.inr hwaiting) (hbetween.not_active hmem)

/-- An answer that is taken takes the workflow on. -/
theorem Settled.resume (h : Settled W I P deadline s m) (hlength : P.length ≤ 256)
    {interruptId : Governance.Uuid} {answer : Text}
    (hstep : resume I now stamp s interruptId answer = .ok s') :
    Settles W I P deadline s m s' := by
  obtain ⟨hdriven, -⟩ := h
  obtain ⟨hstatus, request, hrequest, -, -, ⟨hcrashed, -⟩ | ⟨-, haccept⟩⟩ := resume_eq_ok hstep
  · exact absurd (hcrashed.symm.trans hdriven.fresh) (by decide)
  · have hs' := acceptAnswer_eq_ok haccept
    have hcall : EngineStep I s (.resume now stamp interruptId answer) s' := hstep
    have hstage := hdriven.stage
    cases hstage with
    | interrupted done step rest status busy question =>
        have htype := (hdriven.valid.step step busy.mem).type_of_clarification
          (question.symm.trans hrequest)
        have hbetween : Between P (step.stepId :: done) rest s' := by
          refine busy.acceptAnswer htype stamp ?_
          rw [hs', busy.current]
          rfl
        have hnext := hdriven.step hlength hcall hdriven.fresh trivial
          (.idle _ rest (by rw [hs']) hbetween) (Nat.lt_succ_self _)
        exact ⟨(onward_of_step hcall hdriven.fresh).revision, _, Nat.lt_succ_self _, hnext,
          checkNoneRunning_of_between hbetween hnext.valid hnext.dag⟩
    | ready rest status current between => exact absurd (status.symm.trans hstatus) (by decide)
    | idle done rest status between => exact absurd (status.symm.trans hstatus) (by decide)
    | active done step rest status busy => exact absurd (status.symm.trans hstatus) (by decide)
    | waiting done step rest status busy type =>
        exact absurd (status.symm.trans hstatus) (by decide)
    | succeeded status current => exact absurd (status.symm.trans hstatus) (by decide)

end Driven

end Workflow
