import SynoraErp.Workflow.Discipline
import SynoraErp.Workflow.ExclusiveLease
import SynoraErp.Workflow.Processes

/-!
# What a process stores in place of a state

Between two states of one plan version a step that has begun does not become startable
again. A step that was dispatched and has no result stays as it is, or becomes the
interrupt of a recovery, which only ends the workflow: no process but the one that
dispatched it stores a result.
-/

namespace Workflow

open Python Transition
open Governance (Uuid)

namespace Runtime

/-! ## What a save stores -/

/-- No step of a name can begin. -/
def Unstartable (steps : Plan) (id : Text) : Prop :=
  ∀ step ∈ steps, step.stepId = id → ¬step.Startable

/-- A state of a run and one after it. -/
structure Later (a b : WorkflowState) : Prop where
  revision : a.revision < b.revision
  version : a.planVersion ≤ b.planVersion
  unstartable : b.planVersion = a.planVersion → ∀ id, Unstartable a.steps id →
    Unstartable b.steps id

theorem Later.trans {a b c : WorkflowState} (h : Later a b) (h' : Later b c) : Later a c := by
  refine ⟨h.revision.trans h'.revision, h.version.trans h'.version, fun hversion id hid => ?_⟩
  have hb : b.planVersion = a.planVersion :=
    le_antisymm (hversion ▸ h'.version) h.version
  exact h'.unstartable (hversion.trans hb.symm) id (h.unstartable hb id hid)

variable {ι : Type}

/-- The state is the last one the process stored, and it has dispatched nothing for it. -/
structure Owns (i : ι) (a : WorkflowState) (s : Shared ι) : Prop where
  saved : (i, a) ∈ s.saved
  last : ∀ b, (i, b) ∈ s.saved → b.revision ≤ a.revision
  dispatched : ∀ d ∈ s.dispatched, d.process = i → d.state ≠ a

/-- The process has dispatched the step of the state. -/
def Executed (i : ι) (a : WorkflowState) (s : Shared ι) : Prop :=
  ∃ d ∈ s.dispatched, d.process = i ∧ d.state = a

/-- The calls of the engine whose result a process may store in place of a state. -/
def MayCall (i : ι) (a : WorkflowState) (s : Shared ι) : EngineCall → Prop
  | .completeStep .. => Executed i a s
  | .failStep .. => False
  | .interrupt .. => Owns i a s
  | .waitForGovernedAction _ stepId => Owns i a s ∧ a.currentStepId = some stepId
  | .resume .. => a.currentStepId ≠ none
  | .replan _ steps _ => (a.status = .running ∨ a.status = .succeeded) ∧ a.steps ⊆ steps
  | .expire => ¬a.status.Terminal
  | .start .. | .beginStep .. | .completeGovernedAction .. | .cancel .. => True

section

variable (I : Interpreter)

/-- What a process may store in place of a state. -/
inductive Succeeds (i : ι) (a : WorkflowState) (s : Shared ι) (b : WorkflowState) : Prop
  | called (call : EngineCall) (may : MayCall i a s call) (step : EngineStep I a call b)
  | failed (executed : Executed i a s) (code : Text) (reading : Instant)
      (step : failTool I a code reading = .ok b)
  | recovered (interruptId : Uuid) (reading : Instant)
      (step : markUncertain I a interruptId reading = .ok b)

end

variable {I : Interpreter} {a b : WorkflowState} {i : ι} {s : Shared ι}

theorem unstartable_updateStep {steps : Plan} {stepId id : Text} {update : PlanStep → PlanStep}
    (hplace : KeepsPlace update) (h : Unstartable steps id)
    (hupdate : id = stepId → ∀ step, ¬(update step).Startable) :
    Unstartable (updateStep steps stepId update) id := by
  intro step hstep hid
  obtain ⟨old, hold, rfl⟩ := mem_updateStep.mp hstep
  by_cases hname : old.stepId = stepId
  · rw [if_pos hname] at hid ⊢
    rw [hplace.stepId] at hid
    exact hupdate (hid.symm.trans hname) old
  · rw [if_neg hname] at hid ⊢
    exact h old hold hid

theorem not_startable_withStatus (status : StepStatus) (h : status ≠ .pending ∧ status ≠ .ready)
    (step : PlanStep) : ¬(step.withStatus status).Startable := by
  rintro (hpending | hready)
  · exact h.1 hpending
  · exact h.2 hready

theorem not_startable_complete (digest : Text) (stamp : Instant) (step : PlanStep) :
    ¬(step.complete digest stamp).Startable :=
  not_startable_withStatus .succeeded (by decide) step

theorem not_startable_fail (error : Text) (step : PlanStep) : ¬(step.fail error).Startable :=
  not_startable_withStatus .failed (by decide) step

theorem afterCompletion_frame (s : WorkflowState) (steps : Plan) (stopReason : Text) :
    (afterCompletion s steps stopReason).planVersion = s.planVersion ∧
      (afterCompletion s steps stopReason).revision = s.revision + 1 ∧
      (afterCompletion s steps stopReason).crashRecovered = s.crashRecovered := by
  unfold afterCompletion
  split_ifs <;> exact ⟨rfl, rfl, rfl⟩

/-- A call of the engine does not make a step of the plan startable that was not. -/
theorem unstartable_of_step {call : EngineCall} (h : EngineStep I a call b) :
    a.planVersion ≤ b.planVersion ∧ (b.planVersion = a.planVersion → ∀ id,
      Unstartable a.steps id → Unstartable b.steps id) := by
  cases call with
  | start now =>
      obtain ⟨-, step, hready, rfl⟩ := start_eq_ok h
      refine ⟨le_refl _, fun _ id hid => unstartable_updateStep (keepsPlace_withStatus _) hid ?_⟩
      rintro rfl
      obtain ⟨-, hnext, -⟩ := readyStep_eq_some hready
      obtain ⟨hmem, hstartable, -⟩ := nextStep_eq_some hnext
      exact absurd hstartable (hid step hmem rfl)
  | beginStep now stepId =>
      obtain ⟨step, -, -, rfl⟩ := beginStep_eq_ok h
      exact ⟨le_refl _, fun _ id hid => unstartable_updateStep (keepsPlace_withStatus _) hid
        fun _ => not_startable_withStatus _ (by decide)⟩
  | waitForGovernedAction now stepId =>
      obtain ⟨-, step, -, -, -, rfl⟩ := waitForGovernedAction_eq_ok h
      exact ⟨le_refl _, fun _ id hid => unstartable_updateStep (keepsPlace_withStatus _) hid
        fun _ => not_startable_withStatus _ (by decide)⟩
  | completeGovernedAction now stamp stepId digest =>
      obtain ⟨-, -, step, -, -, -, rfl⟩ := completeGovernedAction_eq_ok h
      refine ⟨(afterCompletion_frame _ _ _).1.ge, fun _ id hid => ?_⟩
      rw [steps_afterCompletion]
      exact unstartable_updateStep (keepsPlace_complete _ _) hid fun _ => not_startable_complete _ _
  | completeStep now stamp observation =>
      obtain ⟨-, step, -, -, -, rfl⟩ := completeStep_eq_ok h
      refine ⟨(afterCompletion_frame _ _ _).1.ge, fun _ id hid => ?_⟩
      rw [steps_afterCompletion]
      exact unstartable_updateStep (keepsPlace_complete _ _) hid fun _ => not_startable_complete _ _
  | failStep now code detail =>
      obtain ⟨-, step, -, -, rfl⟩ := failStep_eq_ok h
      exact ⟨le_refl _, fun _ id hid => unstartable_updateStep (keepsPlace_fail _) hid
        fun _ => not_startable_fail _⟩
  | interrupt now request =>
      obtain ⟨-, step, -, -, rfl⟩ := interrupt_eq_ok h
      exact ⟨le_refl _, fun _ id hid => unstartable_updateStep (keepsPlace_withStatus _) hid
        fun _ => not_startable_withStatus _ (by decide)⟩
  | resume now stamp interruptId answer =>
      obtain ⟨-, request, -, -, -, ⟨-, hfail⟩ | ⟨-, haccept⟩⟩ := resume_eq_ok h
      · obtain ⟨-, stepId, -, rfl⟩ := acknowledgeRecovery_eq_ok hfail
        exact ⟨le_refl _, fun _ id hid => unstartable_updateStep (keepsPlace_fail _) hid
          fun _ => not_startable_fail _⟩
      · obtain rfl := acceptAnswer_eq_ok haccept
        exact ⟨le_refl _, fun _ id hid => unstartable_updateStep (keepsPlace_complete _ _) hid
          fun _ => not_startable_complete _ _⟩
  | replan now steps reason =>
      obtain ⟨-, -, -, rfl⟩ := replan_eq_ok h
      exact ⟨Nat.le_succ _, fun hversion => absurd hversion (Nat.succ_ne_self _)⟩
  | cancel detail =>
      obtain ⟨-, rfl⟩ := cancel_eq_ok h
      exact ⟨le_refl _, fun _ _ hid => hid⟩
  | expire =>
      obtain rfl := Except.ok.inj h
      unfold expire
      split_ifs <;> exact ⟨le_refl _, fun _ _ hid => hid⟩

theorem failTool_eq_ok {code : Text} {reading : Instant} (h : failTool I a code reading = .ok b) :
    ∃ failed, failStep I reading a "TOOL_ERROR" code = .ok failed ∧
      b = { failed with replanReason := some .toolError } := by
  obtain ⟨failed, hfailed, h⟩ := Except.bind_eq_ok.mp h
  exact ⟨failed, hfailed, (Except.ok.inj h).symm⟩

theorem markUncertain_eq_ok {interruptId : Uuid} {reading : Instant}
    (h : markUncertain I a interruptId reading = .ok b) :
    ∃ interrupted, interrupt I reading a (crashRequest interruptId) = .ok interrupted ∧
      b = { interrupted with crashRecovered := true, replanReason := some .stateDrift } := by
  obtain ⟨interrupted, hinterrupted, h⟩ := Except.bind_eq_ok.mp h
  exact ⟨interrupted, hinterrupted, (Except.ok.inj h).symm⟩

/-- What is stored in place of a state comes after it. -/
theorem Succeeds.later (h : Succeeds I i a s b) (hrevision : b.revision = a.revision + 1) :
    Later a b := by
  have hlt : a.revision < b.revision := hrevision ▸ Nat.lt_succ_self _
  cases h with
  | called call may step =>
      obtain ⟨hversion, hunstartable⟩ := unstartable_of_step step
      exact ⟨hlt, hversion, hunstartable⟩
  | failed executed code reading step =>
      obtain ⟨failed, hfailed, rfl⟩ := failTool_eq_ok step
      have hstep : EngineStep I a (.failStep reading "TOOL_ERROR" code) failed := hfailed
      obtain ⟨hversion, hunstartable⟩ := unstartable_of_step hstep
      exact ⟨hlt, hversion, hunstartable⟩
  | recovered interruptId reading step =>
      obtain ⟨interrupted, hinterrupted, rfl⟩ := markUncertain_eq_ok step
      have hstep : EngineStep I a (.interrupt reading (crashRequest interruptId)) interrupted :=
        hinterrupted
      obtain ⟨hversion, hunstartable⟩ := unstartable_of_step hstep
      exact ⟨hlt, hversion, hunstartable⟩

/-! ## A step without a result -/

/-- The plan has steps of a name, and they all satisfy a condition. -/
structure Shows (steps : Plan) (id : Text) (P : PlanStep → Prop) : Prop where
  known : id ∈ stepIds steps
  all : ∀ step ∈ steps, step.stepId = id → P step

section Shows

variable {steps : Plan} {id stepId : Text} {update : PlanStep → PlanStep} {P P' : PlanStep → Prop}

theorem Shows.mono (h : Shows steps id P) (hP : ∀ step, P step → P' step) : Shows steps id P' :=
  ⟨h.known, fun step hstep hid => hP step (h.all step hstep hid)⟩

theorem Shows.updateStep_of_ne (h : Shows steps id P) (hplace : KeepsPlace update)
    (hne : stepId ≠ id) : Shows (updateStep steps stepId update) id P := by
  refine ⟨by rw [stepIds_updateStep hplace]; exact h.known, fun step hstep hid => ?_⟩
  obtain ⟨old, hold, rfl⟩ := mem_updateStep.mp hstep
  by_cases hname : old.stepId = stepId
  · rw [if_pos hname, hplace.stepId] at hid
    exact absurd (hname.symm.trans hid) hne
  · rw [if_neg hname] at hid ⊢
    exact h.all old hold hid

theorem Shows.updateStep (h : Shows steps id P) (hplace : KeepsPlace update)
    (hupdate : ∀ step, P step → P' (update step)) : Shows (updateStep steps id update) id P' := by
  refine ⟨by rw [stepIds_updateStep hplace]; exact h.known, fun step hstep hid => ?_⟩
  obtain ⟨old, hold, rfl⟩ := mem_updateStep.mp hstep
  by_cases hname : old.stepId = id
  · rw [if_pos hname]
    exact hupdate old (h.all old hold hname)
  · rw [if_neg hname] at hid
    exact absurd hid hname

theorem Shows.exists_mem (h : Shows steps id P) : ∃ step ∈ steps, step.stepId = id ∧ P step := by
  obtain ⟨step, hstep, hid⟩ := List.mem_map.mp h.known
  exact ⟨step, hstep, hid, h.all step hstep hid⟩

end Shows

def IsRunning (step : PlanStep) : Prop := step.status = .running

theorem Shows.unstartable {steps : Plan} {id : Text} (h : Shows steps id IsRunning) :
    Unstartable steps id := by
  intro step hstep hid
  have hrunning : step.status = .running := h.all step hstep hid
  simp [PlanStep.Startable, hrunning]

/-- The step of a name is under way and current. -/
structure Underway (a : WorkflowState) (id : Text) : Prop where
  status : a.status = .running
  current : a.currentStepId = some id
  steps : Shows a.steps id IsRunning

/-- A step no process has stored a result of. -/
def Unresolved (a : WorkflowState) (step : PlanStep) : Prop :=
  step.status = .running ∨ (step.status = .waiting ∧ a.crashRecovered = true) ∨
    (step.status = .failed ∧ step.error = some manualRecovery)

/-- What may have become of a step that was dispatched and has no result: nothing was
stored since, or the workflow went on beside it, or it waits for the answer to a
recovery, or the workflow has ended. -/
inductive Uncertain (begun : WorkflowState) (id : Text) (last : WorkflowState) : Prop
  | left (eq : last = begun)
  | bypassed (version : last.planVersion = begun.planVersion)
      (current : last.currentStepId ≠ some id)
      (steps : Shows last.steps id IsRunning)
  | recovered (version : last.planVersion = begun.planVersion) (status : last.status = .interrupted)
      (current : last.currentStepId = some id) (crashed : last.crashRecovered = true)
      (steps : Shows last.steps id fun step => step.status = .waiting)
  | ended (version : last.planVersion = begun.planVersion)
      (status : last.status = .cancelled ∨ last.status = .expired ∨ last.status = .failed)
      (steps : Shows last.steps id (Unresolved last))

/-- The result of a step: its digest, or the failure of its tool. -/
def HasResult (step : PlanStep) : Prop :=
  (step.status = .succeeded ∧ step.observationDigest ≠ none) ∨ step.status = .failed

theorem currentStepId_afterCompletion_ne {s : WorkflowState} {steps : Plan} {stopReason id : Text}
    (h : Unstartable steps id) : (afterCompletion s steps stopReason).currentStepId ≠ some id := by
  intro hcurrent
  unfold afterCompletion at hcurrent
  split_ifs at hcurrent
  obtain ⟨step, hstep, hid⟩ := Option.map_eq_some_iff.mp hcurrent
  obtain ⟨hmem, hstartable, -⟩ := nextStep_eq_some hstep
  exact h step hmem hid hstartable

/-- The success of another step leaves a running step behind. -/
theorem bypassed_afterCompletion {begun : WorkflowState} {id : Text} (hversion : a.planVersion = begun.planVersion)
    (hsteps : Shows a.steps id IsRunning) {stepId digest : Text} {stamp : Instant}
    (hne : stepId ≠ id) (stopReason : Text) :
    Uncertain begun id (afterCompletion a (updateStep a.steps stepId (.complete digest stamp))
      stopReason) := by
  have hkept : Shows (updateStep a.steps stepId (.complete digest stamp)) id IsRunning :=
    hsteps.updateStep_of_ne (keepsPlace_complete digest stamp) hne
  refine .bypassed ?_ (currentStepId_afterCompletion_ne hkept.unstartable) ?_
  · rw [(afterCompletion_frame _ _ _).1, hversion]
  · rw [steps_afterCompletion]
    exact hkept

theorem stepId_ne_of_status {steps : Plan} {id : Text} (h : Shows steps id IsRunning)
    {step : PlanStep} (hstep : step ∈ steps) (hstatus : step.status ≠ .running) :
    step.stepId ≠ id :=
  fun hid => hstatus (h.all step hstep hid)

theorem status_of_startable {step : PlanStep} (h : step.Startable) : step.status ≠ .running := by
  rcases h with h | h <;> simp [h]

/-- A plan with a running step is not replaced by one that keeps its steps. -/
theorem not_replan_of_running {now : Instant} {steps : Plan} {reason : ReplanReason} {step : PlanStep}
    (h : replan I now a steps reason = .ok b) (hsub : a.steps ⊆ steps) (hstep : step ∈ a.steps) :
    step.status ≠ .running := by
  simp only [replan, Except.bind_eq_ok, Except.ite_error_eq_ok, not_not, not_exists, not_and] at h
  obtain ⟨-, -, u, -, -, hnone, -⟩ := h
  exact hnone step (hsub hstep)

/-- A workflow that was cancelled, has expired or has failed is not replaced. -/
theorem not_step_of_ended {call : EngineCall} (h : EngineStep I a call b) (may : MayCall i a s call)
    (hended : a.status = .cancelled ∨ a.status = .expired ∨ a.status = .failed) : False := by
  have hrunning : a.status ≠ .running := by rcases hended with h | h | h <;> simp [h]
  have hterminal : a.status.Terminal := by
    rcases hended with h | h | h <;> simp [WorkflowStatus.Terminal, h]
  cases call with
  | start now =>
      have hready := (start_eq_ok h).1
      rcases hended with h | h | h <;> simp [h] at hready
  | beginStep now stepId =>
      obtain ⟨step, hready, -⟩ := beginStep_eq_ok h
      exact hrunning (readyStep_eq_some hready).1
  | waitForGovernedAction now stepId => exact hrunning (waitForGovernedAction_eq_ok h).1
  | completeGovernedAction now stamp stepId digest => exact hrunning (completeGovernedAction_eq_ok h).1
  | completeStep now stamp observation => exact hrunning (completeStep_eq_ok h).1
  | failStep now code detail => exact hrunning (failStep_eq_ok h).1
  | interrupt now request => exact hrunning (interrupt_eq_ok h).1
  | resume now stamp interruptId answer =>
      have hinterrupted := (resume_eq_ok h).1
      rcases hended with h | h | h <;> simp [h] at hinterrupted
  | replan now steps reason =>
      have hstatus := may.1
      rcases hended with h | h | h <;> simp [h] at hstatus
  | cancel detail => exact (cancel_eq_ok h).1 hterminal
  | expire => exact may hterminal

/-- An interrupt of a recovery is answered, or the workflow is ended. -/
theorem uncertain_of_recovered {begun : WorkflowState} {id : Text} {call : EngineCall} (h : EngineStep I a call b)
    (may : MayCall i a s call) (hversion : a.planVersion = begun.planVersion)
    (hstatus : a.status = .interrupted) (hcurrent : a.currentStepId = some id)
    (hcrashed : a.crashRecovered = true)
    (hsteps : Shows a.steps id fun step => step.status = .waiting) : Uncertain begun id b := by
  have hrunning : a.status ≠ .running := by simp [hstatus]
  have hwaiting : Shows a.steps id (Unresolved a) :=
    hsteps.mono fun step hstep => Or.inr (Or.inl ⟨hstep, hcrashed⟩)
  cases call with
  | start now =>
      have hready := (start_eq_ok h).1
      simp [hstatus] at hready
  | beginStep now stepId =>
      obtain ⟨step, hready, -⟩ := beginStep_eq_ok h
      exact absurd (readyStep_eq_some hready).1 hrunning
  | waitForGovernedAction now stepId => exact absurd (waitForGovernedAction_eq_ok h).1 hrunning
  | completeGovernedAction now stamp stepId digest =>
      exact absurd (completeGovernedAction_eq_ok h).1 hrunning
  | completeStep now stamp observation => exact absurd (completeStep_eq_ok h).1 hrunning
  | failStep now code detail => exact absurd (failStep_eq_ok h).1 hrunning
  | interrupt now request => exact absurd (interrupt_eq_ok h).1 hrunning
  | resume now stamp interruptId answer =>
      obtain ⟨-, request, -, -, -, ⟨-, hfail⟩ | ⟨hnot, -⟩⟩ := resume_eq_ok h
      · obtain ⟨-, stepId, hid, rfl⟩ := acknowledgeRecovery_eq_ok hfail
        obtain rfl : id = stepId := Option.some.inj (hcurrent.symm.trans hid)
        exact .ended hversion (Or.inr (Or.inr rfl))
          (hsteps.updateStep (keepsPlace_fail _) fun _ _ => Or.inr (Or.inr ⟨rfl, rfl⟩))
      · simp [hcrashed] at hnot
  | replan now steps reason =>
      have hreplan := may.1
      simp [hstatus] at hreplan
  | cancel detail =>
      obtain ⟨-, rfl⟩ := cancel_eq_ok h
      exact .ended hversion (Or.inl rfl) hwaiting
  | expire =>
      obtain rfl := Except.ok.inj h
      rw [expire, if_neg may]
      exact .ended hversion (Or.inr (Or.inl rfl)) hwaiting

/-- A step that is running and not current stays as it is. -/
theorem uncertain_of_bypassed {begun : WorkflowState} {id : Text} {call : EngineCall} (h : EngineStep I a call b)
    (may : MayCall i a s call) (hversion : a.planVersion = begun.planVersion)
    (hcurrent : a.currentStepId ≠ some id)
    (hsteps : Shows a.steps id IsRunning) : Uncertain begun id b := by
  have hne : ∀ step : PlanStep, a.currentStepId = some step.stepId → step.stepId ≠ id :=
    fun step hstep hid => hcurrent (hid ▸ hstep)
  cases call with
  | start now =>
      obtain ⟨-, step, hready, rfl⟩ := start_eq_ok h
      obtain ⟨hmem, hstartable, -⟩ := nextStep_eq_some (readyStep_eq_some hready).2.1
      exact .bypassed hversion hcurrent (hsteps.updateStep_of_ne (keepsPlace_withStatus _)
        (stepId_ne_of_status hsteps hmem (status_of_startable hstartable)))
  | beginStep now stepId =>
      obtain ⟨step, hready, rfl, rfl⟩ := beginStep_eq_ok h
      obtain ⟨hmem, hstartable, -⟩ := nextStep_eq_some (readyStep_eq_some hready).2.1
      have hid := stepId_ne_of_status hsteps hmem (status_of_startable hstartable)
      exact .bypassed hversion (fun h => hid (Option.some.inj h))
        (hsteps.updateStep_of_ne (keepsPlace_withStatus _) hid)
  | waitForGovernedAction now stepId =>
      obtain ⟨-, step, hget, -, -, rfl⟩ := waitForGovernedAction_eq_ok h
      have hid : stepId ≠ id := fun hid => hcurrent (hid ▸ may.2)
      exact .bypassed hversion (fun h => hid (Option.some.inj h))
        (hsteps.updateStep_of_ne (keepsPlace_withStatus _) hid)
  | completeGovernedAction now stamp stepId digest =>
      obtain ⟨-, -, step, hget, hwaiting, -, rfl⟩ := completeGovernedAction_eq_ok h
      obtain ⟨hmem, rfl⟩ := WorkflowState.getStep_eq_ok hget
      exact bypassed_afterCompletion hversion hsteps
        (stepId_ne_of_status hsteps hmem (by simp [hwaiting])) _
  | completeStep now stamp observation =>
      obtain ⟨-, step, hget, -, -, rfl⟩ := completeStep_eq_ok h
      exact bypassed_afterCompletion hversion hsteps (hne step (runningStep_eq_ok hget).2) _
  | failStep now code detail => exact may.elim
  | interrupt now request =>
      obtain ⟨-, step, hget, -, rfl⟩ := interrupt_eq_ok h
      exact .bypassed hversion hcurrent (hsteps.updateStep_of_ne (keepsPlace_withStatus _)
        (hne step (runningStep_eq_ok hget).2))
  | resume now stamp interruptId answer =>
      obtain ⟨-, request, -, -, -, ⟨-, hfail⟩ | ⟨-, haccept⟩⟩ := resume_eq_ok h
      · obtain ⟨-, stepId, hid, rfl⟩ := acknowledgeRecovery_eq_ok hfail
        exact .bypassed hversion hcurrent (hsteps.updateStep_of_ne (keepsPlace_fail _)
          fun heq => hcurrent (heq ▸ hid))
      · obtain rfl := acceptAnswer_eq_ok haccept
        obtain ⟨stepId, hid⟩ := Option.ne_none_iff_exists'.mp may
        refine .bypassed hversion (by simp) (hsteps.updateStep_of_ne (keepsPlace_complete _ _) ?_)
        rw [hid]
        exact fun heq => hcurrent (hid.trans (congrArg some heq))
  | replan now steps reason =>
      obtain ⟨step, hmem, -, hrunning⟩ := hsteps.exists_mem
      exact absurd hrunning (not_replan_of_running h may.2 hmem)
  | cancel detail =>
      obtain ⟨-, rfl⟩ := cancel_eq_ok h
      exact .bypassed hversion hcurrent hsteps
  | expire =>
      obtain rfl := Except.ok.inj h
      rw [expire, if_neg may]
      exact .bypassed hversion hcurrent hsteps

/-- Of a step that was dispatched only the process that dispatched it stores a result. -/
theorem uncertain_or_result {begun : WorkflowState} {id : Text} {call : EngineCall}
    (hunderway : Underway begun id) (h : EngineStep I begun call b)
    (may : MayCall i begun s call) (howns : ¬Owns i begun s) :
    Uncertain begun id b ∨ (Executed i begun s ∧ Shows b.steps id HasResult) := by
  obtain ⟨hstatus, hcurrent, hsteps⟩ := hunderway
  cases call with
  | start now =>
      have hready := (start_eq_ok h).1
      simp [hstatus] at hready
  | beginStep now stepId =>
      obtain ⟨step, hready, -⟩ := beginStep_eq_ok h
      obtain ⟨current, hget, hnot⟩ := (readyStep_eq_some hready).2.2 _ hcurrent
      obtain ⟨hmem, hid⟩ := WorkflowState.getStep_eq_ok hget
      exact absurd (Or.inl (hsteps.all current hmem hid)) hnot
  | waitForGovernedAction now stepId => exact absurd may.1 howns
  | completeGovernedAction now stamp stepId digest =>
      obtain ⟨-, -, step, hget, hwaiting, -, rfl⟩ := completeGovernedAction_eq_ok h
      obtain ⟨hmem, rfl⟩ := WorkflowState.getStep_eq_ok hget
      exact Or.inl (bypassed_afterCompletion rfl hsteps
        (stepId_ne_of_status hsteps hmem (by simp [hwaiting])) _)
  | completeStep now stamp observation =>
      obtain ⟨-, step, hget, -, -, rfl⟩ := completeStep_eq_ok h
      have hid : step.stepId = id :=
        Option.some.inj ((runningStep_eq_ok hget).2.symm.trans hcurrent)
      refine Or.inr ⟨may, ?_⟩
      rw [steps_afterCompletion, hid]
      exact hsteps.updateStep (keepsPlace_complete _ _) fun _ _ =>
        Or.inl ⟨rfl, Option.some_ne_none _⟩
  | failStep now code detail => exact may.elim
  | interrupt now request => exact absurd may howns
  | resume now stamp interruptId answer =>
      have hinterrupted := (resume_eq_ok h).1
      simp [hstatus] at hinterrupted
  | replan now steps reason =>
      obtain ⟨step, hmem, -, hrunning⟩ := hsteps.exists_mem
      exact absurd hrunning (not_replan_of_running h may.2 hmem)
  | cancel detail =>
      obtain ⟨-, rfl⟩ := cancel_eq_ok h
      exact Or.inl (.ended rfl (Or.inl rfl) (hsteps.mono fun _ hstep => Or.inl hstep))
  | expire =>
      obtain rfl := Except.ok.inj h
      rw [expire, if_neg may]
      exact Or.inl (.ended rfl (Or.inr (Or.inl rfl)) (hsteps.mono fun _ hstep => Or.inl hstep))

/-- What is stored in place of a state leaves a step without a result as it may be, or is
its result. -/
theorem Succeeds.uncertain {begun : WorkflowState} {id : Text} (hunderway : Underway begun id)
    (howns : a = begun → ¬Owns i begun s) (h : Succeeds I i a s b) (ha : Uncertain begun id a) :
    Uncertain begun id b ∨
      (a = begun ∧ Executed i a s ∧ Shows b.steps id HasResult) := by
  cases h with
  | called call may step =>
      cases ha with
      | left eq =>
          subst eq
          rcases uncertain_or_result hunderway step may (howns rfl) with h | ⟨hexecuted, hresult⟩
          · exact Or.inl h
          · exact Or.inr ⟨rfl, hexecuted, hresult⟩
      | bypassed version current steps =>
          exact Or.inl (uncertain_of_bypassed step may version current steps)
      | recovered version status current crashed steps =>
          exact Or.inl (uncertain_of_recovered step may version status current crashed steps)
      | ended version status steps => exact (not_step_of_ended step may status).elim
  | failed executed code reading step =>
      obtain ⟨failed, hfailed, rfl⟩ := failTool_eq_ok step
      obtain ⟨hrunning, failing, hget, -, rfl⟩ := failStep_eq_ok hfailed
      obtain ⟨-, hid⟩ := runningStep_eq_ok hget
      cases ha with
      | left eq =>
          subst eq
          have hname : failing.stepId = id :=
            Option.some.inj (hid.symm.trans hunderway.current)
          refine Or.inr ⟨rfl, executed, ?_⟩
          simp only [hname]
          exact hunderway.steps.updateStep (keepsPlace_fail _) fun _ _ => Or.inr rfl
      | bypassed version current steps =>
          have hne : failing.stepId ≠ id := fun heq => current (heq ▸ hid)
          exact Or.inl (.bypassed version (fun h => hne (Option.some.inj h))
            (steps.updateStep_of_ne (keepsPlace_fail _) hne))
      | recovered version status => simp [status] at hrunning
      | ended version status => rcases status with h | h | h <;> simp [h] at hrunning
  | recovered interruptId reading step =>
      obtain ⟨interrupted, hinterrupted, rfl⟩ := markUncertain_eq_ok step
      obtain ⟨hrunning, waiting, hget, -, rfl⟩ := interrupt_eq_ok hinterrupted
      obtain ⟨-, hid⟩ := runningStep_eq_ok hget
      cases ha with
      | left eq =>
          subst eq
          have hname : waiting.stepId = id :=
            Option.some.inj (hid.symm.trans hunderway.current)
          refine Or.inl (.recovered rfl rfl hunderway.current rfl ?_)
          simp only [hname]
          exact hunderway.steps.updateStep (keepsPlace_withStatus _) fun _ _ => rfl
      | bypassed version current steps =>
          have hne : waiting.stepId ≠ id := fun heq => current (heq ▸ hid)
          exact Or.inl (.bypassed version current
            (steps.updateStep_of_ne (keepsPlace_withStatus _) hne))
      | recovered version status => simp [status] at hrunning
      | ended version status => rcases status with h | h | h <;> simp [h] at hrunning

end Runtime

end Workflow
