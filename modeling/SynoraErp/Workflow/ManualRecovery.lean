import SynoraErp.Transition.Path
import SynoraErp.Workflow.Stages
import SynoraErp.Workflow.Succession

/-!
# Manual recovery

A step that was running when its process stopped is interrupted by the recovery, and only
`inspect` is taken for an answer, which ends the workflow. The recovery leaves a flag on the
state that no later operation clears, a new plan included: after a replan the answer to an
ordinary clarification is refused as well.
-/

namespace Workflow

open Python Transition
open Governance (Uuid)

/-- What happens to a run: a call of the engine, or the recovery of a step whose process
stopped. -/
inductive RecoveryEvent where
  | called (call : EngineCall)
  | recovered (interruptId : Uuid) (reading : Instant)

variable {I : Interpreter}

variable (I) in
def RecoveryStep (s : WorkflowState) : RecoveryEvent → WorkflowState → Prop
  | .called call, s' => EngineStep I s call s'
  | .recovered interruptId reading, s' =>
      Runtime.leftRunning s = .ok true ∧ Runtime.markUncertain I s interruptId reading = .ok s'

theorem RecoveryStep.ofEngine {s s' : WorkflowState} {call : EngineCall}
    (h : EngineStep I s call s') : RecoveryStep I s (.called call) s' := h

def RecoveryEvent.IsRecovery : RecoveryEvent → Prop
  | .called _ => False
  | .recovered .. => True

/-- The event replaces the plan of a state that a recovery has marked. -/
def ReplansRecovered (x : Step WorkflowState RecoveryEvent) : Prop :=
  x.before.crashRecovered = true ∧ ∃ now steps reason, x.event = .called (.replan now steps reason)

/-- Every answer in time that the question admits resumes the workflow. -/
def Answerable (I : Interpreter) (s : WorkflowState) : Prop :=
  ∀ now request s', interrupt I now s request = .ok s' →
    ∀ reading stamp answer, InTime I s'.deadline reading → checkAnswer request answer = .ok () →
      ∃ t, resume I reading stamp s' request.interruptId answer = .ok t ∧ t.status = .running

/-- No answer resumes the workflow, and none marks the interrupted step succeeded. -/
def NeverResumed (I : Interpreter) (s : WorkflowState) : Prop :=
  ∀ reading stamp interruptId answer t, resume I reading stamp s interruptId answer = .ok t →
    t.status ≠ .running ∧ ∃ stepId, s.currentStepId = some stepId ∧
      ∀ step ∈ t.steps, step.stepId = stepId → step.status ≠ .succeeded

/-! ## The flag -/

theorem crashRecovered_afterCompletion (s : WorkflowState) (steps : Plan) (stopReason : Text) :
    (afterCompletion s steps stopReason).crashRecovered = s.crashRecovered := by
  unfold afterCompletion
  split_ifs <;> rfl

/-- No call of the engine changes the flag. -/
theorem crashRecovered_of_step {s s' : WorkflowState} {call : EngineCall}
    (h : EngineStep I s call s') : s'.crashRecovered = s.crashRecovered := by
  cases call with
  | start now =>
      obtain ⟨-, step, -, rfl⟩ := start_eq_ok h
      rfl
  | beginStep now stepId =>
      obtain ⟨step, -, -, rfl⟩ := beginStep_eq_ok h
      rfl
  | waitForGovernedAction now stepId =>
      obtain ⟨-, step, -, -, -, rfl⟩ := waitForGovernedAction_eq_ok h
      rfl
  | completeGovernedAction now stamp stepId digest =>
      obtain ⟨-, -, step, -, -, -, rfl⟩ := completeGovernedAction_eq_ok h
      exact crashRecovered_afterCompletion _ _ _
  | completeStep now stamp observation =>
      obtain ⟨-, step, -, -, -, rfl⟩ := completeStep_eq_ok h
      exact crashRecovered_afterCompletion _ _ _
  | failStep now code detail =>
      obtain ⟨-, step, -, -, rfl⟩ := failStep_eq_ok h
      rfl
  | interrupt now request =>
      obtain ⟨-, step, -, -, rfl⟩ := interrupt_eq_ok h
      rfl
  | resume now stamp interruptId answer =>
      obtain ⟨-, request, -, -, -, hresume⟩ := resume_eq_ok h
      cases hresume with
      | inl hfail =>
          obtain ⟨-, stepId, -, rfl⟩ := acknowledgeRecovery_eq_ok hfail.2
          rfl
      | inr haccept =>
          rw [acceptAnswer_eq_ok haccept.2]
  | replan now steps reason =>
      obtain ⟨-, -, -, rfl⟩ := replan_eq_ok h
      rfl
  | cancel detail =>
      obtain ⟨-, rfl⟩ := cancel_eq_ok h
      rfl
  | expire =>
      obtain rfl := Except.ok.inj h
      unfold expire
      split_ifs <;> rfl

theorem crashRecovered_of_recovered {s s' : WorkflowState} {interruptId : Uuid}
    {reading : Instant} (h : RecoveryStep I s (.recovered interruptId reading) s') :
    s.status = .running ∧ s'.crashRecovered = true ∧ s'.status = .interrupted := by
  obtain ⟨interrupted, hinterrupt, rfl⟩ := Runtime.markUncertain_eq_ok h.2
  obtain ⟨hstatus, step, -, -, rfl⟩ := interrupt_eq_ok hinterrupt
  exact ⟨hstatus, rfl, rfl⟩

/-- The flag says whether the run has been recovered. -/
theorem crashRecovered_iff {s₀ s : WorkflowState} {trace : List (Step WorkflowState RecoveryEvent)}
    (hfresh : s₀.crashRecovered = false) (h : Path (RecoveryStep I) s₀ trace s) :
    s.crashRecovered = true ↔ ∃ x ∈ trace, x.event.IsRecovery := by
  apply Path.snoc_induction (P := fun trace s =>
    s.crashRecovered = true ↔ ∃ x ∈ trace, x.event.IsRecovery) _ _ h
  · simp [hfresh]
  · intro trace t event u _ ih hstep
    cases event with
    | called call =>
        rw [crashRecovered_of_step hstep, ih]
        simp [RecoveryEvent.IsRecovery]
    | recovered interruptId reading =>
        have hflag := (crashRecovered_of_recovered hstep).2.1
        simp [hflag, RecoveryEvent.IsRecovery]

/-! ## The answer to a recovery -/

theorem neverResumed_of_crashRecovered {s : WorkflowState} (h : s.crashRecovered = true) :
    NeverResumed I s := by
  intro reading stamp interruptId answer t hresume
  obtain ⟨-, request, -, -, -, htaken⟩ := resume_eq_ok hresume
  cases htaken with
  | inl hfail =>
      obtain ⟨-, stepId, hcurrent, rfl⟩ := acknowledgeRecovery_eq_ok hfail.2
      refine ⟨by simp, stepId, hcurrent, ?_⟩
      intro step hstep hid
      obtain ⟨old, -, rfl⟩ := mem_updateStep.mp hstep
      by_cases hold : old.stepId = stepId
      · rw [if_pos hold]
        simp [PlanStep.fail]
      · rw [if_neg hold] at hid
        exact absurd hid hold
  | inr haccept =>
      rw [h] at haccept
      cases haccept.1

/-! ## The answer to a question -/

/-- An answer that the question of a step admits, in time, resumes the workflow exactly when
no recovery has marked it. -/
theorem resumed_iff {s s' : WorkflowState} {now reading stamp : Instant}
    {request : ClarificationRequest} {answer : Text} (h : interrupt I now s request = .ok s')
    (hreading : InTime I s'.deadline reading) (hanswer : checkAnswer request answer = .ok ()) :
    (∃ t, resume I reading stamp s' request.interruptId answer = .ok t ∧ t.status = .running) ↔
      s.crashRecovered = false := by
  have hcall : EngineStep I s (.interrupt now request) s' := h
  have hflag := crashRecovered_of_step hcall
  constructor
  · rintro ⟨t, hresume, hrunning⟩
    by_contra hcrashed
    rw [← hflag, Bool.not_eq_false] at hcrashed
    exact (neverResumed_of_crashRecovered hcrashed _ _ _ _ _ hresume).1 hrunning
  · intro hfresh
    obtain ⟨-, step, hstep, -, rfl⟩ := interrupt_eq_ok h
    obtain ⟨hmem, hcurrent⟩ := runningStep_eq_ok hstep
    exact ⟨_, InTime.resume hreading rfl rfl hanswer hfresh (mem_updateStep_self hmem)
      hcurrent, rfl⟩

/-- A state that a recovery has marked is not running, until its plan is replaced. -/
def Halted (s : WorkflowState) : Prop :=
  s.crashRecovered = true → s.status ≠ .running ∧ s.status ≠ .ready

theorem halted_of_step {s s' : WorkflowState} {event : RecoveryEvent} (hhalted : Halted s)
    (hreplan : ¬ReplansRecovered ⟨s, event, s'⟩) (h : RecoveryStep I s event s') : Halted s' := by
  intro hflag
  cases event with
  | recovered interruptId reading =>
      rw [(crashRecovered_of_recovered h).2.2]
      simp
  | called call =>
      have hstep : EngineStep I s call s' := h
      rw [crashRecovered_of_step hstep] at hflag
      obtain ⟨hrunning, hready⟩ := hhalted hflag
      cases call with
      | start now => exact absurd (start_eq_ok hstep).1 hready
      | beginStep now stepId =>
          obtain ⟨step, hfound, -⟩ := beginStep_eq_ok hstep
          exact absurd (readyStep_eq_some hfound).1 hrunning
      | waitForGovernedAction now stepId =>
          exact absurd (waitForGovernedAction_eq_ok hstep).1 hrunning
      | completeGovernedAction now stamp stepId digest =>
          exact absurd (completeGovernedAction_eq_ok hstep).1 hrunning
      | completeStep now stamp observation => exact absurd (completeStep_eq_ok hstep).1 hrunning
      | failStep now code detail => exact absurd (failStep_eq_ok hstep).1 hrunning
      | interrupt now request => exact absurd (interrupt_eq_ok hstep).1 hrunning
      | resume now stamp interruptId answer =>
          obtain ⟨-, request, -, -, -, htaken⟩ := resume_eq_ok hstep
          cases htaken with
          | inl hfail =>
              obtain ⟨-, stepId, -, rfl⟩ := acknowledgeRecovery_eq_ok hfail.2
              simp
          | inr haccept =>
              rw [hflag] at haccept
              cases haccept.1
      | replan now steps reason => exact absurd ⟨hflag, now, steps, reason, rfl⟩ hreplan
      | cancel detail =>
          obtain ⟨-, rfl⟩ := cancel_eq_ok hstep
          simp
      | expire =>
          obtain rfl := Except.ok.inj hstep
          unfold expire
          split_ifs
          · exact ⟨hrunning, hready⟩
          · simp

theorem halted_of_path {s₀ s : WorkflowState} {trace : List (Step WorkflowState RecoveryEvent)}
    (hfresh : s₀.crashRecovered = false) (h : Path (RecoveryStep I) s₀ trace s)
    (hreplan : ∀ x ∈ trace, ¬ReplansRecovered x) : Halted s := by
  have hrestricted : Path
      (fun s event s' => ¬ReplansRecovered ⟨s, event, s'⟩ ∧ RecoveryStep I s event s') s₀ trace s :=
    h.restrict fun x hx => hreplan x hx
  apply hrestricted.invariant (P := Halted)
  · intro a event b ha hstep
    exact halted_of_step ha hstep.1 hstep.2
  · intro hflag
    rw [hfresh] at hflag
    cases hflag

/-- Over every run: a workflow that a recovery interrupted is never resumed, nor is its step
marked succeeded; while no plan of a recovered state is replaced, every admitted answer to a
question resumes the workflow; and it does so exactly when no recovery came before. -/
theorem manual_recovery_binds {runId traceId : Uuid} {steps : Plan} {deadline : Text}
    {s₀ s : WorkflowState} {trace : List (Step WorkflowState RecoveryEvent)}
    (hcreate : createState I runId traceId steps deadline = .ok s₀)
    (h : Path (RecoveryStep I) s₀ trace s) :
    (∀ interruptId reading s', RecoveryStep I s (.recovered interruptId reading) s' →
        NeverResumed I s') ∧
      ((∀ x ∈ trace, ¬ReplansRecovered x) → Answerable I s) ∧
      ∀ now request s', interrupt I now s request = .ok s' →
        ∀ reading stamp answer, InTime I s'.deadline reading →
          checkAnswer request answer = .ok () →
          ((∃ t, resume I reading stamp s' request.interruptId answer = .ok t ∧
            t.status = .running) ↔ ∀ x ∈ trace, ¬x.event.IsRecovery) := by
  have hfresh : s₀.crashRecovered = false := by
    obtain ⟨-, -, -, -, rfl⟩ := createState_eq_ok hcreate
    rfl
  constructor
  · intro interruptId reading s' hstep
    exact neverResumed_of_crashRecovered (crashRecovered_of_recovered hstep).2.1
  · constructor
    · intro hreplan now request s' hinterrupt reading stamp answer hreading hanswer
      apply (resumed_iff hinterrupt hreading hanswer).mpr
      by_contra hcrashed
      rw [Bool.not_eq_false] at hcrashed
      exact (halted_of_path hfresh h hreplan hcrashed).1 (interrupt_eq_ok hinterrupt).1
    · intro now request s' hinterrupt reading stamp answer hreading hanswer
      rw [resumed_iff hinterrupt hreading hanswer, ← Bool.not_eq_true, crashRecovered_iff hfresh h]
      simp

/-! ## A question after a recovery -/

section Question

/-- A read that has begun. -/
def readBegun : WorkflowState :=
  { initialState [openRequests] with
    status := .running
    currentStepId := some openRequests.stepId
    steps := [openRequests.withStatus .running]
    revision := 2 }

/-- The read, interrupted by the recovery. -/
def readUncertain : WorkflowState :=
  { readBegun with
    status := .interrupted
    steps := [openRequests.withStatus .waiting]
    clarification := some (Runtime.crashRequest exampleRun)
    replanReason := some .stateDrift
    crashRecovered := true
    revision := 3 }

/-- The recovery, acknowledged. -/
def readInspected : WorkflowState :=
  { readUncertain with
    status := .failed
    steps := [openRequests.fail manualRecovery]
    clarification := none
    stopReason := some manualRecovery
    revision := 4 }

def whichWarehouse : ClarificationRequest where
  interruptId := exampleRun
  question := "Which warehouse?"
  answerType := .text
  answerMaxLength := 100
  choices := []

/-- A step that asks before the read is tried again. -/
def warehouseStep : PlanStep :=
  { openRequests with
    stepId := "warehouse"
    type := .clarification
    allowedTools := []
    toolName := none
    clarification := some whichWarehouse }

/-- The new plan. -/
def replanned : WorkflowState :=
  { readInspected with
    status := .running
    steps := [warehouseStep]
    planVersion := 2
    currentStepId := none
    stopReason := none
    revision := 5 }

/-- The step that asks has begun. -/
def asking : WorkflowState :=
  { replanned with
    currentStepId := some warehouseStep.stepId
    steps := [warehouseStep.withStatus .running]
    revision := 6 }

def readStarted : WorkflowState :=
  { initialState [openRequests] with
    status := .running
    steps := [openRequests.withStatus .ready]
    revision := 1 }

/-- The events of the run. -/
def recoveryTrace : List (Step WorkflowState RecoveryEvent) :=
  [⟨initialState [openRequests], .called (.start exampleNow), readStarted⟩,
    ⟨readStarted, .called (.beginStep exampleNow openRequests.stepId), readBegun⟩,
    ⟨readBegun, .recovered exampleRun exampleNow, readUncertain⟩,
    ⟨readUncertain, .called (.resume exampleNow exampleNow exampleRun "inspect"), readInspected⟩,
    ⟨readInspected, .called (.replan exampleNow [warehouseStep] .stateDrift), replanned⟩,
    ⟨replanned, .called (.beginStep exampleNow warehouseStep.stepId), asking⟩]

theorem path_recoveryTrace :
    Path (RecoveryStep Interpreter.fractional) (initialState [openRequests]) recoveryTrace
      asking := by
  have hstart : EngineStep Interpreter.fractional (initialState [openRequests])
      (.start exampleNow) readStarted := rfl
  have hbegin : EngineStep Interpreter.fractional readStarted
      (.beginStep exampleNow openRequests.stepId) readBegun := rfl
  have hrecover : RecoveryStep Interpreter.fractional readBegun
      (.recovered exampleRun exampleNow) readUncertain := ⟨rfl, rfl⟩
  have hinspect : EngineStep Interpreter.fractional readUncertain
      (.resume exampleNow exampleNow exampleRun "inspect") readInspected := rfl
  have hreplan : EngineStep Interpreter.fractional readInspected
      (.replan exampleNow [warehouseStep] .stateDrift) replanned := rfl
  have hask : EngineStep Interpreter.fractional replanned
      (.beginStep exampleNow warehouseStep.stepId) asking := rfl
  apply Path.cons (RecoveryStep.ofEngine hstart)
  apply Path.cons (RecoveryStep.ofEngine hbegin)
  apply Path.cons hrecover
  apply Path.cons (RecoveryStep.ofEngine hinspect)
  apply Path.cons (RecoveryStep.ofEngine hreplan)
  exact .cons (RecoveryStep.ofEngine hask) (.nil asking)

/-- The question is put, and no answer to it resumes the workflow. -/
theorem not_answerable_asking : ¬Answerable Interpreter.fractional asking := by
  have hmem : warehouseStep.withStatus .running ∈ asking.steps := List.mem_cons_self
  have hdag : PlanDag asking.steps := planDag_of_validatePlanDag (u := ()) (by decide)
  have htime : InTime Interpreter.fractional exampleDeadline exampleNow := ⟨_, rfl, by decide⟩
  have hinterrupt := InTime.interrupt (s := asking) htime rfl hdag hmem rfl rfl whichWarehouse
  intro h
  have hresumed := h exampleNow whichWarehouse _ hinterrupt exampleNow exampleNow "Stores" htime rfl
  have hfresh := (resumed_iff hinterrupt htime rfl).mp hresumed
  cases hfresh

/-- After the recovery was acknowledged and the plan replaced, an answer to an ordinary
question is refused. -/
theorem question_not_answerable :
    createState Interpreter.fractional exampleRun exampleRun [openRequests] exampleDeadline =
        .ok (initialState [openRequests]) ∧
      Path (RecoveryStep Interpreter.fractional) (initialState [openRequests]) recoveryTrace
        asking ∧
      ¬Answerable Interpreter.fractional asking :=
  ⟨createState_fractional, path_recoveryTrace, not_answerable_asking⟩

/-- The run up to the recovery meets the condition. -/
theorem manual_recovery_binds_readBegun :
    Answerable Interpreter.fractional readBegun := by
  have hstart : EngineStep Interpreter.fractional (initialState [openRequests])
      (.start exampleNow) readStarted := rfl
  have hbegin : EngineStep Interpreter.fractional readStarted
      (.beginStep exampleNow openRequests.stepId) readBegun := rfl
  have hpath : Path (RecoveryStep Interpreter.fractional) (initialState [openRequests])
      [⟨initialState [openRequests], .called (.start exampleNow), readStarted⟩,
        ⟨readStarted, .called (.beginStep exampleNow openRequests.stepId), readBegun⟩]
      readBegun := by
    apply Path.cons (RecoveryStep.ofEngine hstart)
    exact .cons (RecoveryStep.ofEngine hbegin) (.nil readBegun)
  apply (manual_recovery_binds createState_fractional hpath).2.1
  intro x hx hreplans
  have hfresh : x.before.crashRecovered = false := by
    cases List.mem_cons.mp hx with
    | inl h => rw [h]; rfl
    | inr h => rw [List.mem_singleton.mp h]; rfl
  have hflag := hreplans.1
  rw [hfresh] at hflag
  cases hflag

end Question

end Workflow
