import Mathlib.Data.Finset.Card
import SynoraErp.Transition.Path
import SynoraErp.Workflow.EngineSteps

/-!
# Step discipline

At most one step of a plan is under way and it is the current one, no step begins
ahead of its dependencies, and a step succeeds only through an operation of the
engine and keeps what it recorded. Every operation preserves this. `create_state`
does not establish it: it takes the statuses of the steps as they are given, where
`replan` lets a new step in only when it is pending.
-/

namespace Workflow

open Python Transition
open Governance (Uuid)

/-! ## The property -/

/-- A step that has left the states it is planned in. -/
def PlanStep.Begun (step : PlanStep) : Prop :=
  step.Active ∨ step.status = .failed ∨ step.status = .succeeded

instance (step : PlanStep) : Decidable step.Begun := inferInstanceAs (Decidable (_ ∨ _))

/-- At most one step is under way, it is the current one, and every step that has
begun has its dependencies behind it. -/
structure StepDiscipline (s : WorkflowState) : Prop where
  one_active : (s.steps.filter fun step => step.Active).length ≤ 1
  active : ∀ step ∈ s.steps, step.Active → s.currentStepId = some step.stepId
  dependencies : ∀ step ∈ s.steps, step.Begun → ∀ d ∈ step.dependsOn, d ∈ doneIds s.steps

/-- The operations that end a step with a success. -/
def EngineCall.Completes : EngineCall → Prop
  | .completeGovernedAction .. | .completeStep .. | .resume .. => True
  | _ => False

/-- A call that marks a step succeeded which had not succeeded before it. -/
structure Marks (x : Step WorkflowState EngineCall) (step : PlanStep) : Prop where
  completes : x.event.Completes
  before : step.stepId ∉ doneIds x.before.steps
  after : ∃ marked ∈ x.after.steps, marked.status = .succeeded ∧ step.Equal marked

/-- The discipline of every run from a state: it holds at each state of the run, each
success was marked by a call of the run, and no later call changes it. -/
def DisciplinedRuns (I : Interpreter) (initial : WorkflowState) : Prop :=
  ∀ trace s, Path (EngineStep I) initial trace s →
    StepDiscipline s ∧
    (∀ step ∈ s.steps, step.status = .succeeded → ∃ x ∈ trace, Marks x step) ∧
    ∀ later t, Path (EngineStep I) s later t →
      ∀ step ∈ s.steps, step.status = .succeeded → ∃ kept ∈ t.steps, kept.Equal step

/-- A status a plan may give a step without breaking the discipline. -/
def PlanStep.Unstarted (step : PlanStep) : Prop :=
  step.Startable ∨ step.status = .skipped ∨ step.status = .cancelled ∨
    (step.status = .failed ∧ step.dependsOn = [])

instance (step : PlanStep) : Decidable step.Unstarted := inferInstanceAs (Decidable (_ ∨ _))

/-! ## The invariant -/

theorem PlanStep.Active.status_ne {step : PlanStep} (h : step.Active) :
    step.status ≠ .succeeded := by
  rcases h with h | h <;> simp [h]

theorem PlanStep.Startable.status_ne {step : PlanStep} (h : step.Startable) :
    step.status ≠ .succeeded := by
  rcases h with h | h <;> simp [h]

theorem PlanStep.Startable.not_begun {step : PlanStep} (h : step.Startable) : ¬step.Begun := by
  rcases h with h | h <;> simp [PlanStep.Begun, PlanStep.Active, h]

/-- What every operation of the engine keeps. An interrupted workflow waits at its
current step, so the answer that resumes it is an answer to that step. -/
structure Disciplined (s : WorkflowState) : Prop where
  dag : PlanDag s.steps
  active : ∀ step ∈ s.steps, step.Active → s.currentStepId = some step.stepId
  dependencies : ∀ step ∈ s.steps, step.Begun → ∀ d ∈ step.dependsOn, d ∈ doneIds s.steps
  interrupted : s.status = .interrupted →
    ∃ step ∈ s.steps, step.status = .waiting ∧ s.currentStepId = some step.stepId

namespace Disciplined

variable {s s' : WorkflowState}

theorem eq_of_active (h : Disciplined s) {a b : PlanStep} (ha : a ∈ s.steps) (hb : b ∈ s.steps)
    (haActive : a.Active) (hbActive : b.Active) : a = b := by
  have hcurrent := h.active a ha haActive
  rw [h.active b hb hbActive, Option.some.injEq] at hcurrent
  exact h.dag.eq_of_stepId_eq ha hb hcurrent.symm

theorem stepDiscipline (h : Disciplined s) : StepDiscipline s := by
  refine ⟨?_, h.active, h.dependencies⟩
  have hnodup : (s.steps.filter fun step => step.Active).Nodup :=
    (List.Nodup.of_map _ h.dag.nodup).filter _
  rw [← List.toFinset_card_of_nodup hnodup, Finset.card_le_one]
  intro a ha b hb
  rw [List.mem_toFinset, List.mem_filter, decide_eq_true_iff] at ha hb
  exact h.eq_of_active ha.1 hb.1 ha.2 hb.2

/-- Where a step is ready no other is under way. -/
theorem not_active_of_ready (h : Disciplined s) {step : PlanStep}
    (hready : readyStep s = .ok (some step)) : ∀ y ∈ s.steps, ¬y.Active := by
  intro y hy hactive
  obtain ⟨-, -, hcurrent⟩ := readyStep_eq_some hready
  obtain ⟨current, hget, hnot⟩ := hcurrent _ (h.active y hy hactive)
  obtain ⟨hmem, hid⟩ := WorkflowState.getStep_eq_ok hget
  rw [h.dag.eq_of_stepId_eq hmem hy hid] at hnot
  exact hnot hactive

end Disciplined

/-- What a call does to the plan: nothing, a change of one step that has not succeeded
and has its dependencies behind it, or a replacement that keeps what has succeeded. -/
inductive Effect (s : WorkflowState) (call : EngineCall) (s' : WorkflowState) : Prop
  | kept (steps : s'.steps = s.steps) (current : s'.currentStepId = s.currentStepId)
      (interrupted : s'.status = .interrupted → s.status = .interrupted)
  | moved (step : PlanStep) (update : PlanStep → PlanStep) (mem : step ∈ s.steps)
      (place : KeepsPlace update)
      (steps : s'.steps = updateStep s.steps step.stepId update)
      (before : step.status ≠ .succeeded)
      (completes : (update step).status = .succeeded → call.Completes)
      (dependencies : ∀ d ∈ step.dependsOn, d ∈ doneIds s.steps)
      (current : (update step).Active → s'.currentStepId = some step.stepId)
      (others : ∀ y ∈ s.steps, y.stepId ≠ step.stepId → y.Active →
        s'.currentStepId = some y.stepId)
      (interrupted : s'.status = .interrupted →
        (update step).status = .waiting ∧ s'.currentStepId = some step.stepId)
  | replanned (dag : PlanDag s'.steps)
      (kept : ∀ old ∈ s.steps, old.status = .succeeded → ∃ new ∈ s'.steps, new.Equal old)
      (origin : ∀ item ∈ s'.steps,
        item.Startable ∨ ∃ old ∈ s.steps, old.status = .succeeded ∧ item.Equal old)
      (running : s'.status = .running)

namespace Effect

variable {s s' : WorkflowState} {call : EngineCall}

/-- The change of a step that is under way to one that is not. -/
theorem ofActive (h : Disciplined s) {step : PlanStep} {update : PlanStep → PlanStep}
    (hmem : step ∈ s.steps) (hactive : step.Active) (hplace : KeepsPlace update)
    (hsteps : s'.steps = updateStep s.steps step.stepId update)
    (hcompletes : (update step).status = .succeeded → call.Completes)
    (hcurrent : (update step).Active → s'.currentStepId = some step.stepId)
    (hinterrupted : s'.status = .interrupted →
      (update step).status = .waiting ∧ s'.currentStepId = some step.stepId) :
    Effect s call s' :=
  .moved step update hmem hplace hsteps hactive.status_ne hcompletes
    (h.dependencies step hmem (Or.inl hactive)) hcurrent
    (fun y hy hne hyActive => absurd (by rw [h.eq_of_active hy hmem hyActive hactive]) hne)
    hinterrupted

/-- A success that ends the step under way. -/
theorem ofCompletion (h : Disciplined s) {step : PlanStep} (hmem : step ∈ s.steps)
    (hactive : step.Active) (hcompletes : call.Completes) (digest : Text) (stamp : Instant)
    (hsteps : s'.steps = updateStep s.steps step.stepId (.complete digest stamp))
    (hstatus : s'.status ≠ .interrupted) : Effect s call s' := by
  refine ofActive h hmem hactive (keepsPlace_complete digest stamp) hsteps (fun _ => hcompletes)
    (fun hbad => absurd rfl hbad.status_ne) fun hbad => absurd hbad hstatus

/-- A failure of the step under way. -/
theorem ofFailure (h : Disciplined s) {step : PlanStep} (hmem : step ∈ s.steps)
    (hactive : step.Active) (error : Text)
    (hsteps : s'.steps = updateStep s.steps step.stepId (.fail error))
    (hstatus : s'.status ≠ .interrupted) : Effect s call s' := by
  have hnot : ¬(step.fail error).Active := by
    rintro (hbad | hbad) <;> cases hbad
  exact ofActive h hmem hactive (keepsPlace_fail error) hsteps (fun hbad => by cases hbad)
    (fun hbad => absurd hbad hnot) fun hbad => absurd hbad hstatus

end Effect

theorem steps_afterCompletion (s : WorkflowState) (steps : Plan) (stopReason : Text) :
    (afterCompletion s steps stopReason).steps = steps := by
  unfold afterCompletion
  split_ifs <;> rfl

theorem status_afterCompletion {s : WorkflowState} (h : s.status = .running) (steps : Plan)
    (stopReason : Text) : (afterCompletion s steps stopReason).status ≠ .interrupted := by
  unfold afterCompletion
  split_ifs <;> simp [h]

/-- The effect of every call. -/
theorem effect_of_step {I : Interpreter} {s s' : WorkflowState} {call : EngineCall}
    (h : Disciplined s) (hstep : EngineStep I s call s') : Effect s call s' := by
  cases call with
  | start now =>
      obtain ⟨-, step, hready, rfl⟩ := start_eq_ok hstep
      obtain ⟨-, hnext, -⟩ := readyStep_eq_some hready
      obtain ⟨hmem, hstartable, hdeps⟩ := nextStep_eq_some hnext
      exact .moved step _ hmem (keepsPlace_withStatus _) rfl hstartable.status_ne
        (fun hbad => by cases hbad) hdeps (fun hbad => by rcases hbad with hbad | hbad <;> cases hbad)
        (fun y hy _ hactive => h.active y hy hactive) fun hbad => by cases hbad
  | beginStep now stepId =>
      obtain ⟨step, hready, rfl, rfl⟩ := beginStep_eq_ok hstep
      obtain ⟨hstatus, hnext, -⟩ := readyStep_eq_some hready
      obtain ⟨hmem, hstartable, hdeps⟩ := nextStep_eq_some hnext
      exact .moved step _ hmem (keepsPlace_withStatus _) rfl hstartable.status_ne
        (fun hbad => by cases hbad) hdeps (fun _ => rfl)
        (fun y hy _ hactive => absurd hactive (h.not_active_of_ready hready y hy))
        fun hbad => by simp [hstatus] at hbad
  | waitForGovernedAction now stepId =>
      obtain ⟨hstatus, step, hget, hrunning, -, rfl⟩ := waitForGovernedAction_eq_ok hstep
      obtain ⟨hmem, rfl⟩ := WorkflowState.getStep_eq_ok hget
      exact .ofActive h hmem (Or.inl hrunning) (keepsPlace_withStatus _) rfl
        (fun hbad => by cases hbad) (fun _ => rfl) fun hbad => by simp [hstatus] at hbad
  | completeGovernedAction now stamp stepId digest =>
      obtain ⟨hstatus, -, step, hget, hwaiting, -, rfl⟩ := completeGovernedAction_eq_ok hstep
      obtain ⟨hmem, rfl⟩ := WorkflowState.getStep_eq_ok hget
      exact .ofCompletion h hmem (Or.inr hwaiting) trivial digest stamp
        (steps_afterCompletion _ _ _) (status_afterCompletion hstatus _ _)
  | completeStep now stamp observation =>
      obtain ⟨hstatus, step, hget, hrunning, -, rfl⟩ := completeStep_eq_ok hstep
      exact .ofCompletion h (runningStep_eq_ok hget).1 (Or.inl hrunning) trivial
        observation.digest stamp (steps_afterCompletion _ _ _) (status_afterCompletion hstatus _ _)
  | failStep now code detail =>
      obtain ⟨-, step, hget, hrunning, rfl⟩ := failStep_eq_ok hstep
      exact .ofFailure h (runningStep_eq_ok hget).1 (Or.inl hrunning) _ rfl (by simp)
  | interrupt now request =>
      obtain ⟨-, step, hget, hrunning, rfl⟩ := interrupt_eq_ok hstep
      obtain ⟨hmem, hcurrent⟩ := runningStep_eq_ok hget
      exact .ofActive h hmem (Or.inl hrunning) (keepsPlace_withStatus _) rfl
        (fun hbad => by cases hbad) (fun _ => hcurrent) fun _ => ⟨rfl, hcurrent⟩
  | resume now stamp interruptId answer =>
      obtain ⟨hstatus, request, -, -, -, hresume⟩ := resume_eq_ok hstep
      obtain ⟨step, hmem, hwaiting, hcurrent⟩ := h.interrupted hstatus
      rcases hresume with ⟨-, hfail⟩ | ⟨-, haccept⟩
      · obtain ⟨-, id, hid, rfl⟩ := acknowledgeRecovery_eq_ok hfail
        rw [hcurrent, Option.some.injEq] at hid
        subst hid
        exact .ofFailure h hmem (Or.inr hwaiting) manualRecovery rfl (by simp)
      · obtain rfl := acceptAnswer_eq_ok haccept
        exact .ofCompletion h hmem (Or.inr hwaiting) trivial acceptedDigest stamp
          (by simp [hcurrent]) (by simp)
  | replan now steps reason =>
      obtain ⟨hdag, hkept, horigin, rfl⟩ := replan_eq_ok hstep
      have hdag := planDag_of_validatePlanDag hdag
      refine .replanned hdag (fun old hold hdone => ?_) (fun item hitem => ?_) rfl
      · obtain ⟨new, hnew, hequal⟩ := hkept old hold hdone
        exact ⟨new, List.mem_of_find?_eq_some hnew, hequal⟩
      · have hconflict := horigin item hitem
        unfold replanConflict at hconflict
        split at hconflict
        · split_ifs at hconflict with hstartable
          exact Or.inl hstartable
        · next old hfound =>
            split_ifs at hconflict with hor
            rcases hor with hdone | hstartable
            · have hold : old ∈ s.steps := List.mem_reverse.mp (List.mem_of_find?_eq_some hfound)
              have hid : old.stepId = item.stepId := by simpa using List.find?_some hfound
              obtain ⟨new, hnew, hequal⟩ := hkept old hold hdone
              have hitemNew : item = new :=
                hdag.eq_of_stepId_eq hitem (List.mem_of_find?_eq_some hnew)
                  (by rw [hequal.stepId_eq, hid])
              exact Or.inr ⟨old, hold, hdone, hitemNew ▸ hequal⟩
            · exact Or.inl hstartable
  | cancel detail =>
      obtain ⟨-, rfl⟩ := cancel_eq_ok hstep
      exact .kept rfl rfl fun hbad => by cases hbad
  | expire =>
      obtain rfl := Except.ok.inj hstep
      unfold expire
      split_ifs
      · exact .kept rfl rfl id
      · exact .kept rfl rfl fun hbad => by cases hbad

namespace Effect

variable {s s' : WorkflowState} {call : EngineCall}

/-- A step that has succeeded is kept. -/
theorem exists_equal (heffect : Effect s call s') (h : Disciplined s) {step : PlanStep}
    (hstep : step ∈ s.steps) (hdone : step.status = .succeeded) :
    ∃ kept ∈ s'.steps, kept.Equal step := by
  cases heffect with
  | kept steps => exact ⟨step, steps ▸ hstep, .refl step⟩
  | moved moving update mem place steps before =>
      have hne : step.stepId ≠ moving.stepId := by
        intro hid
        rw [h.dag.eq_of_stepId_eq hstep mem hid] at hdone
        exact before hdone
      exact ⟨step, steps ▸ mem_updateStep_of_ne hstep hne, .refl step⟩
  | replanned dag kept => exact kept step hstep hdone

theorem doneIds_subset (heffect : Effect s call s') (h : Disciplined s) :
    doneIds s.steps ⊆ doneIds s'.steps := by
  intro d hd
  obtain ⟨step, hstep, hdone, rfl⟩ := mem_doneIds.mp hd
  obtain ⟨kept, hkept, hequal⟩ := heffect.exists_equal h hstep hdone
  exact mem_doneIds.mpr ⟨kept, hkept, hequal.status_eq.trans hdone, hequal.stepId_eq⟩

/-- A step that has succeeded had succeeded before the call, unless the call marked it. -/
theorem marked_or_kept (heffect : Effect s call s') (h : Disciplined s) {step : PlanStep}
    (hstep : step ∈ s'.steps) (hdone : step.status = .succeeded) :
    Marks ⟨s, call, s'⟩ step ∨ ∃ old ∈ s.steps, old.status = .succeeded ∧ step.Equal old := by
  cases heffect with
  | kept steps => exact Or.inr ⟨step, steps ▸ hstep, hdone, .refl step⟩
  | moved moving update mem place steps before completes =>
      have hstep' := hstep
      rw [steps] at hstep'
      rcases h.dag.mem_updateStep mem hstep' with rfl | ⟨hold, -⟩
      · refine Or.inl ⟨completes hdone, fun hbad => ?_, _, hstep, hdone, .refl _⟩
        obtain ⟨old, hold, holdDone, hid⟩ := mem_doneIds.mp hbad
        rw [place.stepId] at hid
        rw [h.dag.eq_of_stepId_eq hold mem hid] at holdDone
        exact before holdDone
      · exact Or.inr ⟨step, hold, hdone, .refl step⟩
  | replanned dag kept origin =>
      rcases origin step hstep with hstartable | hold
      · exact absurd hdone hstartable.status_ne
      · exact Or.inr hold

/-- Every call keeps the discipline. -/
theorem disciplined (heffect : Effect s call s') (h : Disciplined s) : Disciplined s' := by
  have hdone := heffect.doneIds_subset h
  cases heffect with
  | kept steps current interrupted =>
      refine ⟨steps ▸ h.dag, ?_, ?_, fun hstatus => ?_⟩
      · rw [steps, current]
        exact h.active
      · rw [steps]
        exact h.dependencies
      · rw [steps, current]
        exact h.interrupted (interrupted hstatus)
  | moved moving update mem place steps before completes dependencies current others
      interrupted =>
      refine ⟨steps ▸ h.dag.updateStep place, fun y hy hactive => ?_,
        fun y hy hbegun d hd => ?_, fun hstatus => ?_⟩
      · rw [steps] at hy
        rcases h.dag.mem_updateStep mem hy with rfl | ⟨hold, hne⟩
        · rw [place.stepId]
          exact current hactive
        · exact others y hold hne hactive
      · refine hdone ?_
        rw [steps] at hy
        rcases h.dag.mem_updateStep mem hy with rfl | ⟨hold, -⟩
        · rw [place.dependsOn] at hd
          exact dependencies d hd
        · exact h.dependencies y hold hbegun d hd
      · obtain ⟨hwaiting, hcurrent⟩ := interrupted hstatus
        exact ⟨update moving, steps ▸ mem_updateStep_self mem, hwaiting,
          by rw [place.stepId]; exact hcurrent⟩
  | replanned dag kept origin running =>
      have hstarted : ∀ item ∈ s'.steps, item.Begun →
          ∃ old ∈ s.steps, old.status = .succeeded ∧ item.Equal old := fun item hitem hbegun =>
        (origin item hitem).resolve_left fun hstartable => hstartable.not_begun hbegun
      refine ⟨dag, fun item hitem hactive => ?_, fun item hitem hbegun d hd => ?_, fun hstatus => ?_⟩
      · obtain ⟨old, -, hold, hequal⟩ := hstarted item hitem (Or.inl hactive)
        exact absurd (hequal.status_eq.trans hold) hactive.status_ne
      · obtain ⟨old, hmem, hold, hequal⟩ := hstarted item hitem hbegun
        rw [hequal.dependsOn_eq] at hd
        exact hdone (h.dependencies old hmem (Or.inr (Or.inr hold)) d hd)
      · rw [running] at hstatus
        cases hstatus

end Effect

/-! ## Runs -/

section Runs

variable {I : Interpreter} {s t : WorkflowState} {trace : List (Step WorkflowState EngineCall)}

theorem Disciplined.path (h : Disciplined s) (hpath : Path (EngineStep I) s trace t) :
    Disciplined t :=
  hpath.invariant (P := Disciplined)
    (fun _ _ _ hs hstep => (effect_of_step hs hstep).disciplined hs) h

/-- No run changes a step that has succeeded. -/
theorem exists_equal_of_path (h : Disciplined s) (hpath : Path (EngineStep I) s trace t) :
    ∀ step ∈ s.steps, step.status = .succeeded → ∃ kept ∈ t.steps, kept.Equal step := by
  induction hpath with
  | nil s => exact fun step hstep _ => ⟨step, hstep, .refl step⟩
  | cons hfirst _ ih =>
      intro step hstep hdone
      have heffect := effect_of_step h hfirst
      obtain ⟨kept, hkept, hequal⟩ := heffect.exists_equal h hstep hdone
      obtain ⟨last, hlast, hequal'⟩ :=
        ih (heffect.disciplined h) kept hkept (hequal.status_eq.trans hdone)
      exact ⟨last, hlast, hequal'.trans hequal⟩

theorem Marks.congr {x : Step WorkflowState EngineCall} {a b : PlanStep} (h : Marks x a)
    (hequal : b.Equal a) : Marks x b := by
  obtain ⟨marked, hmarked, hdone, hmark⟩ := h.after
  exact ⟨h.completes, hequal.stepId_eq ▸ h.before, marked, hmarked, hdone, hequal.trans hmark⟩

/-- A step that has succeeded at the end of a run had succeeded at its start, unless a
call of the run marked it. -/
theorem marked_or_supplied (h : Disciplined s) (hpath : Path (EngineStep I) s trace t) :
    ∀ step ∈ t.steps, step.status = .succeeded →
      (∃ x ∈ trace, Marks x step) ∨ ∃ old ∈ s.steps, old.status = .succeeded ∧ step.Equal old := by
  induction hpath with
  | nil s => exact fun step hstep hdone => Or.inr ⟨step, hstep, hdone, .refl step⟩
  | cons hfirst _ ih =>
      intro step hstep hdone
      have heffect := effect_of_step h hfirst
      rcases ih (heffect.disciplined h) step hstep hdone with ⟨x, hx, hmarks⟩ | hold
      · exact Or.inl ⟨x, List.mem_cons_of_mem _ hx, hmarks⟩
      · obtain ⟨old, hmem, hold, hequal⟩ := hold
        rcases heffect.marked_or_kept h hmem hold with hmarks | ⟨older, holder, hdone', hequal'⟩
        · exact Or.inl ⟨_, List.mem_cons_self, hmarks.congr hequal⟩
        · exact Or.inr ⟨older, holder, hdone', hequal.trans hequal'⟩

end Runs

/-! ## The plans that keep the discipline -/

section Plans

variable {I : Interpreter} {runId traceId : Uuid} {steps : Plan} {deadline : Text}
  {s₀ : WorkflowState}

theorem PlanStep.Unstarted.dependsOn_eq_nil {step : PlanStep} (h : step.Unstarted)
    (hbegun : step.Begun) : step.dependsOn = [] := by
  rcases h with h | h | h | ⟨-, h⟩
  · exact absurd hbegun h.not_begun
  · simp [PlanStep.Begun, PlanStep.Active, h] at hbegun
  · simp [PlanStep.Begun, PlanStep.Active, h] at hbegun
  · exact h

theorem PlanStep.Unstarted.not_active {step : PlanStep} (h : step.Unstarted) : ¬step.Active := by
  rcases h with (h | h) | h | h | ⟨h, -⟩ <;> simp [PlanStep.Active, h]

theorem PlanStep.Unstarted.status_ne {step : PlanStep} (h : step.Unstarted) :
    step.status ≠ .succeeded := by
  rcases h with (h | h) | h | h | ⟨h, -⟩ <;> simp [h]

theorem disciplined_createState (h : createState I runId traceId steps deadline = .ok s₀)
    (hsteps : ∀ step ∈ steps, step.Unstarted) : Disciplined s₀ := by
  obtain ⟨hdag, -, -, -, rfl⟩ := createState_eq_ok h
  refine ⟨planDag_of_validatePlanDag hdag, fun step hstep hactive => ?_,
    fun step hstep hbegun d hd => ?_, fun hstatus => by cases hstatus⟩
  · exact absurd hactive (hsteps step hstep).not_active
  · rw [(hsteps step hstep).dependsOn_eq_nil hbegun] at hd
    cases hd

/-- The runs from an accepted plan keep the step discipline exactly when no step of
the plan claims to have begun; a failed step without dependencies does no harm. -/
theorem disciplinedRuns_iff (h : createState I runId traceId steps deadline = .ok s₀) :
    DisciplinedRuns I s₀ ↔ ∀ step ∈ steps, step.Unstarted := by
  obtain ⟨-, -, -, -, hs₀⟩ := createState_eq_ok h
  have hinitial : s₀.steps = steps ∧ s₀.currentStepId = none := by
    rw [hs₀]
    exact ⟨rfl, rfl⟩
  constructor
  · intro hruns step hstep
    obtain ⟨hdiscipline, hmarked, -⟩ := hruns [] s₀ (.nil s₀)
    rw [hinitial.1] at hmarked
    have hnotDone : ∀ step ∈ steps, step.status ≠ .succeeded := fun step hstep hdone => by
      obtain ⟨x, hx, -⟩ := hmarked step hstep hdone
      cases hx
    have hnotActive : ¬step.Active := fun hactive => by
      have hcurrent := hdiscipline.active step (hinitial.1 ▸ hstep) hactive
      rw [hinitial.2] at hcurrent
      cases hcurrent
    cases hstatus : step.status with
    | pending => exact Or.inl (Or.inl hstatus)
    | ready => exact Or.inl (Or.inr hstatus)
    | running => exact absurd (Or.inl hstatus) hnotActive
    | waiting => exact absurd (Or.inr hstatus) hnotActive
    | succeeded => exact absurd hstatus (hnotDone step hstep)
    | failed =>
        refine Or.inr (Or.inr (Or.inr ⟨hstatus, List.eq_nil_iff_forall_not_mem.mpr fun d hd => ?_⟩))
        obtain ⟨e, he, hdone, -⟩ := mem_doneIds.mp (hdiscipline.dependencies step
          (hinitial.1 ▸ hstep) (Or.inr (Or.inl hstatus)) d hd)
        exact hnotDone e (hinitial.1 ▸ he) hdone
    | skipped => exact Or.inr (Or.inl hstatus)
    | cancelled => exact Or.inr (Or.inr (Or.inl hstatus))
  · intro hsteps trace s hpath
    have hs₀disciplined := disciplined_createState h hsteps
    have hs := hs₀disciplined.path hpath
    refine ⟨hs.stepDiscipline, fun step hstep hdone => ?_,
      fun later t hlater => exists_equal_of_path hs hlater⟩
    rcases marked_or_supplied hs₀disciplined hpath step hstep hdone with hmarks | hold
    · exact hmarks
    · obtain ⟨old, hmem, hold, -⟩ := hold
      exact absurd hold (hsteps old (hinitial.1 ▸ hmem)).status_ne

end Plans

/-! ## A plan that claims a success -/

/-- The same read, handed in as done. -/
def claimedRequests : PlanStep :=
  { openRequests with
    status := .succeeded
    observationDigest := some (List.replicate 64 0x61)
    completedAt := some "2026-01-01T00:00:00.000+00:00" }

theorem createState_claimedRequests :
    createState Interpreter.ascii exampleRun exampleRun [claimedRequests] exampleDeadline =
      .ok (initialState [claimedRequests]) :=
  createState_of_toBool (by decide)

/-- The runs of a pending read keep the discipline. -/
theorem disciplinedRuns_openRequests :
    DisciplinedRuns Interpreter.ascii (initialState [openRequests]) :=
  (disciplinedRuns_iff createState_openRequests).mpr (by decide)

/-- A plan that claims a success is accepted, and no call has marked that success. -/
theorem claimed_success_breaks_discipline :
    claimedRequests.Valid ∧
      createState Interpreter.ascii exampleRun exampleRun [claimedRequests] exampleDeadline =
        .ok (initialState [claimedRequests]) ∧
      ¬DisciplinedRuns Interpreter.ascii (initialState [claimedRequests]) := by
  refine ⟨by decide, createState_claimedRequests, fun hruns => ?_⟩
  obtain ⟨-, hmarked, -⟩ := hruns [] _ (.nil _)
  obtain ⟨x, hx, -⟩ := hmarked claimedRequests List.mem_cons_self rfl
  cases hx

end Workflow
