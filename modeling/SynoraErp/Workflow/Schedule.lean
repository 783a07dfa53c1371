import Mathlib.Data.List.Find
import SynoraErp.Workflow.EngineSteps

/-!
# The order a plan runs in

Which step a plan begins next is decided by the steps that are done. So a plan whose
steps all come to their end runs in one order, and on the way its steps are those of
the plan with a status that the steps done and the step under way decide.
-/

namespace Workflow

open Python

/-! ## The order -/

/-- The first step whose dependencies are among the steps done. -/
def chooseNext (steps : Plan) (done : List Text) : Option PlanStep :=
  steps.find? fun step => step.stepId ∉ done ∧ ∀ d ∈ step.dependsOn, d ∈ done

/-- The steps that begin after those done, at most so many. -/
def schedule (steps : Plan) : ℕ → List Text → List PlanStep
  | 0, _ => []
  | n + 1, done =>
      match chooseNext steps done with
      | none => []
      | some step => step :: schedule steps n (step.stepId :: done)

/-- The steps of a plan in the order they begin in. -/
def executionOrder (steps : Plan) : List PlanStep := schedule steps steps.length []

/-- The steps that are left once some are done. The last of them to begin is no
clarification. -/
inductive Remaining (steps : Plan) : List Text → List PlanStep → Prop
  | nil (done : List Text) (all : ∀ step ∈ steps, step.stepId ∈ done) : Remaining steps done []
  | cons (done : List Text) (step : PlanStep) (rest : List PlanStep)
      (chosen : chooseNext steps done = some step)
      (last : rest = [] → step.type ≠ .clarification)
      (remaining : Remaining steps (step.stepId :: done) rest) :
      Remaining steps done (step :: rest)

section Order

variable {steps : Plan} {done : List Text}

theorem chooseNext_eq_some {step : PlanStep} (h : chooseNext steps done = some step) :
    step ∈ steps ∧ step.stepId ∉ done ∧ ∀ d ∈ step.dependsOn, d ∈ done := by
  have hfound := List.find?_some h
  rw [decide_eq_true_iff] at hfound
  exact ⟨List.mem_of_find?_eq_some h, hfound⟩

/-- While a step is left, one can begin. -/
theorem exists_chooseNext (hdag : PlanDag steps) (h : ∃ step ∈ steps, step.stepId ∉ done) :
    ∃ step, chooseNext steps done = some step := by
  obtain ⟨left, hleft, hnot⟩ := h
  obtain ⟨order, htop, hsubset⟩ := hdag.acyclic
  have hmem : left.stepId ∈ stepIds steps := List.mem_map_of_mem hleft
  -- A name outside the plan counts as done: no step of the plan depends on one.
  obtain ⟨id, -, hminimal, hgraph⟩ : ∃ id ∈ order, ¬(id ∈ done ∨ id ∉ stepIds steps) ∧
      ∀ d ∈ dependencyGraph steps id, d ∈ done ∨ d ∉ stepIds steps :=
    htop.exists_minimal (hsubset hmem) (by simp [hnot, hmem])
  push Not at hminimal
  obtain ⟨hnotDone, hknown⟩ := hminimal
  obtain ⟨step, hstep, rfl⟩ := List.mem_map.mp hknown
  rw [hdag.dependencyGraph_stepId hstep] at hgraph
  have hready : ∀ d ∈ step.dependsOn, d ∈ done := fun d hd =>
    (hgraph d hd).resolve_right fun hunknown => hunknown (hdag.known step hstep d hd)
  exact Option.isSome_iff_exists.mp
    (List.find?_isSome.mpr ⟨step, hstep, by simpa [hnotDone] using hready⟩)

theorem remaining_schedule (hdag : PlanDag steps) (n : ℕ)
    (hcount : (steps.filter fun step => step.stepId ∉ done).length ≤ n)
    (hlast : ∀ step ∈ (schedule steps n done).getLast?, step.type ≠ .clarification) :
    Remaining steps done (schedule steps n done) := by
  induction n generalizing done with
  | zero =>
      have hnone := List.length_eq_zero_iff.mp (Nat.le_zero.mp hcount)
      exact .nil done fun step hstep => by
        simpa using List.filter_eq_nil_iff.mp hnone step hstep
  | succ n ih =>
      rw [schedule] at hlast ⊢
      cases hchosen : chooseNext steps done with
      | none =>
          refine .nil done fun step hstep => ?_
          by_contra hnot
          obtain ⟨next, hnext⟩ := exists_chooseNext hdag ⟨step, hstep, hnot⟩
          rw [hchosen] at hnext
          cases hnext
      | some step =>
          simp only [hchosen] at hlast
          obtain ⟨hstep, hnot, -⟩ := chooseNext_eq_some hchosen
          refine .cons done step _ hchosen (fun hnil => ?_) (ih ?_ fun last hmem => ?_)
          · exact hlast step (by rw [hnil]; rfl)
          · have hsublist : ((steps.filter fun x => x.stepId ∉ done).filter fun x =>
                x.stepId ≠ step.stepId).length < (steps.filter fun x => x.stepId ∉ done).length :=
              List.length_filter_lt_length_iff_exists.mpr ⟨step, by simp [hstep, hnot], by simp⟩
            rw [List.filter_filter] at hsublist
            have hsame : (steps.filter fun x => x.stepId ∉ step.stepId :: done) =
                steps.filter fun x => decide (x.stepId ≠ step.stepId) && decide (x.stepId ∉ done) :=
              List.filter_congr fun x _ => by simp
            rw [hsame]
            omega
          · obtain ⟨first, rest, hrest⟩ := List.exists_cons_of_ne_nil
              (List.ne_nil_of_mem (List.mem_of_getLast? hmem))
            refine hlast last ?_
            rw [hrest] at hmem ⊢
            exact hmem

/-- A plan whose last step to begin is no clarification. -/
theorem remaining_executionOrder (hdag : PlanDag steps)
    (hlast : ∀ step ∈ (executionOrder steps).getLast?, step.type ≠ .clarification) :
    Remaining steps [] (executionOrder steps) :=
  remaining_schedule hdag steps.length (List.length_filter_le _ _) hlast

end Order

/-! ## Plans on their way -/

/-- A step as its plan declares it. -/
def PlanStep.declared (step : PlanStep) : PlanStep :=
  { step with status := .pending, observationDigest := none, error := none, completedAt := none }

/-- The status of a step, by the steps done and the step under way. -/
def Stands (done : List Text) (active : Option (Text × StepStatus)) (id : Text)
    (status : StepStatus) : Prop :=
  if id ∈ done then status = .succeeded
  else
    match active with
    | none => status = .pending ∨ status = .ready
    | some (current, moving) =>
        if id = current then status = moving else status = .pending ∨ status = .ready

/-- The steps of a plan once some are done and one may be under way. -/
structure Tracks (P : Plan) (done : List Text) (active : Option (Text × StepStatus))
    (steps : Plan) : Prop where
  declared : steps.map PlanStep.declared = P.map PlanStep.declared
  known : done ⊆ stepIds P
  stands : ∀ step ∈ steps, Stands done active step.stepId step.status

section Tracks

variable {P steps : Plan} {done : List Text} {active : Option (Text × StepStatus)} {id : Text}

theorem stepIds_map_declared (steps : Plan) : stepIds (steps.map PlanStep.declared) = stepIds steps := by
  simp [stepIds, PlanStep.declared]

theorem Tracks.stepIds_eq (h : Tracks P done active steps) : stepIds steps = stepIds P := by
  rw [← stepIds_map_declared, h.declared, stepIds_map_declared]

/-- Each step of the plan on its way is declared by the plan. -/
theorem Tracks.exists_declared (h : Tracks P done active steps) {step : PlanStep}
    (hstep : step ∈ steps) : ∃ x ∈ P, x.declared = step.declared := by
  have hmem : step.declared ∈ P.map PlanStep.declared := h.declared ▸ List.mem_map_of_mem hstep
  exact List.mem_map.mp hmem

/-- A change of one step. -/
theorem Tracks.updateStep (h : Tracks P done active steps) {update : PlanStep → PlanStep}
    {done' : List Text} {active' : Option (Text × StepStatus)}
    (hdeclared : ∀ step, (update step).declared = step.declared) (hknown : done' ⊆ stepIds P)
    (hchanged : ∀ step ∈ steps, step.stepId = id → Stands done' active' id (update step).status)
    (hothers : ∀ x status, x ≠ id → Stands done active x status → Stands done' active' x status) :
    Tracks P done' active' (updateStep steps id update) := by
  refine ⟨?_, hknown, fun x hx => ?_⟩
  · rw [map_updateStep _ hdeclared]
    exact h.declared
  · obtain ⟨old, hold, rfl⟩ := mem_updateStep.mp hx
    have hid : (update old).declared.stepId = old.declared.stepId := by rw [hdeclared]
    split_ifs with hname
    · rw [show (update old).stepId = id from hid.trans hname]
      exact hchanged old hold hname
    · exact hothers _ _ hname (h.stands old hold)

theorem Tracks.ready (h : Tracks P done none steps) (hid : id ∉ done) :
    Tracks P done none (Workflow.updateStep steps id (.withStatus .ready)) :=
  h.updateStep (fun _ => rfl) h.known (fun _ _ _ => by simp [Stands, hid, PlanStep.withStatus])
    fun _ _ _ hstands => hstands

theorem Tracks.begin (h : Tracks P done none steps) (hid : id ∉ done) :
    Tracks P done (some (id, .running)) (Workflow.updateStep steps id (.withStatus .running)) :=
  h.updateStep (fun _ => rfl) h.known (fun _ _ _ => by simp [Stands, hid, PlanStep.withStatus])
    fun _ _ hne hstands => by simpa [Stands, hne] using hstands

theorem Tracks.wait (h : Tracks P done (some (id, .running)) steps) (hid : id ∉ done) :
    Tracks P done (some (id, .waiting)) (Workflow.updateStep steps id (.withStatus .waiting)) :=
  h.updateStep (fun _ => rfl) h.known (fun _ _ _ => by simp [Stands, hid, PlanStep.withStatus])
    fun _ _ hne hstands => by simpa [Stands, hne] using hstands

theorem Tracks.complete {moving : StepStatus} (h : Tracks P done (some (id, moving)) steps)
    (hid : id ∈ stepIds P) (digest : Text) (stamp : Instant) :
    Tracks P (id :: done) none (Workflow.updateStep steps id (.complete digest stamp)) :=
  h.updateStep (fun _ => rfl) (List.cons_subset.mpr ⟨hid, h.known⟩)
    (fun _ _ _ => by simp [Stands, PlanStep.complete])
    fun _ _ hne hstands => by simpa [Stands, hne] using hstands

/-- Between two steps, the step the engine begins next is the one the plan does. -/
theorem Tracks.nextStep (h : Tracks P done none steps) :
    (nextStep steps).map PlanStep.declared = (chooseNext P done).map PlanStep.declared := by
  have hdone : ∀ d, d ∈ doneIds steps ↔ d ∈ done := by
    intro d
    rw [mem_doneIds]
    constructor
    · rintro ⟨step, hstep, hstatus, rfl⟩
      by_contra hnot
      have hstands := h.stands step hstep
      simp [Stands, hnot, hstatus] at hstands
    · intro hd
      obtain ⟨step, hstep, rfl⟩ := List.mem_map.mp (h.stepIds_eq ▸ h.known hd)
      have hstands := h.stands step hstep
      exact ⟨step, hstep, by simpa [Stands, hd] using hstands, rfl⟩
  have hchosen : ∀ (plan : Plan), (plan.find? fun step =>
      step.stepId ∉ done ∧ ∀ d ∈ step.dependsOn, d ∈ done).map PlanStep.declared =
        (plan.map PlanStep.declared).find? fun step =>
          step.stepId ∉ done ∧ ∀ d ∈ step.dependsOn, d ∈ done := fun plan => by
    rw [List.find?_map]
    rfl
  have hsame : Workflow.nextStep steps = steps.find? fun step =>
      step.stepId ∉ done ∧ ∀ d ∈ step.dependsOn, d ∈ done := by
    refine List.find?_congr fun step hstep => decide_eq_decide.mpr ?_
    have hstands := h.stands step hstep
    simp only [hdone]
    refine and_congr_left fun _ => ?_
    by_cases hmem : step.stepId ∈ done
    · simp_all [Stands, PlanStep.Startable]
    · simp_all [Stands, PlanStep.Startable]
  rw [hsame, chooseNext, hchosen, hchosen, h.declared]

/-- The workflow is over exactly when every step is done. -/
theorem Tracks.all_succeeded_iff (h : Tracks P done none steps) :
    (∀ step ∈ steps, step.status = .succeeded ∨ step.status = .skipped) ↔
      ∀ step ∈ P, step.stepId ∈ done := by
  constructor
  · intro hall step hstep
    obtain ⟨x, hx, hid⟩ := List.mem_map.mp (h.stepIds_eq ▸ List.mem_map_of_mem hstep :
      step.stepId ∈ stepIds steps)
    by_contra hnot
    have hstands := h.stands x hx
    rw [hid, Stands, if_neg hnot] at hstands
    rcases hall x hx with hstatus | hstatus <;> simp [hstatus] at hstands
  · intro hall step hstep
    obtain ⟨x, hx, hid⟩ := List.mem_map.mp (h.stepIds_eq ▸ List.mem_map_of_mem hstep :
      step.stepId ∈ stepIds P)
    have hstands := h.stands step hstep
    rw [Stands, if_pos (hid ▸ hall x hx)] at hstands
    exact Or.inl hstands

end Tracks

end Workflow
