import SynoraErp.Workflow.Completion

/-!
# Workflows that do not wedge

A driver starts a plan, answers its questions and records its receipts, and its calls go
well. Of a plan whose steps can be passed and which does not end in a question, every
running state that is stored has a step under way or one that is ready, and from every
point of such a run the workflow can be driven to its end.
-/

namespace Workflow

open Python Transition
open Governance (Uuid)

/-- A plan that can be driven to its end. -/
structure Completable (P : Plan) : Prop where
  passable : ∀ step ∈ P, step.Passable
  last : ∀ step ∈ (executionOrder P).getLast?, step.type ≠ .clarification

theorem length_schedule (steps : Plan) (n : ℕ) (done : List Text) :
    (schedule steps n done).length ≤ n := by
  induction n generalizing done with
  | zero => exact Nat.le_refl 0
  | succ n ih =>
      rw [schedule]
      split
      · exact Nat.zero_le _
      · exact Nat.succ_le_succ (ih _)

/-- A stage of a running workflow has a step under way or one that is ready. -/
theorem Driven.not_stuck {W : Agent.WordClass} {I : Interpreter} {P : Plan} {deadline : Text}
    {a : WorkflowState} {m : ℕ} (h : Driven W I P deadline a m) (hstatus : a.status = .running) :
    (∃ step ∈ a.steps, step.Active) ∨ ∃ step, readyStep a = .ok (some step) := by
  have hdag := h.dag
  have hstage := h.stage
  cases hstage with
  | idle done rest status between =>
      obtain ⟨ready, next, hready, -⟩ :=
        between.exists_readyStep hdag status h.valid.shaped.current
      exact Or.inr ⟨ready, hready⟩
  | active done step rest status busy => exact Or.inl ⟨step, busy.mem, Or.inl busy.status⟩
  | waiting done step rest status busy type => exact Or.inl ⟨step, busy.mem, Or.inr busy.status⟩
  | ready rest status current between => exact absurd (status.symm.trans hstatus) (by decide)
  | interrupted done step rest status busy question =>
      exact absurd (status.symm.trans hstatus) (by decide)
  | succeeded status current => exact absurd (status.symm.trans hstatus) (by decide)

namespace Runtime

/-- The calls of the driver of one plan. -/
def DriverEntry (I : Interpreter) (runId : Uuid) (request : StartRequest) (p : Method Outcome) :
    Prop :=
  p = start I runId request ∨ (∃ r, p = resume I r) ∨ ∃ r, p = completeGovernedAction I r

/-- A step of the driver, whose calls go well. -/
abbrev DriverMoves (W : Agent.WordClass) (I : Interpreter) (runId : Uuid) (request : StartRequest) :=
  MovesAlone (GoesWell W I request.deadline) () (DriverEntry I runId request) (continuation I)

/-- The driver runs no method. -/
def AtRest (W : Agent.WordClass) (I : Interpreter) (request : StartRequest) (initial : WorkflowState)
    (s : Shared Unit) : Prop :=
  Blank s ∨ initial.Storable W I ∧ ∃ m, Resting W I request.steps request.deadline m s

/-- What a method of the driver leaves. -/
def Leaves (W : Agent.WordClass) (I : Interpreter) (request : StartRequest) (initial : WorkflowState)
    (r : Result Outcome) (s : Shared Unit) : Prop :=
  (initial.Storable W I ∧ ∃ m, Ending W I request.steps request.deadline m m r s) ∨
    (∃ e, r = .error e) ∧ Blank s

section

variable {W : Agent.WordClass} {I : Interpreter} {runId : Uuid} {request : StartRequest}
  {initial : WorkflowState} {s t : Shared Unit} {m : ℕ}

/-- A call stores a state after those that are stored. -/
theorem GoesWell.states_subset {deadline : Text} {i : Unit} {c : Call} {reply : c.Reply}
    (h : GoesWell W I deadline s i c reply t) : s.states ⊆ t.states := by
  have hcommits : ∀ {α : Type} {result : Result Database} {value : α}
      {stored : List (Unit × WorkflowState)} {reply : Result α},
      Commits s result value stored reply t → s.states ⊆ t.states := by
    rintro α result value stored reply (⟨db, -, -, rfl⟩ | ⟨e, -, -, rfl⟩)
    · simp [Shared.states]
    · exact List.Subset.refl _
  have hperforms := h.1
  cases c with
  | create | acquireLease | save =>
      first
      | obtain ⟨_, _, h⟩ := hperforms; exact hcommits h
      | obtain ⟨_, _, _, h⟩ := hperforms; exact hcommits h
  | releaseLease => exact hcommits hperforms
  | load => exact hperforms.2 ▸ List.Subset.refl _
  | recoverable => exact hperforms.choose_spec.2 ▸ List.Subset.refl _
  | now | connect => exact (show t = s from hperforms) ▸ List.Subset.refl _
  | execute current ready action =>
      obtain rfl : t = { s with dispatched := s.dispatched ++ [⟨i, current, ready, action⟩] } := hperforms
      exact List.Subset.refl _

theorem states_subset_of_runs {α : Type} {deadline : Text} {p : Method α} {r : Result α}
    (h : Runs (GoesWell W I deadline) () s p t r) : s.states ⊆ t.states := by
  induction h with
  | done s a => exact List.Subset.refl _
  | raised s e => exact List.Subset.refl _
  | call hperform _ ih => exact List.Subset.trans hperform.states_subset ih

section Driver

variable (hI : Json.ReadsDoubles I)
  (hcreate : createState I runId request.correlationId request.steps request.deadline = .ok initial)
  (hvalid : ∀ step ∈ request.steps, step.Valid)
  (hpending : ∀ step ∈ request.steps, step.status = .pending)
  (hcomplete : Completable request.steps)
  (hclock : ∃ now, InTime I request.deadline now)

include hcreate hvalid hpending hcomplete in
/-- The plan is at its first stage. -/
theorem settled_initial (hstorable : initial.Storable W I) :
    Settled W I request.steps request.deadline initial
      (3 * (executionOrder request.steps).length + 2) := by
  have hstate := valid_createState hcreate hvalid
  obtain ⟨hdag, ⟨hne, -⟩, -, -, rfl⟩ := createState_eq_ok hcreate
  have hremaining := remaining_executionOrder (planDag_of_validatePlanDag hdag) hcomplete.last
  have hlength : (executionOrder request.steps).length ≤ request.steps.length := length_schedule ..
  have htracks : Tracks request.steps [] none request.steps :=
    ⟨rfl, List.nil_subset _, fun step hstep => by simp [Stands, hpending step hstep]⟩
  have hrest : executionOrder request.steps ≠ [] := fun hnil => by
    obtain ⟨step, rest, hsteps⟩ := List.exists_cons_of_ne_nil hne
    rw [hnil] at hremaining
    cases hremaining with
    | nil _ all => exact List.not_mem_nil (all step (by simp [hsteps]))
  exact ⟨⟨.ready _ rfl rfl ⟨htracks, hremaining, hrest⟩, hstate, hstorable, by simpa using hlength,
    rfl, rfl⟩, rfl⟩

include hI hcreate hvalid hpending hcomplete hclock in
theorem ends_entry {p : Method Outcome} (hp : DriverEntry I runId request p)
    (hs : AtRest W I request initial s) :
    EndsWell W I request.deadline p (Leaves W I request initial) s := by
  have hlength : request.steps.length ≤ 256 := (createState_eq_ok hcreate).2.1.2
  have hready : initial.status = .ready := by
    obtain ⟨-, -, -, -, rfl⟩ := createState_eq_ok hcreate
    rfl
  have hrefused : ∀ {m : ℕ} {p : Method Outcome}, initial.Storable W I →
      EndsWell W I request.deadline p (fun r t => Ending W I request.steps request.deadline m m r t ∨
        True ∧ (∃ e, r = .error e) ∧ Resting W I request.steps request.deadline m t) s →
      EndsWell W I request.deadline p (Leaves W I request initial) s := fun hinitial h => h.mono
    fun r t hr => Or.inl ⟨hinitial, hr.elim (fun h => ⟨_, h⟩) fun ⟨_, ⟨_, he⟩, hresting⟩ =>
      ⟨_, he ▸ ending_error (Nat.lt_succ_self _) hresting⟩⟩
  rcases hs with hblank | ⟨hinitial, m, a, hworks, hsettled⟩
  · rcases hp with rfl | ⟨r, rfl⟩ | ⟨r, rfl⟩
    · exact (ends_start_blank hclock hlength hcreate hblank
        (settled_initial hcreate hvalid hpending hcomplete) hready).mono fun r t hr =>
          hr.imp (fun ⟨hinitial, hr⟩ => ⟨hinitial, _, hr⟩) fun ⟨he, _, ht⟩ => ⟨he, ht⟩
    · exact (ends_loadAt_blank hblank _).bind (fun _ _ ⟨⟨_, he⟩, _⟩ => by cases he)
        fun e t ⟨_, ht⟩ => Or.inr ⟨⟨e, rfl⟩, ht ▸ hblank⟩
    · exact (ends_loadAt_blank hblank _).bind (fun _ _ ⟨⟨_, he⟩, _⟩ => by cases he)
        fun e t ⟨_, ht⟩ => Or.inr ⟨⟨e, rfl⟩, ht ▸ hblank⟩
  · rcases hp with rfl | ⟨r, rfl⟩ | ⟨r, rfl⟩
    · exact (ends_start hcreate hI hworks hsettled.driven.valid hinitial
        (ends_advance hclock hlength hworks hsettled (fun _ => rfl) _)).mono fun r t hr =>
          Or.inl ⟨hinitial, _, hr⟩
    · exact hrefused hinitial (ends_resume hclock hlength hI hworks hsettled r (fun _ => trivial)
        fun _ _ _ _ _ => trivial)
    · exact hrefused hinitial (ends_completeGovernedAction hclock hlength hI hworks hsettled r
        (fun _ => trivial) fun _ _ _ _ _ => trivial)

include hcreate hcomplete hclock in
theorem ends_continuation {outcome : Outcome} {p : Method Outcome} (hp : continuation I outcome = some p)
    (hs : Leaves W I request initial (.ok outcome) s) :
    EndsWell W I request.deadline p (Leaves W I request initial) s := by
  have hlength : request.steps.length ≤ 256 := (createState_eq_ok hcreate).2.1.2
  cases outcome with
  | response | recovered => cases hp
  | again l =>
      obtain rfl := Option.some.inj hp
      rcases hs with ⟨hinitial, m, m', -, hl⟩ | ⟨⟨_, he⟩, -⟩
      · exact (ends_iterate hclock hlength hcomplete.passable hl).mono fun r t hr =>
          Or.inl ⟨hinitial, m' + 1, hr.mono (Nat.le_succ m') le_rfl⟩
      · cases he

theorem atRest_of_finished {p : Method Outcome} (hp : Finished (continuation I) p)
    (h : EndsWell W I request.deadline p (Leaves W I request initial) s) :
    AtRest W I request initial s := by
  have hrest : ∀ {r : Result Outcome}, (∀ l, r ≠ .ok (.again l)) → Leaves W I request initial r s →
      AtRest W I request initial s := by
    rintro r hr (⟨hinitial, m, hending⟩ | ⟨-, hblank⟩)
    · unfold Ending at hending
      split at hending
      · next l => exact absurd rfl (hr l)
      · obtain ⟨m', -, hresting⟩ := hending
        exact Or.inr ⟨hinitial, m', hresting⟩
    · exact Or.inl hblank
  cases p with
  | done outcome => exact hrest (fun l hl => by cases hl; cases hp) h
  | raised e => exact hrest (fun l hl => by cases hl) h
  | call c next => exact hp.elim

include hI hcreate hvalid hpending hcomplete hclock in
/-- What holds at every point of the driver's run. -/
theorem endsAs_of_path {trace : List (Step (World Unit) (Event Unit))} {w : World Unit}
    (hpath : Path (DriverMoves W I runId request) World.initial trace w) :
    EndsAs (GoesWell W I request.deadline) () (AtRest W I request initial)
      (Leaves W I request initial) w :=
  ends_of_path (fun _ _ hp hs => ends_entry hI hcreate hvalid hpending hcomplete hclock hp hs)
    (fun _ _ _ hp hs => ends_continuation hcreate hcomplete hclock hp hs)
    (fun _ _ hp h => atRest_of_finished hp h) hpath (Or.inl ⟨rfl, rfl⟩)

/-! ## States that are stored -/

include hI hcreate hvalid hpending hcomplete hclock in
/-- Every state the driver stores is in a stage of the plan. -/
theorem driven_of_path {trace : List (Step (World Unit) (Event Unit))} {w : World Unit}
    (hpath : Path (DriverMoves W I runId request) World.initial trace w) {a : WorkflowState}
    (ha : a ∈ w.environment.states) :
    initial.Storable W I ∧ ∃ m, Driven W I request.steps request.deadline a m := by
  have hrest : ∀ {t : Shared Unit}, AtRest W I request initial t → a ∈ t.states →
      initial.Storable W I ∧ ∃ m, Driven W I request.steps request.deadline a m := by
    rintro t (hblank | ⟨hinitial, m, b, hworks, -⟩) hat
    · simp [Shared.states, hblank.saved] at hat
    · exact ⟨hinitial, hworks.states a hat⟩
  have hends := endsAs_of_path hI hcreate hvalid hpending hcomplete hclock hpath
  unfold EndsAs at hends
  split at hends
  · exact hrest hends ha
  · -- the method that runs comes to an end, and what is stored stays
    obtain ⟨t, r, hruns, hleaves⟩ := hends.exists_runs
    have hat := states_subset_of_runs hruns ha
    rcases hleaves with ⟨hinitial, m, hending⟩ | ⟨-, hblank⟩
    · unfold Ending at hending
      split at hending
      · obtain ⟨m', -, hl⟩ := hending
        exact ⟨hinitial, hl.works.states a hat⟩
      · obtain ⟨m', -, hresting⟩ := hending
        exact hrest (Or.inr ⟨hinitial, m', hresting⟩) hat
    · exact hrest (Or.inl hblank) hat

/-! ## On to the end -/

/-- The driver runs a program, or none. -/
def At (s : Shared Unit) (program : Option (Method Outcome)) : World Unit := ⟨s, fun _ => program⟩

/-- The driver can come from a program to a program. -/
def Leads (W : Agent.WordClass) (I : Interpreter) (runId : Uuid) (request : StartRequest)
    (s : Shared Unit) (p : Option (Method Outcome)) (t : Shared Unit) (q : Option (Method Outcome)) :
    Prop :=
  ∃ trace, Path (DriverMoves W I runId request) (At s p) trace (At t q)

section Leads

variable {p : Method Outcome} {before middle after : Option (Method Outcome)} {u : Shared Unit}

theorem Leads.trans (h : Leads W I runId request s before t middle)
    (h' : Leads W I runId request t middle u after) : Leads W I runId request s before u after := by
  obtain ⟨first, hfirst⟩ := h
  obtain ⟨second, hsecond⟩ := h'
  exact ⟨_, hfirst.append hsecond⟩

theorem update_program (programs : Unit → Option (Method Outcome)) (program : Option (Method Outcome)) :
    Function.update programs () program = fun _ => program := by
  funext i
  exact Function.update_self () program programs

theorem leads_of_moves {e : Event Unit} {w : World Unit} (h : DriverMoves W I runId request w e
    ⟨t, Function.update w.programs () after⟩) :
    Leads W I runId request w.environment (w.programs ()) t after := by
  rw [update_program] at h
  exact ⟨_, .cons h (.nil _)⟩

theorem leads_enter (h : DriverEntry I runId request p) : Leads W I runId request s none s (some p) :=
  leads_of_moves (w := At s none) ⟨.enter _ () p h rfl, Or.inl rfl⟩

theorem leads_iterate (l : Loop) :
    Leads W I runId request s (some (.done (.again l))) s (some (l.iterate I)) :=
  leads_of_moves (w := At s (some (.done (.again l))))
    ⟨.proceed _ () _ _ rfl rfl, Or.inr (Or.inr (Or.inl rfl))⟩

/-- A method that has ended is left. -/
theorem leads_stop (h : Finished (continuation I) p) : Leads W I runId request s (some p) s none :=
  leads_of_moves (w := At s (some p)) ⟨.stop _ (), Or.inr (Or.inr (Or.inr ⟨rfl, fun q hq => by
    obtain rfl := Option.some.inj hq
    exact h⟩))⟩

theorem leads_of_runs {r : Result Outcome} (h : Runs (GoesWell W I request.deadline) () s p t r) :
    Leads W I runId request s (some p) t (some (.ofExcept r)) := by
  obtain ⟨trace, htrace⟩ := h.path_alone (fun _ => some p) rfl
  rw [update_program] at htrace
  exact ⟨trace, htrace⟩

end Leads

/-- From a point of the run the driver comes to rest with less ahead than a bound. -/
def ComesToRest (W : Agent.WordClass) (I : Interpreter) (runId : Uuid) (request : StartRequest)
    (s : Shared Unit) (p : Option (Method Outcome)) (bound : ℕ) : Prop :=
  ∃ t, Leads W I runId request s p t none ∧
    ∃ m < bound, Resting W I request.steps request.deadline m t

theorem ComesToRest.of_leads {p q : Option (Method Outcome)} {n : ℕ}
    (h : Leads W I runId request s p t q) (hrest : ComesToRest W I runId request t q n) :
    ComesToRest W I runId request s p n := by
  obtain ⟨u, hlater, hresting⟩ := hrest
  exact ⟨u, h.trans hlater, hresting⟩

/-- A state that has succeeded is stored last. -/
def HasSucceeded (s : Shared Unit) : Prop := ∃ a ∈ s.last?, a.status = .succeeded

section Progress

variable {p : Method Outcome} {k n : ℕ}

include hcreate hcomplete hclock in
/-- A method and the loop it may enter run to their end. -/
theorem comesToRest_of_ends (hkn : k ≤ n)
    (h : EndsWell W I request.deadline p (Ending W I request.steps request.deadline k n) s) :
    ComesToRest W I runId request s (some p) n := by
  have hlength : request.steps.length ≤ 256 := (createState_eq_ok hcreate).2.1.2
  induction k using Nat.strong_induction_on generalizing s p with
  | _ k ih =>
      obtain ⟨t, r, hruns, hending⟩ := h.exists_runs
      refine .of_leads (leads_of_runs hruns) ?_
      unfold Ending at hending
      split at hending
      · next l =>
          obtain ⟨m, hlt, hl⟩ := hending
          refine .of_leads (leads_iterate l) (ih m hlt (by omega) ?_)
          exact (ends_iterate hclock hlength hcomplete.passable hl).mono fun r v hr =>
            hr.mono le_rfl (by omega)
      · next hnot =>
          refine ⟨t, leads_stop ?_, hending⟩
          cases r with
          | ok outcome =>
              cases outcome with
              | again l => exact absurd rfl (hnot l)
              | response | recovered => rfl
          | error e => trivial

include hcreate hcomplete hclock in
/-- A call of the driver runs to its end. -/
theorem comesToRest_of_entry (hentry : DriverEntry I runId request p)
    (h : EndsWell W I request.deadline p (Ending W I request.steps request.deadline n n) s) :
    ComesToRest W I runId request s none n :=
  .of_leads (leads_enter hentry) (comesToRest_of_ends hcreate hcomplete hclock le_rfl h)

include hcreate hcomplete hclock in
/-- A call of the driver enters the loop, and the loop runs to its end. -/
theorem comesToRest_of_again {l : Loop} {R : Shared Unit → Prop}
    (hentry : DriverEntry I runId request p)
    (h : EndsWell W I request.deadline p (Returns fun outcome t => outcome = .again l ∧ R t) s)
    (hl : ∀ t, R t → EndsWell W I request.deadline (l.iterate I)
      (Ending W I request.steps request.deadline n n) t) :
    ComesToRest W I runId request s none n := by
  obtain ⟨t, r, hruns, outcome, rfl, rfl, ht⟩ := h.exists_runs
  have hloop : Leads W I runId request s none t (some (l.iterate I)) :=
    (leads_enter hentry).trans ((leads_of_runs hruns).trans (leads_iterate l))
  exact .of_leads hloop (comesToRest_of_ends hcreate hcomplete hclock le_rfl (hl t ht))

include hI hcreate hcomplete hclock in
/-- At every stage but the last there is a call that takes the workflow on. -/
theorem comesToRest_of_resting (hinitial : initial.Storable W I)
    (h : Resting W I request.steps request.deadline m s) :
    HasSucceeded s ∨ ComesToRest W I runId request s none m := by
  have hlength : request.steps.length ≤ 256 := (createState_eq_ok hcreate).2.1.2
  obtain ⟨a, hworks, hsettled⟩ := h
  have hstate := hsettled.driven.valid
  have hstage := hsettled.driven.stage
  have hdag := hsettled.driven.dag
  have hdeadline := hsettled.driven.deadline_eq
  cases hstage with
  | ready rest status current between =>
      refine Or.inr (comesToRest_of_entry hcreate hcomplete hclock (Or.inl rfl) ?_)
      exact ends_start hcreate hI hworks hstate hinitial
        (ends_advance_ready hclock hlength hworks hsettled status _)
  | idle done rest status between =>
      -- `start` enters the loop as it is, and the loop has a step to begin
      let l : Loop := ⟨.workflow request.correlationId, a, none, false, false⟩
      have hl : LoopAt W I request.steps request.deadline l (3 * rest.length + 1) s :=
        ⟨hworks, hsettled, ⟨_, rfl⟩, fun _ => rfl⟩
      have hstart : EndsWell W I request.deadline (start I runId request)
          (Returns fun outcome t => outcome = .again l ∧
            LoopAt W I request.steps request.deadline l (3 * rest.length + 1) t) s := by
        refine ends_start hcreate hI hworks hstate hinitial ?_
        unfold advance
        simp only [status, reduceCtorEq, if_false]
        exact ends_enter_running hl status
      exact Or.inr (comesToRest_of_again hcreate hcomplete hclock (Or.inl rfl) hstart fun t ht =>
        ends_iterate_between hclock hlength hcomplete.passable ht status between rfl)
  | active done step rest status busy =>
      exact absurd hsettled.noneRunning (checkNoneRunning_of_running hdag busy.mem busy.current busy.status)
  | waiting done step rest status busy type =>
      obtain ⟨digest, hdigest⟩ : ∃ digest, isDigest digest = true :=
        ⟨List.replicate 64 ⟨0x30, by decide⟩, by decide⟩
      let receipt : CompleteRequest := ⟨a.revision, step.stepId, digest⟩
      refine Or.inr (comesToRest_of_entry hcreate hcomplete hclock (Or.inr (Or.inr ⟨receipt, rfl⟩))
        ((ends_completeGovernedAction hclock hlength hI hworks hsettled receipt (E := False)
          (fun hne => hne rfl) fun reading stamp e hreading he => ?_).mono
            fun r t hr => hr.resolve_right fun hE => hE.1))
      rw [InTime.completeGovernedAction (hdeadline ▸ hreading) status hdag busy.mem busy.status type
        hdigest] at he
      cases he
  | interrupted done step rest status busy question =>
      obtain ⟨clarification, hclarification⟩ :=
        Option.ne_none_iff_exists'.mp (hstate.shaped.interrupted status).1
      obtain ⟨declared, hdeclared, hsame⟩ := busy.tracks.exists_declared busy.mem
      obtain ⟨answer, hanswer⟩ := ((hcomplete.passable declared hdeclared).of_declared hsame).answerable
        clarification (question.symm.trans hclarification)
      let reply : ResumeRequest :=
        ⟨request.correlationId, a.revision, clarification.interruptId, answer⟩
      refine Or.inr (comesToRest_of_entry hcreate hcomplete hclock (Or.inr (Or.inl ⟨reply, rfl⟩))
        ((ends_resume hclock hlength hI hworks hsettled reply (E := False)
          (fun hne => hne rfl) fun reading stamp e hreading he => ?_).mono
            fun r t hr => hr.resolve_right fun hE => hE.1))
      rw [InTime.resume (hdeadline ▸ hreading) status hclarification hanswer hsettled.driven.fresh
        busy.mem busy.current] at he
      cases he
  | succeeded status current => exact Or.inl ⟨a, hworks.holding.last, status⟩

include hI hcreate hcomplete hclock in
/-- From rest the workflow is driven to its end. -/
theorem leads_of_resting (hinitial : initial.Storable W I)
    (h : Resting W I request.steps request.deadline m s) :
    ∃ t, Leads W I runId request s none t none ∧ HasSucceeded t := by
  induction m using Nat.strong_induction_on generalizing s with
  | _ m ih =>
      rcases comesToRest_of_resting hI hcreate hcomplete hclock hinitial h with hsucceeded |
        ⟨t, hleads, m', hlt, hresting⟩
      · exact ⟨s, ⟨[], .nil _⟩, hsucceeded⟩
      · obtain ⟨u, hlater, hsucceeded⟩ := ih m' hlt hresting
        exact ⟨u, hleads.trans hlater, hsucceeded⟩

include hcreate hvalid hpending hcomplete hclock in
/-- Before anything is stored the driver starts the plan. -/
theorem comesToRest_of_blank (hinitial : initial.Storable W I) (hblank : Blank s) :
    ∃ n, ComesToRest W I runId request s none n := by
  have hready : initial.status = .ready := by
    obtain ⟨-, -, -, -, rfl⟩ := createState_eq_ok hcreate
    rfl
  refine ⟨3 * (executionOrder request.steps).length + 2,
    comesToRest_of_entry hcreate hcomplete hclock (Or.inl rfl) ?_⟩
  exact (ends_start_blank hclock (createState_eq_ok hcreate).2.1.2 hcreate hblank
    (settled_initial hcreate hvalid hpending hcomplete) hready).mono fun r t hr =>
      (hr.resolve_right fun ⟨_, hrefused, _⟩ => hrefused hinitial).2

include hI hcreate hvalid hpending hcomplete hclock in
/-- From every point of its run the driver comes to rest. -/
theorem comesToRest_of_path {trace : List (Step (World Unit) (Event Unit))} {w : World Unit}
    (hpath : Path (DriverMoves W I runId request) World.initial trace w)
    (hinitial : initial.Storable W I) :
    ∃ n, ComesToRest W I runId request w.environment (w.programs ()) n := by
  have hends := endsAs_of_path hI hcreate hvalid hpending hcomplete hclock hpath
  unfold EndsAs at hends
  split at hends
  · next idle =>
      rw [idle]
      rcases hends with hblank | ⟨-, m, hresting⟩
      · exact comesToRest_of_blank hcreate hvalid hpending hcomplete hclock hinitial hblank
      · exact ⟨m + 1, w.environment, ⟨[], .nil _⟩, m, Nat.lt_succ_self m, hresting⟩
  · next p hp =>
      rw [hp]
      obtain ⟨t, r, hruns, hleaves⟩ := hends.exists_runs
      have hleads : Leads W I runId request w.environment (some p) t (some (.ofExcept r)) :=
        leads_of_runs hruns
      rcases hleaves with ⟨-, m, hending⟩ | ⟨⟨e, rfl⟩, hblank⟩
      · exact ⟨m, .of_leads hleads
          (comesToRest_of_ends hcreate hcomplete hclock le_rfl (ends_ofExcept hending))⟩
      · obtain ⟨n, hrest⟩ :=
          comesToRest_of_blank hcreate hvalid hpending hcomplete hclock hinitial hblank
        exact ⟨n, .of_leads (hleads.trans (leads_stop trivial)) hrest⟩

end Progress

include hI hcreate hvalid hpending hcomplete hclock in
/-- A workflow does not wedge if its plan can be driven to its end: every running state that
is stored has a step under way or one that is ready, and once the plan is stored the
workflow can be driven on until it has succeeded. -/
theorem not_wedged {trace : List (Step (World Unit) (Event Unit))} {w : World Unit}
    (hpath : Path (DriverMoves W I runId request) World.initial trace w) :
    (∀ a ∈ w.environment.states, a.status = .running →
      (∃ step ∈ a.steps, step.Active) ∨ ∃ step, readyStep a = .ok (some step)) ∧
    (initial.Storable W I ∨ w.environment.states ≠ [] →
      ∃ later w', Path (DriverMoves W I runId request) w later w' ∧
        HasSucceeded w'.environment) := by
  refine ⟨fun a ha hstatus => ?_, fun hstored => ?_⟩
  · obtain ⟨-, m, hdriven⟩ := driven_of_path hI hcreate hvalid hpending hcomplete hclock hpath ha
    exact hdriven.not_stuck hstatus
  · have hinitial : initial.Storable W I := hstored.elim id fun hne => by
      obtain ⟨a, rest, hstates⟩ := List.exists_cons_of_ne_nil hne
      exact (driven_of_path hI hcreate hvalid hpending hcomplete hclock hpath
        (hstates ▸ List.mem_cons_self)).1
    obtain ⟨n, t, hleads, m, -, hresting⟩ :=
      comesToRest_of_path hI hcreate hvalid hpending hcomplete hclock hpath hinitial
    obtain ⟨u, hlater, hsucceeded⟩ := leads_of_resting hI hcreate hcomplete hclock hinitial hresting
    obtain ⟨later, hall⟩ := hleads.trans hlater
    exact ⟨later, At u none, hall, hsucceeded⟩

end Driver

end

/-- The plan of one read is driven to its end. -/
theorem not_wedged_example :
    ∃ trace w, Path (DriverMoves Agent.WordClass.ascii Interpreter.fractional exampleRun startRequest)
        World.initial trace w ∧ HasSucceeded w.environment ∧
      ∀ a ∈ w.environment.states, a.status = .running →
        (∃ step ∈ a.steps, step.Active) ∨ ∃ step, readyStep a = .ok (some step) := by
  have hcomplete : Completable startRequest.steps := by
    refine ⟨fun step hstep => ?_, by decide⟩
    obtain rfl := List.mem_singleton.mp hstep
    exact ⟨by decide, by decide, fun r hr => by cases hr⟩
  have hclock : ∃ now, InTime Interpreter.fractional startRequest.deadline now :=
    ⟨exampleNow, _, rfl, by decide⟩
  obtain ⟨-, hdriven⟩ := not_wedged Json.readsDoubles_fractional createState_fractional (by decide)
    (by decide) hcomplete hclock (.nil (World.initial : World Unit))
  obtain ⟨trace, w, hpath, hsucceeded⟩ := hdriven (Or.inl storable_initialState)
  exact ⟨trace, w, hpath, hsucceeded, (not_wedged Json.readsDoubles_fractional createState_fractional
    (by decide) (by decide) hcomplete hclock hpath).1⟩

/-! ## A plan that ends in a question -/

def goOn : ClarificationRequest where
  interruptId := exampleRun
  question := "Go on?"
  answerType := .text
  answerMaxLength := 10
  choices := []

/-- A step that asks. -/
def askStep : PlanStep :=
  { openRequests with
    stepId := "ask"
    type := .clarification
    allowedTools := []
    toolName := none
    clarification := some goOn }

def askRequest : StartRequest := ⟨exampleRun, [askStep], exampleDeadline⟩

def askStarted : WorkflowState :=
  { initialState [askStep] with
    status := .running
    steps := [askStep.withStatus .ready]
    revision := 1 }

def askBegun : WorkflowState :=
  { askStarted with
    currentStepId := some askStep.stepId
    steps := [askStep.withStatus .running]
    revision := 2 }

def askInterrupted : WorkflowState :=
  { askBegun with
    status := .interrupted
    steps := [askStep.withStatus .waiting]
    clarification := some goOn
    revision := 3 }

/-- The state after the answer: it runs, its one step has succeeded, and no step is left. -/
def askAnswered (stamp : Instant) : WorkflowState :=
  { askInterrupted with
    status := .running
    steps := [askStep.complete acceptedDigest stamp]
    currentStepId := none
    clarification := none
    replanReason := some .inputClarified
    revision := 4 }

section Question

variable {s : Shared Unit} {token : Text} {reading : Instant}

theorem createState_ask :
    createState Interpreter.fractional exampleRun exampleRun [askStep] exampleDeadline =
      .ok (initialState [askStep]) :=
  createState_of_toBool (by decide)

/-- What a step from a state that can be stored leaves. -/
theorem kept_of_step {W : Agent.WordClass} {I : Interpreter} {a b : WorkflowState} {call : EngineCall}
    (h : a.Storable W I ∧ a.Valid I) (hstep : EngineStep I a call b) (hmoves : MovesOn a call)
    (hchecked : call.Checked) (hstays : StaysLoadable a call)
    (hrevision : (natDigits (a.revision + 1)).length ≤ Json.maxStrDigits) :
    b.Storable W I ∧ b.Valid I :=
  ⟨storable_of_step h.1 h.2 hrevision hmoves hstep, valid_of_step h.2 hchecked hstays hstep⟩

theorem start_ask (hreading : InTime Interpreter.fractional exampleDeadline reading) :
    Workflow.start Interpreter.fractional reading (initialState [askStep]) = .ok askStarted :=
  have hmem : askStep ∈ (initialState [askStep]).steps := List.mem_cons_self
  InTime.start hreading rfl rfl hmem

theorem beginStep_ask (hreading : InTime Interpreter.fractional exampleDeadline reading) :
    beginStep Interpreter.fractional reading askStarted askStep.stepId = .ok askBegun :=
  have hmem : askStep.withStatus .ready ∈ askStarted.steps := List.mem_cons_self
  have hbegin : beginStep Interpreter.fractional reading askStarted (askStep.withStatus .ready).stepId =
      .ok askBegun :=
    InTime.beginStep hreading rfl (planDag_of_validatePlanDag (u := ()) (by decide)) rfl hmem (Or.inr rfl)
  hbegin

theorem interrupt_ask (hreading : InTime Interpreter.fractional exampleDeadline reading) :
    interrupt Interpreter.fractional reading askBegun goOn = .ok askInterrupted :=
  have hmem : askStep.withStatus .running ∈ askBegun.steps := List.mem_cons_self
  InTime.interrupt hreading rfl (planDag_of_validatePlanDag (u := ()) (by decide)) hmem rfl rfl goOn

theorem resume_ask (hreading : InTime Interpreter.fractional exampleDeadline reading)
    (stamp : Instant) :
    Workflow.resume Interpreter.fractional reading stamp askInterrupted exampleRun "yes" =
      .ok (askAnswered stamp) :=
  have hmem : askStep.withStatus .waiting ∈ askInterrupted.steps := List.mem_cons_self
  have hrequest : askInterrupted.clarification = some goOn := rfl
  have hanswer : checkAnswer goOn "yes" = .ok () := rfl
  InTime.resume hreading rfl hrequest hanswer rfl hmem rfl

theorem valid_goOn : goOn.Valid := by
  have hlength : goOn.question.length ≤ 6 := by decide
  have hprintable : (goOn.question.all fun c => decide (32 ≤ c.val)) = true := by decide
  refine ⟨⟨by decide, by omega⟩, fun c hc hlt => ?_, by decide, by decide, by decide, by decide, by decide⟩
  have hle := of_decide_eq_true (List.all_eq_true.mp hprintable c hc)
  omega

theorem valid_askStep : askStep.Valid := by
  refine ⟨by decide, by decide, by decide, by decide, fun r hr => ?_, by decide, by decide, by decide,
    by decide, by decide⟩
  obtain rfl := Option.some.inj hr
  exact valid_goOn

theorem kept_initial :
    (initialState [askStep]).Storable Agent.WordClass.ascii Interpreter.fractional ∧
      (initialState [askStep]).Valid Interpreter.fractional :=
  ⟨storable_of_toBool (by decide +kernel), valid_createState createState_ask (by simpa using valid_askStep)⟩

theorem kept_askStarted :
    askStarted.Storable Agent.WordClass.ascii Interpreter.fractional ∧
      askStarted.Valid Interpreter.fractional :=
  have hstep : EngineStep Interpreter.fractional (initialState [askStep]) (.start exampleNow) askStarted :=
    start_ask ⟨_, rfl, by decide⟩
  kept_of_step kept_initial hstep trivial trivial trivial (by decide)

theorem kept_askBegun :
    askBegun.Storable Agent.WordClass.ascii Interpreter.fractional ∧
      askBegun.Valid Interpreter.fractional :=
  have hstep : EngineStep Interpreter.fractional askStarted (.beginStep exampleNow askStep.stepId)
      askBegun := beginStep_ask ⟨_, rfl, by decide⟩
  kept_of_step kept_askStarted hstep trivial trivial trivial (by decide)

theorem kept_askInterrupted :
    askInterrupted.Storable Agent.WordClass.ascii Interpreter.fractional ∧
      askInterrupted.Valid Interpreter.fractional :=
  have hstep : EngineStep Interpreter.fractional askBegun (.interrupt exampleNow goOn) askInterrupted :=
    interrupt_ask ⟨_, rfl, by decide⟩
  kept_of_step kept_askBegun hstep ⟨_, List.mem_cons_self, rfl⟩ valid_goOn trivial (by decide)

theorem kept_askAnswered (stamp : Instant) :
    (askAnswered stamp).Storable Agent.WordClass.ascii Interpreter.fractional ∧
      (askAnswered stamp).Valid Interpreter.fractional :=
  have hstep : EngineStep Interpreter.fractional askInterrupted
      (.resume exampleNow stamp exampleRun "yes") (askAnswered stamp) :=
    resume_ask ⟨_, rfl, by decide⟩ stamp
  kept_of_step kept_askInterrupted hstep rfl trivial trivial (by decide)

theorem exists_inTime_example : ∃ now, InTime Interpreter.fractional exampleDeadline now :=
  ⟨exampleNow, _, rfl, by decide⟩

/-- The run in which the plan is stored and started. -/
theorem ends_start_ask (h : Blank s) :
    EndsWell Agent.WordClass.ascii Interpreter.fractional exampleDeadline
      (start Interpreter.fractional exampleRun askRequest)
      (Returns fun outcome t => ∃ token,
        outcome = .again ⟨.workflow exampleRun, askStarted, some token, true, false⟩ ∧
        Stores Agent.WordClass.ascii Interpreter.fractional (fun _ => True) t askStarted (some token))
      s := by
  refine ends_start_first createState_ask h (fun t hholding _ => ?_)
    fun hrefused => absurd kept_initial.1 hrefused
  unfold advance
  simp only
  rw [if_pos (show (initialState [askStep]).status = .ready from rfl)]
  refine (ends_transition exists_inTime_example (K := fun _ => True) (Q := fun b => b = askStarted)
    (l := ⟨.workflow exampleRun, initialState [askStep], none, false, false⟩)
    ⟨hholding, fun _ _ => trivial⟩ fun reading hreading => ?_).andThen ?_
  · exact ⟨askStarted, start_ask hreading, ⟨rfl, kept_askStarted.1, trivial⟩, rfl⟩
  · rintro _ u ⟨token, _, rfl, rfl, hu⟩
    exact ends_pure ⟨_, rfl, token, rfl, hu⟩

/-- The run in which the question is asked. -/
theorem ends_iterate_ask
    (h : Stores Agent.WordClass.ascii Interpreter.fractional (fun _ => True) s askStarted (some token)) :
    EndsWell Agent.WordClass.ascii Interpreter.fractional exampleDeadline
      (Loop.iterate Interpreter.fractional ⟨.workflow exampleRun, askStarted, some token, true, false⟩)
      (Returns fun outcome t => (∃ result, outcome = .response result) ∧
        Stores Agent.WordClass.ascii Interpreter.fractional (fun _ => True) t askInterrupted none)
      s := by
  unfold Loop.iterate
  rw [if_neg (show ¬askStarted.status ≠ .running from fun hne => hne rfl)]
  refine Ends.andThen (R := fun ready t => askStep.withStatus .ready = ready ∧ s = t)
    (ends_pure ⟨_, rfl, rfl, rfl⟩) ?_
  rintro _ _ ⟨rfl, rfl⟩
  refine (ends_transition exists_inTime_example (K := fun _ => True) (Q := fun b => b = askBegun)
    (l := ⟨.workflow exampleRun, askStarted, some token, true, false⟩) h fun reading hreading =>
      ⟨askBegun, beginStep_ask hreading, ⟨rfl, kept_askBegun.1, trivial⟩, rfl⟩).andThen ?_
  rintro _ t ⟨held, _, rfl, rfl, ht⟩
  refine (ends_conclude exists_inTime_example (K := fun _ => True) (Q := fun b => b = askInterrupted)
    (l := ⟨.workflow exampleRun, askBegun, some held, true, false⟩) ht rfl fun reading hreading =>
      ⟨askInterrupted, interrupt_ask hreading, ⟨rfl, kept_askInterrupted.1, trivial⟩, rfl⟩).mono ?_
  rintro _ u ⟨_, rfl, hresult, _, rfl, hu⟩
  exact ⟨_, rfl, hresult, hu⟩

/-- The run in which the answer is taken. -/
theorem ends_resume_ask
    (h : Stores Agent.WordClass.ascii Interpreter.fractional (fun _ => True) s askInterrupted none) :
    EndsWell Agent.WordClass.ascii Interpreter.fractional exampleDeadline
      (resume Interpreter.fractional ⟨exampleRun, 3, exampleRun, "yes"⟩)
      (fun _ t => ∃ stamp, askAnswered stamp ∈ t.states) s := by
  refine ends_at_revision Json.readsDoubles_fractional h kept_askInterrupted.2 ?_
    fun hne => absurd rfl hne
  refine (ends_checkpoint (K := fun _ => True) (Q := fun b => ∃ stamp, b = askAnswered stamp)
    (E := False) h fun t => ?_).bind ?_ ?_
  · refine Ends.andThen
      (R := fun reading u => InTime Interpreter.fractional exampleDeadline reading ∧ t = u)
      (ends_now exists_inTime_example fun reading hreading => ⟨reading, rfl, hreading, rfl⟩) ?_
    rintro reading _ ⟨hreading, rfl⟩
    refine Ends.andThen (R := fun _ u => t = u)
      (ends_now exists_inTime_example fun stamp _ => ⟨stamp, rfl, rfl⟩) ?_
    rintro stamp _ rfl
    exact ends_ofExcept ⟨rfl, Or.inl ⟨askAnswered stamp, resume_ask hreading stamp,
      ⟨rfl, (kept_askAnswered stamp).1, trivial⟩, stamp, rfl⟩⟩
  · rintro ⟨b, lease⟩ t (⟨_, _, hok, ⟨stamp, hb⟩, ht⟩ | ⟨⟨_, he⟩, -⟩)
    · obtain ⟨rfl, rfl⟩ := Prod.mk.inj (Except.ok.inj hok)
      subst hb
      exact ends_pure ⟨stamp, List.mem_of_getLast? ht.holding.last⟩
    · cases he
  · rintro e t (⟨_, _, hok, -⟩ | ⟨-, hE, -⟩)
    · cases hok
    · exact hE.elim

end Question

/-- A plan of one question is accepted, and after its answer the workflow is stored as
running, with no step under way and none that is ready. -/
theorem question_last_wedges :
    createState Interpreter.fractional exampleRun exampleRun [askStep] exampleDeadline =
        .ok (initialState [askStep]) ∧
      (∀ step ∈ askRequest.steps, step.Valid ∧ step.status = .pending) ∧
      ∃ trace w, Path
          (DriverMoves Agent.WordClass.ascii Interpreter.fractional exampleRun askRequest)
          (World.initial : World Unit) trace w ∧
        ∃ a ∈ w.environment.states, a.status = .running ∧ (∀ step ∈ a.steps, ¬step.Active) ∧
          readyStep a = .ok none := by
  refine ⟨createState_ask, by simpa [askRequest] using ⟨valid_askStep, rfl⟩, ?_⟩
  obtain ⟨t, r, hstart, outcome, rfl, token, rfl, ht⟩ :=
    (ends_start_ask (s := Shared.empty) ⟨rfl, rfl⟩).exists_runs
  obtain ⟨u, r, hiterate, outcome, rfl, ⟨result, rfl⟩, hu⟩ := (ends_iterate_ask ht).exists_runs
  obtain ⟨v, r, hresume, stamp, hstamp⟩ := (ends_resume_ask hu).exists_runs
  have hresponse : Finished (continuation Interpreter.fractional)
      (Program.ofExcept (.ok (.response result))) := rfl
  have hasked : Leads Agent.WordClass.ascii Interpreter.fractional exampleRun askRequest Shared.empty
      none u none :=
    (leads_enter (Or.inl rfl)).trans ((leads_of_runs hstart).trans ((leads_iterate _).trans
      ((leads_of_runs hiterate).trans (leads_stop hresponse))))
  obtain ⟨trace, hpath⟩ := hasked.trans ((leads_enter (Or.inr (Or.inl ⟨_, rfl⟩))).trans
    (leads_of_runs hresume))
  exact ⟨trace, _, hpath, askAnswered stamp, hstamp, rfl, by simp [askAnswered, PlanStep.complete,
    PlanStep.Active], rfl⟩

end Runtime

end Workflow
