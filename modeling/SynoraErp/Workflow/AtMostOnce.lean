import SynoraErp.Workflow.Coherence
import SynoraErp.Workflow.Holding

/-!
# A step is dispatched at most once

Every method of the runtime makes its calls under the condition of a process: it saves
what may be stored in place of the state it has read or saved last, and it dispatches a
step only after it has stored the step as begun. So no plan version dispatches a step
twice, whatever the processes do and wherever they stop.
-/

namespace Workflow

open Python Transition
open Governance (Uuid)

namespace Runtime

variable {ι : Type} {W : Agent.WordClass} {I : Interpreter} {i : ι} {s t : Shared ι}

/-! ## Calls -/

section Calls

variable {α : Type}

theorem follows_of_performs {c : Call} {reply : c.Reply} (hallowed : Allowed I i s c)
    (hs : Coherent I W s) (h : Performs W I s i c reply t) (hrelies : Relies i s t) :
    (system W I).Follows i s t :=
  ⟨hrelies, (sound W I hs hallowed h).1⟩

/-- A call that stores and dispatches nothing. -/
theorem meets_quiet {c : Call} {k : c.Reply → Result α} {Q : α → Shared ι → Prop}
    (hallowed : ∀ t, Allowed I i t c)
    (hquiet : ∀ t u reply, Performs W I t i c reply u → Relies i t u)
    (h : ∀ t u v reply a, (system W I).Follows i s t → Performs W I t i c reply u →
      k reply = .ok a → (system W I).Follows i s v → (system W I).Follows i u v → Q a v) :
    (system W I).Meets i (.call c fun reply => .ofExcept (k reply)) Q s := by
  refine System.meets_call (fun t _ => hallowed t) fun t reply u v a ht hperforms hv hok => ?_
  have hu := follows_of_performs (hallowed t) ht.invariant hperforms (hquiet t u reply hperforms)
  exact h t u v reply a ht hperforms hok ((ht.trans hu).trans hv) hv

theorem meets_now {Q : Instant → Shared ι → Prop}
    (h : ∀ reading t, (system W I).Follows i s t → Q reading t) :
    (system W I).Meets i now Q s :=
  meets_quiet (c := .now) (k := Except.ok) (fun _ => trivial)
    (fun t u _ hperforms => by obtain rfl : u = t := hperforms; exact Relies.refl i u)
    fun _ _ v _ a _ _ _ hv _ => h a v hv

theorem meets_connect : (system W I).Meets i connect (fun _ => (system W I).Follows i s) s :=
  meets_quiet (c := .connect) (k := fun reply => reply) (fun _ => trivial)
    (fun t u _ hperforms => by obtain rfl : u = t := hperforms; exact Relies.refl i u)
    fun _ _ _ _ _ _ _ _ hv _ => hv

theorem meets_acquireLease (expectedRevision : ℕ) :
    (system W I).Meets i (acquireLease expectedRevision) (fun _ => (system W I).Follows i s) s :=
  meets_quiet (c := .acquireLease expectedRevision) (k := fun reply => reply) (fun _ => trivial)
    (fun _ _ _ ⟨_, _, _, hcommits⟩ => hcommits.relies (by simp))
    fun _ _ _ _ _ _ _ _ hv _ => hv

theorem meets_releaseLease (leaseId : Text) :
    (system W I).Meets i (releaseLease leaseId) (fun _ => (system W I).Follows i s) s :=
  meets_quiet (c := .releaseLease leaseId) (k := fun reply => reply) (fun _ => trivial)
    (fun _ _ _ hcommits => Commits.relies hcommits (by simp))
    fun _ _ _ _ _ _ _ _ hv _ => hv

/-- A state that is read is the one that was stored last. -/
theorem eq_last_of_load (hI : Json.ReadsDoubles I) (hs : Coherent I W s) {a : WorkflowState}
    (h : s.database.load W I = .ok a) : a ∈ s.states ∧ a.Valid I := by
  rw [Database.load] at h
  split at h
  · cases h
  · next row hrow =>
      obtain ⟨last, hlast, row', hrow', -, hpayload⟩ := hs.latest row hrow
      obtain rfl : row = row' := Option.some.inj (hrow.symm.trans hrow')
      rw [decode_storedPayload hI hpayload] at h
      split_ifs at h with hvalid
      obtain rfl := Except.ok.inj h
      exact ⟨List.mem_of_getLast? hlast, hvalid⟩

theorem eq_last_of_recoverable (hI : Json.ReadsDoubles I) (hs : Coherent I W s) {now : Instant}
    {a : WorkflowState} (h : s.database.recoverable W I now = some a) :
    a ∈ s.states ∧ a.Valid I := by
  obtain ⟨row, hrow, h⟩ := Option.bind_eq_some_iff.mp h
  split_ifs at h
  obtain ⟨decoded, hdecoded, h⟩ := Option.bind_eq_some_iff.mp h
  split_ifs at h
  obtain ⟨last, hlast, row', hrow', -, hpayload⟩ := hs.latest row hrow
  obtain rfl : row = row' := Option.some.inj (hrow.symm.trans hrow')
  obtain ⟨hloads, hvalidate⟩ := validateJson_storedPayload hI hpayload
  obtain rfl := Option.some.inj (hloads.symm.trans hdecoded)
  rw [hvalidate] at h
  split_ifs at h with hvalid
  obtain rfl := Option.some.inj h
  exact ⟨List.mem_of_getLast? hlast, hvalid⟩

theorem meets_load (hI : Json.ReadsDoubles I) {Q : WorkflowState → Shared ι → Prop}
    (h : ∀ a t, (system W I).Follows i s t → a ∈ t.states → a.Valid I → Q a t) :
    (system W I).Meets i load Q s := by
  refine meets_quiet (c := .load) (k := fun reply => reply) (fun _ => trivial)
    (fun t u _ hperforms => by obtain ⟨-, rfl⟩ := hperforms; exact Relies.refl i u) ?_
  rintro t u v reply a ht ⟨hreads, rfl⟩ rfl hv huv
  rcases hreads with hreads | ⟨detail, hdetail⟩
  · obtain ⟨hmem, hvalid⟩ := eq_last_of_load hI ht.invariant hreads.symm
    exact h a v hv (huv.relies.states_subset hmem) hvalid
  · cases hdetail

theorem meets_recoverable (hI : Json.ReadsDoubles I) {Q : Option WorkflowState → Shared ι → Prop}
    (h : ∀ found t, (system W I).Follows i s t → (∀ a ∈ found, a ∈ t.states ∧ a.Valid I) →
      Q found t) :
    (system W I).Meets i recoverable Q s := by
  refine meets_quiet (c := .recoverable) (k := fun reply => reply) (fun _ => trivial)
    (fun t u _ hperforms => by obtain ⟨_, -, rfl⟩ := hperforms; exact Relies.refl i u) ?_
  rintro t u v reply found ht ⟨now, hreads, rfl⟩ rfl hv huv
  rcases hreads with hreads | ⟨detail, hdetail⟩
  · refine h found v hv fun a ha => ?_
    obtain rfl := Except.ok.inj hreads
    obtain ⟨hmem, hvalid⟩ := eq_last_of_recoverable hI ht.invariant ha
    exact ⟨huv.relies.states_subset hmem, hvalid⟩
  · cases hdetail

end Calls

/-- The process has stored a state in place of another. -/
structure Stored (i : ι) (a b : WorkflowState) (s : Shared ι) : Prop where
  before : a ∈ s.states
  owns : Owns i b s
  revision : b.revision = a.revision + 1

theorem Relies.stored {a b : WorkflowState} (h : Relies i s t) (hstored : Stored i a b s) :
    Stored i a b t :=
  ⟨h.states_subset hstored.before, h.owns hstored.owns, hstored.revision⟩

theorem Stored.mem {a b : WorkflowState} (h : Stored i a b s) : b ∈ s.states :=
  mem_states.mpr ⟨i, h.owns.saved⟩

theorem meets_create {a : WorkflowState} :
    (system W I).Meets i (create a) (fun _ t => a ∈ t.states) s := by
  have hallowed : ∀ t, (system W I).Follows i s t → Allowed I i t (.create a) := fun _ _ => trivial
  refine System.meets_call (c := Call.create a) (k := fun reply => reply) hallowed ?_
  rintro t reply u v ⟨⟩ ht ⟨now, seconds, hcommits⟩ hv rfl
  obtain ⟨db, hdb, -, rfl⟩ | ⟨e, -, hreply, -⟩ := hcommits
  · exact hv.relies.states_subset (mem_states.mpr ⟨i, by simp⟩)
  · cases hreply

theorem meets_save {a b : WorkflowState} {leaseId : Text} {keepLease : Bool} (ha : a ∈ s.states)
    (hsucceeds : ∀ t, Relies i s t → Succeeds I i a t b) :
    (system W I).Meets i (save b a.revision leaseId keepLease) (fun _ => Stored i a b) s := by
  have hallowed : ∀ t, (system W I).Follows i s t →
      Allowed I i t (.save b a.revision leaseId keepLease) := fun t ht =>
    ⟨a, ht.relies.states_subset ha, rfl, hsucceeds t ht.relies⟩
  refine System.meets_call (c := Call.save b a.revision leaseId keepLease) (k := fun reply => reply)
    hallowed ?_
  rintro t reply u v ⟨⟩ ht hperforms hv rfl
  have hcoherent := (sound W I ht.invariant (hallowed t ht) hperforms).1
  obtain ⟨now, seconds, ⟨db, hdb, -, rfl⟩ | ⟨e, -, hreply, -⟩⟩ := hperforms
  · have hat : a ∈ t.states := ht.relies.states_subset ha
    have hrevision := (save_eq_ok hdb).1
    have hle : ∀ x ∈ t.states, x.revision ≤ a.revision := by
      obtain ⟨-, payload, row, -, hrow, hexpected, -, -⟩ := save_eq_ok hdb
      obtain ⟨last, hlast, row', hrow', hlastRevision, -⟩ := ht.invariant.latest row hrow
      obtain rfl : row = row' := Option.some.inj (hrow.symm.trans hrow')
      intro x hx
      rw [← hexpected, hlastRevision]
      rcases ht.invariant.later_last hlast hx with rfl | hlater
      · exact le_refl _
      · exact hlater.revision.le
    refine hv.relies.stored ⟨?_, ⟨by simp, fun x hx => ?_, fun d hd _ hstate => ?_⟩, hrevision⟩
    · exact mem_states.mpr (by obtain ⟨j, hj⟩ := mem_states.mp hat; exact ⟨j, by simp [hj]⟩)
    · rcases List.mem_append.mp hx with hx | hx
      · exact (hle x (mem_states.mpr ⟨i, hx⟩)).trans (by rw [hrevision]; exact Nat.le_succ _)
      · obtain ⟨-, rfl⟩ := Prod.mk.inj (List.mem_singleton.mp hx)
        exact le_refl _
    · have hd' := hle d.state (mem_states.mpr ⟨d.process, (ht.invariant.dispatches d hd).1⟩)
      rw [hstate, hrevision] at hd'
      exact Nat.not_succ_le_self _ hd'
  · cases hreply

theorem meets_execute {a : WorkflowState} {ready : PlanStep} {action : Action} (howns : Owns i a s)
    (hbegun : Begun s.states a ready.stepId) :
    (system W I).Meets i (execute a ready action) (fun _ t => a ∈ t.states ∧ Executed i a t) s := by
  have hallowed : ∀ t, (system W I).Follows i s t → Allowed I i t (.execute a ready action) :=
    fun t ht => ⟨ht.relies.owns howns, hbegun.mono ht.relies.states_subset⟩
  refine System.meets_call (c := Call.execute a ready action) (k := Except.ok) hallowed ?_
  intro t reply u v outcome ht hperforms hv _
  obtain rfl : u = { t with dispatched := t.dispatched ++ [⟨i, a, ready, action⟩] } := hperforms
  have hat : a ∈ t.states := mem_states.mpr ⟨i, (ht.relies.owns howns).saved⟩
  exact ⟨hv.relies.states_subset hat, hv.relies.executed
    ⟨⟨i, a, ready, action⟩, by simp, rfl, rfl⟩⟩

/-! ## Transitions -/

section Transitions

variable {α : Type} {Q : α → Shared ι → Prop}

theorem meets_releaseHeld (heldLease : Option Text) :
    (system W I).Meets i (releaseHeld heldLease) (fun _ => (system W I).Follows i s) s := by
  cases heldLease with
  | none => exact System.meets_pure fun _ ht => ht
  | some lease => exact meets_releaseLease lease

theorem meets_orRelease {lease : Text} {body : Method α} (hs : Coherent I W s)
    (h : (system W I).Meets i body Q s) : (system W I).Meets i (orRelease lease body) Q s :=
  h.catching hs fun e _ ht => (meets_releaseLease lease).bind ht fun _ _ _ _ => System.meets_throw e

theorem meets_unwind (heldLease : Option Text) (e : Exn) (hs : Coherent I W s) :
    (system W I).Meets i (unwind heldLease e : Method α) Q s := by
  cases e with
  | checkpointError => exact System.meets_throw _
  | workflowError | valueError | unicodeEncodeError =>
      exact (meets_releaseHeld heldLease).bind hs fun _ _ _ _ => System.meets_throw _

theorem meets_guarded {l : Loop} {body : Method α} (hs : Coherent I W s)
    (h : (system W I).Meets i body Q s) : (system W I).Meets i (l.guarded body) Q s :=
  h.catching hs fun e _ ht => meets_unwind l.heldLease e ht

/-- What may be stored in place of a state whatever the processes have done. -/
def Replaces (I : Interpreter) (i : ι) (a b : WorkflowState) (s : Shared ι) : Prop :=
  a ∈ s.states ∧ ∀ t : Shared ι, Succeeds I i a t b

/-- A new state that may be stored in place of the one that was loaded is stored. -/
theorem meets_checkpoint {a : WorkflowState} {operation : Method WorkflowState}
    {keepLease : WorkflowState → Bool} (hs : Coherent I W s) (ha : a ∈ s.states)
    (h : ∀ t, Coherent I W t → a ∈ t.states →
      (system W I).Meets i operation (Replaces I i a) t) :
    (system W I).Meets i (checkpoint a operation keepLease) (fun x => Stored i a x.1) s := by
  refine (meets_acquireLease a.revision).bind hs fun lease t htc ht => ?_
  have hstored : (system W I).Meets i
      (orRelease lease do
        let next ← operation
        save next a.revision lease (keepLease next)
        return next) (Stored i a) t := by
    refine meets_orRelease htc ((h t htc (ht.relies.states_subset ha)).bind htc ?_)
    intro next u huc ⟨hau, hnext⟩
    refine (meets_save hau fun v _ => hnext v).bind huc fun _ v _ hv => ?_
    exact System.meets_pure fun w hw => hw.relies.stored hv
  exact hstored.bind htc fun next u _ hu => System.meets_pure fun v hv => hv.relies.stored hu

/-- What may be stored in place of the current state is stored. -/
theorem meets_replace {l : Loop} {lease : Text} {operation : Instant → Result WorkflowState}
    {keepLease : Bool} (hs : Coherent I W s) (hcurrent : l.current ∈ s.states)
    (h : ∀ reading next t, operation reading = .ok next → Relies i s t →
      Succeeds I i l.current t next) :
    (system W I).Meets i (l.replace lease operation keepLease)
      (fun next t => Stored i l.current next t ∧ ∃ reading, operation reading = .ok next) s := by
  refine System.Meets.bind hs (meets_now (Q := fun _ t => Relies i s t) fun _ t ht => ht.relies)
    fun reading t htc ht => ?_
  refine System.Meets.bind htc (Q := fun next u => Relies i s u ∧ operation reading = .ok next)
    (System.meets_ofExcept fun next hnext u hu => ⟨ht.trans hu.relies, hnext⟩)
    fun next u huc ⟨hu, hnext⟩ => ?_
  refine (meets_save (hu.states_subset hcurrent) fun v hv => h reading next v hnext (hu.trans hv)).bind
    huc fun _ v _ hv => ?_
  exact System.meets_pure fun w hw => ⟨hw.relies.stored hv, reading, hnext⟩

theorem meets_hold (l : Loop) :
    (system W I).Meets i l.hold (fun _ => (system W I).Follows i s) s := by
  unfold Loop.hold
  split
  · exact System.meets_pure fun _ ht => ht
  · exact meets_acquireLease _

theorem meets_transition {l : Loop} {operation : Instant → Result WorkflowState}
    (hs : Coherent I W s) (hcurrent : l.current ∈ s.states)
    (h : ∀ reading next (t : Shared ι), operation reading = .ok next → Succeeds I i l.current t next) :
    (system W I).Meets i (l.transition operation)
      (fun l' t => Stored i l.current l'.current t ∧ ∃ reading, operation reading = .ok l'.current)
      s := by
  refine (meets_guarded hs (meets_hold l)).bind hs fun lease t htc ht => ?_
  refine (meets_guarded htc (meets_replace htc (ht.relies.states_subset hcurrent)
    fun reading next u hnext _ => h reading next u hnext)).bind htc fun next u _ ⟨hu, hnext⟩ => ?_
  exact System.meets_pure fun v hv => ⟨hv.relies.stored hu, hnext⟩

/-- A method that reaches the loop does so with a state that was stored. -/
def Reaches (outcome : Outcome) (s : Shared ι) : Prop :=
  ∀ l, outcome = .again l → l.current ∈ s.states

theorem meets_response (result : WorkflowResult) :
    (system W I).Meets i (return .response result : Method Outcome) Reaches s :=
  System.meets_pure fun _ _ _ h => by cases h

theorem meets_conclude {l : Loop} {operation : Instant → Result WorkflowState}
    (hs : Coherent I W s) (hcurrent : l.current ∈ s.states)
    (h : ∀ reading next t, operation reading = .ok next → Relies i s t →
      Succeeds I i l.current t next) :
    (system W I).Meets i (l.conclude operation) Reaches s :=
  (meets_guarded hs (meets_replace hs hcurrent h)).bind hs fun _ _ _ _ => meets_response _

end Transitions

/-! ## The loop -/

section Loop

variable {l : Loop} {ready : PlanStep}

/-- The state `begin_step` returns is one in which the step has begun. -/
theorem begun_of_beginStep {a b : WorkflowState} {reading : Instant} {stepId : Text}
    {states : List WorkflowState} (h : beginStep I reading a stepId = .ok b) (ha : a ∈ states) :
    Begun states b stepId := by
  obtain ⟨step, hready, rfl, rfl⟩ := beginStep_eq_ok h
  obtain ⟨hstatus, hnext, -⟩ := readyStep_eq_some hready
  obtain ⟨hmem, hstartable, -⟩ := nextStep_eq_some hnext
  have hknown : Shows a.steps step.stepId fun _ => True :=
    ⟨List.mem_map_of_mem hmem, fun _ _ _ => trivial⟩
  exact ⟨⟨hstatus, rfl, hknown.updateStep (keepsPlace_withStatus _) fun _ _ => rfl⟩,
    a, ha, rfl, rfl, step, hmem, rfl, hstartable⟩

theorem meets_prepare (hs : Coherent I W s) :
    (system W I).Meets i (l.prepare ready) (fun _ => (system W I).Follows i s) s := by
  refine System.Meets.bind hs (Q := fun _ => (system W I).Follows i s)
    (System.meets_ofExcept fun _ _ _ ht => ht) fun ⟨toolName, correlationId⟩ t htc ht => ?_
  have hconnect : (system W I).Meets i l.reachAdapter (fun _ => (system W I).Follows i s) t := by
    unfold Loop.reachAdapter
    split
    · exact System.meets_pure fun _ hu => ht.trans hu
    · exact meets_connect.mono fun _ _ hu => ht.trans hu
  exact hconnect.bind htc fun _ u _ hu => System.meets_ofExcept fun _ _ _ hv => hu.trans hv

theorem meets_complete (hs : Coherent I W s) (hcurrent : l.current ∈ s.states)
    (hexecuted : Executed i l.current s) (observation : Observation) :
    (system W I).Meets i (l.complete I observation) Reaches s := by
  have hbody : (system W I).Meets i (do
      let reading ← now
      let stamp ← now
      let completed ← Program.ofExcept (completeStep I reading stamp l.current observation)
      save completed l.current.revision (l.heldLease.getD []) false
      return completed) (Stored i l.current) s := by
    refine System.Meets.bind hs (meets_now (Q := fun _ t => Relies i s t) fun _ _ ht => ht.relies)
      fun reading t htc ht => ?_
    refine System.Meets.bind htc (meets_now (Q := fun _ u => Relies i s u)
      fun _ _ hu => ht.trans hu.relies) fun stamp u huc hu => ?_
    refine System.Meets.bind huc (Q := fun next v => Relies i s v ∧
        completeStep I reading stamp l.current observation = .ok next)
      (System.meets_ofExcept fun next hnext v hv => ⟨hu.trans hv.relies, hnext⟩)
      fun next v hvc ⟨hv, hnext⟩ => ?_
    refine (meets_save (hv.states_subset hcurrent) fun w hw => ?_).bind hvc fun _ w _ hw => ?_
    · exact .called (.completeStep reading stamp observation)
        ((hv.trans hw).executed hexecuted) hnext
    · exact System.meets_pure fun x hx => hx.relies.stored hw
  refine (meets_guarded hs hbody).bind hs fun completed t _ ht => ?_
  refine System.meets_pure fun u hu l' hl' => ?_
  obtain rfl := Outcome.again.inj hl'
  exact hu.relies.states_subset ht.mem

theorem meets_fail (hs : Coherent I W s) (hcurrent : l.current ∈ s.states)
    (hexecuted : Executed i l.current s) (code : Text) :
    (system W I).Meets i (l.fail I code) Reaches s := by
  unfold Loop.fail
  split
  · exact System.meets_throw _
  · split_ifs
    · exact (meets_replace hs hcurrent fun reading next t hnext ht =>
        .failed (ht.executed hexecuted) code reading hnext).bind hs fun _ _ _ _ => meets_response _
    · exact System.meets_throw _

/-- The step a process has begun is dispatched, and what comes of it is stored. -/
theorem meets_dispatch (hs : Coherent I W s) (howns : Owns i l.current s)
    (hbegun : Begun s.states l.current ready.stepId) :
    (system W I).Meets i (l.dispatch I ready) Reaches s := by
  refine (meets_guarded hs (meets_prepare hs)).bind hs fun action t htc ht => ?_
  refine (meets_execute (ht.relies.owns howns) (hbegun.mono ht.relies.states_subset)).bind htc
    fun outcome u huc ⟨hcurrent, hexecuted⟩ => ?_
  cases outcome with
  | observed observation => exact meets_complete huc hcurrent hexecuted observation
  | failed code => exact meets_fail huc hcurrent hexecuted code
  | raised e => exact meets_unwind _ e huc

theorem meets_proceed (hs : Coherent I W s) (howns : Owns i l.current s)
    (hbegun : Begun s.states l.current ready.stepId) :
    (system W I).Meets i (l.proceed I ready) Reaches s := by
  have hcurrent : l.current ∈ s.states := mem_states.mpr ⟨i, howns.saved⟩
  unfold Loop.proceed
  split
  · split
    · exact meets_guarded hs (System.meets_throw _)
    · next request _ =>
        exact meets_conclude hs hcurrent fun reading next t hnext ht =>
          .called (.interrupt reading request) (ht.owns howns) hnext
  · exact meets_conclude hs hcurrent fun reading next t hnext ht =>
      .called (.waitForGovernedAction reading ready.stepId)
        ⟨ht.owns howns, hbegun.underway.current⟩ hnext
  · exact meets_dispatch hs howns hbegun
  · exact meets_dispatch hs howns hbegun

theorem meets_iterate (hs : Coherent I W s) (hcurrent : l.current ∈ s.states) :
    (system W I).Meets i (l.iterate I) Reaches s := by
  unfold Loop.iterate
  split_ifs
  · exact meets_response _
  · refine System.Meets.bind hs (Q := fun _ => (system W I).Follows i s)
      (meets_guarded hs (System.meets_ofExcept fun _ _ _ ht => ht)) fun ready t htc ht => ?_
    refine (meets_transition htc (ht.relies.states_subset hcurrent) fun reading next u hnext =>
      .called (.beginStep reading ready.stepId) trivial hnext).bind htc
      fun l' u huc ⟨hstored, reading, hbegin⟩ => ?_
    exact meets_proceed huc hstored.owns (begun_of_beginStep hbegin hstored.before)

theorem meets_enter (hs : Coherent I W s) (hcurrent : l.current ∈ s.states) :
    (system W I).Meets i l.enter Reaches s := by
  unfold Loop.enter
  split_ifs
  · exact meets_response _
  · refine System.Meets.bind hs (Q := fun _ => (system W I).Follows i s)
      (meets_guarded hs (System.meets_ofExcept fun _ _ _ ht => ht)) fun _ t _ ht => ?_
    refine System.meets_pure fun u hu l' hl' => ?_
    obtain rfl := Outcome.again.inj hl'
    exact (ht.trans hu).relies.states_subset hcurrent

theorem meets_advance {requester : Requester} {a : WorkflowState} {lease : Option Text}
    (hs : Coherent I W s) (ha : a ∈ s.states) :
    (system W I).Meets i (advance I requester a lease) Reaches s := by
  unfold advance
  simp only
  split_ifs
  · refine (meets_transition hs ha fun reading next t hnext =>
      .called (.start reading) trivial hnext).bind hs fun l t htc ⟨hstored, _⟩ => ?_
    exact meets_enter htc hstored.mem
  · exact meets_enter hs ha

end Loop

/-! ## Methods -/

section Methods

variable (hI : Json.ReadsDoubles I) {runId : Uuid}

include hI

theorem meets_start (hs : Coherent I W s) (request : StartRequest) :
    (system W I).Meets i (Runtime.start I runId request) Reaches s := by
  refine System.Meets.bind hs (Q := fun _ _ => True) (System.meets_ofExcept fun _ _ _ _ => trivial)
    fun initial t htc _ => ?_
  have hcreate : (system W I).Meets i (do create initial; return initial)
      (fun a u => a ∈ u.states) t :=
    meets_create.bind htc fun _ u _ hu => System.meets_pure fun v hv => hv.relies.states_subset hu
  refine (hcreate.catching htc fun e u _ => ?_).bind htc fun state u huc hu => meets_advance huc hu
  split
  · exact meets_load hI fun a v _ ha _ => ha
  · exact System.meets_throw _

theorem meets_loadOrCreate (hs : Coherent I W s) (request : P2PPlanRequest) (stepId : Text) :
    (system W I).Meets i (loadOrCreate I runId request stepId) (fun a t => a ∈ t.states) s := by
  have hload : (system W I).Meets i load (fun a t => a ∈ t.states) s :=
    meets_load hI fun a t _ ha _ => ha
  refine hload.catching hs fun e t htc => ?_
  split
  · refine System.Meets.bind htc (Q := fun _ _ => True)
      (System.meets_ofExcept fun _ _ _ _ => trivial) fun step u huc _ => ?_
    refine System.Meets.bind huc (Q := fun _ _ => True)
      (System.meets_ofExcept fun _ _ _ _ => trivial) fun initial v hvc _ => ?_
    exact meets_create.bind hvc fun _ w _ hw =>
      System.meets_pure fun x hx => hx.relies.states_subset hw
  · exact System.meets_throw _

omit hI in
theorem meets_appendIntent {a : WorkflowState} (hs : Coherent I W s) (ha : a ∈ s.states)
    (hstatus : a.status = .running ∨ a.status = .succeeded) (intent : GovernedActionIntent)
    (stepId : Text) :
    (system W I).Meets i (appendIntent I a intent stepId) (fun b t => b ∈ t.states) s := by
  refine System.Meets.bind hs (Q := fun _ t => a ∈ t.states)
    (System.meets_ofExcept fun _ _ t ht => ht.relies.states_subset ha) fun next t htc hat => ?_
  refine (meets_checkpoint htc hat fun u huc hau => ?_).bind htc fun x u _ hu =>
    System.meets_pure fun v hv => hv.relies.states_subset hu.mem
  refine System.Meets.bind huc (meets_now (Q := fun _ v => a ∈ v.states)
    fun _ v hv => hv.relies.states_subset hau) fun reading v _ hav => ?_
  exact System.meets_ofExcept fun b hb w hw => ⟨hw.relies.states_subset hav, fun x =>
    .called (.replan reading _ .noProgress) ⟨hstatus, List.subset_append_left _ _⟩ hb⟩

theorem meets_planGovernedAction (hs : Coherent I W s) (request : P2PPlanRequest) :
    (system W I).Meets i (Runtime.planGovernedAction I runId request) Reaches s := by
  refine System.Meets.bind hs (Q := fun _ _ => True) (System.meets_ofExcept fun _ _ _ _ => trivial)
    fun stepId t htc _ => ?_
  refine (meets_loadOrCreate hI htc request stepId).bind htc fun a u huc hau => ?_
  split
  · split_ifs
    · exact meets_response _
    · exact System.meets_throw _
  · split_ifs with hready hpending hrefused hused
    · exact meets_advance huc hau
    · exact System.meets_throw _
    · exact System.meets_throw _
    · exact System.meets_throw _
    · have hstatus : a.status = .running ∨ a.status = .succeeded := by
        cases h : a.status <;> simp [h] at hready hrefused ⊢
      exact (meets_appendIntent huc hau hstatus request.intent stepId).bind huc
        fun b v hvc hb => meets_advance hvc hb

theorem meets_loadAt (hs : Coherent I W s) (revision : ℕ) :
    (system W I).Meets i (loadAt revision) (fun a t => a ∈ t.states ∧ a.Valid I) s := by
  have hload : (system W I).Meets i load (fun a t => a ∈ t.states ∧ a.Valid I) s :=
    meets_load hI fun a t _ ha hvalid => ⟨ha, hvalid⟩
  refine hload.bind hs fun a t _ ⟨ha, hvalid⟩ => ?_
  split_ifs
  · exact System.meets_throw _
  · exact System.meets_pure fun u hu => ⟨hu.relies.states_subset ha, hvalid⟩

theorem meets_resume (hs : Coherent I W s) (request : ResumeRequest) :
    (system W I).Meets i (Runtime.resume I request) Reaches s := by
  refine (meets_loadAt hI hs request.workflowRevision).bind hs fun a t htc ⟨hat, hvalid⟩ => ?_
  refine (meets_checkpoint htc hat fun u huc hau => ?_).bind htc fun x u huc hu => ?_
  · refine System.Meets.bind huc (meets_now (Q := fun _ v => a ∈ v.states)
      fun _ v hv => hv.relies.states_subset hau) fun reading v hvc hav => ?_
    refine System.Meets.bind hvc (meets_now (Q := fun _ w => a ∈ w.states)
      fun _ w hw => hw.relies.states_subset hav) fun stamp w _ haw => ?_
    refine System.meets_ofExcept fun b hb x hx => ⟨hx.relies.states_subset haw, fun y => ?_⟩
    exact .called (.resume reading stamp request.interruptId request.answer)
      (hvalid.shaped.interrupted (resume_eq_ok hb).1).2 hb
  · simp only
    split_ifs
    · exact meets_response _
    · exact meets_advance huc hu.mem

theorem meets_status (hs : Coherent I W s) :
    (system W I).Meets i (Runtime.status I) Reaches s := by
  have hload : (system W I).Meets i load (fun a t => a ∈ t.states) s :=
    meets_load hI fun a t _ ha _ => ha
  refine hload.bind hs fun a t htc hat => ?_
  split_ifs with hterminal
  · exact meets_response _
  · refine System.Meets.bind htc (meets_now (Q := fun _ u => a ∈ u.states)
      fun _ u hu => hu.relies.states_subset hat) fun reading u huc hau => ?_
    refine System.Meets.bind huc (Q := fun _ v => a ∈ v.states)
      (System.meets_ofExcept fun _ _ v hv => hv.relies.states_subset hau) fun expired v hvc hav => ?_
    split_ifs
    · refine (meets_checkpoint hvc hav fun w _ haw => ?_).bind hvc fun _ _ _ _ => meets_response _
      exact System.meets_pure fun x hx => ⟨hx.relies.states_subset haw, fun y =>
        .called .expire hterminal rfl⟩
    · exact meets_response _

theorem meets_cancel (hs : Coherent I W s) (workflowRevision : ℕ) :
    (system W I).Meets i (Runtime.cancel workflowRevision) Reaches s := by
  refine (meets_loadAt hI hs workflowRevision).bind hs fun a t htc ⟨hat, _⟩ => ?_
  refine (meets_checkpoint htc hat fun u _ hau => ?_).bind htc fun _ _ _ _ => meets_response _
  exact System.meets_ofExcept fun b hb v hv => ⟨hv.relies.states_subset hau, fun w =>
    .called (.cancel "cancelled") trivial hb⟩

theorem meets_completeGovernedAction (hs : Coherent I W s) (request : CompleteRequest) :
    (system W I).Meets i (Runtime.completeGovernedAction I request) Reaches s := by
  refine (meets_loadAt hI hs request.workflowRevision).bind hs fun a t htc ⟨hat, _⟩ => ?_
  refine (meets_checkpoint htc hat fun u huc hau => ?_).bind htc fun _ _ _ _ => meets_response _
  refine System.Meets.bind huc (meets_now (Q := fun _ v => a ∈ v.states)
    fun _ v hv => hv.relies.states_subset hau) fun reading v hvc hav => ?_
  refine System.Meets.bind hvc (meets_now (Q := fun _ w => a ∈ w.states)
    fun _ w hw => hw.relies.states_subset hav) fun stamp w _ haw => ?_
  exact System.meets_ofExcept fun b hb x hx => ⟨hx.relies.states_subset haw, fun y =>
    .called (.completeGovernedAction reading stamp request.stepId request.receiptDigest) trivial hb⟩

theorem meets_recover (hs : Coherent I W s) (interruptId : WorkflowState → Uuid) :
    (system W I).Meets i (Runtime.recover I interruptId) Reaches s := by
  have hnone : ∀ (n : ℕ) (t : Shared ι),
      (system W I).Meets i (return .recovered n : Method Outcome) Reaches t :=
    fun n t => System.meets_pure fun _ _ _ h => by cases h
  have hfound : (system W I).Meets i recoverable
      (fun found t => ∀ a ∈ found, a ∈ t.states) s :=
    meets_recoverable hI fun found t _ h a ha => (h a ha).1
  refine hfound.bind hs fun found t htc hmem => ?_
  split
  · exact hnone 0 t
  · next a =>
      have hat : a ∈ t.states := hmem a rfl
      refine System.Meets.bind htc (Q := fun _ u => a ∈ u.states)
        (System.meets_ofExcept fun _ _ u hu => hu.relies.states_subset hat) fun uncertain u huc hau => ?_
      split_ifs
      · refine (meets_checkpoint huc hau fun v hvc hav => ?_).bind huc fun _ v _ _ => hnone 1 v
        refine System.Meets.bind hvc (meets_now (Q := fun _ w => a ∈ w.states)
          fun _ w hw => hw.relies.states_subset hav) fun reading w _ haw => ?_
        exact System.meets_ofExcept fun b hb x hx => ⟨hx.relies.states_subset haw, fun y =>
          .recovered (interruptId a) reading hb⟩
      · exact hnone 0 u

theorem meets_method (hs : Coherent I W s) (request : Request) :
    (system W I).Meets i (request.method I runId) Reaches s := by
  cases request with
  | start request => exact meets_start hI hs request
  | planGovernedAction request => exact meets_planGovernedAction hI hs request
  | resume request => exact meets_resume hI hs request
  | status => exact meets_status hI hs
  | cancel workflowRevision => exact meets_cancel hI hs workflowRevision
  | completeGovernedAction request => exact meets_completeGovernedAction hI hs request
  | recover interruptId => exact meets_recover hI hs interruptId

end Methods

/-! ## Runs -/

theorem coherent_empty : Coherent I W (Shared.empty : Shared ι) :=
  ⟨fun _ => rfl, fun row hrow => (by cases hrow), .nil, fun d hd => (by cases hd), .nil,
    fun x hx => (by cases hx)⟩

/-- What holds of the processes at every point of a run. -/
theorem coherent_of_path [DecidableEq ι] (hI : Json.ReadsDoubles I) {runId : Uuid}
    {trace : List (Step (World ι) (Event ι))} {w : World ι}
    (hpath : Path (RuntimeMoves W I runId) World.initial trace w) : Coherent I W w.environment := by
  refine System.invariant_of_meets (S := system W I) (Q := fun _ => Reaches) ?_ ?_ hpath
    ⟨coherent_empty, fun i p hp => by cases hp⟩
  · rintro i p s ⟨request, rfl⟩ hs
    exact meets_method hI hs request
  · intro i outcome p s hp hs hreaches
    cases outcome with
    | response | recovered => cases hp
    | again l =>
        obtain rfl := Option.some.inj hp
        exact meets_iterate hs (hreaches l rfl)

/-- A step that has begun in one state does not begin in another of that plan version. -/
theorem Coherent.not_begun_twice (hs : Coherent I W s) {a b : WorkflowState} {id : Text}
    (ha : a ∈ s.states) (hunderway : Underway a id) (hb : Begun s.states b id)
    (hversion : a.planVersion = b.planVersion) : ¬a.revision < b.revision := by
  intro hlt
  obtain ⟨x, hx, hrevision, hxVersion, step, hstep, hid, hstartable⟩ := hb.before
  have hunstartable : Unstartable x.steps id := by
    rcases Nat.lt_or_ge a.revision x.revision with hax | hax
    · exact (hs.later_of_lt ha hx hax).unstartable (by rw [hxVersion, hversion]) id
        hunderway.steps.unstartable
    · obtain rfl := hs.eq_of_revision_eq ha hx (by omega)
      exact hunderway.steps.unstartable
  exact hunstartable step hstep hid hstartable

theorem Coherent.nodup_keys (hs : Coherent I W s) : (s.dispatched.map Dispatch.key).Nodup := by
  refine List.pairwise_map.mpr (hs.once.imp_of_mem fun {d d'} hd hd' hne hkey => ?_)
  obtain ⟨hversion, hid⟩ := Prod.mk.inj hkey
  obtain ⟨hsaved, hbegun⟩ := hs.dispatches d hd
  obtain ⟨hsaved', hbegun'⟩ := hs.dispatches d' hd'
  have hmem : d.state ∈ s.states := mem_states.mpr ⟨_, hsaved⟩
  have hmem' : d'.state ∈ s.states := mem_states.mpr ⟨_, hsaved'⟩
  rcases Nat.lt_trichotomy d.state.revision d'.state.revision with hlt | heq | hlt
  · exact hs.not_begun_twice hmem hbegun.underway (hid ▸ hbegun') hversion hlt
  · exact hne (hs.eq_of_revision_eq hmem hmem' heq)
  · exact hs.not_begun_twice hmem' hbegun'.underway (hid ▸ hbegun) hversion.symm hlt

/-! ## A run with a dispatch -/

/-- The state of the example once it has started. -/
def startedState : WorkflowState :=
  { initialState [openRequests] with
    status := .running
    steps := [openRequests.withStatus .ready]
    revision := 1 }

/-- The state in which the read of the example has begun. -/
def begunState : WorkflowState :=
  { startedState with
    currentStepId := some openRequests.stepId
    steps := [openRequests.withStatus .running]
    revision := 2 }

theorem storable_startedState :
    startedState.Storable Agent.WordClass.ascii Interpreter.fractional :=
  have hsteps : startedState.steps =
      updateStep (initialState [openRequests]).steps openRequests.stepId (.withStatus .ready) := rfl
  storable_initialState.update ⟨rfl, rfl, rfl, rfl⟩ hsteps (fun _ hstep => hstep.withStatus _) ⟨rfl, rfl⟩ rfl (by decide)
    (fun _ h => by cases h) (fun _ h => by cases h) (Or.inl rfl)

theorem storable_begunState : begunState.Storable Agent.WordClass.ascii Interpreter.fractional :=
  have hsteps : begunState.steps =
      updateStep startedState.steps openRequests.stepId (.withStatus .running) := rfl
  storable_startedState.update ⟨rfl, rfl, rfl, rfl⟩ hsteps (fun _ hstep => hstep.withStatus _) ⟨rfl, rfl⟩ rfl (by decide)
    (fun id hid => by obtain rfl := Option.some.inj hid; decide) (fun _ h => by cases h)
    (Or.inl rfl)

theorem start_initialState :
    Workflow.start Interpreter.fractional exampleNow (initialState [openRequests]) =
      .ok startedState := by
  rfl

theorem beginStep_startedState :
    beginStep Interpreter.fractional exampleNow startedState openRequests.stepId = .ok begunState := by
  rfl

/-- The example runs to the head of the loop. -/
theorem exists_runs_start :
    ∃ token t, Runs (Performs Agent.WordClass.ascii Interpreter.fractional) () Shared.empty
        (Runtime.start Interpreter.fractional exampleRun startRequest) t
        (.ok (.again ⟨.workflow exampleRun, startedState, some token, true, false⟩)) ∧
      Holding Agent.WordClass.ascii Interpreter.fractional t startedState (some token) ∧
      t.dispatched = [] := by
  obtain ⟨t, hcreate, ht, hdispatched⟩ :=
    exists_create (i := ()) (s := Shared.empty) exampleNow storable_initialState rfl rfl
  obtain ⟨token, u, htransition, hu, hdispatched'⟩ :=
    exists_runs_transition (i := ())
      (l := ⟨.workflow exampleRun, initialState [openRequests], none, false, false⟩)
      (fun reading => Workflow.start Interpreter.fractional reading (initialState [openRequests])) ht
      exampleToken exampleNow start_initialState storable_startedState rfl
  refine ⟨token, u, ?_, hu, hdispatched'.trans hdispatched⟩
  have hstored : Runs (Performs Agent.WordClass.ascii Interpreter.fractional) () Shared.empty
      (do create (initialState [openRequests]); return initialState [openRequests]) t
      (.ok (initialState [openRequests])) :=
    Runs.bind (a := ()) (Runs.call hcreate (.done t ())) (.done t _)
  refine Runs.bind (a := initialState [openRequests]) ?_ (Runs.bind (Runs.catching hstored) ?_)
  · show Runs _ _ _ (Program.ofExcept (createState Interpreter.fractional exampleRun exampleRun
      [openRequests] exampleDeadline)) _ _
    rw [createState_fractional]
    exact .done _ _
  · exact Runs.bind htransition (.done u _)

/-- The read of the example is dispatched, and the adapter fails. -/
theorem exists_runs_iterate {token : Text} {s : Shared Unit}
    (h : Holding Agent.WordClass.ascii Interpreter.fractional s startedState (some token)) :
    ∃ t, Runs (Performs Agent.WordClass.ascii Interpreter.fractional) () s
        (Loop.iterate Interpreter.fractional
          ⟨.workflow exampleRun, startedState, some token, true, false⟩) t
        (.error (.workflowError "TOOL_ERROR" "workflow execution failed")) ∧
      t.dispatched ≠ [] := by
  obtain ⟨token', t, htransition, ht, -⟩ :=
    exists_runs_transition (i := ())
      (l := ⟨.workflow exampleRun, startedState, some token, true, false⟩)
      (fun reading => beginStep Interpreter.fractional reading startedState openRequests.stepId) h
      exampleToken exampleNow beginStep_startedState storable_begunState rfl
  let action : Action := ⟨1, .materialRequestOpen, .empty, exampleRun, by decide⟩
  let u : Shared Unit :=
    { t with dispatched := t.dispatched ++ [⟨(), begunState, openRequests.withStatus .ready, action⟩] }
  have hu : Holding Agent.WordClass.ascii Interpreter.fractional u begunState (some token') :=
    ⟨ht.row, ht.history, ht.last⟩
  obtain ⟨v, hrelease, -, hdispatched⟩ := exists_release (i := ()) hu
  refine ⟨v, ?_, by simp [hdispatched, u]⟩
  refine Runs.bind (a := openRequests.withStatus .ready) (.done s _) (Runs.bind htransition ?_)
  have hconnect : Performs Agent.WordClass.ascii Interpreter.fractional t () .connect (.ok ()) t := rfl
  have hexecute : Performs Agent.WordClass.ascii Interpreter.fractional t ()
      (.execute begunState (openRequests.withStatus .ready) action) (.raised (.valueError "")) u := rfl
  refine Runs.bind (a := action) (Runs.catching (Runs.call hconnect (.done t _))) ?_
  refine Runs.call hexecute ?_
  exact Runs.bind (a := ()) (Runs.call hrelease (.done v ())) (.raised v _)

/-- A process enters `start` and goes on until the adapter has failed. -/
theorem exists_path_dispatched :
    ∃ trace w, Path (RuntimeMoves Agent.WordClass.ascii Interpreter.fractional exampleRun)
        (World.initial : World Unit) trace w ∧ w.environment.dispatched ≠ [] := by
  obtain ⟨token, t, hstart, ht, -⟩ := exists_runs_start
  obtain ⟨u, hiterate, hu⟩ := exists_runs_iterate ht
  let l : Loop := ⟨.workflow exampleRun, startedState, some token, true, false⟩
  have henter : RuntimeMoves Agent.WordClass.ascii Interpreter.fractional exampleRun
      (World.initial : World Unit) (.enter ()) ⟨.empty, Function.update (fun _ => none) () _⟩ :=
    .enter _ () _ ⟨.start startRequest, rfl⟩ rfl
  obtain ⟨first, hfirst⟩ := hstart.path _ (Function.update_self ..)
  have hproceed : ∀ programs, programs () = some (.done (.again l)) →
      RuntimeMoves Agent.WordClass.ascii Interpreter.fractional exampleRun ⟨t, programs⟩
        (.proceed ()) ⟨t, Function.update programs () (some (l.iterate Interpreter.fractional))⟩ :=
    fun programs h => .proceed _ () _ _ h rfl
  obtain ⟨second, hsecond⟩ := hiterate.path _ (Function.update_self ..)
  exact ⟨_, _, .cons henter (hfirst.append (.cons (hproceed _ (Function.update_self ..)) hsecond)), hu⟩

/-! ## At most once -/

/-- What a step without a result shows. -/
theorem Uncertain.shows {begun last : WorkflowState} {id : Text} (h : Uncertain begun id last)
    (hunderway : Underway begun id) :
    last.planVersion = begun.planVersion ∧ Shows last.steps id (Unresolved last) := by
  cases h with
  | left eq =>
      subst eq
      exact ⟨rfl, hunderway.steps.mono fun _ hrunning => Or.inl hrunning⟩
  | bypassed version current steps =>
      exact ⟨version, steps.mono fun _ hrunning => Or.inl hrunning⟩
  | recovered version status current crashed steps =>
      exact ⟨version, steps.mono fun _ hwaiting => Or.inr (Or.inl ⟨hwaiting, crashed⟩)⟩
  | ended version status steps => exact ⟨version, steps⟩

/-- In every run of any number of processes a step is dispatched at most once in a plan
version. A dispatch has its result from the process that made it, in the state stored next
after the one it was made in; or the plan was never replaced and the step is still
running, waits for the answer to a recovery, or was failed by that answer. -/
theorem dispatched_at_most_once [DecidableEq ι] (hI : Json.ReadsDoubles I) {runId : Uuid}
    {trace : List (Step (World ι) (Event ι))} {w : World ι}
    (hpath : Path (RuntimeMoves W I runId) World.initial trace w) :
    (w.environment.dispatched.map Dispatch.key).Nodup ∧
      ∀ d ∈ w.environment.dispatched,
        (∃ r, (d.process, r) ∈ w.environment.saved ∧ r.revision = d.state.revision + 1 ∧
          Shows r.steps d.ready.stepId HasResult) ∨
        ∃ last ∈ w.environment.last?, last.planVersion = d.state.planVersion ∧
          Shows last.steps d.ready.stepId (Unresolved last) := by
  have hs := coherent_of_path hI hpath
  refine ⟨hs.nodup_keys, fun d hd => ?_⟩
  obtain ⟨hsaved, hbegun⟩ := hs.dispatches d hd
  rcases hs.settled _ hsaved _ hbegun.underway with ⟨r, hr, hrevision, hresult⟩ |
    ⟨last, hlast, huncertain⟩
  · exact Or.inl ⟨r, hr, hrevision, hresult ⟨d, hd, rfl, rfl⟩⟩
  · exact Or.inr ⟨last, hlast, huncertain.shows hbegun.underway⟩

/-- The example is such a run. -/
theorem dispatched_at_most_once_example :
    ∃ trace w, Path (RuntimeMoves Agent.WordClass.ascii Interpreter.fractional exampleRun)
        (World.initial : World Unit) trace w ∧ w.environment.dispatched ≠ [] ∧
      (w.environment.dispatched.map Dispatch.key).Nodup ∧
      ∀ d ∈ w.environment.dispatched,
        (∃ r, (d.process, r) ∈ w.environment.saved ∧ r.revision = d.state.revision + 1 ∧
          Shows r.steps d.ready.stepId HasResult) ∨
        ∃ last ∈ w.environment.last?, last.planVersion = d.state.planVersion ∧
          Shows last.steps d.ready.stepId (Unresolved last) := by
  obtain ⟨trace, w, hpath, hdispatched⟩ := exists_path_dispatched
  exact ⟨trace, w, hpath, hdispatched, dispatched_at_most_once Json.readsDoubles_fractional hpath⟩

end Runtime

end Workflow
