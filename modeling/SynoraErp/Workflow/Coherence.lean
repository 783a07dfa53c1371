import SynoraErp.Workflow.Succession

/-!
# What the processes keep

The condition under which a process makes each of its calls, and what all calls made so
keep: the row holds the state that was stored last, the states that were stored follow
one another, every dispatch is of a step its process has begun, and a step that has
begun has its result from that process or none.
-/

namespace Workflow

open Python Transition
open Governance (Uuid)

namespace Runtime

variable {ι : Type}

/-! ## What the processes keep -/

/-- The state is one in which a step has begun, in place of one in which it could. -/
structure Begun (states : List WorkflowState) (a : WorkflowState) (id : Text) : Prop where
  underway : Underway a id
  before : ∃ x ∈ states, x.revision + 1 = a.revision ∧ x.planVersion = a.planVersion ∧
    ∃ step ∈ x.steps, step.stepId = id ∧ step.Startable

/-- The process that began a step has stored what came of it. -/
def Closed (s : Shared ι) (i : ι) (a : WorkflowState) (id : Text) : Prop :=
  ∃ b, (i, b) ∈ s.saved ∧ b.revision = a.revision + 1 ∧
    (Executed i a s → Shows b.steps id HasResult)

/-- What holds of a process after the calls of the others. -/
structure Relies (i : ι) (s t : Shared ι) : Prop where
  saved : ∃ new, t.saved = s.saved ++ new ∧ ∀ x ∈ new, x.1 ≠ i
  dispatched : ∃ new, t.dispatched = s.dispatched ++ new ∧ ∀ d ∈ new, d.process ≠ i

section

variable (I : Interpreter)

/-- The condition under which a process makes a call: it saves what may be stored in place
of a state, and dispatches the step it has begun. -/
def Allowed (i : ι) (s : Shared ι) : Call → Prop
  | .save state expectedRevision _ _ =>
      ∃ a ∈ s.states, a.revision = expectedRevision ∧ Succeeds I i a s state
  | .execute current ready _ => Owns i current s ∧ Begun s.states current ready.stepId
  | _ => True

variable (W : Agent.WordClass)

/-- What every call of the processes keeps. -/
structure Coherent (s : Shared ι) : Prop where
  absent : s.database.row = none → s.saved = []
  latest : ∀ row, s.database.row = some row → ∃ last ∈ s.last?, Holds W I s.database last
  ordered : s.states.Pairwise Later
  dispatches : ∀ d ∈ s.dispatched, (d.process, d.state) ∈ s.saved ∧ Begun s.states d.state d.ready.stepId
  once : s.dispatched.Pairwise fun d d' => d.state ≠ d'.state
  settled : ∀ x ∈ s.saved, ∀ id, Underway x.2 id →
    Closed s x.1 x.2 id ∨ ∃ last ∈ s.last?, Uncertain x.2 id last

end

theorem Relies.refl (i : ι) (s : Shared ι) : Relies i s s :=
  ⟨⟨[], by simp⟩, ⟨[], by simp⟩⟩

theorem Relies.trans {i : ι} {s t u : Shared ι} (h : Relies i s t) (h' : Relies i t u) :
    Relies i s u := by
  obtain ⟨⟨new, hnew, hothers⟩, ⟨dispatches, hdispatches, hothers'⟩⟩ := h
  obtain ⟨⟨later, hlater, hlaterOthers⟩, ⟨dispatches', hdispatches', hlaterOthers'⟩⟩ := h'
  refine ⟨⟨new ++ later, by rw [hlater, hnew, List.append_assoc], fun x hx => ?_⟩,
    ⟨dispatches ++ dispatches', by rw [hdispatches', hdispatches, List.append_assoc],
      fun d hd => ?_⟩⟩
  · rcases List.mem_append.mp hx with hx | hx
    · exact hothers x hx
    · exact hlaterOthers x hx
  · rcases List.mem_append.mp hd with hd | hd
    · exact hothers' d hd
    · exact hlaterOthers' d hd

section Coherent

variable {W : Agent.WordClass} {I : Interpreter} {s t : Shared ι} {i : ι} {a b : WorkflowState}

theorem mem_states {s : Shared ι} {a : WorkflowState} : a ∈ s.states ↔ ∃ i, (i, a) ∈ s.saved := by
  simp [Shared.states]

theorem Coherent.later_of_lt (h : Coherent I W s) (ha : a ∈ s.states) (hb : b ∈ s.states)
    (hlt : a.revision < b.revision) : Later a b := by
  refine List.Pairwise.forall_of_forall_of_flip
    (R := fun x y => x.revision < y.revision → Later x y) ?_ ?_ ?_ ha hb hlt
  · exact fun x _ hlt => absurd hlt (lt_irrefl _)
  · exact h.ordered.imp (S := fun x y => x.revision < y.revision → Later x y) fun hlater _ => hlater
  · exact h.ordered.imp (S := fun x y => y.revision < x.revision → Later y x)
      fun hlater hlt => absurd hlater.revision hlt.not_gt

/-- A revision belongs to one state. -/
theorem Coherent.eq_of_revision_eq (h : Coherent I W s) (ha : a ∈ s.states) (hb : b ∈ s.states)
    (hrevision : a.revision = b.revision) : a = b := by
  have hnodup : (s.states.map WorkflowState.revision).Nodup :=
    List.pairwise_map.mpr (h.ordered.imp fun hlater => hlater.revision.ne)
  exact List.inj_on_of_nodup_map hnodup ha hb hrevision

/-- A state was stored by one process. -/
theorem Coherent.process_eq (h : Coherent I W s) {j : ι} (hi : (i, a) ∈ s.saved)
    (hj : (j, a) ∈ s.saved) : i = j := by
  have hnodup : (s.saved.map Prod.snd).Nodup :=
    h.ordered.imp fun hlater heq => hlater.revision.ne (by rw [heq])
  exact congrArg Prod.fst (List.inj_on_of_nodup_map hnodup hi hj rfl)

theorem Coherent.later_last (h : Coherent I W s) {last : WorkflowState} (hlast : last ∈ s.last?)
    (ha : a ∈ s.states) : a = last ∨ Later a last := by
  obtain ⟨initial, hinitial⟩ := List.getLast?_eq_some_iff.mp hlast
  have hordered := h.ordered
  rw [hinitial, List.pairwise_append] at hordered
  rw [hinitial, List.mem_append, List.mem_singleton] at ha
  rcases ha with ha | rfl
  · exact Or.inr (hordered.2.2 a ha last (by simp))
  · exact Or.inl rfl

theorem Begun.mono {states states' : List WorkflowState} {id : Text} (h : Begun states a id)
    (hsub : states ⊆ states') : Begun states' a id := by
  obtain ⟨x, hx, hrest⟩ := h.before
  exact ⟨h.underway, x, hsub hx, hrest⟩

/-- The processes keep what they keep when only the lease of the row changes. -/
theorem Coherent.ofContent (h : Coherent I W s) {db : Database}
    (hcontent : db.row.map CheckpointRow.content = s.database.row.map CheckpointRow.content) :
    Coherent I W { s with database := db } := by
  refine ⟨fun hnone => ?_, fun row hrow => ?_, h.ordered, h.dispatches, h.once, h.settled⟩
  · rw [show db.row = none from hnone, Option.map_none, eq_comm, Option.map_eq_none_iff] at hcontent
    exact h.absent hcontent
  · rw [show db.row = some row from hrow, Option.map_some, eq_comm, Option.map_eq_some_iff]
      at hcontent
    obtain ⟨old, hold, heq⟩ := hcontent
    obtain ⟨last, hlast, row', hrow', hrevision, hpayload⟩ := h.latest old hold
    rw [hold, Option.some.injEq] at hrow'
    subst hrow'
    obtain ⟨hrev, hpay⟩ := Prod.mk.inj heq
    exact ⟨last, hlast, row, hrow, by rw [← hrev, hrevision], by rw [← hpay, hpayload]⟩

/-- The first state is stored. -/
theorem Coherent.create (h : Coherent I W s) {now : Instant} {seconds : LeaseSeconds}
    {db : Database} (hcreate : s.database.create W I now seconds a none = .ok db) :
    Coherent I W { s with database := db, saved := s.saved ++ [(i, a)] } ∧ s.saved = [] := by
  obtain ⟨payload, hpayload, hrow, -, rfl⟩ := create_eq_ok hcreate
  have hsaved := h.absent hrow
  have hdispatched : s.dispatched = [] :=
    List.eq_nil_iff_forall_not_mem.mpr fun d hd => by simpa [hsaved] using (h.dispatches d hd).1
  refine ⟨⟨fun hnone => (by cases hnone), fun row hrow => ?_, ?_, fun d hd => ?_, ?_, ?_⟩, hsaved⟩
  · exact ⟨a, by simp [Shared.last?, Shared.states, hsaved], _, rfl, rfl, hpayload⟩
  · simp [Shared.states, hsaved]
  · simp [hdispatched] at hd
  · simp [hdispatched]
  · intro x hx id hunderway
    obtain rfl : x = (i, a) := by simpa [hsaved] using hx
    exact Or.inr ⟨a, by simp [Shared.last?, Shared.states, hsaved], .left rfl⟩

/-- A state is stored in place of the last one. -/
theorem Coherent.save (h : Coherent I W s) {now : Instant} {seconds : LeaseSeconds}
    {expectedRevision : ℕ} {leaseId : Option Text} {keepLease : Bool} {db : Database}
    (ha : a ∈ s.states) (hrevision : a.revision = expectedRevision) (hsucceeds : Succeeds I i a s b)
    (hsave : s.database.save W I now seconds b expectedRevision leaseId keepLease = .ok db) :
    Coherent I W { s with database := db, saved := s.saved ++ [(i, b)] } := by
  obtain ⟨hnext, payload, row, hpayload, hrow, hexpected, -, rfl⟩ := save_eq_ok hsave
  obtain ⟨last, hlast, row', hrow', hlastRevision, -⟩ := h.latest row hrow
  have hlastMem : last ∈ s.states := List.mem_of_getLast? hlast
  obtain rfl : row = row' := Option.some.inj (hrow.symm.trans hrow')
  obtain rfl : a = last :=
    h.eq_of_revision_eq ha hlastMem (by rw [hrevision, ← hexpected, hlastRevision])
  have hlater : Later a b := hsucceeds.later (by rw [hnext, hrevision])
  have hstates : ({ s with saved := s.saved ++ [(i, b)] } : Shared ι).states = s.states ++ [b] := by
    simp [Shared.states]
  have hsub : s.states ⊆ s.states ++ [b] := List.subset_append_left _ _
  refine ⟨fun hnone => (by cases hnone), fun row hrow => ?_, ?_, fun d hd => ?_, h.once, ?_⟩
  · exact ⟨b, by simp [Shared.last?, Shared.states], _, rfl, rfl, hpayload⟩
  · show ({ s with saved := s.saved ++ [(i, b)] } : Shared ι).states.Pairwise Later
    rw [hstates, List.pairwise_append]
    refine ⟨h.ordered, List.pairwise_singleton _ _, fun x hx y hy => ?_⟩
    obtain rfl := List.mem_singleton.mp hy
    rcases h.later_last hlast hx with rfl | hx
    · exact hlater
    · exact hx.trans hlater
  · obtain ⟨hsaved, hbegun⟩ := h.dispatches d hd
    refine ⟨List.mem_append_left _ hsaved, ?_⟩
    show Begun ({ s with saved := s.saved ++ [(i, b)] } : Shared ι).states d.state d.ready.stepId
    rw [hstates]
    exact hbegun.mono hsub
  · have hlast' : b ∈ ({ s with saved := s.saved ++ [(i, b)] } : Shared ι).last? := by
      simp [Shared.last?, Shared.states]
    intro x hx id hunderway
    rcases List.mem_append.mp hx with hold | hnew
    · rcases h.settled x hold id hunderway with ⟨c, hc, hcRevision, hresult⟩ |
        ⟨last, hlast₂, huncertain⟩
      · exact Or.inl ⟨c, List.mem_append_left _ hc, hcRevision, hresult⟩
      · obtain rfl : a = last := Option.some.inj (hlast.symm.trans hlast₂)
        by_cases howns : a = x.2 ∧ Owns i x.2 s
        · -- the owner goes on from a state it has dispatched nothing for
          obtain ⟨rfl, howns⟩ := howns
          obtain rfl := h.process_eq (show (x.1, x.2) ∈ s.saved from hold) howns.saved
          refine Or.inl ⟨b, by simp, by rw [hnext, hrevision], fun hexecuted => ?_⟩
          obtain ⟨d, hd, hprocess, hstate⟩ := hexecuted
          exact absurd hstate (howns.dispatched d hd hprocess)
        · rcases hsucceeds.uncertain hunderway (fun heq hown => howns ⟨heq, hown⟩) huncertain with
            huncertain | ⟨rfl, ⟨d, hd, rfl, hstate⟩, hresult⟩
          · exact Or.inr ⟨b, hlast', huncertain⟩
          · have hprocess := h.process_eq (hstate ▸ (h.dispatches d hd).1) (show (x.1, x.2) ∈ s.saved from hold)
            exact Or.inl ⟨b, by simp [hprocess], by rw [hnext, hrevision], fun _ => hresult⟩
    · obtain rfl := List.mem_singleton.mp hnew
      exact Or.inr ⟨b, hlast', .left rfl⟩

/-- A step that has begun is dispatched. -/
theorem Coherent.execute (h : Coherent I W s) {ready : PlanStep} {action : Action}
    (howns : Owns i a s) (hbegun : Begun s.states a ready.stepId) :
    Coherent I W { s with dispatched := s.dispatched ++ [⟨i, a, ready, action⟩] } := by
  refine ⟨h.absent, h.latest, h.ordered, fun d hd => ?_, ?_, fun x hx id hunderway => ?_⟩
  · rcases List.mem_append.mp hd with hd | hd
    · exact h.dispatches d hd
    · obtain rfl := List.mem_singleton.mp hd
      exact ⟨howns.saved, hbegun⟩
  · refine List.pairwise_append.mpr ⟨h.once, List.pairwise_singleton _ _, fun d hd d' hd' heq => ?_⟩
    obtain rfl := List.mem_singleton.mp hd'
    have hsaved : (i, d.state) ∈ s.saved := by
      rw [show d.state = a from heq]
      exact howns.saved
    exact howns.dispatched d hd (h.process_eq (h.dispatches d hd).1 hsaved) heq
  · rcases h.settled x hx id hunderway with ⟨c, hc, hcRevision, hresult⟩ | huncertain
    · refine Or.inl ⟨c, hc, hcRevision, ?_⟩
      rintro ⟨d, hd, hprocess, hstate⟩
      rcases List.mem_append.mp hd with hd | hd
      · exact hresult ⟨d, hd, hprocess, hstate⟩
      · -- the process has stored a state after this one
        obtain rfl := List.mem_singleton.mp hd
        have hle := howns.last c (by rw [show i = x.1 from hprocess]; exact hc)
        rw [hcRevision, show x.2 = a from hstate.symm] at hle
        exact absurd hle (Nat.not_succ_le_self _)
    · exact Or.inr huncertain

end Coherent

/-! ## The system of the processes -/

section Relies

variable {s t : Shared ι} {i : ι} {a : WorkflowState}

theorem Relies.saved_subset (h : Relies i s t) : s.saved ⊆ t.saved := by
  obtain ⟨new, hnew, -⟩ := h.saved
  exact hnew ▸ List.subset_append_left _ _

theorem Relies.states_subset (h : Relies i s t) : s.states ⊆ t.states :=
  List.map_subset _ h.saved_subset

theorem Relies.owns (h : Relies i s t) (howns : Owns i a s) : Owns i a t := by
  obtain ⟨new, hnew, hothers⟩ := h.saved
  obtain ⟨dispatches, hdispatches, hothers'⟩ := h.dispatched
  refine ⟨h.saved_subset howns.saved, fun b hb => ?_, fun d hd hprocess => ?_⟩
  · rw [hnew] at hb
    rcases List.mem_append.mp hb with hb | hb
    · exact howns.last b hb
    · exact absurd rfl (hothers _ hb)
  · rw [hdispatches] at hd
    rcases List.mem_append.mp hd with hd | hd
    · exact howns.dispatched d hd hprocess
    · exact absurd hprocess (hothers' d hd)

theorem Relies.executed (h : Relies i s t) (hexecuted : Executed i a s) : Executed i a t := by
  obtain ⟨new, hnew, -⟩ := h.dispatched
  obtain ⟨d, hd, hrest⟩ := hexecuted
  exact ⟨d, hnew ▸ List.mem_append_left _ hd, hrest⟩

/-- A call of the store is seen by the others as what it stores. -/
theorem Commits.relies {α : Type} {result : Result Database} {value : α}
    {stored : List (ι × WorkflowState)} {reply : Result α}
    (h : Commits s result value stored reply t) (hstored : ∀ x ∈ stored, x.1 ≠ i) :
    Relies i s t := by
  obtain ⟨db, -, -, rfl⟩ | ⟨e, -, -, rfl⟩ := h
  · exact ⟨⟨stored, rfl, hstored⟩, ⟨[], by simp⟩⟩
  · exact Relies.refl i t

end Relies

section System

variable (W : Agent.WordClass) (I : Interpreter)

theorem sound {s t : Shared ι} {i : ι} {c : Call} {reply : c.Reply} (hs : Coherent I W s)
    (hallowed : Allowed I i s c) (h : Performs W I s i c reply t) :
    Coherent I W t ∧ ∀ j, j ≠ i → Relies j s t := by
  cases c with
  | create state =>
      obtain ⟨now, seconds, hcommits⟩ := h
      refine ⟨?_, fun j hj => hcommits.relies fun x hx => ?_⟩
      · obtain ⟨db, hdb, -, rfl⟩ | ⟨e, -, -, rfl⟩ := hcommits
        · exact (hs.create hdb).1
        · exact hs
      · rw [List.mem_singleton.mp hx]
        exact hj.symm
  | load =>
      obtain ⟨-, rfl⟩ := h
      exact ⟨hs, fun j _ => Relies.refl j t⟩
  | recoverable =>
      obtain ⟨now, -, rfl⟩ := h
      exact ⟨hs, fun j _ => Relies.refl j t⟩
  | acquireLease expectedRevision =>
      obtain ⟨now, seconds, token, hcommits⟩ := h
      refine ⟨?_, fun j _ => hcommits.relies (by simp)⟩
      obtain ⟨db, hdb, -, rfl⟩ | ⟨e, -, -, rfl⟩ := hcommits
      · obtain ⟨row, hrow, -, -, rfl⟩ := acquireLease_eq_ok hdb
        rw [List.append_nil]
        exact hs.ofContent (by simp [hrow, CheckpointRow.content])
      · exact hs
  | save state expectedRevision leaseId keepLease =>
      obtain ⟨now, seconds, hcommits⟩ := h
      obtain ⟨a, ha, hrevision, hsucceeds⟩ := hallowed
      refine ⟨?_, fun j hj => hcommits.relies fun x hx => ?_⟩
      · obtain ⟨db, hdb, -, rfl⟩ | ⟨e, -, -, rfl⟩ := hcommits
        · exact hs.save ha hrevision hsucceeds hdb
        · exact hs
      · rw [List.mem_singleton.mp hx]
        exact hj.symm
  | releaseLease leaseId =>
      refine ⟨?_, fun j _ => Commits.relies h (by simp)⟩
      obtain ⟨db, hdb, -, rfl⟩ | ⟨e, -, -, rfl⟩ := h
      · rw [List.append_nil]
        refine hs.ofContent ?_
        obtain rfl := Except.ok.inj hdb
        simp only [Database.releaseLease, Option.map_map]
        congr 1
        refine funext fun row => ?_
        simp only [Function.comp_apply]
        split_ifs <;> rfl
      · exact hs
  | now =>
      obtain rfl : t = s := h
      exact ⟨hs, fun j _ => Relies.refl j t⟩
  | connect =>
      obtain rfl : t = s := h
      exact ⟨hs, fun j _ => Relies.refl j t⟩
  | execute current ready action =>
      obtain rfl : t = { s with dispatched := s.dispatched ++ [⟨i, current, ready, action⟩] } := h
      refine ⟨hs.execute hallowed.1 hallowed.2, fun j hj => ⟨⟨[], by simp⟩, ⟨_, rfl, fun d hd => ?_⟩⟩⟩
      rw [List.mem_singleton.mp hd]
      exact hj.symm

/-- The processes over one store, with what each of them promises and relies on. -/
def system : System ι (Shared ι) Call Call.Reply where
  perform := Performs W I
  allowed := Allowed I
  relies := Relies
  invariant := Coherent I W
  relies_refl := Relies.refl
  relies_trans := Relies.trans
  sound := sound W I

end System

end Runtime

end Workflow
