import SynoraErp.Run.Service

/-!
# Requests that nobody interferes with

The runs of a revocation and of a read when no other connection has locked the row: the
revocation is committed, and the read comes to its handler.
-/

namespace Run

open Python
open Governance (RunState Uuid)
open Gateway (RunContext)
open Transition Transition.Documents

variable {ι : Type} [DecidableEq ι] {i : ι} {s t u : Store ι Uuid AgentRun External}

/-- A connection has read, and nothing else has been done to the table. -/
structure Observes (i : ι) (s t : Store ι Uuid AgentRun External) : Prop where
  view : t.view i = s.view i
  free : ∀ k, s.Free i k → t.Free i k

omit [DecidableEq ι] in
theorem Observes.trans (h : Observes i s t) (h' : Observes i t u) : Observes i s u where
  view := h'.view.trans h.view
  free k hk := h'.free k (h.free k hk)

theorem free_set {k : Uuid} {c : Connection Uuid AgentRun} (h : s.Free i k) :
    (s.set i c).Free i k := by
  intro j hj
  rw [Store.connections_set_of_ne hj]
  exact h j hj

/-- The connection of a transaction with the same writes sees the same. -/
theorem observes_set {c : Connection Uuid AgentRun} (h : c.writes = (s.connections i).writes) :
    Observes i s (s.set i c) where
  view := by
    unfold Store.view Connection.view
    rw [Store.connections_set, h, Store.committed_set]
  free _ hk := free_set hk

theorem runs_call {c : Call Uuid AgentRun External} {v : c.Value External.Value}
    (h : s.Does i c v t) : Runs Store.Perform i s (call c) t (.ok v) :=
  .request h

theorem runs_get (s : Store ι Uuid AgentRun External) (i : ι) (runId : Uuid) :
    ∃ t, Runs Store.Perform i s (call (.get runId)) t (.ok (s.view i runId)) ∧ Observes i s t :=
  ⟨_, runs_call ⟨s.committed, .inl rfl, rfl, rfl⟩, observes_set rfl⟩

theorem runs_external (s : Store ι Uuid AgentRun External) (i : ι) (x : External) (v : x.Value) :
    ∃ t, Runs Store.Perform i s (external x) t (.ok v) ∧ Observes i s t :=
  ⟨s.record x, runs_call (c := .external x) rfl, ⟨rfl, fun _ h => h⟩⟩

theorem runs_getDoc {runId : Uuid} {run : AgentRun} (h : s.view i runId = some run) :
    ∃ t, Runs Store.Perform i s (getDoc runId) t (.ok ⟨runId, run, {}⟩) ∧ Observes i s t := by
  obtain ⟨t, hget, ht⟩ := runs_get s i runId
  rw [h] at hget
  exact ⟨t, hget.bind (.done t _), ht⟩

theorem runs_loadFor {actor : Text} {runId : Uuid} {run : AgentRun}
    (h : s.view i runId = some run) (hactor : actor = run.identity.initiator) :
    ∃ t, Runs Store.Perform i s (loadFor actor runId) t (.ok ⟨runId, run, {}⟩) ∧
      Observes i s t := by
  obtain ⟨t, hget, ht⟩ := runs_get s i runId
  obtain ⟨u, hdoc, hu⟩ := runs_getDoc (ht.view ▸ h)
  rw [h] at hget
  refine ⟨u, hget.bind (hdoc.bind (Runs.bind (a := ()) ?_ (.done u _))), ht.trans hu⟩
  rw [authorize, if_pos hactor]
  exact .done u ()

theorem runs_save {run : Loaded} {after : AgentRun} {flags : Flags}
    (hvalid : validate run.document after flags = .ok ()) (hfree : s.Free i run.name)
    (hview : s.view i run.name = some run.document) :
    ∃ t, Runs Store.Perform i s (save run after flags) t
        (.ok { run with document := after, flags := flags }) ∧
      t.view i run.name = some after := by
  refine ⟨s.set i ((s.connections i).write run.name after), ?_, ?_⟩
  · have hcall : Runs Store.Perform i s (call (.save run.name run.document after))
        (s.set i ((s.connections i).write run.name after)) (.ok ()) :=
      runs_call ⟨hfree, hview, rfl⟩
    rw [save, hvalid]
    exact (Runs.done s ()).bind (hcall.bind (.done _ _))
  · have hwritten : ((s.connections i).write run.name after).writes run.name = some after :=
      Function.update_self ..
    unfold Store.view Connection.view
    rw [Store.connections_set]
    exact overlay_of_some _ hwritten

/-- A request that returns is committed. -/
theorem runs_serve {p : Prog Unit} (h : Runs Store.Perform i s p t (.ok ())) :
    Runs Store.Perform i s (serve true p) (t.commit i) (.ok ()) := by
  have hcommit : Runs Store.Perform i t (call .commit) (t.commit i) (.ok ()) := runs_call rfl
  exact (h.bind hcommit).catching

/-! ## A revocation -/

theorem validate_of_revocation {run : AgentRun} {lifecycle : Lifecycle} {flags : Flags}
    (h : flags.revocation = true) :
    validate run { run with lifecycle := lifecycle } flags = .ok () := by
  simp [validate, h]

theorem runs_unless {α : Type} {c : Prop} {_ : Decidable c} {e : Raised} {rest : Unit → Prog α}
    {r : Except Raised α} (hc : ¬c) (h : Runs Store.Perform i s (rest ()) t r) :
    Runs Store.Perform i s
      (if c then (throw e : Prog Unit) >>= fun r => rest r else rest ()) t r := by
  rwa [if_neg hc]

/-- The initiator of an active Run revokes it. -/
theorem runs_revokeRun {actor : Text} {runId : Uuid} {run : AgentRun} (correlationId : Text)
    (hview : s.view i runId = some run) (hfree : s.Free i runId) (hactive : run.IsActive)
    (hactor : actor = run.identity.initiator) :
    ∃ t saved, Runs Store.Perform i s (revokeRun actor runId correlationId) t (.ok saved) ∧
      t.view i runId = some saved.document ∧ saved.document.status = .revoked := by
  obtain ⟨t, hload, ht⟩ := runs_loadFor hview hactor
  obtain ⟨u, hnow, hu⟩ := runs_external t i .now 0
  have hobserves := ht.trans hu
  have hvalid : validate run
      { run with
        lifecycle :=
          { run.lifecycle.closed .revoked 0 actor (some correlationId) with
            stateVersion := run.stateVersion + 1 } }
      { revocation := true } = .ok () :=
    validate_of_revocation rfl
  have hloaded : u.view i runId = some run := hobserves.view ▸ hview
  obtain ⟨v, hsave, hv⟩ := @runs_save _ _ _ _ ⟨runId, run, {}⟩ _ _ hvalid
    (hobserves.free runId hfree) hloaded
  refine ⟨v, _, hload.bind (runs_unless (not_not.mpr hactive) (hnow.bind hsave)), hv, rfl⟩

/-! ## A read -/

/-- A capability that belongs to an active Run before its deadline. -/
theorem runs_resolveRun {runId : Uuid} {capability : Text} {run : AgentRun} {now : Reading}
    (hview : s.view i runId = some run) (hactive : run.IsActive)
    (haudience : run.identity.capabilityAudience = capabilityAudience)
    (hnow : now < run.credential.expiresAt)
    (hmode : run.identity.executionMode ≠ .planExecute)
    (hdigest : capabilityDigest runId capability = .ok run.credential.capabilityDigest) :
    ∃ t, Runs Store.Perform i s (resolveRun runId capability) t
        (.ok (runContext ⟨runId, run, {}⟩)) ∧ Observes i s t := by
  obtain ⟨t, hget, ht⟩ := runs_get s i runId
  obtain ⟨u, hdoc, hu⟩ := runs_getDoc (ht.view ▸ hview)
  obtain ⟨v, hclock, hv⟩ := runs_external u i .now now
  rw [hview] at hget
  refine ⟨v, hget.bind (hdoc.bind ?_), (ht.trans hu).trans hv⟩
  refine runs_unless (not_or.mpr ⟨not_not.mpr hactive, not_not.mpr haudience⟩) ?_
  refine hclock.bind (runs_unless hnow.not_ge ?_)
  have hexpired : Runs Store.Perform i v (workflowExpired run) v (.ok false) := by
    rw [workflowExpired, if_pos hmode]
    exact .done v false
  refine hexpired.bind (runs_unless Bool.false_ne_true ?_)
  rw [hdigest]
  exact (Runs.done v _).bind (runs_unless (not_not.mpr rfl) (.done v _))

/-- The check of a Run that the reader's context still fits. -/
theorem runs_recheckRunScope {context : RunContext} {run : AgentRun} {now : Reading}
    (hview : s.view i context.runId = some run) (hfree : s.Free i context.runId)
    (hactive : run.IsActive) (hversion : run.stateVersion = context.stateVersion)
    (hnow : now < run.credential.expiresAt)
    (hmode : run.identity.executionMode ≠ .planExecute) (hwarehouse : context.warehouse = none) :
    ∃ t, Runs Store.Perform i s (recheckRunScope context []) t (.ok ()) := by
  let locked := s.set i ((s.connections i).acquire context.runId)
  have hlock : Runs Store.Perform i s (call (.lock context.runId)) locked (.ok (some run)) :=
    runs_call ⟨hfree, hview, rfl⟩
  obtain ⟨t, hclock, -⟩ := runs_external locked i .now now
  obtain ⟨u, henabled, -⟩ := runs_external t i (.enabled context.initiator) true
  obtain ⟨v, hcompanies, -⟩ := runs_external u i
    (.companies context.company (some context.initiator)) [context.company]
  have hexpired : Runs Store.Perform i t (workflowExpired run) t (.ok false) := by
    rw [workflowExpired, if_pos hmode]
    exact .done t false
  refine ⟨v, Runs.bind (t := t) (a := ()) (hlock.bind ?_) (henabled.bind ?_)⟩
  · refine runs_unless (not_or.mpr ⟨not_not.mpr hactive, not_not.mpr hversion⟩) ?_
    refine hclock.bind (runs_unless hnow.not_ge (hexpired.bind ?_))
    exact .done t ()
  · refine runs_unless Bool.true_eq_false.mp ?_
    refine hcompanies.bind (runs_unless (not_not.mpr List.mem_cons_self) ?_)
    rw [hwarehouse]
    exact .done v ()

end Run
