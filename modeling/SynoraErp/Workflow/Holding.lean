import SynoraErp.Workflow.ExclusiveLease
import SynoraErp.Workflow.Processes
import SynoraErp.Workflow.Storable

/-!
# A store one process works on

What the row holds while one process works on the run, with a lease or without, and what
each call of the store leaves. The lease of the row has not ended for some reading of the
clock, so a save under it can succeed.
-/

namespace Workflow

open Python Transition
open Governance (Uuid)

namespace Runtime

theorem lt_leaseEnd (now : Instant) (seconds : LeaseSeconds) :
    now.microseconds < leaseEnd now seconds := by
  have hseconds := seconds.bounds.1
  rw [leaseEnd]
  omega

/-- The row holds a state, under a lease that has not ended or under none. -/
structure Holding {ι : Type} (W : Agent.WordClass) (I : Interpreter) (s : Shared ι)
    (a : WorkflowState) (lease : Option Text) : Prop where
  row : ∃ row, s.database.row = some row ∧ row.revision = a.revision ∧
    storedPayload W I a = .ok row.payload ∧ row.leaseId = lease ∧
    (lease = none → row.leaseExpiresAt = none) ∧
    (lease ≠ none → ∃ expiry, row.leaseExpiresAt = some expiry ∧
      ∃ now : Instant, now.microseconds < expiry)
  history : ∀ r ∈ s.database.history, r ≤ a.revision
  last : s.last? = some a

section

variable {ι : Type} {W : Agent.WordClass} {I : Interpreter} {s t : Shared ι} {i : ι}
  {a b : WorkflowState} {lease : Option Text}

theorem Holding.storable (h : Holding W I s a lease) : a.Storable W I := by
  obtain ⟨row, -, -, hpayload, -⟩ := h.row
  exact ⟨_, hpayload⟩

theorem last?_append (s : Shared ι) (db : Database) :
    ({ s with database := db, saved := s.saved ++ [(i, a)] } : Shared ι).last? = some a := by
  simp [Shared.last?, Shared.states]

/-! ## Creation -/

theorem holding_of_create (h : Performs W I s i (.create a) (.ok ()) t)
    (hhistory : s.database.history = []) : Holding W I t a none := by
  obtain ⟨now, seconds, ⟨db, hdb, -, rfl⟩ | ⟨e, -, hreply, -⟩⟩ := h
  · obtain ⟨payload, hpayload, -, -, rfl⟩ := create_eq_ok hdb
    refine ⟨⟨_, rfl, rfl, hpayload, rfl, fun _ => rfl, fun hne => absurd rfl hne⟩, ?_, last?_append s _⟩
    intro r hr
    simp only [hhistory, List.nil_append, List.mem_singleton] at hr
    exact hr.le
  · cases hreply

theorem exists_create (now : Instant) (h : a.Storable W I) (hrow : s.database.row = none)
    (hhistory : s.database.history = []) :
    ∃ t, Performs W I s i (.create a) (.ok ()) t ∧ Holding W I t a none ∧
      t.dispatched = s.dispatched := by
  obtain ⟨payload, hpayload⟩ := h
  have hcreate : ∃ db, s.database.create W I now ⟨30, by decide⟩ a none = .ok db := by
    simp [Database.create, hpayload, hrow, hhistory]
  obtain ⟨db, hdb⟩ := hcreate
  have hperforms : Performs W I s i (.create a) (.ok ())
      { s with database := db, saved := s.saved ++ [(i, a)] } :=
    ⟨now, _, Or.inl ⟨db, hdb, rfl, rfl⟩⟩
  exact ⟨_, hperforms, holding_of_create hperforms hhistory, rfl⟩

/-- A run that has a checkpoint is not created again. -/
theorem create_conflict (h : Holding W I s a lease) (hb : b.Storable W I) {reply : Result Unit}
    (hperforms : Performs W I s i (.create b) reply t)
    (havailable : ∀ detail, reply ≠ .error (unavailable detail)) :
    reply = .error (conflict "checkpoint already exists") ∧ t = s := by
  obtain ⟨row, hrow, -⟩ := h.row
  obtain ⟨payload, hpayload⟩ := hb
  obtain ⟨now, seconds, ⟨db, hdb, -, rfl⟩ | ⟨e, he | ⟨detail, rfl⟩, rfl, rfl⟩⟩ := hperforms
  · simp [Database.create, hpayload, hrow] at hdb
  · simp only [Database.create, hpayload, hrow, Except.ok_bind, Option.isSome_some, true_or,
      if_true, Except.error.injEq] at he
    exact ⟨by rw [he], rfl⟩
  · exact absurd rfl (havailable detail)

/-! ## Leases -/

theorem holding_of_acquire (h : Holding W I s a none) {reply : Result Text} {token : Text}
    (hperforms : Performs W I s i (.acquireLease a.revision) reply t) (hreply : reply = .ok token) :
    Holding W I t a (some token) ∧ t.dispatched = s.dispatched := by
  obtain ⟨row, hrow, hrevision, hpayload, -, -⟩ := h.row
  obtain ⟨now, seconds, leaseToken, ⟨db, hdb, hok, rfl⟩ | ⟨e, -, herror, -⟩⟩ := hperforms
  · obtain ⟨row', hrow', -, -, rfl⟩ := acquireLease_eq_ok hdb
    obtain rfl : row = row' := Option.some.inj (hrow.symm.trans hrow')
    obtain rfl : leaseToken.text = token := Except.ok.inj (hok.symm.trans hreply)
    refine ⟨⟨⟨_, rfl, hrevision, hpayload, rfl, fun hnone => (by cases hnone), fun _ => ?_⟩,
      h.history, by simpa [Shared.last?, Shared.states] using h.last⟩, rfl⟩
    exact ⟨_, rfl, now, lt_leaseEnd now seconds⟩
  · rw [herror] at hreply
    cases hreply

theorem exists_acquire (now : Instant) (token : LeaseToken) (h : Holding W I s a none) :
    ∃ t, Performs W I s i (.acquireLease a.revision) (.ok token.text) t ∧
      Holding W I t a (some token.text) ∧ t.dispatched = s.dispatched := by
  obtain ⟨row, hrow, hrevision, -, hnone, -⟩ := h.row
  have hacquire : ∃ db, s.database.acquireLease now ⟨30, by decide⟩ token a.revision = .ok db := by
    simp [Database.acquireLease, hrow, hrevision, CheckpointRow.leaseActive, hnone]
  obtain ⟨db, hdb⟩ := hacquire
  have hperforms : Performs W I s i (.acquireLease a.revision) (.ok token.text)
      { s with database := db, saved := s.saved ++ [] } :=
    ⟨now, _, token, Or.inl ⟨db, hdb, rfl, rfl⟩⟩
  exact ⟨_, hperforms, holding_of_acquire h hperforms rfl⟩

theorem holding_of_release {token : Text} (h : Holding W I s a (some token))
    (hperforms : Performs W I s i (.releaseLease token) (.ok ()) t) :
    Holding W I t a none ∧ t.dispatched = s.dispatched := by
  obtain ⟨row, hrow, hrevision, hpayload, hlease, -⟩ := h.row
  obtain ⟨db, hdb, -, rfl⟩ | ⟨e, -, hreply, -⟩ := hperforms
  · obtain rfl := Except.ok.inj hdb
    refine ⟨⟨⟨{ row with leaseId := none, leaseExpiresAt := none }, ?_, hrevision, hpayload, rfl,
      fun _ => rfl, fun hne => absurd rfl hne⟩, h.history, ?_⟩, rfl⟩
    · simp [Database.releaseLease, hrow, hlease]
    · simpa [Shared.last?, Shared.states] using h.last
  · cases hreply

theorem exists_release {token : Text} (h : Holding W I s a (some token)) :
    ∃ t, Performs W I s i (.releaseLease token) (.ok ()) t ∧ Holding W I t a none ∧
      t.dispatched = s.dispatched := by
  have hperforms : Performs W I s i (.releaseLease token) (.ok ())
      { s with database := s.database.releaseLease token, saved := s.saved ++ [] } :=
    Or.inl ⟨_, rfl, rfl, rfl⟩
  exact ⟨_, hperforms, holding_of_release h hperforms⟩

/-! ## Saves -/

theorem holding_of_save {token : Text} {keepLease : Bool} {expectedRevision : ℕ}
    (h : Holding W I s a (some token))
    (hperforms : Performs W I s i (.save b expectedRevision token keepLease) (.ok ()) t) :
    Holding W I t b (if keepLease then some token else none) ∧ t.dispatched = s.dispatched ∧
      t.states = s.states ++ [b] := by
  obtain ⟨row, hrow, hrevision, -, -, -, hlease⟩ := h.row
  obtain ⟨now, seconds, ⟨db, hdb, -, rfl⟩ | ⟨e, -, hreply, -⟩⟩ := hperforms
  · obtain ⟨hnext, payload, row', hpayload, hrow', hexpected, -, rfl⟩ := save_eq_ok hdb
    obtain rfl : row = row' := Option.some.inj (hrow.symm.trans hrow')
    refine ⟨⟨⟨_, rfl, rfl, hpayload, rfl, ?_, ?_⟩, fun r hr => ?_, last?_append s _⟩, rfl,
      by simp [Shared.states]⟩
    · cases keepLease <;> simp [leaseExpiry]
    · cases keepLease with
      | false => simp
      | true => exact fun _ => ⟨_, rfl, now, lt_leaseEnd now seconds⟩
    · rcases List.mem_append.mp hr with hr | hr
      · exact (h.history r hr).trans (by rw [hnext, ← hexpected, hrevision]; exact Nat.le_succ _)
      · exact (List.mem_singleton.mp hr).le
  · cases hreply

theorem exists_save {token : Text} (keepLease : Bool) (h : Holding W I s a (some token))
    (hb : b.Storable W I) (hnext : b.revision = a.revision + 1) :
    ∃ t, Performs W I s i (.save b a.revision token keepLease) (.ok ()) t ∧
      Holding W I t b (if keepLease then some token else none) ∧ t.dispatched = s.dispatched ∧
      t.states = s.states ++ [b] := by
  obtain ⟨row, hrow, hrevision, -, hlease, -, hexpiry⟩ := h.row
  obtain ⟨expiry, hexpiry, now, hnow⟩ := hexpiry (Option.some_ne_none _)
  obtain ⟨payload, hpayload⟩ := hb
  have hfresh : b.revision ∉ s.database.history := fun hmem => by
    have hle := h.history _ hmem
    omega
  have hsave : ∃ db, s.database.save W I now ⟨30, by decide⟩ b a.revision (some token) keepLease =
      .ok db := by
    obtain ⟨hsafe, hjson, rfl, hutf⟩ := storedPayload_eq_ok hpayload
    simp [Database.save, hnext, encode, hsafe, hjson, hrow, hrevision, CheckpointRow.leaseMatches,
      hlease, hexpiry, hnow, bindText, hutf, hnext ▸ hfresh]
  obtain ⟨db, hdb⟩ := hsave
  have hperforms : Performs W I s i (.save b a.revision token keepLease) (.ok ())
      { s with database := db, saved := s.saved ++ [(i, b)] } :=
    ⟨now, _, Or.inl ⟨db, hdb, rfl, rfl⟩⟩
  exact ⟨_, hperforms, holding_of_save h hperforms⟩

/-! ## Reads -/

theorem load_of_holding (hI : Json.ReadsDoubles I) (h : Holding W I s a lease)
    (hvalid : a.Valid I) : s.database.load W I = .ok a := by
  obtain ⟨row, hrow, -, hpayload, -⟩ := h.row
  simp only [Database.load, hrow]
  rw [decode_storedPayload hI hpayload, if_pos hvalid]

/-! ## Transitions -/

/-- An operation on the current state runs to its save. -/
theorem exists_runs_replace {l : Loop} {token : Text} {operation : Instant → Result WorkflowState}
    (keepLease : Bool) (h : Holding W I s l.current (some token)) (reading : Instant)
    (hoperation : operation reading = .ok b) (hb : b.Storable W I)
    (hnext : b.revision = l.current.revision + 1) :
    ∃ t, Runs (Performs W I) i s (l.replace token operation keepLease) t (.ok b) ∧
      Holding W I t b (if keepLease then some token else none) ∧ t.dispatched = s.dispatched := by
  obtain ⟨t, hsave, ht, hdispatched, -⟩ := exists_save (i := i) keepLease h hb hnext
  refine ⟨t, ?_, ht, hdispatched⟩
  have hnow : Performs W I s i .now reading s := rfl
  refine Runs.call hnow (Runs.bind (a := b) (t := s) ?_ ?_)
  · rw [hoperation]
    exact .done s b
  · exact Runs.bind (a := ()) (Runs.call hsave (.done t ())) (.done t b)

/-- A transition runs under the lease of the loop, or under one it acquires. -/
theorem exists_runs_transition {l : Loop} (operation : Instant → Result WorkflowState)
    (h : Holding W I s l.current l.heldLease) (fresh : LeaseToken) (reading : Instant)
    (hoperation : operation reading = .ok b) (hb : b.Storable W I)
    (hnext : b.revision = l.current.revision + 1) :
    ∃ token t, Runs (Performs W I) i s (l.transition operation) t
        (.ok { l with heldLease := some token, current := b, resumed := true }) ∧
      Holding W I t b (some token) ∧ t.dispatched = s.dispatched := by
  have hhold : ∃ token t, Runs (Performs W I) i s l.hold t (.ok token) ∧
      Holding W I t l.current (some token) ∧ t.dispatched = s.dispatched := by
    unfold Loop.hold
    split
    · next token hlease => exact ⟨token, s, .done s token, hlease ▸ h, rfl⟩
    · next hlease =>
        obtain ⟨t, hacquire, ht⟩ := exists_acquire (i := i) reading fresh (hlease ▸ h)
        exact ⟨fresh.text, t, Runs.call hacquire (.done t fresh.text), ht⟩
  obtain ⟨token, t, hruns, ht, hdispatched⟩ := hhold
  obtain ⟨u, hreplace, hu, hdispatched'⟩ :=
    exists_runs_replace (i := i) true (l := { l with heldLease := some token }) ht reading hoperation hb
      hnext
  refine ⟨token, u, ?_, hu, hdispatched'.trans hdispatched⟩
  exact Runs.bind (Runs.catching hruns) (Runs.bind (Runs.catching hreplace) (.done u _))

end

/-- A start of the plan of one read. -/
def startRequest : StartRequest := ⟨exampleRun, [openRequests], exampleDeadline⟩

end Runtime

end Workflow
