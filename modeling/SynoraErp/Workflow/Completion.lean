import SynoraErp.Workflow.Favourable

/-!
# Workflows that come to their end

The methods a driver calls, under favourable replies. Each leaves the store at rest, at
the stage it found or at a later one, and at every stage but the last there is a call
that takes the workflow on. So a workflow whose plan can be passed step by step is never
left with nothing to do, and can always be driven to its end.
-/

namespace Workflow

open Python Transition
open Governance (Uuid)

namespace Runtime

mutual

theorem safePayload_eq_error {W : Agent.WordClass} {e : Exn} :
    ∀ v : Value, safePayload W v = .error e → ∃ detail, e = incompatible detail
  | .str t, h => by
      unfold safePayload at h
      split_ifs at h
      exact ⟨_, (Except.error.inj h).symm⟩
  | .list xs, h => safeItems_eq_error xs (by rwa [safePayload] at h)
  | .dict entries, h => safeEntries_eq_error entries (by rwa [safePayload] at h)
  | .none, h => by cases h
  | .bool _, h => by cases h
  | .int _, h => by cases h
  | .float _, h => by cases h

theorem safeItems_eq_error {W : Agent.WordClass} {e : Exn} :
    ∀ xs : List Value, safeItems W xs = .error e → ∃ detail, e = incompatible detail
  | [], h => by cases h
  | x :: xs, h => by
      rw [safeItems] at h
      cases hx : safePayload W x with
      | ok u =>
          rw [hx] at h
          exact safeItems_eq_error xs h
      | error e' =>
          rw [hx] at h
          obtain rfl := Except.error.inj h
          exact safePayload_eq_error x hx

theorem safeEntries_eq_error {W : Agent.WordClass} {e : Exn} :
    ∀ entries : Dict, safeEntries W entries = .error e → ∃ detail, e = incompatible detail
  | [], h => by cases h
  | (k, v) :: entries, h => by
      rw [safeEntries] at h
      split_ifs at h
      · exact ⟨_, (Except.error.inj h).symm⟩
      · cases hv : safePayload W v with
        | ok u =>
            rw [hv] at h
            exact safeEntries_eq_error entries h
        | error e' =>
            rw [hv] at h
            obtain rfl := Except.error.inj h
            exact safePayload_eq_error v hv

end

theorem storedPayload_eq_error {W : Agent.WordClass} {I : Interpreter} {a : WorkflowState} {e : Exn}
    (h : storedPayload W I a = .error e) :
    (∃ detail, e = incompatible detail) ∨ e = .unicodeEncodeError := by
  unfold storedPayload encode at h
  cases hsafe : safePayload W (Wire.workflowState.write a) with
  | error e' =>
      simp only [hsafe, Except.error_bind, Except.error.injEq] at h
      exact Or.inl (safePayload_eq_error _ (h ▸ hsafe))
  | ok u =>
      by_cases hjson : IsJson (Wire.workflowState.write a) = false
      · simp only [hsafe, Except.ok_bind, if_pos hjson, Except.error_bind, Except.error.injEq] at h
        exact Or.inl ⟨_, h.symm⟩
      · simp only [hsafe, Except.ok_bind, if_neg hjson, bindText] at h
        split_ifs at h
        · simp only [Except.error_bind, Except.error.injEq] at h
          exact Or.inr h.symm
        · cases h

/-- A state the store refuses is no failure of the store. -/
theorem create_ne_unavailable {W : Agent.WordClass} {I : Interpreter} {db : Database}
    {now : Instant} {seconds : LeaseSeconds} {a : WorkflowState} {lease : Option Text}
    (detail : String) : db.create W I now seconds a lease ≠ .error (unavailable detail) := by
  intro h
  unfold Database.create at h
  cases hpayload : storedPayload W I a with
  | error e =>
      simp only [hpayload, Except.error_bind, Except.error.injEq] at h
      obtain ⟨text, rfl⟩ | rfl := storedPayload_eq_error hpayload <;>
        simp [incompatible, unavailable] at h
  | ok payload =>
      simp only [hpayload, Except.ok_bind] at h
      split_ifs at h
      simp [conflict, unavailable] at h

/-- Nothing is stored. -/
structure Blank (s : Shared Unit) : Prop where
  database : s.database = .empty
  saved : s.saved = []

section

variable {W : Agent.WordClass} {I : Interpreter} {initial : WorkflowState} {s t : Shared Unit}
  {a b : WorkflowState} {lease : Option Text} {m : ℕ} {K : WorkflowState → Prop}

/-! ## Calls of the methods -/

section Calls

variable {P : Plan} {deadline : Text}

theorem ends_create_blank (h : Blank s) :
    EndsWell W I deadline (create a)
      (fun r t => (r = .ok () ∧ Holding W I t a none ∧ t.states = [a]) ∨
        (∃ e, r = .error e) ∧ ¬a.Storable W I ∧ t = s) s := by
  have hrow : s.database.row = none := by rw [h.database]; rfl
  have hhistory : s.database.history = [] := by rw [h.database]; rfl
  refine ends_request (c := Call.create a) (k := fun reply => reply) ?_ ?_
  · cases hcreate : s.database.create W I exampleNow exampleSeconds a none with
    | ok db =>
        exact ⟨.ok (), _, ⟨exampleNow, exampleSeconds, Or.inl ⟨db, hcreate, rfl, rfl⟩⟩, fun _ => by simp⟩
    | error e =>
        refine ⟨.error e, s, ⟨exampleNow, exampleSeconds, Or.inr ⟨e, Or.inl hcreate, rfl, rfl⟩⟩, ?_⟩
        rintro detail heq
        obtain rfl := Except.error.inj heq
        exact create_ne_unavailable detail hcreate
  · rintro reply t ⟨hperforms, hfavours⟩
    obtain ⟨now, seconds, ⟨db, hdb, rfl, rfl⟩ | ⟨e, he | ⟨detail, rfl⟩, rfl, rfl⟩⟩ := hperforms
    · refine Or.inl ⟨rfl, holding_of_create ⟨now, seconds, Or.inl ⟨db, hdb, rfl, rfl⟩⟩ hhistory, ?_⟩
      simp [Shared.states, h.saved]
    · refine Or.inr ⟨⟨e, rfl⟩, ?_, rfl⟩
      rintro ⟨payload, hpayload⟩
      simp [Database.create, hpayload, hrow, hhistory] at he
    · exact absurd rfl (hfavours detail)

/-- A run that has a checkpoint is not created again. -/
theorem ends_create_stored (h : Stores W I K s a lease) (hb : b.Storable W I) :
    EndsWell W I deadline (create b)
      (fun r t => r = .error (conflict "checkpoint already exists") ∧ t = s) s := by
  refine ends_request (c := Call.create b) (k := fun reply => reply) ?_ ?_
  · obtain ⟨row, hrow, -⟩ := h.holding.row
    obtain ⟨payload, hpayload⟩ := hb
    have hcreate : s.database.create W I exampleNow exampleSeconds b none =
        .error (conflict "checkpoint already exists") := by
      simp [Database.create, hpayload, hrow]
    refine ⟨.error _, s, ⟨exampleNow, exampleSeconds, Or.inr ⟨_, Or.inl hcreate, rfl, rfl⟩⟩, ?_⟩
    exact fun detail => by simp [conflict, unavailable]
  · rintro reply t ⟨hperforms, hfavours⟩
    exact create_conflict h.holding hb hperforms hfavours

theorem ends_load (hI : Json.ReadsDoubles I) (h : Stores W I K s a lease) (hvalid : a.Valid I) :
    EndsWell W I deadline load (Returns fun x t => x = a ∧ t = s) s := by
  have hload := load_of_holding hI h.holding hvalid
  refine ends_request (c := Call.load) (k := fun reply => reply) ?_ ?_
  · exact ⟨.ok a, s, ⟨Or.inl hload.symm, rfl⟩, fun detail => by simp⟩
  · rintro reply t ⟨⟨hreads | ⟨detail, hreads⟩, rfl⟩, hfavours⟩
    · exact ⟨a, hreads.trans hload, rfl, rfl⟩
    · exact absurd hreads (hfavours detail)

theorem ends_load_blank (h : Blank s) :
    EndsWell W I deadline load (fun r t => (∃ e, r = .error e) ∧ t = s) s := by
  have hload : s.database.load W I = .error notFound := by rw [h.database]; rfl
  refine ends_request (c := Call.load) (k := fun reply => reply) ?_ ?_
  · exact ⟨.error notFound, s, ⟨Or.inl hload.symm, rfl⟩, fun detail => by simp [notFound, unavailable]⟩
  · rintro reply t ⟨⟨hreads | ⟨detail, hreads⟩, rfl⟩, hfavours⟩
    · exact ⟨⟨_, hreads.trans hload⟩, rfl⟩
    · exact absurd hreads (hfavours detail)

/-! ## Methods -/

section Methods

variable (hclock : ∃ now, InTime I deadline now) (hlength : P.length ≤ 256) {l : Loop}

/-- Where a method enters the loop. -/
theorem ends_enter (hl : LoopAt W I P deadline l m s) :
    EndsWell W I deadline l.enter (Ending W I P deadline (m + 1) (m + 1)) s := by
  unfold Loop.enter
  split_ifs with hover
  · have hstatus : l.current.status ≠ .running := by
      rintro hrunning
      simp [hrunning, WorkflowStatus.Terminal] at hover
    have hworks := hl.works
    rw [hl.released hstatus] at hworks
    exact ends_pure (ending_response (Nat.lt_succ_self m) ⟨_, hworks, hl.settled⟩)
  · rw [hl.settled.noneRunning]
    refine Ends.andThen (R := fun _ t => s = t) (ends_pure ⟨(), rfl, rfl⟩) ?_
    rintro _ _ rfl
    exact ends_pure ⟨m, Nat.lt_succ_self m, hl⟩

/-- A running workflow enters the loop as it is. -/
theorem ends_enter_running (hl : LoopAt W I P deadline l m s) (hstatus : l.current.status = .running) :
    EndsWell W I deadline l.enter
      (Returns fun outcome t => outcome = .again l ∧ LoopAt W I P deadline l m t) s := by
  unfold Loop.enter
  rw [if_neg (by simp [hstatus, WorkflowStatus.Terminal]), hl.settled.noneRunning]
  refine Ends.andThen (R := fun _ t => s = t) (ends_pure ⟨(), rfl, rfl⟩) ?_
  rintro _ _ rfl
  exact ends_pure ⟨_, rfl, rfl, hl⟩

include hclock hlength in
/-- A workflow that is ready starts. -/
theorem ends_advance_ready (h : Works W I P deadline s a lease) (hsettled : Settled W I P deadline a m)
    (hstatus : a.status = .ready) (correlationId : Uuid) :
    EndsWell W I deadline (advance I (.workflow correlationId) a lease)
      (Ending W I P deadline m m) s := by
  unfold advance
  simp only
  rw [if_pos hstatus]
  refine (ends_transition hclock (l := ⟨.workflow correlationId, a, lease, false, false⟩) h
    (Q := fun b => Settles W I P deadline a m b ∧ b.status = .running) fun reading hreading => ?_).andThen ?_
  · obtain ⟨b, hb, hsettles⟩ := hsettled.start hlength hstatus hreading
    obtain ⟨-, step, -, hstarted⟩ := start_eq_ok hb
    exact ⟨b, hb, .of_settles hsettles, hsettles, by rw [hstarted]⟩
  · rintro _ t ⟨token, b, rfl, ⟨⟨-, m', hlt, hb⟩, hrunning⟩, ht⟩
    exact (ends_enter ⟨ht, hb, ⟨_, rfl⟩, fun hne => absurd hrunning hne⟩).mono
      fun r u h => h.mono hlt hlt

include hclock hlength in
theorem ends_advance (h : Works W I P deadline s a lease) (hsettled : Settled W I P deadline a m)
    (hreleased : a.status ≠ .running → lease = none) (correlationId : Uuid) :
    EndsWell W I deadline (advance I (.workflow correlationId) a lease)
      (Ending W I P deadline (m + 1) (m + 1)) s := by
  by_cases hstatus : a.status = .ready
  · exact (ends_advance_ready hclock hlength h hsettled hstatus correlationId).mono
      fun r t h => h.mono (Nat.le_succ m) (Nat.le_succ m)
  · unfold advance
    simp only
    rw [if_neg hstatus]
    exact ends_enter ⟨h, hsettled, ⟨_, rfl⟩, hreleased⟩

/-- A transition under a lease of its own, or an error that leaves the state as it was. -/
theorem ends_checkpoint (h : Stores W I K s a none) {operation : Method WorkflowState}
    {keepLease : WorkflowState → Bool} {Q : WorkflowState → Prop} {E : Prop}
    (hoperation : ∀ t, EndsWell W I deadline operation (fun r u => t = u ∧
      ((∃ b, r = .ok b ∧ Replaced W I K a b ∧ Q b) ∨ (∃ e, r = .error e) ∧ E)) t) :
    EndsWell W I deadline (checkpoint a operation keepLease) (fun r t =>
      (∃ b token, r = .ok (b, token) ∧ Q b ∧
        Stores W I K t b (if keepLease b then some token else none)) ∨
      (∃ e, r = .error e) ∧ E ∧ Stores W I K t a none) s := by
  refine (ends_acquireLease h).andThen fun token t ht => ?_
  have hbody : EndsWell W I deadline (do
      let next ← operation
      save next a.revision token (keepLease next)
      return next) (fun r u =>
        (∃ b, r = .ok b ∧ Q b ∧ Stores W I K u b (if keepLease b then some token else none)) ∨
        (∃ e, r = .error e) ∧ E ∧ Stores W I K u a (some token)) t := by
    refine (hoperation t).bind ?_ ?_
    · rintro b u ⟨rfl, ⟨_, hok, hreplaced, hQ⟩ | ⟨⟨_, he⟩, -⟩⟩
      · obtain rfl := Except.ok.inj hok
        refine (ends_save ht hreplaced.storable hreplaced.keeps hreplaced.revision).andThen fun _ v hv => ?_
        exact ends_pure (Or.inl ⟨b, rfl, hQ, hv⟩)
      · cases he
    · rintro e u ⟨rfl, ⟨_, hok, -⟩ | ⟨-, hE⟩⟩
      · cases hok
      · exact Or.inr ⟨⟨e, rfl⟩, hE, ht⟩
  refine (hbody.catching (Q := fun r u =>
      (∃ b, r = .ok b ∧ Q b ∧ Stores W I K u b (if keepLease b then some token else none)) ∨
      (∃ e, r = .error e) ∧ E ∧ Stores W I K u a none) ?_ ?_).bind ?_ ?_
  · rintro b u (hb | ⟨⟨_, he⟩, -⟩)
    · exact Or.inl hb
    · cases he
  · rintro e u (⟨_, hok, -⟩ | ⟨-, hE, hu⟩)
    · cases hok
    · exact (ends_releaseLease hu).andThen fun _ v hv => ends_throw (Or.inr ⟨⟨e, rfl⟩, hE, hv⟩)
  · rintro b u (⟨_, hok, hQ, hu⟩ | ⟨⟨_, he⟩, -⟩)
    · obtain rfl := Except.ok.inj hok
      exact ends_pure (Or.inl ⟨b, token, rfl, hQ, hu⟩)
    · cases he
  · rintro e u (⟨_, hok, -⟩ | ⟨-, hE, hu⟩)
    · cases hok
    · exact Or.inr ⟨⟨e, rfl⟩, hE, hu⟩

include hclock in
/-- An operation that reads the clock twice, or an error that leaves the state as it was. -/
theorem ends_checkpoint_stamped (h : Works W I P deadline s a none)
    {operation : Instant → Instant → Result WorkflowState} {keepLease : WorkflowState → Bool}
    {E : Prop}
    (hok : ∀ reading stamp b, operation reading stamp = .ok b → Settles W I P deadline a m b)
    (herror : ∀ reading stamp e, InTime I deadline reading → operation reading stamp = .error e → E) :
    EndsWell W I deadline
      (checkpoint a (do
        let reading ← now
        let stamp ← now
        Program.ofExcept (operation reading stamp)) keepLease)
      (fun r t =>
        (∃ b token, r = .ok (b, token) ∧ Settles W I P deadline a m b ∧
          Works W I P deadline t b (if keepLease b then some token else none)) ∨
        (∃ e, r = .error e) ∧ E ∧ Works W I P deadline t a none) s := by
  refine ends_checkpoint h fun t => ?_
  refine Ends.andThen (R := fun reading u => InTime I deadline reading ∧ t = u)
    (ends_now hclock fun reading hreading => ⟨reading, rfl, hreading, rfl⟩) ?_
  rintro reading _ ⟨hreading, rfl⟩
  refine Ends.andThen (R := fun _ u => t = u) (ends_now hclock fun stamp _ => ⟨stamp, rfl, rfl⟩) ?_
  rintro stamp _ rfl
  refine ends_ofExcept ⟨rfl, ?_⟩
  cases hresult : operation reading stamp with
  | ok b =>
      have hsettles := hok reading stamp b hresult
      exact Or.inl ⟨b, rfl, .of_settles hsettles, hsettles⟩
  | error e => exact Or.inr ⟨⟨e, rfl⟩, herror reading stamp e hreading hresult⟩

/-- The checkpoint is loaded, if it is at the revision that is asked for. -/
theorem ends_loadAt (hI : Json.ReadsDoubles I) (h : Stores W I K s a lease)
    (hvalid : a.Valid I) (revision : ℕ) :
    EndsWell W I deadline (loadAt revision) (fun r t => s = t ∧
      (r = .ok a ∨ (∃ e, r = .error e) ∧ a.revision ≠ revision)) s := by
  refine (ends_load hI h hvalid).andThen ?_
  rintro _ _ ⟨rfl, rfl⟩
  split_ifs with hrevision
  · exact ends_throw ⟨rfl, Or.inr ⟨⟨_, rfl⟩, hrevision⟩⟩
  · exact ends_pure ⟨rfl, Or.inl rfl⟩

theorem ends_loadAt_blank (h : Blank s) (revision : ℕ) :
    EndsWell W I deadline (loadAt revision) (fun r t => (∃ e, r = .error e) ∧ t = s) s :=
  (ends_load_blank h).bind (fun _ _ ⟨⟨_, he⟩, _⟩ => by cases he) fun e _ ⟨_, ht⟩ => ⟨⟨e, rfl⟩, ht⟩

/-- A method that goes on from the checkpoint, or raises where it is stale. -/
theorem ends_at_revision (hI : Json.ReadsDoubles I) (h : Stores W I K s a lease)
    (hvalid : a.Valid I) {revision : ℕ} {f : WorkflowState → Method Outcome}
    {Q : Result Outcome → Shared Unit → Prop}
    (hf : EndsWell W I deadline (f a) Q s)
    (hstale : a.revision ≠ revision → ∀ e, Q (.error e) s) :
    EndsWell W I deadline (do let state ← loadAt revision; f state) Q s := by
  refine (ends_loadAt hI h hvalid revision).bind ?_ ?_
  · rintro b _ ⟨rfl, hb | ⟨⟨_, he⟩, -⟩⟩
    · obtain rfl := Except.ok.inj hb
      exact hf
    · cases he
  · rintro e _ ⟨rfl, he | ⟨-, hrevision⟩⟩
    · cases he
    · exact hstale hrevision e

include hclock hlength in
/-- An answer takes the workflow on, or it is turned away. -/
theorem ends_resume (hI : Json.ReadsDoubles I) (h : Works W I P deadline s a none)
    (hsettled : Settled W I P deadline a m) (request : ResumeRequest) {E : Prop}
    (hstale : a.revision ≠ request.workflowRevision → E)
    (hrefused : ∀ reading stamp e, InTime I deadline reading →
      Workflow.resume I reading stamp a request.interruptId request.answer = .error e → E) :
    EndsWell W I deadline (resume I request) (fun r t =>
      Ending W I P deadline m m r t ∨ E ∧ (∃ e, r = .error e) ∧ Resting W I P deadline m t) s := by
  refine ends_at_revision hI h hsettled.driven.valid ?_ fun hrevision e =>
    Or.inr ⟨hstale hrevision, ⟨e, rfl⟩, a, h, hsettled⟩
  refine (ends_checkpoint_stamped hclock h (m := m)
    (fun reading stamp b hb => hsettled.resume hlength hb) hrefused).bind ?_ ?_
  · rintro ⟨b, token⟩ t (⟨_, _, hok, ⟨-, m', hlt, hb⟩, ht⟩ | ⟨⟨_, he⟩, -⟩)
    · obtain ⟨rfl, rfl⟩ := Prod.mk.inj (Except.ok.inj hok)
      by_cases hstatus : b.status = .running
      · simp only [hstatus, decide_true, if_true] at ht
        have hl : LoopAt W I P deadline ⟨.workflow request.correlationId, b, some token, false, false⟩
            m' t := ⟨ht, hb, ⟨_, rfl⟩, fun hne => absurd hstatus hne⟩
        simp only [hstatus, ne_eq, not_true_eq_false, if_false]
        unfold advance
        simp only [hstatus, reduceCtorEq, if_false]
        refine (ends_enter_running hl hstatus).mono ?_
        rintro _ u ⟨_, rfl, rfl, hu⟩
        exact Or.inl ⟨m', hlt, hu⟩
      · simp only [hstatus, decide_false, Bool.false_eq_true, if_false] at ht
        simp only [hstatus, ne_eq, not_false_eq_true, if_true]
        exact ends_pure (Or.inl (ending_response hlt ⟨b, ht, hb⟩))
    · cases he
  · rintro e t (⟨_, _, hok, -⟩ | ⟨-, hE, ht⟩)
    · cases hok
    · exact Or.inr ⟨hE, ⟨e, rfl⟩, a, ht, hsettled⟩

include hclock hlength in
/-- A receipt takes the workflow on, or it is turned away. -/
theorem ends_completeGovernedAction (hI : Json.ReadsDoubles I) (h : Works W I P deadline s a none)
    (hsettled : Settled W I P deadline a m) (request : CompleteRequest) {E : Prop}
    (hstale : a.revision ≠ request.workflowRevision → E)
    (hrefused : ∀ reading stamp e, InTime I deadline reading →
      Workflow.completeGovernedAction I reading stamp a request.stepId request.receiptDigest =
        .error e → E) :
    EndsWell W I deadline (completeGovernedAction I request) (fun r t =>
      Ending W I P deadline m m r t ∨ E ∧ (∃ e, r = .error e) ∧ Resting W I P deadline m t) s := by
  refine ends_at_revision hI h hsettled.driven.valid ?_ fun hrevision e =>
    Or.inr ⟨hstale hrevision, ⟨e, rfl⟩, a, h, hsettled⟩
  refine (ends_checkpoint_stamped hclock h (m := m)
    (fun reading stamp b hb => hsettled.completeGovernedAction hlength hb) hrefused).bind ?_ ?_
  · rintro ⟨b, token⟩ t (⟨_, _, hok, ⟨-, m', hlt, hb⟩, ht⟩ | ⟨⟨_, he⟩, -⟩)
    · obtain ⟨rfl, rfl⟩ := Prod.mk.inj (Except.ok.inj hok)
      exact ends_pure (Or.inl (ending_response hlt ⟨b, ht, hb⟩))
    · cases he
  · rintro e t (⟨_, _, hok, -⟩ | ⟨-, hE, ht⟩)
    · cases hok
    · exact Or.inr ⟨hE, ⟨e, rfl⟩, a, ht, hsettled⟩

section Start

variable {runId : Uuid} {request : StartRequest} {initial : WorkflowState}
  (hcreate : createState I runId request.correlationId request.steps request.deadline = .ok initial)

include hcreate

/-- A run that has a checkpoint goes on from it. -/
theorem ends_start (hI : Json.ReadsDoubles I) (h : Works W I P deadline s a none) (hvalid : a.Valid I)
    (hinitial : initial.Storable W I) {Q : Result Outcome → Shared Unit → Prop}
    (hadvance : EndsWell W I deadline (advance I (.workflow request.correlationId) a none) Q s) :
    EndsWell W I deadline (start I runId request) Q s := by
  have hstate : EndsWell W I deadline
      (tryCatch (do create initial; return initial) loadOnConflict)
      (Returns fun x t => x = a ∧ s = t) s := by
    have hbody : EndsWell W I deadline (do create initial; return initial)
        (fun r t => r = .error (conflict "checkpoint already exists") ∧ s = t) s := by
      refine (ends_create_stored h hinitial).bind ?_ ?_
      · rintro _ _ ⟨he, -⟩
        cases he
      · rintro e t ⟨he, ht⟩
        exact ⟨by rw [Except.error.inj he], ht.symm⟩
    refine hbody.catching ?_ ?_
    · rintro _ _ ⟨he, -⟩
      cases he
    · rintro _ _ ⟨he, rfl⟩
      obtain rfl := Except.error.inj he
      refine (ends_load hI h hvalid).mono ?_
      rintro _ _ ⟨x, rfl, rfl, rfl⟩
      exact ⟨_, rfl, rfl, rfl⟩
  unfold start
  rw [hcreate]
  refine Ends.andThen (R := fun x t => initial = x ∧ s = t) (ends_pure ⟨initial, rfl, rfl, rfl⟩) ?_
  rintro _ _ ⟨rfl, rfl⟩
  refine hstate.andThen ?_
  rintro _ _ ⟨rfl, rfl⟩
  exact hadvance

/-- The first start stores the plan and goes on from it, or the store refuses the plan. -/
theorem ends_start_first (h : Blank s) {Q : Result Outcome → Shared Unit → Prop}
    (hadvance : ∀ t, Holding W I t initial none → t.states = [initial] →
      EndsWell W I deadline (advance I (.workflow request.correlationId) initial none) Q t)
    (hrefused : ¬initial.Storable W I → ∀ e t, Blank t → Q (.error e) t) :
    EndsWell W I deadline (start I runId request) Q s := by
  have hbody : EndsWell W I deadline (do create initial; return initial)
      (fun r t => (r = .ok initial ∧ Holding W I t initial none ∧ t.states = [initial]) ∨
        (∃ e, r = .error e) ∧ ¬initial.Storable W I ∧ s = t) s := by
    refine (ends_create_blank h).bind ?_ ?_
    · rintro _ t (⟨-, ht⟩ | ⟨⟨_, he⟩, -⟩)
      · exact ends_pure (Or.inl ⟨rfl, ht⟩)
      · cases he
    · rintro e t (⟨hok, -⟩ | ⟨-, hrefused, rfl⟩)
      · cases hok
      · exact Or.inr ⟨⟨e, rfl⟩, hrefused, rfl⟩
  have hstate : EndsWell W I deadline
      (tryCatch (do create initial; return initial) loadOnConflict)
      (fun r t => (r = .ok initial ∧ Holding W I t initial none ∧ t.states = [initial]) ∨
        (∃ e, r = .error e) ∧ ¬initial.Storable W I ∧ Blank t) s := by
    refine hbody.catching ?_ ?_
    · rintro _ t (⟨hok, ht⟩ | ⟨⟨_, he⟩, -⟩)
      · exact Or.inl ⟨hok, ht⟩
      · cases he
    · rintro e t (⟨hok, -⟩ | ⟨-, hrefused, rfl⟩)
      · cases hok
      · unfold loadOnConflict
        split
        · refine (ends_load_blank h).mono ?_
          rintro r t ⟨he, rfl⟩
          exact Or.inr ⟨he, hrefused, h⟩
        · exact ends_throw (Or.inr ⟨⟨_, rfl⟩, hrefused, h⟩)
  unfold start
  rw [hcreate]
  refine Ends.andThen (R := fun x t => initial = x ∧ s = t) (ends_pure ⟨initial, rfl, rfl, rfl⟩) ?_
  rintro _ _ ⟨rfl, rfl⟩
  refine hstate.bind ?_ ?_
  · rintro _ t (⟨hok, hholding, hstates⟩ | ⟨⟨_, he⟩, -⟩)
    · obtain rfl := Except.ok.inj hok
      exact hadvance t hholding hstates
    · cases he
  · rintro e t (⟨hok, -⟩ | ⟨-, hstorable, ht⟩)
    · cases hok
    · exact hrefused hstorable e t ht

include hclock hlength in
/-- The first start stores the plan and begins it, or the store refuses the plan. -/
theorem ends_start_blank (h : Blank s)
    (hsettled : initial.Storable W I → Settled W I P deadline initial m)
    (hready : initial.status = .ready) :
    EndsWell W I deadline (start I runId request) (fun r t =>
      (initial.Storable W I ∧ Ending W I P deadline m m r t) ∨
        (∃ e, r = .error e) ∧ ¬initial.Storable W I ∧ Blank t) s := by
  refine ends_start_first hcreate h (fun t hholding hstates => ?_) fun hrefused e t ht =>
    Or.inr ⟨⟨e, rfl⟩, hrefused, ht⟩
  have hinitial := hholding.storable
  have hworks : Works W I P deadline t initial none := by
    refine ⟨hholding, fun b hb => ?_⟩
    rw [hstates, List.mem_singleton] at hb
    exact ⟨m, hb ▸ (hsettled hinitial).driven⟩
  exact (ends_advance_ready hclock hlength hworks (hsettled hinitial) hready _).mono
    fun r u hr => Or.inl ⟨hinitial, hr⟩

end Start

end Methods

end Calls

end

end Runtime

end Workflow
