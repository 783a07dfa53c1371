import SynoraErp.Transition.Alone
import SynoraErp.Workflow.Driven
import SynoraErp.Workflow.Holding

/-!
# Calls that go well

A driver of one plan works alone: the store is available and keeps the lease of a
method that runs, the clock is before the deadline, and a tool that is called succeeds.
Under these replies the loop of the runtime takes a workflow from a settled state on to
a settled state, and it never stops while a step can begin.
-/

namespace Workflow

open Python Transition
open Governance (Uuid)

namespace Runtime

/-- The favourable replies. -/
def Favours (I : Interpreter) (deadline : Text) : (c : Call) → c.Reply → Prop
  | .create _, reply => ∀ detail, reply ≠ .error (unavailable detail)
  | .load, reply => ∀ detail, reply ≠ .error (unavailable detail)
  | .recoverable, reply => ∀ detail, reply ≠ .error (unavailable detail)
  | .acquireLease _, reply => ∀ detail, reply ≠ .error (unavailable detail)
  | .save .., reply => reply = .ok ()
  | .releaseLease _, reply => reply = .ok ()
  | .now, reading => InTime I deadline reading
  | .connect, reply => reply = .ok ()
  | .execute _ _ action, outcome =>
      ∃ o : Observation, outcome = .observed o ∧ o.toolName = action.toolName ∧ o.ok = true

/-- A call with a favourable reply. -/
def GoesWell (W : Agent.WordClass) (I : Interpreter) (deadline : Text) (s : Shared Unit) (i : Unit)
    (c : Call) (reply : c.Reply) (t : Shared Unit) : Prop :=
  Performs W I s i c reply t ∧ Favours I deadline c reply

/-- The store of one driver: the state stored last, the lease it is under, and what holds
of every state that is stored. -/
structure Stores (W : Agent.WordClass) (I : Interpreter) (K : WorkflowState → Prop)
    (s : Shared Unit) (a : WorkflowState) (lease : Option Text) : Prop where
  holding : Holding W I s a lease
  states : ∀ b ∈ s.states, K b

/-- The store of a driven plan. -/
abbrev Works (W : Agent.WordClass) (I : Interpreter) (P : Plan) (deadline : Text) :=
  Stores W I fun b => ∃ m, Driven W I P deadline b m

section

variable {W : Agent.WordClass} {I : Interpreter} {P : Plan} {deadline : Text} {s t : Shared Unit}
  {a b : WorkflowState} {lease : Option Text} {m : ℕ} {K : WorkflowState → Prop}

abbrev EndsWell {α : Type} (W : Agent.WordClass) (I : Interpreter) (deadline : Text) (p : Method α)
    (Q : Result α → Shared Unit → Prop) (s : Shared Unit) : Prop :=
  Ends (GoesWell W I deadline) () p Q s

/-! ## Calls -/

theorem ends_request {α : Type} {c : Call} {k : c.Reply → Result α}
    {Q : Result α → Shared Unit → Prop} (hreply : ∃ reply t, GoesWell W I deadline s () c reply t)
    (h : ∀ reply t, GoesWell W I deadline s () c reply t → Q (k reply) t) :
    EndsWell W I deadline (.call c fun reply => .ofExcept (k reply)) Q s :=
  ends_call hreply h

theorem exists_observation (tool : ToolName) :
    ∃ o : Observation, o.toolName = tool ∧ o.ok = true := by
  obtain ⟨bytes, hbytes⟩ := Option.ne_none_iff_exists'.mp (encodes_iff.mp (encodes_ofString "ok"))
  exact ⟨⟨1, tool, true, "ok", Sha256.hexdigest bytes, none, false, by decide, by decide,
    fun _ h => (by cases h), bytes, hbytes, rfl⟩, rfl, rfl⟩

theorem ends_now (hclock : ∃ now, InTime I deadline now) {Q : Result Instant → Shared Unit → Prop}
    (h : ∀ reading, InTime I deadline reading → Q (.ok reading) s) :
    EndsWell W I deadline now Q s := by
  obtain ⟨reading, hreading⟩ := hclock
  refine ends_request (c := Call.now) (k := Except.ok) ⟨reading, s, rfl, hreading⟩ ?_
  rintro reply t ⟨rfl, hreply⟩
  exact h reply hreply

theorem ends_connect {Q : Result Unit → Shared Unit → Prop} (h : Q (.ok ()) s) :
    EndsWell W I deadline connect Q s := by
  refine ends_request (c := Call.connect) (k := fun reply => reply) ⟨.ok (), s, rfl, rfl⟩ ?_
  rintro reply t ⟨rfl, rfl⟩
  exact h

theorem ends_acquireLease (h : Stores W I K s a none) :
    EndsWell W I deadline (acquireLease a.revision)
      (Returns fun token t => Stores W I K t a (some token)) s := by
  refine ends_request (c := Call.acquireLease a.revision) (k := fun reply => reply) ?_ ?_
  · obtain ⟨t, hperforms, -⟩ := exists_acquire (i := ()) exampleNow exampleToken h.holding
    exact ⟨_, t, hperforms, fun detail => by simp⟩
  · rintro reply t ⟨hperforms, hfavours⟩
    obtain ⟨row, hrow, hrevision, hpayload, -, hexpiry, -⟩ := h.holding.row
    have hok : ∃ token, reply = .ok token ∧ t.states = s.states := by
      obtain ⟨now, seconds, token, ⟨db, hdb, hok, rfl⟩ | ⟨e, he, herror, -⟩⟩ := hperforms
      · exact ⟨token.text, hok, by simp [Shared.states]⟩
      · rcases he with he | ⟨detail, rfl⟩
        · simp [Database.acquireLease, hrow, hrevision, CheckpointRow.leaseActive, hexpiry rfl] at he
        · exact absurd herror (hfavours detail)
    obtain ⟨token, rfl, hstates⟩ := hok
    exact ⟨token, rfl, (holding_of_acquire h.holding hperforms rfl).1, hstates ▸ h.states⟩

theorem ends_releaseLease {token : Text} (h : Stores W I K s a (some token)) :
    EndsWell W I deadline (releaseLease token)
      (Returns fun _ t => Stores W I K t a none) s := by
  refine ends_request (c := Call.releaseLease token) (k := fun reply => reply) ?_ ?_
  · obtain ⟨t, hperforms, -⟩ := exists_release (i := ()) h.holding
    exact ⟨_, t, hperforms, rfl⟩
  · rintro reply t ⟨hperforms, rfl⟩
    have hstates : t.states = s.states := by
      obtain ⟨db, -, -, rfl⟩ | ⟨e, -, -, rfl⟩ := hperforms
      · simp [Shared.states]
      · rfl
    exact ⟨(), rfl, (holding_of_release h.holding hperforms).1, hstates ▸ h.states⟩

theorem ends_save {token : Text} {keepLease : Bool} (h : Stores W I K s a (some token))
    (hstorable : b.Storable W I) (hb : K b) (hnext : b.revision = a.revision + 1) :
    EndsWell W I deadline (save b a.revision token keepLease)
      (Returns fun _ t => Stores W I K t b (if keepLease then some token else none)) s := by
  refine ends_request (c := Call.save b a.revision token keepLease) (k := fun reply => reply) ?_ ?_
  · obtain ⟨t, hperforms, -⟩ := exists_save (i := ()) keepLease h.holding hstorable hnext
    exact ⟨_, t, hperforms, rfl⟩
  · rintro reply t ⟨hperforms, rfl⟩
    obtain ⟨hholding, -, hstates⟩ := holding_of_save h.holding hperforms
    refine ⟨(), rfl, hholding, fun x hx => ?_⟩
    rw [hstates] at hx
    rcases List.mem_append.mp hx with hx | hx
    · exact h.states x hx
    · obtain rfl := List.mem_singleton.mp hx
      exact hb

theorem ends_execute (h : Stores W I K s a lease) {ready : PlanStep} {action : Action}
    {Q : Result ToolOutcome → Shared Unit → Prop}
    (hQ : ∀ o t, o.toolName = action.toolName → Stores W I K t a lease →
      Q (.ok (.observed o)) t) :
    EndsWell W I deadline (execute a ready action) Q s := by
  refine ends_request (c := Call.execute a ready action) (k := Except.ok) ?_ ?_
  · obtain ⟨o, htool, hok⟩ := exists_observation action.toolName
    exact ⟨.observed o, _, rfl, o, rfl, htool, hok⟩
  · rintro reply t ⟨hperforms, o, rfl, htool, -⟩
    obtain rfl : t = { s with dispatched := s.dispatched ++ [⟨(), a, ready, action⟩] } := hperforms
    exact hQ o _ htool ⟨⟨h.holding.row, h.holding.history, h.holding.last⟩, h.states⟩

/-! ## Transitions -/

/-- What is saved in place of a state. -/
structure Replaced (W : Agent.WordClass) (I : Interpreter) (K : WorkflowState → Prop)
    (a b : WorkflowState) : Prop where
  revision : b.revision = a.revision + 1
  storable : b.Storable W I
  keeps : K b

theorem Replaced.of_settles (h : Settles W I P deadline a m b) :
    Replaced W I (fun b => ∃ m, Driven W I P deadline b m) a b := by
  obtain ⟨hrevision, m', -, hsettled⟩ := h
  exact ⟨hrevision, hsettled.driven.storable, m', hsettled.driven⟩

section Transitions

variable (hclock : ∃ now, InTime I deadline now) {l : Loop} {token : Text}
  {operation : Instant → Result WorkflowState} {Q : WorkflowState → Prop}

include hclock

theorem ends_replace (keepLease : Bool) (h : Stores W I K s l.current (some token))
    (hoperation : ∀ reading, InTime I deadline reading →
      ∃ b, operation reading = .ok b ∧ Replaced W I K l.current b ∧ Q b) :
    EndsWell W I deadline (l.replace token operation keepLease)
      (Returns fun b t => Q b ∧ Stores W I K t b (if keepLease then some token else none))
      s := by
  refine Ends.andThen (R := fun reading t => InTime I deadline reading ∧ t = s)
    (ends_now hclock fun reading hreading => ⟨reading, rfl, hreading, rfl⟩) ?_
  rintro reading _ ⟨hreading, rfl⟩
  obtain ⟨b, hb, hreplaced, hQ⟩ := hoperation reading hreading
  rw [hb]
  refine (ends_save h hreplaced.storable hreplaced.keeps hreplaced.revision).andThen fun _ t ht => ?_
  exact ends_pure ⟨b, rfl, hQ, ht⟩

omit hclock in
theorem ends_hold (h : Stores W I K s l.current l.heldLease) :
    EndsWell W I deadline l.hold
      (Returns fun token t => Stores W I K t l.current (some token)) s := by
  unfold Loop.hold
  split
  · next token hlease =>
      rw [hlease] at h
      exact ends_pure ⟨token, rfl, h⟩
  · next hlease =>
      rw [hlease] at h
      exact ends_acquireLease h

theorem ends_transition (h : Stores W I K s l.current l.heldLease)
    (hoperation : ∀ reading, InTime I deadline reading →
      ∃ b, operation reading = .ok b ∧ Replaced W I K l.current b ∧ Q b) :
    EndsWell W I deadline (l.transition operation)
      (Returns fun l' t => ∃ token b,
        l' = { l with heldLease := some token, current := b, resumed := true } ∧ Q b ∧
          Stores W I K t b (some token)) s := by
  refine (ends_hold h).uncaught.andThen fun token t ht => ?_
  refine (ends_replace hclock (l := { l with heldLease := some token }) true ht
    hoperation).uncaught.andThen fun b u ⟨hQ, hu⟩ => ?_
  exact ends_pure ⟨_, rfl, token, b, rfl, hQ, hu⟩

theorem ends_conclude (h : Stores W I K s l.current (some token))
    (hlease : l.heldLease = some token)
    (hoperation : ∀ reading, InTime I deadline reading →
      ∃ b, operation reading = .ok b ∧ Replaced W I K l.current b ∧ Q b) :
    EndsWell W I deadline (l.conclude operation)
      (Returns fun outcome t => (∃ result, outcome = .response result) ∧
        ∃ b, Q b ∧ Stores W I K t b none) s := by
  unfold Loop.conclude
  rw [hlease]
  refine (ends_replace hclock false h hoperation).uncaught.andThen fun b t ⟨hQ, ht⟩ => ?_
  exact ends_pure ⟨_, rfl, ⟨_, rfl⟩, b, hQ, ht⟩

end Transitions

/-! ## The loop -/

/-- The head of the loop, for a request that may execute tools. -/
structure LoopAt (W : Agent.WordClass) (I : Interpreter) (P : Plan) (deadline : Text) (l : Loop)
    (m : ℕ) (s : Shared Unit) : Prop where
  works : Works W I P deadline s l.current l.heldLease
  settled : Settled W I P deadline l.current m
  requester : ∃ correlationId, l.requester = .workflow correlationId
  released : l.current.status ≠ .running → l.heldLease = none

/-- A settled state, under no lease. -/
def Resting (W : Agent.WordClass) (I : Interpreter) (P : Plan) (deadline : Text) (m : ℕ)
    (s : Shared Unit) : Prop :=
  ∃ a, Works W I P deadline s a none ∧ Settled W I P deadline a m

/-- A method comes to the head of the loop or leaves the store at rest, with less ahead
than the one bound or the other. -/
def Ending (W : Agent.WordClass) (I : Interpreter) (P : Plan) (deadline : Text) (loop rest : ℕ) :
    Result Outcome → Shared Unit → Prop
  | .ok (.again l), s => ∃ m < loop, LoopAt W I P deadline l m s
  | _, s => ∃ m < rest, Resting W I P deadline m s

theorem Ending.mono {loop loop' rest rest' : ℕ} {r : Result Outcome}
    (h : Ending W I P deadline loop rest r s) (hloop : loop ≤ loop') (hrest : rest ≤ rest') :
    Ending W I P deadline loop' rest' r s := by
  unfold Ending at h ⊢
  split at h
  · obtain ⟨m, hlt, hl⟩ := h
    exact ⟨m, hlt.trans_le hloop, hl⟩
  · obtain ⟨m, hlt, hresting⟩ := h
    exact ⟨m, hlt.trans_le hrest, hresting⟩

theorem ending_error {loop rest : ℕ} {e : Exn} (hlt : m < rest) (h : Resting W I P deadline m s) :
    Ending W I P deadline loop rest (.error e) s := ⟨m, hlt, h⟩

theorem ending_response {loop rest : ℕ} {result : WorkflowResult} (hlt : m < rest)
    (h : Resting W I P deadline m s) : Ending W I P deadline loop rest (.ok (.response result)) s :=
  ⟨m, hlt, h⟩

theorem ends_releaseHeld (h : Stores W I K s a lease) :
    EndsWell W I deadline (releaseHeld lease) (Returns fun _ t => Stores W I K t a none) s := by
  cases lease with
  | none => exact ends_pure ⟨(), rfl, h⟩
  | some token => exact ends_releaseLease h

/-- A workflow error in the loop leaves the store at rest. -/
theorem ends_unwind {l : Loop} (hl : LoopAt W I P deadline l m s) (code detail : String) :
    EndsWell W I deadline (unwind l.heldLease (.workflowError code detail) : Method PlanStep)
      (fun r t => (∃ e, r = .error e) ∧ Resting W I P deadline m t) s :=
  (ends_releaseHeld hl.works).andThen fun _ _ ht => ends_throw ⟨⟨_, rfl⟩, _, ht, hl.settled⟩

section Iterate

variable (hclock : ∃ now, InTime I deadline now) (hlength : P.length ≤ 256) {l : Loop}
  {ready : PlanStep} {token : Text}

include hclock hlength

/-- What the tool observed is stored, and the loop goes on. -/
theorem ends_complete (h : Works W I P deadline s l.current (some token))
    (hlease : l.heldLease = some token) (hrequester : ∃ c, l.requester = .workflow c)
    (hin : InStep W I P deadline l.current (ready.withStatus .running) m) {o : Observation}
    (htool : ready.toolName = some o.toolName) :
    EndsWell W I deadline (l.complete I o) (Ending W I P deadline m m) s := by
  have hbody : EndsWell W I deadline (do
      let reading ← now
      let stamp ← now
      let completed ← Program.ofExcept (completeStep I reading stamp l.current o)
      save completed l.current.revision (l.heldLease.getD []) false
      return completed)
      (Returns fun b t => Settles W I P deadline l.current m b ∧ Works W I P deadline t b none) s := by
    refine Ends.andThen (R := fun reading t => InTime I deadline reading ∧ s = t)
      (ends_now hclock fun reading hreading => ⟨reading, rfl, hreading, rfl⟩) ?_
    rintro reading _ ⟨hreading, rfl⟩
    refine Ends.andThen (R := fun _ t => s = t)
      (ends_now hclock fun stamp _ => ⟨stamp, rfl, rfl⟩) ?_
    rintro stamp _ rfl
    obtain ⟨b, hb, hsettles⟩ : ∃ b, completeStep I reading stamp l.current o = .ok b ∧
        Settles W I P deadline l.current m b := hin.complete hlength hreading htool
    rw [hb, hlease]
    have hreplaced := Replaced.of_settles hsettles
    refine (ends_save h hreplaced.storable hreplaced.keeps hreplaced.revision).andThen fun _ t ht => ?_
    exact ends_pure ⟨b, rfl, hsettles, ht⟩
  refine hbody.uncaught.andThen fun b t ⟨⟨_, m', hlt, hsettled⟩, ht⟩ => ?_
  exact ends_pure ⟨m', hlt, ht, hsettled, hrequester, fun _ => rfl⟩

/-- A tool is called and comes back. -/
theorem ends_dispatch (h : Works W I P deadline s l.current (some token))
    (hlease : l.heldLease = some token) (hrequester : ∃ c, l.requester = .workflow c)
    (hin : InStep W I P deadline l.current (ready.withStatus .running) m)
    (hvalid : ready.Valid) (htype : ready.type = .tool) (horder : ready.order ≤ 64) :
    EndsWell W I deadline (l.dispatch I ready) (Ending W I P deadline m m) s := by
  obtain ⟨tool, htool⟩ := hvalid.exists_toolName htype
  obtain ⟨c, hc⟩ := hrequester
  have hprepare : EndsWell W I deadline (l.prepare ready)
      (Returns fun action t => action.toolName = tool ∧ Works W I P deadline t l.current (some token))
      s := by
    unfold Loop.prepare requireTool
    rw [htool, hc]
    have hreach : EndsWell W I deadline l.reachAdapter (Returns fun _ t => s = t) s := by
      unfold Loop.reachAdapter
      split_ifs
      · exact ends_pure ⟨(), rfl, rfl⟩
      · exact ends_connect ⟨(), rfl, rfl⟩
    refine Ends.andThen (R := fun x t => x = (tool, c) ∧ s = t) (ends_ofExcept ⟨_, rfl, rfl, rfl⟩) ?_
    rintro _ _ ⟨rfl, rfl⟩
    refine hreach.andThen ?_
    rintro _ _ rfl
    rw [Action.create, dif_pos ⟨hvalid.2.1.1, horder⟩]
    exact ends_pure ⟨_, rfl, rfl, h⟩
  refine hprepare.uncaught.andThen fun action t ⟨htoolName, ht⟩ => ?_
  have hexecute : EndsWell W I deadline (execute l.current ready action)
      (Returns fun outcome u => ∃ o, outcome = .observed o ∧ o.toolName = tool ∧
        Works W I P deadline u l.current (some token)) t :=
    ends_execute ht fun o u ho hu => ⟨_, rfl, o, rfl, ho.trans htoolName, hu⟩
  refine hexecute.andThen ?_
  rintro _ u ⟨o, rfl, ho, hu⟩
  exact ends_complete hclock hlength hu hlease ⟨c, hc⟩ hin (htool.trans (by rw [ho]))

/-- A step that has begun comes to its end, or waits. -/
theorem ends_proceed (h : Works W I P deadline s l.current (some token))
    (hlease : l.heldLease = some token) (hrequester : ∃ c, l.requester = .workflow c)
    (hin : InStep W I P deadline l.current (ready.withStatus .running) m)
    (hvalid : ready.Valid) (hpassable : ready.Passable) :
    EndsWell W I deadline (l.proceed I ready) (Ending W I P deadline m m) s := by
  have hrest : ∀ b t, Settles W I P deadline l.current m b → Works W I P deadline t b none →
      ∃ m' < m, Resting W I P deadline m' t := by
    rintro b t ⟨-, m', hlt, hsettled⟩ ht
    exact ⟨m', hlt, b, ht, hsettled⟩
  unfold Loop.proceed
  cases htype : ready.type with
  | clarification =>
      obtain ⟨request, hrequest⟩ := hvalid.exists_clarification htype
      rw [hrequest]
      refine (ends_conclude hclock (Q := Settles W I P deadline l.current m) h hlease
        fun reading hreading => ?_).mono ?_
      · obtain ⟨b, hb, hsettles⟩ := hin.interrupt hlength hrequest hreading
        exact ⟨b, hb, .of_settles hsettles, hsettles⟩
      · rintro _ t ⟨_, rfl, ⟨result, rfl⟩, b, hsettles, ht⟩
        exact hrest b t hsettles ht
  | governedAction =>
      refine (ends_conclude hclock (Q := Settles W I P deadline l.current m) h hlease
        fun reading hreading => ?_).mono ?_
      · obtain ⟨b, hb, hsettles⟩ := hin.wait hlength htype hreading
        exact ⟨b, hb, .of_settles hsettles, hsettles⟩
      · rintro _ t ⟨_, rfl, ⟨result, rfl⟩, b, hsettles, ht⟩
        exact hrest b t hsettles ht
  | tool =>
      exact ends_dispatch hclock hlength h hlease hrequester hin hvalid htype (hpassable.order_le htype)
  | finalize => exact absurd htype hpassable.finalize

/-- Between two steps the loop goes on. -/
theorem ends_iterate_between (hpassable : ∀ step ∈ P, step.Passable)
    (hl : LoopAt W I P deadline l m s) (hstatus : l.current.status = .running) {done : List Text}
    {rest : List PlanStep} (hbetween : Between P done rest l.current) (hm : m = 3 * rest.length + 1) :
    EndsWell W I deadline (l.iterate I) (Ending W I P deadline m m) s := by
  obtain ⟨ready, hready, hmem, hbegin⟩ := hl.settled.begin hlength hstatus hbetween hm
  obtain ⟨declared, hdeclared, hsame⟩ := hbetween.tracks.exists_declared hmem
  have hvalid := hl.settled.driven.valid.step ready hmem
  have hrequire : requireReady l.current = .ok ready := by simp [requireReady, hready]
  unfold Loop.iterate
  rw [if_neg (not_not.mpr hstatus), hrequire]
  refine Ends.andThen (R := fun x t => ready = x ∧ s = t) (ends_pure ⟨ready, rfl, rfl, rfl⟩) ?_
  rintro _ _ ⟨rfl, rfl⟩
  refine (ends_transition hclock hl.works (Q := fun b =>
    ∃ m' < m, InStep W I P deadline b (ready.withStatus .running) m') fun reading hreading => ?_).andThen ?_
  · obtain ⟨b, hb, hrevision, m', hlt, hin⟩ := hbegin reading hreading
    exact ⟨b, hb, ⟨hrevision, hin.driven.storable, m', hin.driven⟩, m', hlt, hin⟩
  · rintro _ t ⟨token, b, rfl, ⟨m', hlt, hin⟩, ht⟩
    let held : Loop := { l with heldLease := some token, current := b, resumed := true }
    exact (ends_proceed hclock hlength (l := held) ht rfl hl.requester hin hvalid
      ((hpassable declared hdeclared).of_declared hsame)).mono fun r u h => h.mono hlt.le hlt.le

/-- The loop goes on while a step can begin, and otherwise leaves the store at rest. -/
theorem ends_iterate (hpassable : ∀ step ∈ P, step.Passable) (hl : LoopAt W I P deadline l m s) :
    EndsWell W I deadline (l.iterate I) (Ending W I P deadline m (m + 1)) s := by
  by_cases hstatus : l.current.status = .running
  · rcases hl.settled.running hstatus with ⟨done, step, rest, hbusy, -, -⟩ | ⟨done, rest, hbetween, hm⟩
    · have hget := getStep_of_mem hl.settled.driven.dag hbusy.mem
      have hrequire : requireReady l.current =
          .error (.workflowError "WORKFLOW_INVALID" "running workflow has no ready step") := by
        simp [requireReady, readyStep, hstatus, hbusy.current, hget, PlanStep.Active, hbusy.status]
      unfold Loop.iterate
      rw [if_neg (not_not.mpr hstatus), hrequire]
      refine Ends.bind (R := fun r t => (∃ e, r = .error e) ∧ Resting W I P deadline m t)
        (ends_unwind hl _ _) ?_ ?_
      · rintro _ _ ⟨⟨_, he⟩, -⟩
        cases he
      · rintro e t ⟨-, ht⟩
        exact ending_error (Nat.lt_succ_self m) ht
    · exact (ends_iterate_between hclock hlength hpassable hl hstatus hbetween hm).mono
        fun r t h => h.mono le_rfl (Nat.le_succ m)
  · unfold Loop.iterate
    rw [if_pos hstatus]
    have hworks := hl.works
    rw [hl.released hstatus] at hworks
    exact ends_pure (ending_response (Nat.lt_succ_self m) ⟨_, hworks, hl.settled⟩)

end Iterate

end

end Runtime

end Workflow
