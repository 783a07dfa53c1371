import SynoraErp.Gateway.Consistent

/-!
# What a request promises

The requests over one database are a system of processes: every call a request makes it
makes under its condition, whatever the others do. A reservation, a run of the handler and
a completion each say what the database holds once they return.
-/

namespace Gateway

open Python
open Governance (Exn Result Uuid Digest sha256)
open Transition (Program Path Config Event Moves System Step)

namespace Database

variable {ι : Type} [DecidableEq ι] {I : Interpreter} {s t : Database ι} {i j : ι}

/-- A call under its condition, when it gives a value back. -/
theorem Consistent.does (h : s.Consistent I) {c : Call} {value : c.Value}
    (hallowed : s.Allowed I i c) (hdoes : s.Does i c value t) :
    t.Consistent I ∧ ∀ j, j ≠ i → s.Relies j t := by
  cases c with
  | connect =>
      obtain rfl := hdoes
      exact ⟨h.rollback i, fun j hj => relies_rollback s hj⟩
  | resolveRun runId capability => exact h.unchanged hdoes.2
  | recheckRunScope run requiredDoctypes => exact h.unchanged hdoes
  | «exists» id =>
      obtain ⟨base, hreads, -⟩ := hdoes
      have hkeep := h.keep hreads
      obtain ⟨-, rfl⟩ := hreads
      exact ⟨hkeep, fun j hj => relies_keep s hj base⟩
  | getDoc id =>
      obtain ⟨base, hreads, -⟩ := hdoes
      have hkeep := h.keep hreads
      obtain ⟨-, rfl⟩ := hreads
      exact ⟨hkeep, fun j hj => relies_keep s hj base⟩
  | insert doc =>
      cases value with
      | false => exact h.unchanged hdoes.2
      | true =>
          obtain ⟨hfree, hview, -, rfl⟩ := hdoes
          have hnone : s.committed doc.invocationId = none := (Option.or_eq_none_iff.mp hview).2
          exact ⟨h.write hallowed.1 hfree (.inl ⟨hnone, hallowed.2⟩),
            fun j hj => relies_write s hj doc⟩
  | save before doc completion =>
      obtain ⟨hfree, hview, hvalidate, rfl⟩ := hdoes
      obtain ⟨howner, hstarted, hstored⟩ := hallowed
      obtain ⟨⟨hid, -⟩, hsucceeded⟩ := Invocation.of_validate hvalidate
      refine ⟨?_, fun j hj => relies_write s hj doc⟩
      rw [← hid] at hfree hview howner
      refine h.write hstored hfree (.inr ⟨before, ?_, hstarted, hsucceeded, howner⟩)
      -- What the connection has written itself cannot be a started row of its own.
      cases hwritten : s.writes i doc.invocationId with
      | none => simpa [view, hwritten] using hview
      | some row =>
          have hrow : row = before := by simpa [view, hwritten] using hview
          rcases (h.pending i _ row hwritten).change with ⟨hnone, -⟩ | ⟨-, -, -, hdone, -⟩
          · exact absurd hnone (h.owned _ i howner)
          · rw [hrow, hstarted] at hdone
            cases hdone
  | commit =>
      obtain rfl := hdoes
      exact ⟨h.commit i, fun j hj => relies_commit h hj⟩
  | handle request run input =>
      have hrollback : (s.rollback i).Allowed I i (.handle request run input) := hallowed
      rcases hdoes with rfl | rfl
      · exact ⟨h.handle hallowed,
          fun j hj => relies_handle s hj fun m hm => (hallowed m hm).1⟩
      · exact ⟨(h.rollback i).handle hrollback, fun j hj =>
          (relies_rollback s hj).trans (relies_handle _ hj fun m hm => (hrollback m hm).1)⟩
  | monotonic => exact h.unchanged hdoes
  | now => exact h.unchanged hdoes
  | audit run request outcome => exact h.unchanged hdoes
  | endRequest =>
      rcases hdoes with rfl | rfl
      · exact ⟨h.commit i, fun j hj => relies_commit h hj⟩
      · exact ⟨h.rollback i, fun j hj => relies_rollback s hj⟩
  | answer request response =>
      obtain rfl := hdoes
      exact ⟨h.answer hallowed, fun j _ => relies_answer s j request response⟩

/-- A call under its condition, whatever comes of it. -/
theorem Consistent.perform (h : s.Consistent I) {c : Call} {reply : c.Reply}
    (hallowed : s.Allowed I i c) (hperform : s.Perform i c reply t) :
    t.Consistent I ∧ ∀ j, j ≠ i → s.Relies j t := by
  cases reply with
  | ok value => exact h.does hallowed hperform
  | error e =>
      rcases hperform with ht | rfl | ⟨value, hdoes⟩
      · exact h.unchanged ht
      · exact ⟨h.rollback i, fun j hj => relies_rollback s hj⟩
      · exact h.does hallowed hdoes

end Database

section Requests

variable {ι : Type} [DecidableEq ι]

/-- The requests over one database. -/
def requests (I : Interpreter) : System ι (Database ι) Call Call.Reply where
  perform := Database.Perform
  allowed := Database.Allowed I
  relies := Database.Relies
  invariant := Database.Consistent I
  relies_refl := .refl
  relies_trans := .trans
  sound := fun h hallowed hperform => h.perform hallowed hperform

variable {I : Interpreter} {s t : Database ι} {i : ι}

/-! ## What a request promises -/

theorem meets_call {c : Call} {Q : c.Value → Database ι → Prop}
    (hallowed : ∀ t, (requests I).Follows i s t → t.Allowed I i c)
    (h : ∀ t value u v, (requests I).Follows i s t → t.Does i c value u →
      (requests I).Follows i u v → Q value v) : (requests I).Meets i (call c) Q s := by
  apply System.meets_call hallowed
  intro t reply u v value ht hperform hv hreply
  subst hreply
  exact h t value u v ht hperform hv

/-- A condition the calls of the others keep. -/
def Stable (I : Interpreter) (i : ι) (P : Database ι → Prop) : Prop :=
  ∀ s t, (requests I).Follows i s t → P s → P t

/-- A call that changes nothing. -/
theorem meets_unchanged {c : Call} {P : Database ι → Prop} (hP : Stable I i P) (h : P s)
    (hallowed : ∀ t : Database ι, t.Allowed I i c)
    (hc : ∀ (t : Database ι) value u, t.Does i c value u → u = t) :
    (requests I).Meets i (call c) (fun _ => P) s := by
  apply meets_call
  · exact fun t _ => hallowed t
  · intro t value u v ht hdoes hv
    rw [hc t value u hdoes] at hv
    exact hP t v hv (hP s t ht h)

/-- What a computation without calls gives is known from then on. -/
theorem meets_known {α : Type} {result : Result α} {P : Database ι → Prop} (hP : Stable I i P)
    (h : P s) : (requests I).Meets i (Program.ofExcept result : Prog α)
      (fun a t => result = .ok a ∧ P t) s :=
  System.meets_ofExcept fun _ ha t ht => ⟨ha, hP s t ht h⟩

/-- The connection has written nothing under the id. -/
def Unwritten (i : ι) (id : Digest) (s : Database ι) : Prop := s.writes i id = none

theorem stable_unwritten (id : Digest) : Stable I i (Unwritten i id) := by
  intro s t ht h
  rw [Unwritten, ht.relies.writes]
  exact h

/-- The connection has a row to commit under the id. -/
def Written (i : ι) (id : Digest) (row : Invocation) (s : Database ι) : Prop :=
  s.writes i id = some row

theorem stable_written (id : Digest) (row : Invocation) : Stable I i (Written i id row) := by
  intro s t ht h
  rw [Written, ht.relies.writes]
  exact h

/-- A row with the response is committed. -/
def Holds (I : Interpreter) (id : Digest) (response : Dict) (s : Database ι) : Prop :=
  ∃ row, s.committed id = some row ∧ Answers I row response

theorem stable_holds (id : Digest) (response : Dict) : Stable I i (Holds I id response) := by
  intro s t ht ⟨row, hrow, hanswers⟩
  obtain ⟨row', hrow', hbecomes⟩ := ht.relies.grows id row hrow
  rw [hbecomes.eq_of_succeeded hanswers.1] at hrow'
  exact ⟨row, hrow', hanswers⟩

/-- The process owns a row that is started and has no write of it open. -/
structure Owns (i : ι) (id : Digest) (s : Database ι) : Prop where
  owner : s.owner id = some i
  started : ∃ row, s.committed id = some row ∧ row.status = .started
  unwritten : Unwritten i id s

theorem stable_owns (id : Digest) : Stable I i (Owns i id) := by
  intro s t ht h
  obtain ⟨howner, hcommitted, -⟩ := ht.relies.owned id h.owner
  refine ⟨howner, ?_, stable_unwritten id s t ht h.unwritten⟩
  rw [hcommitted]
  exact h.started

/-- A process that owns a row and has not run its handler. -/
def MayHandle (i : ι) (id : Digest) (s : Database ι) : Prop := Owns i id s ∧ id ∉ s.handledIds

theorem stable_mayHandle (id : Digest) : Stable I i (MayHandle i id) := by
  intro s t ht ⟨howns, hfresh⟩
  obtain ⟨-, -, hhandled⟩ := ht.relies.owned id howns.owner
  exact ⟨stable_owns id s t ht howns, fun hmem => hfresh (hhandled hmem)⟩

/-- What a connection without a write of its own reads is a state of the committed row. -/
theorem becomes_of_reads {base : Table} {id : Digest} {doc : Invocation} (hs : s.Consistent I)
    (h : Unwritten i id s) (hreads : s.Reads i base t) (hview : s.view i base id = some doc) :
    ∃ row, t.committed id = some row ∧ Becomes doc row := by
  have hbase : base id = some doc := by simpa [Database.view, show s.writes i id = none from h]
    using hview
  obtain ⟨hfrom, rfl⟩ := hreads
  rcases hfrom with rfl | hsnapshot
  · exact ⟨doc, hbase, .refl doc⟩
  · exact hs.shown i base hsnapshot id doc hbase

theorem meets_getDoc {id : Digest} (h : Unwritten i id s) :
    (requests I).Meets i (call (.getDoc id))
      (fun doc t => Unwritten i id t ∧ ∃ row, t.committed id = some row ∧ Becomes doc row) s := by
  apply meets_call
  · exact fun _ _ => trivial
  · rintro t doc u v ht ⟨base, hreads, hview⟩ hv
    have hunwritten := stable_unwritten id s t ht h
    obtain ⟨row, hrow, hbecomes⟩ := becomes_of_reads ht.invariant hunwritten hreads hview
    obtain ⟨row', hrow', hbecomes'⟩ := hv.relies.grows id row hrow
    refine ⟨stable_unwritten id u v hv ?_, row', hrow', hbecomes.trans hbecomes'⟩
    rw [hreads.2]
    exact hunwritten

theorem meets_exists {id id' : Digest} (h : Unwritten i id s) :
    (requests I).Meets i (call (.exists id')) (fun _ => Unwritten i id) s := by
  apply meets_call
  · exact fun _ _ => trivial
  · rintro t found u v ht ⟨base, hreads, -⟩ hv
    apply stable_unwritten id u v hv
    rw [hreads.2]
    exact stable_unwritten id s t ht h

/-- A reservation of a request, and what the database holds for it. -/
inductive Reserved (I : Interpreter) (request : ReceivedRequest) (i : ι) (s : Database ι) :
    Option InvocationReservation → Prop
  | none (h : request.metadata = none) : Reserved I request i s none
  | cached {m : Metadata} {response : Dict} (h : request.metadata = some m)
      (hashes : (request.identity m).Hashes m.invocationId)
      (holds : Holds I m.invocationId response s) :
      Reserved I request i s (some ⟨m.invocationId, some response⟩)
  | fresh {m : Metadata} {row : Invocation} (h : request.metadata = some m)
      (hashes : (request.identity m).Hashes m.invocationId)
      (written : Written i m.invocationId row s) (started : row.status = .started) :
      Reserved I request i s (some ⟨m.invocationId, .none⟩)

theorem stable_reserved (request : ReceivedRequest)
    (reservation : Option InvocationReservation) :
    Stable I i fun s => Reserved I request i s reservation := by
  intro s t ht h
  cases h with
  | none h => exact .none h
  | cached h hashes holds => exact .cached h hashes (stable_holds _ _ s t ht holds)
  | fresh h hashes written started =>
      exact .fresh h hashes (stable_written _ _ s t ht written) started

theorem meets_readReservation {id digest : Digest} (hs : s.Consistent I) (h : Unwritten i id s) :
    (requests I).Meets i (readReservation I id digest)
      (fun r t => ∃ response, r = ⟨id, some response⟩ ∧ Holds I id response t) s := by
  apply System.Meets.bind hs (meets_getDoc h)
  rintro doc t ht ⟨-, row, hrow, hbecomes⟩
  apply System.meets_ofExcept
  intro reservation hreservation u hu
  obtain ⟨hsucceeded, hid, cached, hcached⟩ := of_existingReservation hreservation
  obtain rfl := hbecomes.eq_of_succeeded hsucceeded
  have hstored := ht.stored id row hrow
  obtain ⟨response, hanswers⟩ := hstored.answers hsucceeded
  have heq : reservation = ⟨id, some cached⟩ := by
    cases reservation
    simp only [InvocationReservation.mk.injEq]
    exact ⟨hid.trans hstored.invocationId, hcached⟩
  subst heq
  obtain rfl := cachedResponse_of_existing hanswers hreservation
  exact ⟨cached, rfl, stable_holds id cached t u hu ⟨row, hrow, hanswers⟩⟩

theorem meets_insertReservation {request : ReceivedRequest} {run : RunContext} {m : Metadata}
    (hs : s.Consistent I) (hmetadata : request.metadata = some m)
    (hhashes : (request.identity m).Hashes m.invocationId) (hrun : run.runId = request.runId)
    (h : Unwritten i m.invocationId s) :
    (requests I).Meets i (insertReservation I request run m)
      (fun r t => Reserved I request i t (some r)) s := by
  have hidentity : ∀ startedAt,
      (startedInvocation request run m startedAt).identity = request.identity m := by
    intro startedAt
    rw [startedInvocation, hrun]
    rfl
  have hclock : (requests I).Meets i (call .now) (fun _ => Unwritten i m.invocationId) s :=
    meets_unchanged (stable_unwritten _) h (fun _ => trivial) fun _ _ _ hdoes => hdoes
  apply System.Meets.bind hs hclock
  intro startedAt t ht hunwritten
  have hinsert : (requests I).Meets i
      (call (.insert (startedInvocation request run m startedAt)))
      (fun inserted u => if inserted = true then
        Written i m.invocationId (startedInvocation request run m startedAt) u
        else Unwritten i m.invocationId u) t := by
    apply meets_call
    · intro u _
      refine ⟨⟨rfl, ?_, fun hsucceeded => by cases hsucceeded⟩, rfl⟩
      rw [hidentity]
      exact hhashes
    · intro u inserted v w hu hdoes hw
      cases inserted with
      | true =>
          obtain ⟨-, -, -, rfl⟩ := hdoes
          have hwritten : Written i m.invocationId (startedInvocation request run m startedAt)
              (u.write i (startedInvocation request run m startedAt)) := by
            simp [Written, Database.write, startedInvocation]
          exact stable_written _ _ _ w hw hwritten
      | false =>
          obtain ⟨-, rfl⟩ := hdoes
          exact stable_unwritten _ v w hw (stable_unwritten _ t v hu hunwritten)
  apply System.Meets.bind ht hinsert
  intro inserted u hu hinserted
  cases inserted with
  | true =>
      apply System.meets_pure
      intro v hv
      exact stable_reserved request _ u v hv (.fresh hmetadata hhashes hinserted rfl)
  | false =>
      apply System.Meets.bind hu (meets_exists hinserted)
      intro found v hv hunwritten
      cases found with
      | true =>
          apply System.Meets.mono (meets_readReservation hv hunwritten)
          rintro _ w ⟨response, rfl, hholds⟩
          exact .cached hmetadata hhashes hholds
      | false => exact System.meets_throw _

theorem meets_reserveInvocation {request : ReceivedRequest} {run : RunContext}
    (hs : s.Consistent I) (hrun : run.runId = request.runId) (h : ∀ id, Unwritten i id s) :
    (requests I).Meets i (reserveInvocation I request run)
      (fun reservation t => Reserved I request i t reservation) s := by
  rw [reserveInvocation]
  cases hmetadata : request.metadata with
  | none =>
      apply System.meets_pure
      exact fun t _ => .none hmetadata
  | some m' =>
      apply System.Meets.bind hs (meets_known (P := fun t => ∀ id, Unwritten i id t)
        (fun t u hu ht id => stable_unwritten id t u hu (ht id)) h)
      rintro m t ht ⟨hvalidate, hunwritten⟩
      obtain ⟨hm, -, -⟩ := validateWorkflowMetadata_eq_ok.mp hvalidate
      apply System.Meets.bind ht (meets_known (stable_unwritten m.invocationId)
        (hunwritten m.invocationId))
      rintro spec u hu ⟨hspec, hunwritten⟩
      have hhashes := hashes_of_validate hvalidate hspec
      have hrecheck : (requests I).Meets i (call (.recheckRunScope run spec.requiredDoctypes))
          (fun _ => Unwritten i m.invocationId) u :=
        meets_unchanged (stable_unwritten _) hunwritten (fun _ => trivial)
          fun _ _ _ hdoes => hdoes
      apply System.Meets.bind hu hrecheck
      intro _ v hv hunwritten
      apply System.Meets.bind hv (meets_exists hunwritten)
      intro found w hw hunwritten
      cases found with
      | true =>
          apply System.Meets.bind hw (meets_readReservation hw hunwritten)
          rintro _ x hx ⟨response, rfl, hholds⟩
          apply System.meets_pure
          intro y hy
          exact stable_reserved request _ x y hy (.cached hm hhashes hholds)
      | false =>
          apply System.Meets.bind hw
            (meets_insertReservation hw hm hhashes hrun hunwritten)
          intro r x hx hreserved
          apply System.meets_pure
          intro y hy
          exact stable_reserved request _ x y hy hreserved

/-- A run of the handler: it may start where `P` holds, and `Q` holds once it has. -/
theorem meets_dispatch {request : ReceivedRequest} {run : RunContext} {P Q : Database ι → Prop}
    (hs : s.Consistent I) (hP : Stable I i P) (hQ : Stable I i Q)
    (hallowed : ∀ t input, P t → t.Allowed I i (.handle request run input))
    (hhandle : ∀ t, P t → Q (t.handle request) ∧ Q ((t.rollback i).handle request)) (h : P s) :
    (requests I).Meets i (dispatch request run)
      (fun response t => Json.Held (.dict response) ∧ Q t) s := by
  have hclock : ∀ t R, Stable I i R → R t →
      (requests I).Meets i (call .monotonic) (fun _ => R) t :=
    fun t R hR ht => meets_unchanged hR ht (fun _ => trivial) fun _ _ _ hdoes => hdoes
  apply System.Meets.bind hs (hclock s P hP h)
  intro startedAt t ht hPt
  apply System.Meets.bind ht (meets_known hP hPt)
  rintro spec u hu ⟨-, hPu⟩
  have hrecheck : (requests I).Meets i (call (.recheckRunScope run spec.requiredDoctypes))
      (fun _ => P) u :=
    meets_unchanged hP hPu (fun _ => trivial) fun _ _ _ hdoes => hdoes
  apply System.Meets.bind hu hrecheck
  intro _ v hv hPv
  apply System.Meets.bind hv (meets_known hP hPv)
  rintro input w hw ⟨-, hPw⟩
  have hhandled : (requests I).Meets i (call (.handle request run input)) (fun _ => Q) w := by
    apply meets_call
    · exact fun x hx => hallowed x input (hP w x hx hPw)
    · intro x result y z hx hdoes hz
      obtain ⟨hQx, hQrollback⟩ := hhandle x (hP w x hx hPw)
      rcases hdoes with rfl | rfl
      · exact hQ _ z hz hQx
      · exact hQ _ z hz hQrollback
  apply System.Meets.bind hw hhandled
  intro handled x hx hQx
  apply System.Meets.bind hx (meets_known hQ hQx)
  rintro result y hy ⟨-, hQy⟩
  apply System.Meets.bind hy (hclock y Q hQ hQy)
  intro endedAt z hz hQz
  split_ifs
  · exact System.meets_throw _
  · apply System.Meets.bind hz (meets_known hQ hQz)
    rintro _ z' hz' ⟨-, hQz'⟩
    have hnow : (requests I).Meets i (call .now) (fun _ => Q) z' :=
      meets_unchanged hQ hQz' (fun _ => trivial) fun _ _ _ hdoes => hdoes
    apply System.Meets.bind hz' hnow
    intro capturedAt z'' hz'' hQz''
    apply System.meets_pure
    intro x' hx'
    exact ⟨held_toolResponse .., hQ z'' x' hx' hQz''⟩

/-- A completion leaves the row with the response to be committed. -/
theorem meets_completeInvocation (hI : Json.ReadsDoubles I) {id : Digest} {response : Dict}
    (hs : s.Consistent I) (hheld : Json.Held (.dict response)) (h : Owns i id s) :
    (requests I).Meets i (completeInvocation I id response)
      (fun r t => ∃ row, Written i id row t ∧ Answers I row r) s := by
  apply System.Meets.bind hs (meets_known (stable_owns id) h)
  rintro ⟨safeResponse, observationDigest⟩ t ht ⟨hbounded, howns⟩
  obtain ⟨text, bytes, hpublishes, rfl⟩ := exists_publishes hI hheld hbounded
  -- The row that is read is the one that is owned, which nobody else completes.
  have hread : (requests I).Meets i (call (.getDoc id))
      (fun doc u => Owns i id u ∧ u.committed id = some doc ∧ doc.status = .started) t := by
    apply meets_call
    · exact fun _ _ => trivial
    · rintro u doc v w hu ⟨base, hreads, hview⟩ hw
      have hu' := stable_owns id t u hu howns
      obtain ⟨row, hrow, hbecomes⟩ := becomes_of_reads hu.invariant hu'.unwritten hreads hview
      have hv : Owns i id v := by
        rw [hreads.2]
        exact ⟨hu'.owner, hu'.started, hu'.unwritten⟩
      obtain ⟨row', hrow', hstarted⟩ := hv.started
      obtain rfl := Option.some.inj (hrow'.symm.trans hrow)
      obtain rfl := hbecomes.eq_of_started hstarted
      obtain ⟨-, hcommitted, -⟩ := hw.relies.owned id hv.owner
      exact ⟨stable_owns id v w hw hv, hcommitted.trans hrow', hstarted⟩
  apply System.Meets.bind ht hread
  rintro doc u hu ⟨howns, hdoc, hstarted⟩
  rw [hstarted]
  dsimp only
  have hstable : Stable I i fun v => Owns i id v ∧ v.committed id = some doc := by
    intro v w hw hv
    exact ⟨stable_owns id v w hw hv.1, ((hw.relies.owned id hv.1.owner).2.1).trans hv.2⟩
  apply System.Meets.bind hu (meets_known hstable ⟨howns, hdoc⟩)
  rintro text' v hv ⟨htext, hv'⟩
  obtain rfl : text' = text :=
    Option.some.inj ((canonicalJson_eq_ok.mp htext).symm.trans hpublishes.writes)
  have hclock : (requests I).Meets i (call .now)
      (fun _ w => Owns i id w ∧ w.committed id = some doc) v :=
    meets_unchanged hstable hv' (fun _ => trivial) fun _ _ _ hdoes => hdoes
  apply System.Meets.bind hv hclock
  rintro completedAt w hw ⟨howns, hdoc⟩
  have hid : doc.invocationId = id := (hw.stored id doc hdoc).invocationId
  have hanswers : Answers I (doc.completed text' (sha256 bytes) completedAt) safeResponse :=
    ⟨rfl, text', bytes, hpublishes, rfl, rfl⟩
  have hsave : (requests I).Meets i
      (call (.save doc (doc.completed text' (sha256 bytes) completedAt) true))
      (fun _ => Written i id (doc.completed text' (sha256 bytes) completedAt)) w := by
    apply meets_call
    · intro x hx
      have howner := (hx.relies.owned id howns.owner).1
      have hstored := hw.stored id doc hdoc
      rw [← hid] at howner hstored
      exact ⟨howner, hstarted, ⟨rfl, hstored.hashes, fun _ => ⟨safeResponse, hanswers⟩⟩⟩
    · rintro x _ y z hx ⟨-, -, -, rfl⟩ hz
      apply stable_written _ _ _ z hz
      simp [Written, Database.write, Invocation.completed, hid]
  apply System.Meets.bind hw hsave
  intro _ x hx hwritten
  apply System.meets_pure
  exact fun y hy => ⟨_, stable_written _ _ x y hy hwritten, hanswers⟩

/-- A response that may be returned for the request. -/
def Deserved (I : Interpreter) (request : ReceivedRequest) (response : Dict) (s : Database ι) :
    Prop :=
  ∀ m, request.metadata = some m → (request.identity m).Hashes m.invocationId ∧
    Holds I m.invocationId response s

theorem stable_deserved (request : ReceivedRequest) (response : Dict) :
    Stable I i (Deserved I request response) := by
  intro s t ht h m hm
  exact ⟨(h m hm).1, stable_holds _ response s t ht (h m hm).2⟩

theorem meets_audit {P : Database ι → Prop} (hP : Stable I i P) (h : P s) (run : RunContext)
    (request : ReceivedRequest) (outcome : String) :
    (requests I).Meets i (call (.audit run request outcome)) (fun _ => P) s :=
  meets_unchanged hP h (fun _ => trivial) fun _ _ _ hdoes => hdoes

/-- A row that is written and started is owned once it is committed. -/
theorem mayHandle_commit {id : Digest} {row : Invocation} (hs : s.Consistent I)
    (hwritten : Written i id row s) (hstarted : row.status = .started) :
    MayHandle i id (s.commit i) := by
  have hwrites : s.writes i id = some row := hwritten
  have hnone : s.committed id = none := by
    rcases (hs.pending i id row hwrites).change with ⟨hnone, -⟩ | ⟨-, -, -, hsucceeded, -⟩
    · exact hnone
    · rw [hstarted] at hsucceeded
      cases hsucceeded
  refine ⟨⟨?_, ⟨row, ?_, hstarted⟩, ?_⟩, fun hmem => ?_⟩
  · simp [Database.commit, hnone, hwrites]
  · simp [Database.commit, Database.view, hwrites]
  · simp [Unwritten, Database.commit]
  · obtain ⟨x, hx, hid⟩ := List.mem_map.mp hmem
    have hcommitted := (hs.handled x hx).1
    rw [hid] at hcommitted
    exact hcommitted hnone

/-- A row with a response is held once it is committed. -/
theorem holds_commit {id : Digest} {row : Invocation} {response : Dict}
    (hwritten : Written i id row s) (hanswers : Answers I row response) :
    Holds I id response (s.commit i) := by
  have hwrites : s.writes i id = some row := hwritten
  exact ⟨row, by simp [Database.commit, Database.view, hwrites], hanswers⟩

theorem owns_handle {id : Digest} (request : ReceivedRequest) (h : Owns i id s) :
    Owns i id (s.handle request) ∧ Owns i id ((s.rollback i).handle request) := by
  cases hmetadata : request.metadata with
  | none =>
      rw [Database.handle, Database.handle, hmetadata]
      exact ⟨h, ⟨h.owner, h.started, by simp [Unwritten, Database.rollback]⟩⟩
  | some m =>
      rw [Database.handle, Database.handle, hmetadata]
      exact ⟨⟨h.owner, h.started, h.unwritten⟩,
        ⟨h.owner, h.started, by simp [Unwritten, Database.rollback]⟩⟩

theorem meets_proceed (hI : Json.ReadsDoubles I) {request : ReceivedRequest} {run : RunContext}
    {reservation : Option InvocationReservation} (hs : s.Consistent I)
    (h : Reserved I request i s reservation) :
    (requests I).Meets i (proceed I request run reservation)
      (fun response => Deserved I request response) s := by
  cases h with
  | none hmetadata =>
      have hanything : Stable I i fun _ => True := fun _ _ _ _ => trivial
      have hnothing : ∀ response (t : Database ι), Deserved I request response t := by
        intro response t m hm
        rw [hmetadata] at hm
        cases hm
      have hdispatch : (requests I).Meets i (dispatch request run)
          (fun response t => Json.Held (.dict response) ∧ True) s := by
        apply meets_dispatch hs hanything hanything
        · intro t input _ m hm
          rw [hmetadata] at hm
          cases hm
        · exact fun _ _ => ⟨trivial, trivial⟩
        · trivial
      apply System.Meets.bind hs hdispatch
      intro response t ht _
      apply System.Meets.bind ht (meets_audit hanything trivial run request "SUCCEEDED")
      intro _ u hu _
      apply System.meets_pure
      exact fun v _ => hnothing response v
  | @cached m response hmetadata hhashes hholds =>
      have hdeserved : Deserved I request response s := by
        intro m' hm'
        obtain rfl := Option.some.inj (hmetadata.symm.trans hm')
        exact ⟨hhashes, hholds⟩
      apply System.Meets.bind hs
        (meets_audit (stable_deserved request response) hdeserved run request "CACHED")
      intro _ t ht hdeserved
      apply System.meets_pure
      exact fun u hu => stable_deserved request response t u hu hdeserved
  | @fresh m row hmetadata hhashes hwritten hstarted =>
      have hcommit : (requests I).Meets i (call .commit)
          (fun _ => MayHandle i m.invocationId) s := by
        apply meets_call
        · exact fun _ _ => trivial
        · rintro t _ u v ht rfl hv
          exact stable_mayHandle _ _ v hv
            (mayHandle_commit ht.invariant (stable_written _ _ s t ht hwritten) hstarted)
      apply System.Meets.bind hs hcommit
      intro _ t ht hmay
      have hdispatch : (requests I).Meets i (dispatch request run)
          (fun response u => Json.Held (.dict response) ∧ Owns i m.invocationId u) t := by
        apply meets_dispatch ht (stable_mayHandle m.invocationId) (stable_owns m.invocationId)
        · intro u input hu m' hm'
          obtain rfl := Option.some.inj (hmetadata.symm.trans hm')
          exact ⟨hu.1.owner, hu.2, hhashes⟩
        · exact fun u hu => owns_handle request hu.1
        · exact hmay
      apply System.Meets.bind ht hdispatch
      rintro result u hu ⟨hheld, howns⟩
      apply System.Meets.bind hu (meets_completeInvocation hI hu hheld howns)
      rintro response v hv ⟨row', hwritten', hanswers⟩
      have hdeserved : ∀ w : Database ι, Holds I m.invocationId response w →
          Deserved I request response w := by
        intro w hw m' hm'
        obtain rfl := Option.some.inj (hmetadata.symm.trans hm')
        exact ⟨hhashes, hw⟩
      have hcommit' : (requests I).Meets i (call .commit)
          (fun _ => Deserved I request response) v := by
        apply meets_call
        · exact fun _ _ => trivial
        · rintro w _ x y hw rfl hy
          apply hdeserved
          exact stable_holds _ response _ y hy
            (holds_commit (stable_written _ _ v w hw hwritten') hanswers)
      apply System.Meets.bind hv hcommit'
      intro _ w hw hdeserved
      apply System.Meets.bind hw
        (meets_audit (stable_deserved request response) hdeserved run request "SUCCEEDED")
      intro _ x hx hdeserved
      apply System.meets_pure
      exact fun y hy => stable_deserved request response x y hy hdeserved

/-- A call that is always allowed and of which nothing is needed. -/
theorem meets_any {c : Call} (hallowed : ∀ t : Database ι, t.Allowed I i c) :
    (requests I).Meets i (call c) (fun _ _ => True) s := by
  apply meets_call
  · exact fun t _ => hallowed t
  · exact fun _ _ _ _ _ _ _ => trivial

/-- The handlers of a request make calls that are always allowed, and raise. -/
theorem meets_rejected {α : Type} {Q : α → Database ι → Prop} (hs : s.Consistent I)
    (request : ReceivedRequest) (run : RunContext) (reservation : Option InvocationReservation)
    (e : Exn) : (requests I).Meets i (rejected request run reservation e) Q s := by
  have hskip : ∀ (e : Exn) (t : Database ι), (requests I).invariant t →
      (requests I).Meets i (pure () : Prog Unit) (fun _ _ => True) t :=
    fun _ _ _ _ _ => trivial
  have haudit : (requests I).Meets i
      (tryCatch (call (.audit run request "REJECTED")) fun _ => pure ()) (fun _ _ => True) s :=
    System.Meets.catching hs (meets_any fun _ => trivial) hskip
  apply System.Meets.bind hs haudit
  intro _ t ht _
  have hcommit : (requests I).Meets i
      (tryCatch (call .commit) fun _ => pure ()) (fun _ _ => True) t :=
    System.Meets.catching ht (meets_any fun _ => trivial) hskip
  have hnothing : (requests I).Meets i (pure () : Prog Unit) (fun _ _ => True) t :=
    fun _ _ => trivial
  rcases reservation with _ | ⟨id, _ | cached⟩
  · exact System.Meets.bind ht hnothing fun _ _ _ _ => System.meets_throw e
  · exact System.Meets.bind ht hcommit fun _ _ _ _ => System.meets_throw e
  · exact System.Meets.bind ht hnothing fun _ _ _ _ => System.meets_throw e

theorem meets_execute (hI : Json.ReadsDoubles I) {payload : Dict} (hs : s.Consistent I)
    (h : ∀ id, Unwritten i id s) :
    (requests I).Meets i (execute I payload) (fun r => Deserved I r.1 r.2) s := by
  have hstable : Stable I i fun t => ∀ id, Unwritten i id t :=
    fun t u hu ht id => stable_unwritten id t u hu (ht id)
  apply System.Meets.bind hs (meets_known hstable h)
  rintro request t ht ⟨-, hunwritten⟩
  have hresolve : (requests I).Meets i (call (.resolveRun request.runId request.capability))
      (fun run u => run.runId = request.runId ∧ ∀ id, Unwritten i id u) t := by
    apply meets_call
    · exact fun _ _ => trivial
    · rintro u run v w hu ⟨hrun, rfl⟩ hw
      exact ⟨hrun, hstable _ w hw (hstable t _ hu hunwritten)⟩
  apply System.Meets.bind ht hresolve
  rintro run u hu ⟨hrun, hunwritten⟩
  apply System.Meets.bind hu (System.Meets.catching hu
    (meets_reserveInvocation hu hrun hunwritten)
    fun e t ht => meets_rejected ht request run none e)
  intro reservation v hv hreserved
  apply System.Meets.bind hv (System.Meets.catching hv (meets_proceed hI hv hreserved)
    fun e t ht => meets_rejected ht request run reservation e)
  intro response w hw hdeserved
  apply System.meets_pure
  exact fun x hx => stable_deserved request response w x hx hdeserved

/-- A request keeps its promise from whatever its process has left. -/
theorem meets_serve (hI : Json.ReadsDoubles I) (payload : Dict) (hs : s.Consistent I) :
    (requests I).Meets i (serve I payload) (fun _ _ => True) s := by
  have hconnect : (requests I).Meets i (call .connect) (fun _ t => ∀ id, Unwritten i id t) s := by
    apply meets_call
    · exact fun _ _ => trivial
    · rintro t _ u v ht rfl hv id
      apply stable_unwritten id _ v hv
      simp [Unwritten, Database.rollback]
  apply System.Meets.bind hs hconnect
  intro _ t ht hunwritten
  apply System.Meets.bind ht (System.Meets.catching ht (meets_execute hI ht hunwritten) ?_)
  · rintro ⟨request, response⟩ u hu hdeserved
    have hend : (requests I).Meets i (call .endRequest)
        (fun _ => Deserved I request response) u := by
      apply meets_call
      · exact fun _ _ => trivial
      · intro v _ w x hv hdoes hx
        have hv' := stable_deserved request response u v hv hdeserved
        apply stable_deserved request response w x hx
        rcases hdoes with rfl | rfl
        · intro m hm
          obtain ⟨hhashes, row, hrow, hanswers⟩ := hv' m hm
          obtain ⟨row', hrow', hbecomes⟩ := Database.grows_commit hv.invariant i _ row hrow
          rw [hbecomes.eq_of_succeeded hanswers.1] at hrow'
          exact ⟨hhashes, row, hrow', hanswers⟩
        · exact hv'
    apply System.Meets.bind hu hend
    intro _ v hv hdeserved
    apply meets_call
    · exact fun w hw => stable_deserved request response v w hw hdeserved
    · exact fun _ _ _ _ _ _ _ => trivial
  · intro e u hu
    exact System.Meets.bind hu (meets_any (c := .endRequest) fun _ => trivial)
      fun _ _ _ _ => System.meets_throw e

/-- Whatever a process runs keeps its promise. -/
theorem meets_entry (hI : Json.ReadsDoubles I) {p : Prog Unit} (hp : Entry I p)
    (hs : s.Consistent I) : (requests I).Meets i p (fun _ _ => True) s := by
  rcases hp with ⟨payload, rfl⟩ | rfl
  · exact meets_serve hI payload hs
  · exact meets_any fun _ => trivial

end Requests

end Gateway
