import SynoraErp.Gateway.Execute

/-!
# What the requests keep

A row is stored under the digest of its identity, and once it has succeeded it stays as it
is. Whoever commits a row owns it: nobody else completes it or runs its handler. Each call
a request makes under its own condition keeps this, and the requests together are a system
of processes that rely on it.
-/

namespace Gateway

open Python
open Governance (Exn Result Uuid Digest)

/-- A row as it may stand in the table. -/
structure Stored (I : Interpreter) (id : Digest) (row : Invocation) : Prop where
  invocationId : row.invocationId = id
  hashes : row.identity.Hashes id
  answers : row.status = .succeeded → ∃ response, Answers I row response

/-- How a row changes: not at all, or when it is completed. -/
def Becomes (row row' : Invocation) : Prop :=
  row' = row ∨ row.status = .started ∧ row'.status = .succeeded

theorem Becomes.refl (row : Invocation) : Becomes row row := .inl rfl

theorem Becomes.trans {row row' row'' : Invocation} (h : Becomes row row')
    (h' : Becomes row' row'') : Becomes row row'' := by
  rcases h with rfl | ⟨hstarted, hsucceeded⟩
  · exact h'
  · rcases h' with rfl | ⟨hstarted', -⟩
    · exact .inr ⟨hstarted, hsucceeded⟩
    · rw [hsucceeded] at hstarted'
      cases hstarted'

theorem Becomes.eq_of_started {row row' : Invocation} (h : Becomes row row')
    (hstarted : row'.status = .started) : row' = row := by
  rcases h with rfl | ⟨-, hsucceeded⟩
  · rfl
  · rw [hsucceeded] at hstarted
    cases hstarted

theorem Becomes.eq_of_succeeded {row row' : Invocation} (h : Becomes row row')
    (hsucceeded : row.status = .succeeded) : row' = row := by
  rcases h with rfl | ⟨hstarted, -⟩
  · rfl
  · rw [hsucceeded] at hstarted
    cases hstarted

/-- Every row of a table is still there, completed perhaps. -/
def Grows (base base' : Table) : Prop :=
  ∀ id row, base id = some row → ∃ row', base' id = some row' ∧ Becomes row row'

theorem Grows.refl (base : Table) : Grows base base := fun _ row h => ⟨row, h, .refl row⟩

theorem Grows.trans {base base' base'' : Table} (h : Grows base base') (h' : Grows base' base'') :
    Grows base base'' := by
  intro id row hrow
  obtain ⟨row', hrow', hbecomes⟩ := h id row hrow
  obtain ⟨row'', hrow'', hbecomes'⟩ := h' id row' hrow'
  exact ⟨row'', hrow'', hbecomes.trans hbecomes'⟩

theorem Grows.ne_none {base base' : Table} (h : Grows base base') {id : Digest}
    (hid : base id ≠ none) : base' id ≠ none := by
  obtain ⟨row, hrow⟩ := Option.ne_none_iff_exists'.mp hid
  obtain ⟨row', hrow', -⟩ := h id row hrow
  rw [hrow']
  exact Option.some_ne_none row'

namespace Database

variable {ι : Type} {I : Interpreter}

/-- The ids whose handler has run. -/
def handledIds (s : Database ι) : List Digest := s.handled.map Handling.invocationId

/-- A row that is written and not committed: new, or the completion of a row the connection
owns. -/
structure Pending (I : Interpreter) (s : Database ι) (i : ι) (id : Digest) (row : Invocation) :
    Prop where
  stored : Stored I id row
  alone : s.Free i id
  change : s.committed id = none ∧ row.status = .started ∨
    ∃ before, s.committed id = some before ∧ before.status = .started ∧
      row.status = .succeeded ∧ s.owner id = some i

/-- What holds of the database between any two calls. -/
structure Consistent (I : Interpreter) (s : Database ι) : Prop where
  stored : ∀ id row, s.committed id = some row → Stored I id row
  pending : ∀ i id row, s.writes i id = some row → s.Pending I i id row
  shown : ∀ i base, s.snapshot i = some base → Grows base s.committed
  owned : ∀ id i, s.owner id = some i → s.committed id ≠ none
  handledOnce : s.handledIds.Nodup
  handled : ∀ h ∈ s.handled, s.committed h.invocationId ≠ none ∧ h.identity.Hashes h.invocationId
  answered : ∀ a ∈ s.answers, a.identity.Hashes a.invocationId ∧
    ∃ row, s.committed a.invocationId = some row ∧ Answers I row a.response

/-- What a request relies on while others make their calls. -/
structure Relies (i : ι) (s t : Database ι) : Prop where
  writes : t.writes i = s.writes i
  snapshot : t.snapshot i = s.snapshot i
  grows : Grows s.committed t.committed
  owned : ∀ id, s.owner id = some i → t.owner id = some i ∧ t.committed id = s.committed id ∧
    (id ∈ t.handledIds → id ∈ s.handledIds)

/-- When a request makes a call. -/
def Allowed (I : Interpreter) (i : ι) (s : Database ι) : Call → Prop
  | .insert doc => Stored I doc.invocationId doc ∧ doc.status = .started
  | .save before doc _ => s.owner before.invocationId = some i ∧ before.status = .started ∧
      Stored I doc.invocationId doc
  | .handle request .. => ∀ m, request.metadata = some m → s.owner m.invocationId = some i ∧
      m.invocationId ∉ s.handledIds ∧ (request.identity m).Hashes m.invocationId
  | .answer request response => ∀ m, request.metadata = some m →
      (request.identity m).Hashes m.invocationId ∧
        ∃ row, s.committed m.invocationId = some row ∧ Answers I row response
  | _ => True

theorem Relies.refl (i : ι) (s : Database ι) : s.Relies i s where
  writes := rfl
  snapshot := rfl
  grows := .refl _
  owned _ h := ⟨h, rfl, id⟩

theorem Relies.trans {i : ι} {s t u : Database ι} (h : Relies i s t) (h' : Relies i t u) :
    Relies i s u where
  writes := h'.writes.trans h.writes
  snapshot := h'.snapshot.trans h.snapshot
  grows := h.grows.trans h'.grows
  owned id hid := by
    obtain ⟨howner, hcommitted, hhandled⟩ := h.owned id hid
    obtain ⟨howner', hcommitted', hhandled'⟩ := h'.owned id howner
    exact ⟨howner', hcommitted'.trans hcommitted, fun hmem => hhandled (hhandled' hmem)⟩

theorem consistent_empty : (empty : Database ι).Consistent I where
  stored _ _ h := by cases h
  pending _ _ _ h := by cases h
  shown _ _ h := by cases h
  owned _ _ h := by cases h
  handledOnce := List.nodup_nil
  handled _ h := by cases h
  answered _ h := by cases h

/-! ## What each change keeps -/

variable {s : Database ι} {i j : ι}

/-- A call that changes nothing. -/
theorem Consistent.unchanged (h : s.Consistent I) (ht : t = s) :
    t.Consistent I ∧ ∀ j, j ≠ i → s.Relies j t := by
  subst ht
  exact ⟨h, fun j _ => .refl j t⟩

theorem Consistent.handle (h : s.Consistent I) {request : ReceivedRequest}
    (hallowed : ∀ m, request.metadata = some m → s.owner m.invocationId = some i ∧
      m.invocationId ∉ s.handledIds ∧ (request.identity m).Hashes m.invocationId) :
    (s.handle request).Consistent I := by
  rw [Database.handle]
  cases hmetadata : request.metadata with
  | none => exact h
  | some m =>
      obtain ⟨howner, hfresh, hhashes⟩ := hallowed m hmetadata
      refine ⟨h.stored, fun j id row hrow => ?_, h.shown, h.owned, ?_, fun x hx => ?_, h.answered⟩
      · have hpending := h.pending j id row hrow
        exact ⟨hpending.stored, hpending.alone, hpending.change⟩
      · simp only [handledIds, List.map_append, List.map_cons, List.map_nil]
        exact List.Nodup.append h.handledOnce (List.nodup_singleton _)
          (by simpa [handledIds] using hfresh)
      · rcases List.mem_append.mp hx with hx | hx
        · exact h.handled x hx
        · obtain rfl := List.mem_singleton.mp hx
          exact ⟨h.owned _ i howner, hhashes⟩

theorem relies_handle (s : Database ι) (hj : j ≠ i) {request : ReceivedRequest}
    (hallowed : ∀ m, request.metadata = some m → s.owner m.invocationId = some i) :
    s.Relies j (s.handle request) := by
  rw [Database.handle]
  cases hmetadata : request.metadata with
  | none => exact .refl j s
  | some m =>
      refine ⟨rfl, rfl, .refl _, fun id hid => ⟨hid, rfl, fun hmem => ?_⟩⟩
      simp only [handledIds, List.map_append, List.map_cons, List.map_nil] at hmem
      rcases List.mem_append.mp hmem with hmem | hmem
      · exact hmem
      · obtain rfl := List.mem_singleton.mp hmem
        exact absurd (Option.some.inj (hid.symm.trans (hallowed m hmetadata))) hj

theorem Consistent.answer (h : s.Consistent I) {request : ReceivedRequest} {response : Dict}
    (hallowed : ∀ m, request.metadata = some m → (request.identity m).Hashes m.invocationId ∧
      ∃ row, s.committed m.invocationId = some row ∧ Answers I row response) :
    (s.answer request response).Consistent I := by
  rw [Database.answer]
  cases hmetadata : request.metadata with
  | none => exact h
  | some m =>
      refine ⟨h.stored, fun j id row hrow => ?_, h.shown, h.owned, h.handledOnce, h.handled,
        fun a ha => ?_⟩
      · have hpending := h.pending j id row hrow
        exact ⟨hpending.stored, hpending.alone, hpending.change⟩
      · rcases List.mem_append.mp ha with ha | ha
        · exact h.answered a ha
        · obtain rfl := List.mem_singleton.mp ha
          exact hallowed m hmetadata

theorem relies_answer (s : Database ι) (j : ι) (request : ReceivedRequest) (response : Dict) :
    s.Relies j (s.answer request response) := by
  rw [Database.answer]
  cases request.metadata with
  | none => exact .refl j s
  | some m => exact ⟨rfl, rfl, .refl _, fun id hid => ⟨hid, rfl, fun hmem => hmem⟩⟩

variable [DecidableEq ι]

theorem Consistent.rollback (h : s.Consistent I) (i : ι) : (s.rollback i).Consistent I where
  stored := h.stored
  pending j id row hrow := by
    by_cases hj : j = i
    · subst hj
      simp [Database.rollback] at hrow
    · have hwritten : s.writes j id = some row := by simpa [Database.rollback, hj] using hrow
      have hpending := h.pending j id row hwritten
      refine ⟨hpending.stored, fun k hk => ?_, hpending.change⟩
      by_cases hki : k = i
      · simp [Database.rollback, hki]
      · simpa [Database.rollback, hki] using hpending.alone k hk
  shown j base hbase := by
    by_cases hj : j = i
    · subst hj
      simp [Database.rollback] at hbase
    · exact h.shown j base (by simpa [Database.rollback, hj] using hbase)
  owned := h.owned
  handledOnce := h.handledOnce
  handled := h.handled
  answered := h.answered

theorem relies_rollback (s : Database ι) (hj : j ≠ i) : s.Relies j (s.rollback i) where
  writes := by simp [Database.rollback, hj]
  snapshot := by simp [Database.rollback, hj]
  grows := .refl _
  owned _ h := ⟨h, rfl, id⟩

theorem Consistent.keep (h : s.Consistent I) {base : Table} {t : Database ι}
    (hreads : s.Reads i base t) : t.Consistent I := by
  obtain ⟨hbase, rfl⟩ := hreads
  have hgrows : Grows base s.committed := by
    rcases hbase with rfl | hbase
    · exact .refl _
    · exact h.shown i base hbase
  refine ⟨h.stored, fun j id row hrow => ?_, fun j base' hbase' => ?_, h.owned, h.handledOnce,
    h.handled, h.answered⟩
  · have hpending := h.pending j id row hrow
    exact ⟨hpending.stored, hpending.alone, hpending.change⟩
  · by_cases hj : j = i
    · subst hj
      have heq : base = base' := by simpa [Database.keep] using hbase'
      rw [← heq]
      exact hgrows
    · exact h.shown j base' (by simpa [Database.keep, hj] using hbase')

theorem relies_keep (s : Database ι) (hj : j ≠ i) (base : Table) : s.Relies j (s.keep i base) where
  writes := rfl
  snapshot := by simp [Database.keep, hj]
  grows := .refl _
  owned _ h := ⟨h, rfl, id⟩

/-- A commit puts the rows of the connection in the table. -/
theorem grows_commit (h : s.Consistent I) (i : ι) : Grows s.committed (s.commit i).committed := by
  intro id row hrow
  cases hwritten : s.writes i id with
  | none => exact ⟨row, by simp [Database.commit, view, hwritten, hrow], .refl row⟩
  | some row' =>
      refine ⟨row', by simp [Database.commit, view, hwritten], ?_⟩
      rcases (h.pending i id row' hwritten).change with ⟨hnone, -⟩ | ⟨before, hbefore, hstarted,
        hsucceeded, -⟩
      · rw [hrow] at hnone
        cases hnone
      · obtain rfl := Option.some.inj (hrow.symm.trans hbefore)
        exact .inr ⟨hstarted, hsucceeded⟩

/-- Where another connection has written, a commit changes nothing. -/
theorem committed_commit_of_writes (h : s.Consistent I) (hj : j ≠ i) {id : Digest}
    (hwritten : s.writes j id ≠ none) : (s.commit i).committed id = s.committed id := by
  obtain ⟨row, hrow⟩ := Option.ne_none_iff_exists'.mp hwritten
  have hfree := (h.pending j id row hrow).alone i hj.symm
  simp [Database.commit, view, hfree]

theorem owner_commit_of_writes (h : s.Consistent I) (hj : j ≠ i) {id : Digest}
    (hwritten : s.writes j id ≠ none) : (s.commit i).owner id = s.owner id := by
  obtain ⟨row, hrow⟩ := Option.ne_none_iff_exists'.mp hwritten
  have hfree := (h.pending j id row hrow).alone i hj.symm
  simp [Database.commit, hfree]

theorem Consistent.commit (h : s.Consistent I) (i : ι) : (s.commit i).Consistent I where
  stored id row hrow := by
    cases hwritten : s.writes i id with
    | none => exact h.stored id row (by simpa [Database.commit, view, hwritten] using hrow)
    | some row' =>
        have heq : row' = row := by simpa [Database.commit, view, hwritten] using hrow
        rw [← heq]
        exact (h.pending i id row' hwritten).stored
  pending j id row hrow := by
    by_cases hj : j = i
    · subst hj
      simp [Database.commit] at hrow
    · have hwritten : s.writes j id = some row := by simpa [Database.commit, hj] using hrow
      have hne : s.writes j id ≠ none := by
        rw [hwritten]
        exact Option.some_ne_none row
      have hpending := h.pending j id row hwritten
      refine ⟨hpending.stored, fun k hk => ?_, ?_⟩
      · by_cases hki : k = i
        · simp [Database.commit, hki]
        · simpa [Database.commit, hki] using hpending.alone k hk
      · rw [committed_commit_of_writes h hj hne, owner_commit_of_writes h hj hne]
        exact hpending.change
  shown j base hbase := by
    by_cases hj : j = i
    · subst hj
      simp [Database.commit] at hbase
    · exact (h.shown j base (by simpa [Database.commit, hj] using hbase)).trans (grows_commit h i)
  owned id k hk := by
    by_cases hnew : s.committed id = none ∧ s.writes i id ≠ none
    · obtain ⟨row, hrow⟩ := Option.ne_none_iff_exists'.mp hnew.2
      simp [Database.commit, view, hrow]
    · have howner : s.owner id = some k := by simpa [Database.commit, hnew] using hk
      exact (grows_commit h i).ne_none (h.owned id k howner)
  handledOnce := h.handledOnce
  handled x hx := ⟨(grows_commit h i).ne_none (h.handled x hx).1, (h.handled x hx).2⟩
  answered a ha := by
    obtain ⟨hhashes, row, hrow, hanswers⟩ := h.answered a ha
    obtain ⟨row', hrow', hbecomes⟩ := grows_commit h i _ row hrow
    rw [hbecomes.eq_of_succeeded hanswers.1] at hrow'
    exact ⟨hhashes, row, hrow', hanswers⟩

theorem relies_commit (h : s.Consistent I) (hj : j ≠ i) : s.Relies j (s.commit i) where
  writes := by simp [Database.commit, hj]
  snapshot := by simp [Database.commit, hj]
  grows := grows_commit h i
  owned id hid := by
    have hstored := h.owned id j hid
    have hwritten : s.writes i id = none := by
      by_contra hne
      obtain ⟨row, hrow⟩ := Option.ne_none_iff_exists'.mp hne
      rcases (h.pending i id row hrow).change with ⟨hnone, -⟩ | ⟨-, -, -, -, howner⟩
      · exact hstored hnone
      · exact hj (Option.some.inj (hid.symm.trans howner))
    exact ⟨by simp [Database.commit, hwritten, hid], by simp [Database.commit, view, hwritten],
      fun hmem => hmem⟩

/-- A row is written where nobody else has written it. -/
theorem Consistent.write (h : s.Consistent I) {doc : Invocation}
    (hstored : Stored I doc.invocationId doc) (hfree : s.Free i doc.invocationId)
    (hchange : s.committed doc.invocationId = none ∧ doc.status = .started ∨
      ∃ before, s.committed doc.invocationId = some before ∧ before.status = .started ∧
        doc.status = .succeeded ∧ s.owner doc.invocationId = some i) :
    (s.write i doc).Consistent I where
  stored := h.stored
  pending j id row hrow := by
    have hothers : ∀ k, k ≠ i → (s.write i doc).writes k = s.writes k :=
      fun k hk => by simp [Database.write, hk]
    by_cases hj : j = i
    · subst hj
      by_cases hid : id = doc.invocationId
      · subst hid
        have heq : doc = row := by simpa [Database.write] using hrow
        rw [← heq]
        exact ⟨hstored, fun k hk => by rw [hothers k hk]; exact hfree k hk, hchange⟩
      · have hwritten : s.writes j id = some row := by simpa [Database.write, hid] using hrow
        have hpending := h.pending j id row hwritten
        exact ⟨hpending.stored, fun k hk => by rw [hothers k hk]; exact hpending.alone k hk,
          hpending.change⟩
    · rw [hothers j hj] at hrow
      have hpending := h.pending j id row hrow
      refine ⟨hpending.stored, fun k hk => ?_, hpending.change⟩
      by_cases hki : k = i
      · subst hki
        have hid : id ≠ doc.invocationId := by
          rintro rfl
          cases (hfree j hj).symm.trans hrow
        simpa [Database.write, hid] using hpending.alone k hk
      · rw [hothers k hki]
        exact hpending.alone k hk
  shown := h.shown
  owned := h.owned
  handledOnce := h.handledOnce
  handled := h.handled
  answered := h.answered

theorem relies_write (s : Database ι) (hj : j ≠ i) (doc : Invocation) :
    s.Relies j (s.write i doc) where
  writes := by simp [Database.write, hj]
  snapshot := rfl
  grows := .refl _
  owned _ h := ⟨h, rfl, id⟩

end Database

end Gateway
