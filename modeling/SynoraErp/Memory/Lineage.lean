import SynoraErp.Memory.Ledger

/-!
# Correction lineage

Which runs of the memory store keep a record and its correction from being approved at the
same time. The command that commits a correction with its predecessor does, but the command
for one record takes the approval of a correction on its own.
-/

namespace Memory

open Python Transition

variable {I : Interpreter} {Z : TimeZones} {M : OffsetMinutes}

/-- A record corrects another one: it names it as superseded, in the same scope. -/
def IsCorrectionOf {τ : Type} (correction prior : MemoryRecord τ) : Prop :=
  prior.memoryId ≠ none ∧ correction.supersedesMemoryId = prior.memoryId ∧
    correction.scope = prior.scope

/-- The table holds a record. -/
def Table.Holds (I : Interpreter) (t : Table) (record : MemoryRecord (AwareDatetime Z)) : Prop :=
  ∃ memoryId row, t.lookup memoryId = some row ∧ deserialize I Z memoryId row = .ok record

/-- No record is approved together with a correction of it. -/
def Table.Consistent (I : Interpreter) (Z : TimeZones) (t : Table) : Prop :=
  ∀ prior correction : MemoryRecord (AwareDatetime Z), t.Holds I prior → t.Holds I correction →
    prior.state = .approved → correction.state = .approved → ¬IsCorrectionOf correction prior

/-- What the store owes at a step: no record is approved together with its correction, a record
that becomes superseded has an approved correction by then, and a recall returns no record
together with its correction. -/
structure LineageKept (I : Interpreter) {Z : TimeZones} (before after : Table) : Prop where
  consistent : after.Consistent I Z
  superseded : ∀ prior : MemoryRecord (AwareDatetime Z), after.Holds I prior →
    prior.state = .superseded → before.Holds I prior ∨
      ∃ correction, after.Holds I correction ∧ correction.state = .approved ∧
        IsCorrectionOf correction prior
  recallKept : ∀ (query : MemoryRecallQuery Z) (recalled : List (MemoryRecord (AwareDatetime Z))),
    after.recallExact I query = .ok recalled →
      ∀ prior ∈ recalled, ∀ correction ∈ recalled, ¬IsCorrectionOf correction prior

/-- The condition on a committed call and the table ahead of it. A command for one record
supersedes nothing and approves no record that corrects an approved one or is corrected by
one; a correction is committed when no third approved record corrects it. -/
def ProperCall (I : Interpreter) (t : Table) : StoreCall Z → Prop
  | .createCandidate _ _ => True
  | .commitCas command =>
      command.updated.state ≠ .superseded ∧
        (command.updated.state = .approved →
          ∀ other : MemoryRecord (AwareDatetime Z), t.Holds I other → other.state = .approved →
            ¬IsCorrectionOf command.updated other ∧ ¬IsCorrectionOf other command.updated)
  | .commitCorrectionAtomic command =>
      ∀ other : MemoryRecord (AwareDatetime Z), t.Holds I other → other.state = .approved →
        other.memoryId ≠ command.priorBefore.memoryId →
          ¬IsCorrectionOf other command.approvedCorrection

/-! ## What the table holds -/

theorem mem_entries_iff {t : Table} {entry : Sigma fun _ : Text => Row} :
    entry ∈ t.entries ↔ t.lookup entry.1 = some entry.2 := by
  obtain ⟨memoryId, row⟩ := entry
  exact AList.mem_lookup_iff.symm

theorem mem_of_mapM_eq_ok {α β : Type} {f : α → Result β} {xs : List α} {ys : List β}
    (h : xs.mapM f = .ok ys) {y : β} (hy : y ∈ ys) : ∃ x ∈ xs, f x = .ok y := by
  induction xs generalizing ys with
  | nil =>
      rw [List.mapM_nil] at h
      obtain rfl := Except.ok.inj h
      cases hy
  | cons x xs ih =>
      rw [List.mapM_cons, Except.bind_eq_ok] at h
      obtain ⟨first, hfirst, h⟩ := h
      rw [Except.bind_eq_ok] at h
      obtain ⟨rest, hrest, h⟩ := h
      obtain rfl := Except.ok.inj h
      rcases List.mem_cons.mp hy with rfl | hy
      · exact ⟨x, List.mem_cons_self, hfirst⟩
      · obtain ⟨x', hx', hy⟩ := ih hrest hy
        exact ⟨x', List.mem_cons_of_mem _ hx', hy⟩

/-- A recalled record is held, and approved. -/
theorem holds_of_mem_recallExact {t : Table} {query : MemoryRecallQuery Z}
    {recalled : List (MemoryRecord (AwareDatetime Z))} (h : t.recallExact I query = .ok recalled)
    {record : MemoryRecord (AwareDatetime Z)} (hrecord : record ∈ recalled) :
    t.Holds I record ∧ record.state = .approved := by
  rw [Table.recallExact, check_bind_eq_ok] at h
  cases hrecords : t.entries.mapM fun entry => deserialize I Z entry.1 entry.2 with
  | error e => simp [hrecords] at h
  | ok records =>
      simp only [hrecords] at h
      obtain ⟨hmem, hstate, -⟩ := mem_filterRecallable h.2 hrecord
      obtain ⟨entry, hentry, hdeserialize⟩ := mem_of_mapM_eq_ok hrecords hmem
      exact ⟨⟨entry.1, entry.2, mem_entries_iff.mp hentry, hdeserialize⟩, hstate⟩

/-- A table that is consistent is recalled consistently. -/
theorem recall_of_consistent {t : Table} (h : t.Consistent I Z) (query : MemoryRecallQuery Z)
    (recalled : List (MemoryRecord (AwareDatetime Z))) (hrecall : t.recallExact I query = .ok recalled) :
    ∀ prior ∈ recalled, ∀ correction ∈ recalled, ¬IsCorrectionOf correction prior := by
  intro prior hprior correction hcorrection
  obtain ⟨hholds, hstate⟩ := holds_of_mem_recallExact hrecall hprior
  obtain ⟨hholds', hstate'⟩ := holds_of_mem_recallExact hrecall hcorrection
  exact h prior correction hholds hholds' hstate hstate'

theorem memoryId_of_deserialize {memoryId : Text} {row : Row}
    {record : MemoryRecord (AwareDatetime Z)} (h : deserialize I Z memoryId row = .ok record) :
    record.memoryId = some memoryId := by
  rw [deserialize, check_bind_eq_ok] at h
  obtain ⟨-, h⟩ := h
  split at h
  · rw [check_bind_eq_ok] at h
    obtain ⟨-, h⟩ := h
    split at h
    · cases h
    · simp only [check_bind_eq_ok, raiseIf_eq_ok, not_not, Except.ok.injEq] at h
      obtain ⟨hid, -, rfl⟩ := h
      exact hid
  · cases h

/-- After a commit the table holds what the call wrote, and what it held of other records. -/
theorem Effect.holds_iff (hI : I.ReadsIso) {t t' : Table} {call : StoreCall Z}
    (h : Effect M I t call t') {record : MemoryRecord (AwareDatetime Z)} :
    t'.Holds I record ↔ (∃ change ∈ call.changes, record = change.2.stored M) ∨
      (t.Holds I record ∧ ∀ change ∈ call.changes, change.2.memoryId ≠ record.memoryId) := by
  constructor
  · rintro ⟨memoryId, row, hrow, hdeserialize⟩
    have hid := memoryId_of_deserialize hdeserialize
    by_cases hwritten : ∃ change ∈ call.changes, change.2.memoryId = some memoryId
    · obtain ⟨change, hchange, hchangeId⟩ := hwritten
      obtain ⟨memoryId', hstored, -, hlookup⟩ := h.written change hchange
      obtain rfl : memoryId' = memoryId := Option.some.inj (hstored.id.symm.trans hchangeId)
      obtain rfl := Option.some.inj (hlookup.symm.trans hrow)
      have hread := deserialize_rowOf M hI hstored.valid.1 hstored.stored hstored.id
      exact .inl ⟨change, hchange, Except.ok.inj (hdeserialize.symm.trans hread)⟩
    · have hother : ∀ change ∈ call.changes, change.2.memoryId ≠ some memoryId :=
        fun change hchange heq => hwritten ⟨change, hchange, heq⟩
      rw [h.frame memoryId hother] at hrow
      exact .inr ⟨⟨memoryId, row, hrow, hdeserialize⟩, by rwa [hid]⟩
  · rintro (⟨change, hchange, rfl⟩ | ⟨⟨memoryId, row, hrow, hdeserialize⟩, hother⟩)
    · obtain ⟨memoryId, hstored, -, hlookup⟩ := h.written change hchange
      exact ⟨memoryId, _, hlookup, deserialize_rowOf M hI hstored.valid.1 hstored.stored hstored.id⟩
    · rw [memoryId_of_deserialize hdeserialize] at hother
      exact ⟨memoryId, row, (h.frame memoryId hother).trans hrow, hdeserialize⟩

/-- A snapshot a call was built on is held, up to the equality of times. -/
theorem Effect.holds_snapshot {t t' : Table} {call : StoreCall Z} (h : Effect M I t call t')
    {snapshot record : MemoryRecord (AwareDatetime Z)} (hchange : (some snapshot, record) ∈ call.changes) :
    Advances snapshot record ∧ ∃ held : MemoryRecord (AwareDatetime Z),
      t.Holds I held ∧ held.untimed = snapshot.untimed := by
  obtain ⟨memoryId, -, hrests, -⟩ := h.written _ hchange
  obtain ⟨hadvance, row, held, hrow, hdeserialize, hequals⟩ := hrests
  exact ⟨hadvance, held, ⟨memoryId, row, hrow, hdeserialize⟩, hequals.1⟩

/-- The table holds one record an id. -/
theorem holds_unique {t : Table} {r s : MemoryRecord (AwareDatetime Z)} (hr : t.Holds I r)
    (hs : t.Holds I s) (hid : r.memoryId = s.memoryId) : r = s := by
  obtain ⟨memoryId, row, hrow, hread⟩ := hr
  obtain ⟨memoryId', row', hrow', hread'⟩ := hs
  rw [memoryId_of_deserialize hread, memoryId_of_deserialize hread', Option.some.injEq] at hid
  subst hid
  obtain rfl := Option.some.inj (hrow.symm.trans hrow')
  exact Except.ok.inj (hread.symm.trans hread')

/-! ## Corrections and the times of a record -/

theorem isCorrectionOf_untimed {a b : MemoryRecord (AwareDatetime Z)} :
    IsCorrectionOf b.untimed a.untimed ↔ IsCorrectionOf b a :=
  Iff.rfl

theorem isCorrectionOf_congr {a b a' b' : MemoryRecord (AwareDatetime Z)}
    (ha : a.untimed = a'.untimed) (hb : b.untimed = b'.untimed) :
    IsCorrectionOf b a ↔ IsCorrectionOf b' a' := by
  rw [← isCorrectionOf_untimed, ha, hb, isCorrectionOf_untimed]

theorem untimed_stored (record : MemoryRecord (AwareDatetime Z)) :
    (record.stored M).untimed = record.untimed := by
  simp [MemoryRecord.stored]

/-- What corrects a record corrects it in each of its versions. -/
theorem isCorrectionOf_prior_congr {a b a' : MemoryRecord (AwareDatetime Z)}
    (h : SameImmutable AwareDatetime.Equals a a') :
    IsCorrectionOf b a ↔ IsCorrectionOf b a' := by
  have hid : a.memoryId = a'.memoryId := congrArg ImmutableFields.memoryId h.1
  have hscope : a.scope = a'.scope := congrArg ImmutableFields.scope h.1
  rw [IsCorrectionOf, IsCorrectionOf, hid, hscope]

/-- No record corrects itself. -/
theorem not_isCorrectionOf_self {record : MemoryRecord (AwareDatetime Z)} (h : record.Valid) :
    ¬IsCorrectionOf record record := by
  rintro ⟨hid, hsupersedes, -⟩
  obtain ⟨memoryId, hid⟩ := Option.ne_none_iff_exists'.mp hid
  exact h.supersedes (hsupersedes.trans hid) hid

/-- The pair of an accepted correction. -/
theorem isCorrectionOf_of_corrects {c : AtomicCorrection Z} (h : Corrects c) :
    IsCorrectionOf c.approvedCorrection c.supersededPrior := by
  have himmutable := h.candidate.same.1
  have hpriorImmutable := h.prior.same.1
  simp only [MemoryRecord.immutableFields, ImmutableFields.mk.injEq] at himmutable hpriorImmutable
  obtain ⟨-, -, hscope, -, -, -, -, -, -, hsupersedes, -⟩ := himmutable
  obtain ⟨hpriorId, -, hpriorScope, -⟩ := hpriorImmutable
  refine ⟨hpriorId ▸ h.prior_id, ?_, ?_⟩
  · rw [← hsupersedes, ← hpriorId, h.predecessor]
  · rw [← hscope, ← hpriorScope, h.scope]

/-! ## Steps -/

/-- A step that changes nothing keeps what held. -/
theorem LineageKept.refl {t : Table} (h : t.Consistent I Z) : LineageKept I (Z := Z) t t where
  consistent := h
  superseded _ hprior _ := .inl hprior
  recallKept := recall_of_consistent h

theorem lineageKept_createCandidate (hI : I.ReadsIso) {t t' : Table} (h : t.Consistent I Z)
    {command : CandidateInsertCommand Z} {generated : Governance.Uuid}
    (heffect : Effect M I t (.createCandidate command generated) t') : LineageKept I (Z := Z) t t' := by
  have hstate := (validateCandidate_eq_ok.mp command.checked).2.2.1
  have hold : ∀ record : MemoryRecord (AwareDatetime Z), t'.Holds I record →
      record.state ≠ .candidate → t.Holds I record := by
    intro record hrecord hne
    rcases (heffect.holds_iff hI).mp hrecord with ⟨change, hchange, rfl⟩ | ⟨hholds, -⟩
    · rw [StoreCall.changes, List.mem_singleton] at hchange
      subst hchange
      exact absurd hstate hne
    · exact hholds
  have hconsistent : t'.Consistent I Z := by
    intro prior correction hprior hcorrection hstate hstate'
    apply h prior correction _ _ hstate hstate'
    · exact hold prior hprior (by simp [hstate])
    · exact hold correction hcorrection (by simp [hstate'])
  refine ⟨hconsistent, ?_, recall_of_consistent hconsistent⟩
  intro prior hprior hstate
  exact .inl (hold prior hprior (by simp [hstate]))

theorem lineageKept_commitCas (hI : I.ReadsIso) {t t' : Table} (h : t.Consistent I Z)
    {command : SingleRecordCasCommand Z} (heffect : Effect M I t (.commitCas command) t')
    (hproper : ProperCall I t (.commitCas command)) : LineageKept I (Z := Z) t t' := by
  obtain ⟨hsuperseded, happroved⟩ := hproper
  have hvalid := (SingleRecordCas.postInit_eq_ok.mp command.checked).1.valid
  have hcases : ∀ record : MemoryRecord (AwareDatetime Z), t'.Holds I record →
      record = command.updated.stored M ∨ t.Holds I record := by
    intro record hrecord
    rcases (heffect.holds_iff hI).mp hrecord with ⟨change, hchange, rfl⟩ | ⟨hholds, -⟩
    · rw [StoreCall.changes, List.mem_singleton] at hchange
      subst hchange
      exact .inl rfl
    · exact .inr hholds
  have hupdated := untimed_stored (M := M) command.updated
  have hconsistent : t'.Consistent I Z := by
    intro prior correction hprior hcorrection hstate hstate' hcorrects
    rcases hcases prior hprior with rfl | hprior
    · rcases hcases correction hcorrection with rfl | hcorrection
      · exact not_isCorrectionOf_self hvalid ((isCorrectionOf_congr hupdated hupdated).mp hcorrects)
      · exact (happroved hstate correction hcorrection hstate').2
          ((isCorrectionOf_congr hupdated rfl).mp hcorrects)
    · rcases hcases correction hcorrection with rfl | hcorrection
      · exact (happroved hstate' prior hprior hstate).1
          ((isCorrectionOf_congr rfl hupdated).mp hcorrects)
      · exact h prior correction hprior hcorrection hstate hstate' hcorrects
  refine ⟨hconsistent, ?_, recall_of_consistent hconsistent⟩
  intro prior hprior hstate
  rcases hcases prior hprior with rfl | hprior
  · exact absurd hstate hsuperseded
  · exact .inl hprior

theorem lineageKept_commitCorrectionAtomic (hI : I.ReadsIso) {t t' : Table}
    (h : t.Consistent I Z) {command : AtomicCorrectionCommand Z}
    (heffect : Effect M I t (.commitCorrectionAtomic command) t')
    (hproper : ProperCall I t (.commitCorrectionAtomic command)) : LineageKept I (Z := Z) t t' := by
  have hcorrects := AtomicCorrection.postInit_eq_ok.mp command.checked
  have hcorrection := isCorrectionOf_of_corrects hcorrects
  have hsupersedes : command.approvedCorrection.supersedesMemoryId = command.priorBefore.memoryId :=
    hcorrection.2.1.trans hcorrects.prior.memoryId
  have happroved : (command.approvedCorrection.stored M).state = .approved := hcorrects.approved
  have hsuperseded : (command.supersededPrior.stored M).state = .superseded := hcorrects.superseded
  have hupdated := untimed_stored (M := M) command.approvedCorrection
  have hcases : ∀ record : MemoryRecord (AwareDatetime Z), t'.Holds I record →
      record = command.approvedCorrection.stored M ∨ record = command.supersededPrior.stored M ∨
        (t.Holds I record ∧ record.memoryId ≠ command.priorBefore.memoryId) := by
    intro record hrecord
    rcases (heffect.holds_iff hI).mp hrecord with ⟨change, hchange, rfl⟩ | ⟨hholds, hother⟩
    · rw [StoreCall.changes, List.mem_cons, List.mem_singleton] at hchange
      rcases hchange with rfl | rfl
      · exact .inl rfl
      · exact .inr (.inl rfl)
    · refine .inr (.inr ⟨hholds, fun hid => ?_⟩)
      apply hother (some command.priorBefore, command.supersededPrior)
      · simp [StoreCall.changes]
      · rw [hid, ← hcorrects.prior.memoryId]
  have hconsistent : t'.Consistent I Z := by
    intro prior correction hprior hcorrection hstate hstate' hpair
    rcases hcases prior hprior with rfl | rfl | ⟨hprior, hid⟩
    · rcases hcases correction hcorrection with rfl | rfl | ⟨hcorrection, hid⟩
      · exact not_isCorrectionOf_self hcorrects.candidate.valid
          ((isCorrectionOf_congr hupdated hupdated).mp hpair)
      · simp [hsuperseded] at hstate'
      · exact hproper correction hcorrection hstate' hid ((isCorrectionOf_congr hupdated rfl).mp hpair)
    · simp [hsuperseded] at hstate
    · rcases hcases correction hcorrection with rfl | rfl | ⟨hcorrection, -⟩
      · exact hid (hpair.2.1.symm.trans hsupersedes)
      · simp [hsuperseded] at hstate'
      · exact h prior correction hprior hcorrection hstate hstate' hpair
  refine ⟨hconsistent, ?_, recall_of_consistent hconsistent⟩
  intro prior hprior hstate
  rcases hcases prior hprior with rfl | rfl | ⟨hprior, -⟩
  · simp [happroved] at hstate
  · refine .inr ⟨command.approvedCorrection.stored M, ?_, happroved, ?_⟩
    · refine (heffect.holds_iff hI).mpr (.inl ⟨(some command.candidateBefore, _), ?_, rfl⟩)
      simp [StoreCall.changes]
    · exact (isCorrectionOf_congr (untimed_stored _) hupdated).mpr hcorrection
  · exact .inl hprior

/-- A proper call keeps the lineage. -/
theorem lineageKept_of_proper (hI : I.ReadsIso) {t t' : Table} (h : t.Consistent I Z)
    {call : StoreCall Z} (hcall : call.commit I M t = .ok t') (hproper : ProperCall I t call) :
    LineageKept I (Z := Z) t t' := by
  have heffect := commit_effect M hI hcall
  cases call with
  | createCandidate command generated => exact lineageKept_createCandidate hI h heffect
  | commitCas command => exact lineageKept_commitCas hI h heffect hproper
  | commitCorrectionAtomic command => exact lineageKept_commitCorrectionAtomic hI h heffect hproper

/-- A step of the lifecycle comes of the states ahead of it. -/
theorem state_of_mem_transitions {current : MemoryState} :
    (.superseded ∈ transitions current → current = .approved) ∧
      (.approved ∈ transitions current → current = .candidate) := by
  cases current <;> simp [transitions]

/-- The record a change replaces, as the table holds it. -/
structure Replaces (I : Interpreter) (t : Table)
    (held updated : MemoryRecord (AwareDatetime Z)) (current : MemoryState) : Prop where
  holds : t.Holds I held
  memoryId : held.memoryId = updated.memoryId
  state : held.state = current
  prior : ∀ correction : MemoryRecord (AwareDatetime Z),
    IsCorrectionOf correction held ↔ IsCorrectionOf correction updated

theorem Effect.replaces {t t' : Table} {call : StoreCall Z} (h : Effect M I t call t')
    {snapshot record : MemoryRecord (AwareDatetime Z)}
    (hchange : (some snapshot, record) ∈ call.changes) :
    ∃ held, Replaces I t held record snapshot.state := by
  obtain ⟨hadvance, held, hheld, huntimed⟩ := h.holds_snapshot hchange
  refine ⟨held, hheld, ?_, congrArg (fun r : MemoryRecord Unit => r.state) huntimed, ?_⟩
  · rw [hadvance.memoryId]
    exact congrArg (fun r : MemoryRecord Unit => r.memoryId) huntimed
  · intro correction
    rw [isCorrectionOf_congr huntimed rfl, isCorrectionOf_prior_congr hadvance.same]

/-- A held record in another state than the one a change replaces has another id. -/
theorem Replaces.memoryId_ne {t : Table} {held updated other : MemoryRecord (AwareDatetime Z)}
    {current : MemoryState} (h : Replaces I t held updated current) (hother : t.Holds I other)
    (hstate : other.state ≠ current) : updated.memoryId ≠ other.memoryId := by
  intro hid
  apply hstate
  rw [holds_unique hother h.holds (hid.symm.trans h.memoryId.symm), h.state]

theorem proper_commitCas (hI : I.ReadsIso) {t t' : Table} (h : t.Consistent I Z)
    {command : SingleRecordCasCommand Z} (heffect : Effect M I t (.commitCas command) t')
    (hkept : LineageKept I (Z := Z) t t') : ProperCall I t (.commitCas command) := by
  have hchange : (some command.current, command.updated) ∈ (StoreCall.commitCas command).changes := by
    simp [StoreCall.changes]
  obtain ⟨held, hheld⟩ := heffect.replaces hchange
  have htransition := (SingleRecordCas.postInit_eq_ok.mp command.checked).1.transition
  have hwritten : t'.Holds I (command.updated.stored M) :=
    (heffect.holds_iff hI).mpr (.inl ⟨_, hchange, rfl⟩)
  have hupdated := untimed_stored (M := M) command.updated
  constructor
  · intro hsuperseded
    have hcurrent := state_of_mem_transitions.1 (hsuperseded ▸ htransition)
    have hstored : (command.updated.stored M).state = .superseded := hsuperseded
    rcases hkept.superseded _ hwritten hstored with hbefore | ⟨correction, hafter, hstate, hpair⟩
    · exact hheld.memoryId_ne hbefore (by simp [hcurrent, hstored]) rfl
    · rcases (heffect.holds_iff hI).mp hafter with ⟨change, hmem, rfl⟩ | ⟨hbefore, -⟩
      · rw [StoreCall.changes, List.mem_singleton] at hmem
        subst hmem
        simp [hstored] at hstate
      · apply h held correction hheld.holds hbefore (hheld.state.trans hcurrent) hstate
        rw [hheld.prior]
        exact (isCorrectionOf_congr hupdated rfl).mp hpair
  · intro happroved other hother hstate
    have hcurrent := state_of_mem_transitions.2 (happroved ▸ htransition)
    have hafter : t'.Holds I other := by
      refine (heffect.holds_iff hI).mpr (.inr ⟨hother, ?_⟩)
      intro change hmem
      rw [StoreCall.changes, List.mem_singleton] at hmem
      subst hmem
      exact hheld.memoryId_ne hother (by simp [hcurrent, hstate])
    constructor
    · intro hpair
      exact hkept.consistent other _ hafter hwritten hstate happroved
        ((isCorrectionOf_congr rfl hupdated).mpr hpair)
    · intro hpair
      exact hkept.consistent _ other hwritten hafter happroved hstate
        ((isCorrectionOf_congr hupdated rfl).mpr hpair)

theorem proper_commitCorrectionAtomic (hI : I.ReadsIso) {t t' : Table}
    {command : AtomicCorrectionCommand Z}
    (heffect : Effect M I t (.commitCorrectionAtomic command) t')
    (hkept : LineageKept I (Z := Z) t t') : ProperCall I t (.commitCorrectionAtomic command) := by
  have hcorrects := AtomicCorrection.postInit_eq_ok.mp command.checked
  have hchange : (some command.candidateBefore, command.approvedCorrection) ∈
      (StoreCall.commitCorrectionAtomic command).changes := by
    simp [StoreCall.changes]
  obtain ⟨held, hheld⟩ := heffect.replaces hchange
  have hwritten : t'.Holds I (command.approvedCorrection.stored M) :=
    (heffect.holds_iff hI).mpr (.inl ⟨_, hchange, rfl⟩)
  intro other hother hstate hid hpair
  have hafter : t'.Holds I other := by
    refine (heffect.holds_iff hI).mpr (.inr ⟨hother, ?_⟩)
    intro change hmem
    rw [StoreCall.changes, List.mem_cons, List.mem_singleton] at hmem
    rcases hmem with rfl | rfl
    · exact hheld.memoryId_ne hother (by simp [hcorrects.candidate_state, hstate])
    · rw [hcorrects.prior.memoryId]
      exact hid.symm
  exact hkept.consistent _ other hwritten hafter hcorrects.approved hstate
    ((isCorrectionOf_congr (untimed_stored _) rfl).mpr hpair)

/-- A call that keeps the lineage is proper. -/
theorem proper_of_lineageKept (hI : I.ReadsIso) {t t' : Table} (h : t.Consistent I Z)
    {call : StoreCall Z} (hcall : call.commit I M t = .ok t')
    (hkept : LineageKept I (Z := Z) t t') : ProperCall I t call := by
  have heffect := commit_effect M hI hcall
  cases call with
  | createCandidate command generated => trivial
  | commitCas command => exact proper_commitCas hI h heffect hkept
  | commitCorrectionAtomic command => exact proper_commitCorrectionAtomic hI heffect hkept

/-! ## Runs -/

theorem consistent_empty : Table.Consistent I Z ∅ := by
  rintro prior correction ⟨memoryId, row, hrow, -⟩
  rw [AList.lookup_empty] at hrow
  cases hrow

/-- The store is consistent after steps that keep the lineage. -/
theorem consistent_of_lineageKept {trace : List (Step Table (StoreEvent Z))} {t : Table}
    (h : Path (StoreStep I M) ∅ trace t) :
    (∀ x ∈ trace, LineageKept I (Z := Z) x.before x.after) → t.Consistent I Z := by
  refine h.snoc_induction (P := fun trace t =>
    (∀ x ∈ trace, LineageKept I (Z := Z) x.before x.after) → t.Consistent I Z) ?_ ?_
  · exact fun _ => consistent_empty
  · intro trace t event t' _ _ _ hkept
    exact (hkept ⟨t, event, t'⟩ (by simp)).consistent

/-- A run keeps the lineage of corrections exactly when each of its calls is proper. -/
theorem lineageKept_iff_proper (hI : I.ReadsIso) {trace : List (Step Table (StoreEvent Z))}
    {t : Table} (h : Path (StoreStep I M) ∅ trace t) :
    (∀ x ∈ trace, LineageKept I (Z := Z) x.before x.after) ↔
      ∀ x ∈ trace, ∀ call, x.event = .committed call → ProperCall I x.before call := by
  refine h.snoc_induction (P := fun trace _ =>
    (∀ x ∈ trace, LineageKept I (Z := Z) x.before x.after) ↔
      ∀ x ∈ trace, ∀ call, x.event = .committed call → ProperCall I x.before call) ?_ ?_
  · simp
  · intro trace t event t' hpath ih hstep
    rw [List.forall_mem_append, List.forall_mem_append, List.forall_mem_singleton,
      List.forall_mem_singleton, ← ih]
    apply and_congr_right
    intro hkept
    have hconsistent := consistent_of_lineageKept hpath hkept
    constructor
    · rintro hlast call rfl
      cases hstep with
      | committed hcall => exact proper_of_lineageKept hI hconsistent hcall hlast
    · intro hproper
      cases hstep with
      | committed hcall => exact lineageKept_of_proper hI hconsistent hcall (hproper _ rfl)
      | failed call => exact LineageKept.refl hconsistent
      | read memoryId => exact LineageKept.refl hconsistent

/-! ## A note and its correction -/

/-- A lead time note: its text is fixed, its identity, its state and its review are not. -/
def leadTimeNote (memoryId : Text) (supersedes : Option Text) (version : ℕ) (state : MemoryState)
    (stateVersion : ℕ) (createdAt : AwareDatetime Z) (review : Option (Text × AwareDatetime Z)) :
    MemoryRecord (AwareDatetime Z) where
  memoryId := some memoryId
  kind := .semantic
  state := state
  scope := ⟨"buyer", "Synora", none, none⟩
  sourceRunId := none
  sourceClaimId := some "claim"
  sourceRevision := "1"
  content := "lead time is 14 days"
  contentClassification := .untrusted
  digest := (contentDigest "lead time is 14 days").getD []
  version := version
  stateVersion := stateVersion
  supersedesMemoryId := supersedes
  createdAt := createdAt
  expiresAt := none
  reviewedAt := review.map (·.2)
  reviewer := review.map (·.1)
  reviewReason := none

/-- What a lead time note needs to be a record. -/
structure NoteFits (memoryId : Text) (supersedes : Option Text) (version : ℕ) (state : MemoryState)
    (stateVersion : ℕ) (createdAt : AwareDatetime Z) (review : Option (Text × AwareDatetime Z)) :
    Prop where
  isId_memoryId : isId memoryId = true
  isId_supersedes : supersedes.all isId = true
  isId_reviewer : (review.map (·.1)).all isId = true
  version_bounds : 1 ≤ version ∧ version ≤ 1000000
  stateVersion_bounds : 1 ≤ stateVersion ∧ stateVersion ≤ 1000000
  chronology : ∀ r ∈ review, ¬r.2.lt createdAt
  reviewed : state = .approved ∨ state = .rejected → review ≠ none
  correction : supersedes ≠ none → supersedes ≠ some memoryId ∧ 2 ≤ version

theorem contentDigest_getD {content : Text} (h : Encodes content) :
    contentDigest content = some ((contentDigest content).getD []) ∧
      ((contentDigest content).getD []).length = 64 ∧
      ((contentDigest content).getD []).all Governance.isLowerHex = true := by
  obtain ⟨bytes, hbytes⟩ := Option.ne_none_iff_exists'.mp (encodes_iff.mp h)
  have hhex : ∀ d, Governance.isLowerHex (Json.hexDigit d) = true := by decide
  simp only [contentDigest, hbytes, Option.map_some, Option.getD_some, Sha256.length_hexdigest,
    List.all_eq_true, true_and]
  intro c hc
  obtain ⟨d, rfl⟩ := Sha256.exists_hexDigit_of_mem hc
  exact hhex d

theorem NoteFits.valid {memoryId : Text} {supersedes : Option Text} {version : ℕ}
    {state : MemoryState} {stateVersion : ℕ} {createdAt : AwareDatetime Z}
    {review : Option (Text × AwareDatetime Z)}
    (h : NoteFits memoryId supersedes version state stateVersion createdAt review) :
    (leadTimeNote memoryId supersedes version state stateVersion createdAt review).Valid := by
  obtain ⟨hdigest, hlength, hhex⟩ := contentDigest_getD (encodes_ofString "lead time is 14 days")
  constructor
  · have hfixed : (⟨"buyer", "Synora", none, none⟩ : MemoryScope).fieldsValid = true ∧
        (some (Text.ofString "claim")).all isId = true ∧ isRequiredId "1" = true ∧
        (1 ≤ (Text.ofString "lead time is 14 days").length ∧
          (Text.ofString "lead time is 14 days").length ≤ 32000) ∧
        Text.isBlank "lead time is 14 days" = false := by decide
    obtain ⟨hscope, hclaim, hrevision, hcontent, hvisible⟩ := hfixed
    simp only [MemoryRecord.fieldsValid, leadTimeNote, hscope, hclaim, hrevision, hcontent, hvisible,
      hlength, hhex, h.isId_supersedes, h.isId_reviewer, h.version_bounds, h.stateVersion_bounds,
      h.isId_memoryId, Option.all_some, Option.all_none, Bool.and_true, Bool.not_false, and_self,
      decide_true]
  · simp only [MemoryRecord.validateInvariants, check_bind_eq_ok, raiseIf_eq_ok]
    have hreview : ∀ {α : Type} (f : Text × AwareDatetime Z → α), (review.map f).isNone = review.isNone :=
      fun f => Option.isNone_map
    refine ⟨not_not_intro hdigest, by simp [leadTimeNote], ?_, by simp [leadTimeNote, hreview], ?_, ?_,
      by simp [leadTimeNote], by simp [leadTimeNote], by simp [leadTimeNote], ?_, ?_,
      by simp [leadTimeNote]⟩
    · rintro ⟨reviewed, hmem, hlt⟩
      obtain ⟨r, hr, rfl⟩ := Option.map_eq_some_iff.mp hmem
      exact h.chronology r hr hlt
    · simp only [leadTimeNote, hreview, or_self]
      intro hbad
      exact h.reviewed (.inl hbad.1) (Option.isNone_iff_eq_none.mp hbad.2)
    · simp only [leadTimeNote, hreview, or_self]
      intro hbad
      exact h.reviewed (.inr hbad.1) (Option.isNone_iff_eq_none.mp hbad.2)
    · intro hbad
      exact (h.correction hbad.1).1 hbad.2.symm
    · intro hbad
      have hversion : 2 ≤ version := (h.correction hbad.1).2
      exact absurd hbad.2 (Nat.not_lt.mpr hversion)

theorem stored_leadTimeNote (memoryId : Text) (supersedes : Option Text) (version : ℕ)
    (state : MemoryState) (stateVersion : ℕ) (createdAt : AwareDatetime Z)
    (review : Option (Text × AwareDatetime Z)) :
    (leadTimeNote memoryId supersedes version state stateVersion createdAt review).stored M =
      leadTimeNote memoryId supersedes version state stateVersion (createdAt.pinned M)
        (review.map fun r => (r.1, r.2.pinned M)) := by
  cases review <;> rfl

theorem encodes_leadTimeNote {memoryId : Text} {supersedes : Option Text} {version : ℕ}
    {state : MemoryState} {stateVersion : ℕ} {createdAt : AwareDatetime Z}
    {review : Option (Text × AwareDatetime Z)} (hid : Encodes memoryId)
    (hsupersedes : ∀ t ∈ supersedes, Encodes t) (hreviewer : ∀ r ∈ review, Encodes r.1) :
    ∀ t ∈ (leadTimeNote memoryId supersedes version state stateVersion createdAt review).texts,
      Encodes t := by
  have hdigest : Encodes ((contentDigest "lead time is 14 days").getD []) := by
    apply encodes_of_ascii
    intro c hc
    have hhex := (contentDigest_getD (encodes_ofString "lead time is 14 days")).2.2
    have hc' := List.all_eq_true.mp hhex c hc
    simp only [Governance.isLowerHex, Bool.or_eq_true, Bool.and_eq_true, decide_eq_true_eq] at hc'
    omega
  have hreviewer' : ∀ t ∈ review.map (·.1), Encodes t := by
    intro t ht
    obtain ⟨r, hr, rfl⟩ := Option.map_eq_some_iff.mp ht
    exact hreviewer r hr
  simp only [MemoryRecord.texts, leadTimeNote, List.forall_mem_append, List.forall_mem_cons,
    Option.mem_toList]
  simp only [encodes_ofString, hdigest, true_and]
  exact ⟨by simp, ⟨⟨⟨⟨by simpa using hid, by simp⟩, by simpa using encodes_ofString "claim"⟩,
    hsupersedes⟩, hreviewer'⟩, by simp⟩

/-- 2026-01-05T09:00:00Z. -/
def monday : AwareDatetime TimeZones.fixedOffsets :=
  ⟨(DateTime.ofFields? 2026 1 5 9 0 0).get (by decide), 0, false, (0 : ℤ)⟩

theorem pinned_monday : monday.pinned OffsetMinutes.truncated = monday := rfl

/-- The candidate of a note, and the note as `lead` approves it. -/
def candidateNote (memoryId : String) (supersedes : Option String) (version : ℕ) :
    MemoryRecord (AwareDatetime TimeZones.fixedOffsets) :=
  leadTimeNote memoryId (supersedes.map Text.ofString) version .candidate 1 monday none

def approvedNote (memoryId : String) (supersedes : Option String) (version : ℕ) :
    MemoryRecord (AwareDatetime TimeZones.fixedOffsets) :=
  leadTimeNote memoryId (supersedes.map Text.ofString) version .approved 2 monday
    (some ("lead", monday))

/-- A note with ids of its own. -/
structure NoteIds (memoryId : String) (supersedes : Option String) (version : ℕ) : Prop where
  memoryId_fits : isId memoryId = true
  supersedes_fits : (supersedes.map Text.ofString).all isId = true
  version_fits : 1 ≤ version ∧ version ≤ 1000000
  correction : supersedes ≠ none → supersedes ≠ some memoryId ∧ 2 ≤ version

namespace NoteIds

variable {memoryId : String} {supersedes : Option String} {version : ℕ}

theorem fits (h : NoteIds memoryId supersedes version) (state : MemoryState) {stateVersion : ℕ}
    (hstateVersion : 1 ≤ stateVersion ∧ stateVersion ≤ 1000000)
    {review : Option (Text × AwareDatetime TimeZones.fixedOffsets)}
    (hreview : review = none ∨ review = some (Text.ofString "lead", monday))
    (hreviewed : state = .approved ∨ state = .rejected → review ≠ none) :
    NoteFits memoryId (supersedes.map Text.ofString) version state stateVersion monday review where
  isId_memoryId := h.memoryId_fits
  isId_supersedes := h.supersedes_fits
  isId_reviewer := by rcases hreview with rfl | rfl <;> decide
  version_bounds := h.version_fits
  stateVersion_bounds := hstateVersion
  chronology r hr := by
    rcases hreview with rfl | rfl
    · cases hr
    · obtain rfl := Option.some.inj hr
      exact AwareDatetime.not_lt_self monday
  reviewed := hreviewed
  correction hne := by
    rw [ne_eq, Option.map_eq_none_iff] at hne
    refine ⟨fun heq => ?_, (h.correction hne).2⟩
    obtain ⟨prior, hprior, heq⟩ := Option.map_eq_some_iff.mp heq
    exact (h.correction hne).1 (hprior.trans (congrArg some ((Text.ofString_inj _ _).mp heq)))

theorem candidate_valid (h : NoteIds memoryId supersedes version) :
    (candidateNote memoryId supersedes version).Valid :=
  (h.fits .candidate (by decide) (.inl rfl) (by simp)).valid

theorem approved_valid (h : NoteIds memoryId supersedes version) :
    (approvedNote memoryId supersedes version).Valid :=
  (h.fits .approved (by decide) (.inr rfl) (by simp)).valid

/-- What is stored of a note is the note. -/
theorem stored_candidate : (candidateNote memoryId supersedes version).stored
    OffsetMinutes.truncated = candidateNote memoryId supersedes version := by
  rw [candidateNote, stored_leadTimeNote, pinned_monday]
  rfl

theorem stored_approved : (approvedNote memoryId supersedes version).stored
    OffsetMinutes.truncated = approvedNote memoryId supersedes version := by
  rw [approvedNote, stored_leadTimeNote, pinned_monday, Option.map_some, pinned_monday]

theorem encodes_supersedes : ∀ t ∈ supersedes.map Text.ofString, Encodes t := by
  intro t ht
  obtain ⟨s, -, rfl⟩ := Option.map_eq_some_iff.mp ht
  exact encodes_ofString s

theorem candidate_writable (h : NoteIds memoryId supersedes version) :
    Writable OffsetMinutes.truncated (candidateNote memoryId supersedes version) memoryId where
  valid := h.candidate_valid
  stored := by
    rw [stored_candidate]
    exact h.candidate_valid
  id := rfl
  bindable := encodes_iff.mp (encodes_ofString memoryId)
  texts := encodes_leadTimeNote (encodes_ofString memoryId) encodes_supersedes (by simp)

theorem approved_writable (h : NoteIds memoryId supersedes version) :
    Writable OffsetMinutes.truncated (approvedNote memoryId supersedes version) memoryId where
  valid := h.approved_valid
  stored := by
    rw [stored_approved]
    exact h.approved_valid
  id := rfl
  bindable := encodes_iff.mp (encodes_ofString memoryId)
  texts := encodes_leadTimeNote (encodes_ofString memoryId) encodes_supersedes
    (by simpa using encodes_ofString "lead")

/-- `lead` approves the candidate. -/
theorem approve_candidate (h : NoteIds memoryId supersedes version) :
    approveCandidate (candidateNote memoryId supersedes version) "lead" (some monday) (some monday) 1 =
      .ok (approvedNote memoryId supersedes version) := by
  have hcontext : reviewContext "lead" (some monday) (some monday) = .ok (monday, monday) := by
    have hblank : Text.isBlank "lead" = false := by decide
    simp [reviewContext, awareTimestamp, hblank, AwareDatetime.not_lt_self, raiseIf]
  have hrebuild := rebuild_eq_ok.mpr ⟨h.approved_valid, rfl⟩
  have htransition : transitionState .candidate .approved ((1 : ℕ) : ℤ) (some 1) =
      .ok (.approved, 2) := rfl
  have hnever : ¬∃ expires ∈ (none : Option (AwareDatetime TimeZones.fixedOffsets)),
      expires.le monday := by simp
  simp only [approveCandidate, hcontext, candidateNote, leadTimeNote, ensureReviewChronology,
    ensureNotExpired, raiseIf, AwareDatetime.not_lt_self, hnever, htransition, Except.ok_bind,
    reduceCtorEq, false_and, if_false]
  exact hrebuild

theorem candidate_checked (h : NoteIds memoryId supersedes version) :
    validateCandidate (candidateNote memoryId supersedes version) = .ok () :=
  validateCandidate_eq_ok.mpr ⟨h.candidate_valid, nofun, rfl, rfl, rfl, rfl⟩

/-- The command that inserts a note. -/
def insertCommand (h : NoteIds memoryId supersedes version) :
    CandidateInsertCommand TimeZones.fixedOffsets where
  record := candidateNote memoryId supersedes version
  checked := h.candidate_checked

/-- The command for one record that commits its approval. -/
def approveCommand (h : NoteIds memoryId supersedes version) :
    SingleRecordCasCommand TimeZones.fixedOffsets where
  current := candidateNote memoryId supersedes version
  updated := approvedNote memoryId supersedes version
  expectedStateVersion := 1
  targetMemoryId := none
  checked := by
    obtain ⟨hadvance, -, -⟩ := advances_of_approveCandidate h.candidate_valid h.approve_candidate
    exact SingleRecordCas.postInit_eq_ok.mpr ⟨hadvance, nofun, nofun, rfl, rfl⟩

/-- The table after the note is inserted, and after it is approved. -/
def inserted (h : NoteIds memoryId supersedes version) (t : Table) : Table :=
  AList.insert memoryId
    (rowOf OffsetMinutes.truncated Interpreter.zoned h.insertCommand.record) t

def approved (h : NoteIds memoryId supersedes version) (t : Table) : Table :=
  AList.insert memoryId
    (rowOf OffsetMinutes.truncated Interpreter.zoned h.approveCommand.updated) (h.inserted t)

/-- The steps that insert a note and approve it. -/
def steps (h : NoteIds memoryId supersedes version) (t : Table) (generated : Governance.Uuid) :
    List (Step Table (StoreEvent TimeZones.fixedOffsets)) :=
  [⟨t, .committed (.createCandidate h.insertCommand generated), h.inserted t⟩,
    ⟨h.inserted t, .committed (.commitCas h.approveCommand), h.approved t⟩]

theorem insert_commit (h : NoteIds memoryId supersedes version) {t : Table}
    (generated : Governance.Uuid) (hfree : Text.ofString memoryId ∉ t) :
    StoreCall.commit Interpreter.zoned OffsetMinutes.truncated t
      (.createCandidate h.insertCommand generated) = .ok (h.inserted t) :=
  createCandidate_commit Interpreter.zoned_readsIso h.candidate_writable hfree generated

theorem path (h : NoteIds memoryId supersedes version) {t : Table} (generated : Governance.Uuid)
    (hfree : Text.ofString memoryId ∉ t) :
    Path (StoreStep Interpreter.zoned OffsetMinutes.truncated) t (h.steps t generated)
      (h.approved t) := by
  have hI := Interpreter.zoned_readsIso
  have hcurrent : IsCurrent Interpreter.zoned (h.inserted t) h.approveCommand.current memoryId := by
    refine isCurrent_of_lookup hI h.candidate_writable.toIsStored (AList.lookup_insert _) ?_
    rw [stored_candidate]
    exact MemoryRecord.equals_refl _
  exact .cons (.committed (h.insert_commit generated hfree))
    (.cons (.committed (commitCas_commit hI hcurrent h.approved_writable)) (.nil _))

end NoteIds

theorem leadIds : NoteIds "lead-1" none 1 :=
  ⟨by decide, rfl, by decide, by simp⟩

theorem correctionIds : NoteIds "lead-2" (some "lead-1") 2 :=
  ⟨by decide, by decide, by decide, by simp⟩

/-- The nil UUID, for a generated id that is not used. -/
def nilUuid : Governance.Uuid := ⟨"00000000-0000-0000-0000-000000000000", by decide⟩

/-- Inserting and approving one note keeps the lineage. -/
theorem lineageKept_lead :
    LineageKept Interpreter.zoned (Z := TimeZones.fixedOffsets) ∅ (leadIds.inserted ∅) ∧
      LineageKept Interpreter.zoned (Z := TimeZones.fixedOffsets) (leadIds.inserted ∅)
        (leadIds.approved ∅) := by
  have hI := Interpreter.zoned_readsIso
  suffices hkept : ∀ x ∈ leadIds.steps ∅ nilUuid,
      LineageKept Interpreter.zoned (Z := TimeZones.fixedOffsets) x.before x.after from
    ⟨hkept _ List.mem_cons_self, hkept _ (List.mem_cons_of_mem _ List.mem_cons_self)⟩
  apply (lineageKept_iff_proper hI (leadIds.path nilUuid (AList.notMem_empty _))).mpr
  intro x hx call hcall
  rw [NoteIds.steps, List.mem_cons, List.mem_singleton] at hx
  rcases hx with rfl | rfl
  · obtain rfl := StoreEvent.committed.inj hcall
    trivial
  · obtain rfl := StoreEvent.committed.inj hcall
    refine ⟨by decide, fun _ other hother hstate => ?_⟩
    have heffect := commit_effect OffsetMinutes.truncated hI
      (leadIds.insert_commit nilUuid (AList.notMem_empty _))
    rcases (heffect.holds_iff hI).mp hother with ⟨change, hchange, rfl⟩ | ⟨⟨memoryId, row, hrow, -⟩, -⟩
    · rw [StoreCall.changes, List.mem_singleton] at hchange
      subst hchange
      cases hstate
    · rw [AList.lookup_empty] at hrow
      cases hrow

theorem holds_approvedNote {t : Table} {memoryId : String} {supersedes : Option String}
    {version : ℕ} (h : NoteIds memoryId supersedes version)
    (hlookup : t.lookup (Text.ofString memoryId) =
      some (rowOf OffsetMinutes.truncated Interpreter.zoned h.approveCommand.updated)) :
    t.Holds Interpreter.zoned (approvedNote memoryId supersedes version) := by
  have hwritable := h.approved_writable
  have hread := deserialize_rowOf OffsetMinutes.truncated Interpreter.zoned_readsIso
    hwritable.valid.1 hwritable.stored hwritable.id
  rw [NoteIds.stored_approved] at hread
  exact ⟨memoryId, _, hlookup, hread⟩

/-- A correction approved on its own is approved together with the note it corrects. -/
theorem not_lineageKept_alone :
    Path (StoreStep Interpreter.zoned OffsetMinutes.truncated) ∅
        (leadIds.steps ∅ nilUuid ++ correctionIds.steps (leadIds.approved ∅) nilUuid)
        (correctionIds.approved (leadIds.approved ∅)) ∧
      approveCandidate (candidateNote "lead-2" (some "lead-1") 2) "lead" (some monday) (some monday) 1 =
        .ok correctionIds.approveCommand.updated ∧
      ¬∀ x ∈ leadIds.steps ∅ nilUuid ++ correctionIds.steps (leadIds.approved ∅) nilUuid,
        LineageKept Interpreter.zoned (Z := TimeZones.fixedOffsets) x.before x.after := by
  have hne : Text.ofString "lead-1" ≠ Text.ofString "lead-2" := by decide
  have hfree : Text.ofString "lead-2" ∉ leadIds.approved ∅ := by
    simp only [NoteIds.approved, NoteIds.inserted, AList.mem_insert, not_or]
    exact ⟨hne.symm, hne.symm, AList.notMem_empty _⟩
  refine ⟨(leadIds.path nilUuid (AList.notMem_empty _)).append (correctionIds.path nilUuid hfree),
    correctionIds.approve_candidate, fun hkept => ?_⟩
  have hlast := hkept ⟨correctionIds.inserted (leadIds.approved ∅),
    .committed (.commitCas correctionIds.approveCommand),
    correctionIds.approved (leadIds.approved ∅)⟩ (by simp [NoteIds.steps])
  apply hlast.consistent (approvedNote "lead-1" none 1) (approvedNote "lead-2" (some "lead-1") 2)
  · apply holds_approvedNote leadIds
    simp only [NoteIds.approved, NoteIds.inserted]
    rw [AList.lookup_insert_ne hne, AList.lookup_insert_ne hne, AList.lookup_insert]
  · apply holds_approvedNote correctionIds
    exact AList.lookup_insert _
  · rfl
  · rfl
  · exact ⟨by simp [approvedNote, leadTimeNote], rfl, rfl⟩

end Memory
