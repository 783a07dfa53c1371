import Mathlib.Data.List.AList
import SynoraErp.Memory.Codec
import SynoraErp.Memory.Persistence
import SynoraErp.Memory.Recall
import SynoraErp.Transition.Path

/-!
# The memory store

The operations of `SQLiteMemoryStore` on the table `memory_records`, which is a map by its
primary key. A call runs in one transaction, so each is a function of the table that either
commits or leaves it as it was. The column `updated_at` is written and never read.
-/

namespace Memory

open Python Transition
open Governance (Uuid)

/-- The columns of a row beside its key. -/
structure Row where
  state : MemoryState
  stateVersion : ℕ
  schemaVersion : Text
  payload : Text

/-- `memory_records`. -/
abbrev Table := AList fun _ : Text => Row

def notFound : Exn := .persistenceError "NOT_FOUND" "memory record is not available"

def changedConcurrently : Exn := staleVersion "memory record changed concurrently"

section

variable (I : Interpreter) {Z : TimeZones} (M : OffsetMinutes)

/-- `MEMORY_SCHEMA_VERSION`. -/
def memorySchemaVersion : Text := "1"

/-- The row of a record. -/
def columns (record : MemoryRecord (AwareDatetime Z)) (payload : Text) : Row where
  state := record.state
  stateVersion := record.stateVersion
  schemaVersion := memorySchemaVersion
  payload := payload

/-- `_deserialize`. -/
def deserialize (Z : TimeZones) (memoryId : Text) (row : Row) :
    Result (MemoryRecord (AwareDatetime Z)) := do
  let invalid := Exn.persistenceError "ATOMIC_COMMIT_FAILED" "stored memory is invalid"
  raiseIf (row.schemaVersion ≠ memorySchemaVersion) invalid
  match Json.loads I .default row.payload with
  | some (.dict decoded) => do
      raiseIf (Dict.get? decoded "memory_id" ≠ some (.str memoryId)) invalid
      match validateJsonRecord I Z row.payload with
      | none => .error invalid
      | some record => do
          raiseIf (record.memoryId ≠ some memoryId) invalid
          raiseIf (record.state ≠ row.state ∨ record.stateVersion ≠ row.stateVersion) invalid
          .ok record
  | _ => .error invalid

/-- `_fetch`. -/
def Table.fetch (t : Table) (memoryId : Text) : Result (Option Row) := do
  bindText memoryId
  .ok (t.lookup memoryId)

/-- `UPDATE ... WHERE memory_id = ? AND state_version = ?`, which has to change one row. -/
def Table.update (t : Table) (memoryId : Text) (row : Row) (expectedVersion : ℤ) : Result Table := do
  bindText row.payload
  match t.lookup memoryId with
  | none => .error changedConcurrently
  | some old => do
      raiseIf ((old.stateVersion : ℤ) ≠ expectedVersion) changedConcurrently
      .ok (t.insert memoryId row)

/-- `_record_with_id`. -/
def recordWithId (record : MemoryRecord (AwareDatetime Z)) (memoryId : Text) :
    Result (MemoryRecord (AwareDatetime Z)) := do
  raiseIf (¬({ record with memoryId := some memoryId } : MemoryRecord (AwareDatetime Z)).Valid)
    (invalidCommand "memory record is invalid")
  .ok { record with memoryId := some memoryId }

/-- The candidate of an attempt: a record without an id gets the generated one. -/
def attemptCandidate (record : MemoryRecord (AwareDatetime Z)) (generated : Uuid) :
    Result (MemoryRecord (AwareDatetime Z)) :=
  match record.memoryId with
  | none => recordWithId record generated.text
  | some _ => .ok record

/-- One attempt of `create_candidate`, with the id it generates for a record that has none. An
attempt with a generated id that is taken is made again with another, twice at most. -/
def Table.createCandidate (t : Table) (command : CandidateInsertCommand Z) (generated : Uuid) :
    Result (Table × Option (MemoryRecord (AwareDatetime Z))) := do
  let candidate ← attemptCandidate command.record generated
  let payload ← serialize I M candidate
  match candidate.memoryId with
  | none => .error (conflict "memory record already exists")
  | some memoryId => do
      bindText memoryId
      bindText payload
      raiseIf (memoryId ∈ t) (conflict "memory record already exists")
      .ok (t.insert memoryId (columns candidate payload), validateJsonRecord I Z payload)

/-- `get_exact`. -/
def Table.getExact (Z : TimeZones) (t : Table) (memoryId : Text) :
    Result (MemoryRecord (AwareDatetime Z)) := do
  raiseIf (Text.isBlank memoryId = true ∨ 140 < memoryId.length)
    (invalidCommand "memory ID is invalid")
  match ← t.fetch memoryId with
  | none => .error notFound
  | some row => deserialize I Z memoryId row

/-- `recall_exact`. -/
def Table.recallExact (t : Table) (query : MemoryRecallQuery Z) :
    Result (List (MemoryRecord (AwareDatetime Z))) := do
  validateRecallQuery query
  match t.entries.mapM fun entry => deserialize I Z entry.1 entry.2 with
  | .error _ => .error (.recallError "STORE_FAILURE" "memory recall failed")
  | .ok records => filterRecallable records query

/-- The check that a stored record is still the snapshot of a command. -/
def ensureCurrent (stored snapshot : MemoryRecord (AwareDatetime Z)) (expectedVersion : ℤ) :
    Result Unit :=
  raiseIf (¬stored.Equals snapshot ∨ (stored.stateVersion : ℤ) ≠ expectedVersion)
    changedConcurrently

/-- `commit_cas`. -/
def Table.commitCas (t : Table) (command : SingleRecordCasCommand Z) :
    Result (Table × Option (MemoryRecord (AwareDatetime Z))) :=
  match command.current.memoryId with
  | none => .error (invalidCommand "current memory ID is required")
  | some memoryId => do
      let payload ← serialize I M command.updated
      match ← t.fetch memoryId with
      | none => .error notFound
      | some row => do
          let stored ← deserialize I Z memoryId row
          ensureCurrent stored command.current command.expectedStateVersion
          let t ← t.update memoryId (columns command.updated payload) command.expectedStateVersion
          .ok (t, validateJsonRecord I Z payload)

/-- `commit_correction_atomic`. -/
def Table.commitCorrectionAtomic (t : Table) (command : AtomicCorrectionCommand Z) :
    Result (Table × Option (MemoryRecord (AwareDatetime Z)) ×
      Option (MemoryRecord (AwareDatetime Z))) :=
  match command.candidateBefore.memoryId, command.priorBefore.memoryId with
  | some candidateId, some priorId => do
      let correctionPayload ← serialize I M command.approvedCorrection
      let priorPayload ← serialize I M command.supersededPrior
      let candidateRow ← t.fetch candidateId
      let priorRow ← t.fetch priorId
      match candidateRow, priorRow with
      | some candidateRow, some priorRow => do
          let storedCandidate ← deserialize I Z candidateId candidateRow
          let storedPrior ← deserialize I Z priorId priorRow
          ensureCurrent storedCandidate command.candidateBefore command.expectedCandidateVersion
          ensureCurrent storedPrior command.priorBefore command.expectedPriorVersion
          let t ← t.update candidateId (columns command.approvedCorrection correctionPayload)
            command.expectedCandidateVersion
          let t ← t.update priorId (columns command.supersededPrior priorPayload)
            command.expectedPriorVersion
          .ok (t, validateJsonRecord I Z correctionPayload, validateJsonRecord I Z priorPayload)
      | _, _ => .error notFound
  | _, _ => .error (invalidCommand "correction memory IDs are required")

end

/-! ## Runs -/

/-- A call that writes, with what it draws from its surroundings. -/
inductive StoreCall (Z : TimeZones) where
  | createCandidate (command : CandidateInsertCommand Z) (generated : Uuid)
  | commitCas (command : SingleRecordCasCommand Z)
  | commitCorrectionAtomic (command : AtomicCorrectionCommand Z)

/-- The transaction of a call. -/
def StoreCall.commit (I : Interpreter) {Z : TimeZones} (M : OffsetMinutes) (t : Table) :
    StoreCall Z → Result Table
  | .createCandidate command generated => (·.1) <$> t.createCandidate I M command generated
  | .commitCas command => (·.1) <$> t.commitCas I M command
  | .commitCorrectionAtomic command => (·.1) <$> t.commitCorrectionAtomic I M command

/-- What a client does to the store: a transaction commits, a call fails at one of its
statements, or an exact id is read. -/
inductive StoreEvent (Z : TimeZones) where
  | committed (call : StoreCall Z)
  | failed (call : StoreCall Z)
  | read (memoryId : Text)

inductive StoreStep (I : Interpreter) {Z : TimeZones} (M : OffsetMinutes) :
    Table → StoreEvent Z → Table → Prop
  | committed {t t' : Table} {call : StoreCall Z} :
      call.commit I M t = .ok t' → StoreStep I M t (.committed call) t'
  | failed (t : Table) (call : StoreCall Z) : StoreStep I M t (.failed call) t
  | read (t : Table) (memoryId : Text) : StoreStep I M t (.read memoryId) t

/-! ## What a call does -/

section

variable {I : Interpreter} {Z : TimeZones} (M : OffsetMinutes)

/-- The row of a record with its payload. -/
def rowOf (I : Interpreter) (record : MemoryRecord (AwareDatetime Z)) : Row :=
  columns record (Json.render I (modelDump M record))

theorem deserialize_rowOf (hI : I.ReadsIso) {record : MemoryRecord (AwareDatetime Z)}
    {memoryId : Text} (hrecord : record.fieldsValid = true) (hstored : (record.stored M).Valid)
    (hid : record.memoryId = some memoryId) :
    deserialize I Z memoryId (rowOf M I record) = .ok (record.stored M) := by
  have hloads := Json.loads_render I Json.Hooks.keepDistinct_default (plain_modelDump M hrecord)
  have hvalidate := validateJsonRecord_modelDump M hI hrecord
  obtain ⟨d, hd, hget⟩ : ∃ d, modelDump M record = .dict d ∧
      Dict.get? d "memory_id" = some (Wire.textOrNone.write record.memoryId) := ⟨_, rfl, rfl⟩
  have hid' : (record.stored M).memoryId = some memoryId := hid
  have hwrite : Wire.textOrNone.write record.memoryId = .str memoryId := by
    rw [hid]
    rfl
  rw [if_pos hstored] at hvalidate
  rw [hd] at hloads hvalidate
  rw [hwrite] at hget
  have hstate : (record.stored M).state = record.state := rfl
  have hstateVersion : (record.stored M).stateVersion = record.stateVersion := rfl
  simp [deserialize, rowOf, columns, hd, hloads, hget, hvalidate, raiseIf, hid', hstate,
    hstateVersion]

/-- A record that was written, under its id. -/
structure IsStored (record : MemoryRecord (AwareDatetime Z)) (memoryId : Text) : Prop where
  valid : record.Valid
  stored : (record.stored M).Valid
  id : record.memoryId = some memoryId
  bindable : Text.encodeUtf8 memoryId ≠ none

/-- The changes a committed call makes: each record it writes, with the snapshot it was built
on. -/
def StoreCall.changes :
    StoreCall Z → List (Option (MemoryRecord (AwareDatetime Z)) × MemoryRecord (AwareDatetime Z))
  | .createCandidate command generated =>
      [(none, { command.record with
        memoryId := some (command.record.memoryId.getD generated.text) })]
  | .commitCas command => [(some command.current, command.updated)]
  | .commitCorrectionAtomic command =>
      [(some command.candidateBefore, command.approvedCorrection),
        (some command.priorBefore, command.supersededPrior)]

/-- What a change rests on in the table ahead of it: a candidate has no row yet, and a snapshot
is the record its row stands for. -/
def Rests (I : Interpreter) (t : Table) (memoryId : Text) (record : MemoryRecord (AwareDatetime Z)) :
    Option (MemoryRecord (AwareDatetime Z)) → Prop
  | none => t.lookup memoryId = none ∧ record.state = .candidate ∧ record.stateVersion = 1
  | some snapshot => Advances snapshot record ∧ ∃ row stored, t.lookup memoryId = some row ∧
      deserialize I Z memoryId row = .ok stored ∧ stored.Equals snapshot

/-- The effect of a committed call. -/
structure Effect (I : Interpreter) (t : Table) (call : StoreCall Z) (t' : Table) : Prop where
  written : ∀ change ∈ call.changes, ∃ memoryId, IsStored M change.2 memoryId ∧
    Rests I t memoryId change.2 change.1 ∧ t'.lookup memoryId = some (rowOf M I change.2)
  frame : ∀ memoryId, (∀ change ∈ call.changes, change.2.memoryId ≠ some memoryId) →
    t'.lookup memoryId = t.lookup memoryId
  distinct : (call.changes.map (·.2.memoryId)).Nodup

theorem update_eq_ok {t t' : Table} {memoryId : Text} {row : Row} {expectedVersion : ℤ} :
    t.update memoryId row expectedVersion = .ok t' ↔
      Text.encodeUtf8 row.payload ≠ none ∧
        (∃ old, t.lookup memoryId = some old ∧ (old.stateVersion : ℤ) = expectedVersion) ∧
        t' = t.insert memoryId row := by
  rw [Table.update, bindText, check_bind_eq_ok, raiseIf_eq_ok]
  cases hlookup : t.lookup memoryId with
  | none => simp
  | some old =>
      simp only [check_bind_eq_ok, raiseIf_eq_ok, not_not, Except.ok.injEq, Option.some.injEq,
        exists_eq_left', @eq_comm _ t', ne_eq]

theorem recordWithId_eq_ok {record candidate : MemoryRecord (AwareDatetime Z)} {memoryId : Text} :
    recordWithId record memoryId = .ok candidate ↔
      candidate.Valid ∧ candidate = { record with memoryId := some memoryId } := by
  simp only [recordWithId, check_bind_eq_ok, raiseIf_eq_ok, not_not, Except.ok.injEq]
  exact ⟨fun ⟨hvalid, h⟩ => ⟨h ▸ hvalid, h.symm⟩, fun ⟨hvalid, h⟩ => ⟨h ▸ hvalid, h.symm⟩⟩

theorem attemptCandidate_eq_ok {record candidate : MemoryRecord (AwareDatetime Z)}
    {generated : Uuid} (hvalid : record.Valid) :
    attemptCandidate record generated = .ok candidate ↔ candidate.Valid ∧
      candidate = { record with memoryId := some (record.memoryId.getD generated.text) } := by
  cases hid : record.memoryId with
  | none => simp only [attemptCandidate, hid, recordWithId_eq_ok, Option.getD_none]
  | some memoryId =>
      have hsame : { record with memoryId := some memoryId } = record := by rw [← hid]
      simp only [attemptCandidate, hid, Option.getD_some, hsame, Except.ok.injEq]
      exact ⟨fun h => ⟨h ▸ hvalid, h.symm⟩, fun h => h.2.symm⟩

theorem createCandidate_effect (hI : I.ReadsIso) {t t' : Table}
    {command : CandidateInsertCommand Z} {generated : Uuid}
    (h : StoreCall.commit I M t (.createCandidate command generated) = .ok t') :
    Effect M I t (.createCandidate command generated) t' := by
  obtain ⟨⟨_, reply⟩, hcreate, rfl⟩ := map_eq_ok.mp h
  obtain ⟨hvalid, -, hstate, hversion, -, -⟩ := validateCandidate_eq_ok.mp command.checked
  unfold Table.createCandidate at hcreate
  rw [Except.bind_eq_ok] at hcreate
  obtain ⟨candidate, hcandidate, hcreate⟩ := hcreate
  obtain ⟨hvalid', hrecord⟩ := (attemptCandidate_eq_ok hvalid).mp hcandidate
  have hid : candidate.memoryId = some (command.record.memoryId.getD generated.text) := by
    rw [hrecord]
  rw [Except.bind_eq_ok] at hcreate
  obtain ⟨payload, hpayload, hcreate⟩ := hcreate
  obtain ⟨hstored, rfl⟩ := (serialize_eq_ok M hI hvalid'.1).mp hpayload
  simp only [hid, bindText, check_bind_eq_ok, raiseIf_eq_ok, Except.ok.injEq, Prod.mk.injEq] at hcreate
  obtain ⟨hbind, -, hfree, rfl, -⟩ := hcreate
  have hlookup := AList.lookup_eq_none.mpr hfree
  refine ⟨?_, ?_, ?_⟩
  · intro change hchange
    rw [StoreCall.changes, ← hrecord, List.mem_singleton] at hchange
    subst hchange
    refine ⟨_, ⟨hvalid', hstored, hid, hbind⟩, ⟨hlookup, ?_, ?_⟩, AList.lookup_insert _⟩
    · rw [hrecord]
      exact hstate
    · rw [hrecord]
      exact hversion
  · intro memoryId hother
    apply AList.lookup_insert_ne
    intro heq
    exact hother (none, candidate) (by rw [StoreCall.changes, ← hrecord]; simp) (heq ▸ hid)
  · simp [StoreCall.changes]

theorem fetch_eq_ok {t : Table} {memoryId : Text} {row : Option Row} :
    t.fetch memoryId = .ok row ↔ Text.encodeUtf8 memoryId ≠ none ∧ t.lookup memoryId = row := by
  simp only [Table.fetch, bindText, check_bind_eq_ok, raiseIf_eq_ok, Except.ok.injEq, ne_eq]

theorem commitCas_effect (hI : I.ReadsIso) {t t' : Table} {command : SingleRecordCasCommand Z}
    (h : StoreCall.commit I M t (.commitCas command) = .ok t') :
    Effect M I t (.commitCas command) t' := by
  obtain ⟨⟨_, reply⟩, hcas, rfl⟩ := map_eq_ok.mp h
  obtain ⟨hadvance, -, hid, -, -⟩ := SingleRecordCas.postInit_eq_ok.mp command.checked
  obtain ⟨memoryId, hid⟩ := Option.ne_none_iff_exists'.mp hid
  have hid' : command.updated.memoryId = some memoryId := hadvance.memoryId.trans hid
  unfold Table.commitCas at hcas
  rw [hid] at hcas
  simp only [Except.bind_eq_ok, fetch_eq_ok] at hcas
  obtain ⟨payload, hpayload, row, ⟨hbind, hrow⟩, hcas⟩ := hcas
  obtain ⟨hstored, rfl⟩ := (serialize_eq_ok M hI hadvance.valid.1).mp hpayload
  cases row with
  | none => cases hcas
  | some row =>
      simp only [Except.bind_eq_ok, ensureCurrent, raiseIf_eq_ok, exists_const, update_eq_ok,
        Except.ok.injEq, Prod.mk.injEq, not_or, not_not] at hcas
      obtain ⟨stored, hdeserialize, ⟨hequals, -⟩, _, ⟨-, -, rfl⟩, rfl, -⟩ := hcas
      refine ⟨?_, ?_, ?_⟩
      · intro change hchange
        rw [StoreCall.changes, List.mem_singleton] at hchange
        subst hchange
        exact ⟨memoryId, ⟨hadvance.valid, hstored, hid', hbind⟩,
          ⟨hadvance, row, stored, hrow, hdeserialize, hequals⟩, AList.lookup_insert _⟩
      · intro other hother
        apply AList.lookup_insert_ne
        intro heq
        exact hother (some command.current, command.updated) (by simp [StoreCall.changes])
          (heq ▸ hid')
      · simp [StoreCall.changes]

theorem commitCorrectionAtomic_effect (hI : I.ReadsIso) {t t' : Table}
    {command : AtomicCorrectionCommand Z}
    (h : StoreCall.commit I M t (.commitCorrectionAtomic command) = .ok t') :
    Effect M I t (.commitCorrectionAtomic command) t' := by
  obtain ⟨⟨_, reply⟩, hcommit, rfl⟩ := map_eq_ok.mp h
  have hcorrects := AtomicCorrection.postInit_eq_ok.mp command.checked
  obtain ⟨candidateId, hid⟩ := Option.ne_none_iff_exists'.mp hcorrects.candidate_id
  obtain ⟨priorId, hpriorId⟩ := Option.ne_none_iff_exists'.mp hcorrects.prior_id
  have hid' : command.approvedCorrection.memoryId = some candidateId :=
    hcorrects.candidate.memoryId.trans hid
  have hpriorId' : command.supersededPrior.memoryId = some priorId :=
    hcorrects.prior.memoryId.trans hpriorId
  have hne : candidateId ≠ priorId := by
    intro heq
    exact hcorrects.distinct (by rw [hid, hpriorId, heq])
  unfold Table.commitCorrectionAtomic at hcommit
  rw [hid, hpriorId] at hcommit
  simp only [Except.bind_eq_ok, fetch_eq_ok] at hcommit
  obtain ⟨payload, hpayload, priorPayload, hpriorPayload, row, ⟨hbind, hrow⟩, priorRow,
    ⟨hpriorBind, hpriorRow⟩, hcommit⟩ := hcommit
  obtain ⟨hstored, rfl⟩ := (serialize_eq_ok M hI hcorrects.candidate.valid.1).mp hpayload
  obtain ⟨hpriorStored, rfl⟩ := (serialize_eq_ok M hI hcorrects.prior.valid.1).mp hpriorPayload
  cases row with
  | none => cases hcommit
  | some row =>
      cases priorRow with
      | none => cases hcommit
      | some priorRow =>
          simp only [Except.bind_eq_ok, ensureCurrent, raiseIf_eq_ok, exists_const, update_eq_ok,
            Except.ok.injEq, Prod.mk.injEq, not_or, not_not] at hcommit
          obtain ⟨stored, hdeserialize, storedPrior, hdeserializePrior, ⟨hequals, -⟩,
            ⟨hpriorEquals, -⟩, _, ⟨-, -, rfl⟩, _, ⟨-, -, rfl⟩, rfl, -⟩ := hcommit
          refine ⟨?_, ?_, ?_⟩
          · intro change hchange
            rw [StoreCall.changes, List.mem_cons, List.mem_singleton] at hchange
            rcases hchange with rfl | rfl
            · refine ⟨candidateId, ⟨hcorrects.candidate.valid, hstored, hid', hbind⟩,
                ⟨hcorrects.candidate, row, stored, hrow, hdeserialize, hequals⟩, ?_⟩
              rw [AList.lookup_insert_ne hne, AList.lookup_insert]
              rfl
            · exact ⟨priorId, ⟨hcorrects.prior.valid, hpriorStored, hpriorId', hpriorBind⟩,
                ⟨hcorrects.prior, priorRow, storedPrior, hpriorRow, hdeserializePrior, hpriorEquals⟩,
                AList.lookup_insert _⟩
          · intro other hother
            have hother' : ∀ memoryId, (some memoryId = command.approvedCorrection.memoryId ∨
                some memoryId = command.supersededPrior.memoryId) → other ≠ memoryId := by
              rintro memoryId (hsome | hsome) rfl
              · exact hother (some command.candidateBefore, command.approvedCorrection)
                  (by simp [StoreCall.changes]) hsome.symm
              · exact hother (some command.priorBefore, command.supersededPrior)
                  (by simp [StoreCall.changes]) hsome.symm
            rw [AList.lookup_insert_ne (hother' priorId (.inr hpriorId'.symm)),
              AList.lookup_insert_ne (hother' candidateId (.inl hid'.symm))]
          · simp [StoreCall.changes, hid', hpriorId', hne]

/-- A committed call makes its changes and no other. -/
theorem commit_effect (hI : I.ReadsIso) {t t' : Table} {call : StoreCall Z}
    (h : call.commit I M t = .ok t') : Effect M I t call t' := by
  cases call with
  | createCandidate command generated => exact createCandidate_effect M hI h
  | commitCas command => exact commitCas_effect M hI h
  | commitCorrectionAtomic command => exact commitCorrectionAtomic_effect M hI h

/-! ## Calls that commit -/

/-- A record that can be written: its payload is a record again, and can be bound. -/
structure Writable (record : MemoryRecord (AwareDatetime Z)) (memoryId : Text) : Prop
    extends IsStored M record memoryId where
  texts : ∀ t ∈ record.texts, Encodes t

variable {M}

theorem Writable.encodes_payload {record : MemoryRecord (AwareDatetime Z)} {memoryId : Text}
    (h : Writable M record memoryId) :
    Text.encodeUtf8 (Json.render I (modelDump M record)) ≠ none :=
  encodes_iff.mp (encodes_modelDump M h.texts)

theorem Writable.serialize (hI : I.ReadsIso) {record : MemoryRecord (AwareDatetime Z)}
    {memoryId : Text} (h : Writable M record memoryId) :
    serialize I M record = .ok (Json.render I (modelDump M record)) :=
  (serialize_eq_ok M hI h.valid.1).mpr ⟨h.stored, rfl⟩

/-- A candidate with an id of its own is inserted when the id is free. -/
theorem createCandidate_commit (hI : I.ReadsIso) {t : Table} {command : CandidateInsertCommand Z}
    {memoryId : Text} (h : Writable M command.record memoryId) (hfree : memoryId ∉ t)
    (generated : Uuid) : StoreCall.commit I M t (.createCandidate command generated) =
      .ok (t.insert memoryId (rowOf M I command.record)) := by
  have hattempt : attemptCandidate command.record generated = .ok command.record := by
    rw [attemptCandidate, h.id]
  have hid := h.bindable
  have hpayload := h.encodes_payload (I := I)
  simp [StoreCall.commit, Table.createCandidate, hattempt, h.serialize hI, h.id, bindText, raiseIf,
    hid, hpayload, hfree, rowOf]

/-- The snapshot of a command is the record the table holds. -/
def IsCurrent (I : Interpreter) (t : Table) (snapshot : MemoryRecord (AwareDatetime Z))
    (memoryId : Text) : Prop :=
  ∃ row stored, t.lookup memoryId = some row ∧ deserialize I Z memoryId row = .ok stored ∧
    stored.Equals snapshot ∧ row.stateVersion = snapshot.stateVersion

theorem isCurrent_of_lookup (hI : I.ReadsIso) {t : Table}
    {last snapshot : MemoryRecord (AwareDatetime Z)} {memoryId : Text}
    (h : IsStored M last memoryId) (hlookup : t.lookup memoryId = some (rowOf M I last))
    (hequals : (last.stored M).Equals snapshot) : IsCurrent I t snapshot memoryId :=
  ⟨_, _, hlookup, deserialize_rowOf M hI h.valid.1 h.stored h.id, hequals,
    congrArg (fun r : MemoryRecord Unit => r.stateVersion) hequals.1⟩

theorem ensureCurrent_of_equals {stored snapshot : MemoryRecord (AwareDatetime Z)}
    (h : stored.Equals snapshot) :
    ensureCurrent stored snapshot snapshot.stateVersion = .ok () := by
  have hversion : stored.stateVersion = snapshot.stateVersion :=
    congrArg (fun r : MemoryRecord Unit => r.stateVersion) h.1
  simp [ensureCurrent, h, hversion]

/-- A command for one record is committed when its snapshot is current. -/
theorem commitCas_commit (hI : I.ReadsIso) {t : Table} {command : SingleRecordCasCommand Z}
    {memoryId : Text} (hcurrent : IsCurrent I t command.current memoryId)
    (h : Writable M command.updated memoryId) :
    StoreCall.commit I M t (.commitCas command) =
      .ok (t.insert memoryId (rowOf M I command.updated)) := by
  obtain ⟨hadvance, -, -, hexpected, -⟩ := SingleRecordCas.postInit_eq_ok.mp command.checked
  obtain ⟨row, stored, hlookup, hread, hequals, hversion⟩ := hcurrent
  have hid : command.current.memoryId = some memoryId := hadvance.memoryId.symm.trans h.id
  have hfetch : t.fetch memoryId = .ok (some row) := fetch_eq_ok.mpr ⟨h.bindable, hlookup⟩
  have hupdate : t.update memoryId (rowOf M I command.updated) command.expectedStateVersion =
      .ok (t.insert memoryId (rowOf M I command.updated)) := by
    rw [update_eq_ok]
    exact ⟨h.encodes_payload, ⟨row, hlookup, by rw [hexpected, hversion]⟩, rfl⟩
  have hensure := ensureCurrent_of_equals hequals
  rw [← hexpected] at hensure
  rw [rowOf] at hupdate ⊢
  simp [StoreCall.commit, Table.commitCas, hid, h.serialize hI, hfetch, hread, hensure, hupdate]

/-- A correction is committed when both of its snapshots are current. -/
theorem commitCorrectionAtomic_commit (hI : I.ReadsIso) {t : Table}
    {command : AtomicCorrectionCommand Z} {candidateId priorId : Text}
    (hcandidate : IsCurrent I t command.candidateBefore candidateId)
    (hprior : IsCurrent I t command.priorBefore priorId)
    (h : Writable M command.approvedCorrection candidateId)
    (h' : Writable M command.supersededPrior priorId) :
    StoreCall.commit I M t (.commitCorrectionAtomic command) =
      .ok ((t.insert candidateId (rowOf M I command.approvedCorrection)).insert priorId
        (rowOf M I command.supersededPrior)) := by
  have hcorrects := AtomicCorrection.postInit_eq_ok.mp command.checked
  obtain ⟨row, stored, hlookup, hread, hequals, hversion⟩ := hcandidate
  obtain ⟨row', stored', hlookup', hread', hequals', hversion'⟩ := hprior
  have hid : command.candidateBefore.memoryId = some candidateId :=
    hcorrects.candidate.memoryId.symm.trans h.id
  have hid' : command.priorBefore.memoryId = some priorId :=
    hcorrects.prior.memoryId.symm.trans h'.id
  have hne : priorId ≠ candidateId := by
    intro heq
    exact hcorrects.distinct (by rw [hid, hid', heq])
  have hfetch : t.fetch candidateId = .ok (some row) := fetch_eq_ok.mpr ⟨h.bindable, hlookup⟩
  have hfetch' : t.fetch priorId = .ok (some row') := fetch_eq_ok.mpr ⟨h'.bindable, hlookup'⟩
  have hupdate : t.update candidateId (rowOf M I command.approvedCorrection)
      command.expectedCandidateVersion =
        .ok (t.insert candidateId (rowOf M I command.approvedCorrection)) := by
    rw [update_eq_ok]
    exact ⟨h.encodes_payload, ⟨row, hlookup, by rw [hcorrects.expected_candidate, hversion]⟩, rfl⟩
  have hupdate' : Table.update (t.insert candidateId (rowOf M I command.approvedCorrection)) priorId
      (rowOf M I command.supersededPrior) command.expectedPriorVersion =
        .ok ((t.insert candidateId (rowOf M I command.approvedCorrection)).insert priorId
          (rowOf M I command.supersededPrior)) := by
    rw [update_eq_ok, AList.lookup_insert_ne hne]
    exact ⟨h'.encodes_payload, ⟨row', hlookup', by rw [hcorrects.expected_prior, hversion']⟩, rfl⟩
  have hensure := ensureCurrent_of_equals hequals
  have hensure' := ensureCurrent_of_equals hequals'
  rw [← hcorrects.expected_candidate] at hensure
  rw [← hcorrects.expected_prior] at hensure'
  rw [rowOf] at hupdate
  rw [rowOf, rowOf] at hupdate' ⊢
  simp [StoreCall.commit, Table.commitCorrectionAtomic, hid, hid', h.serialize hI, h'.serialize hI,
    hfetch, hfetch', hread, hread', hensure, hensure', hupdate, hupdate']

end

end Memory
