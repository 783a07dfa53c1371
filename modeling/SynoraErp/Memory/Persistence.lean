import SynoraErp.Memory.Decisions

/-!
# Persistence commands

The three commands of the memory store. A command is its arguments with a proof that
`__post_init__` accepts them.
-/

namespace Memory

open Python

section

variable {Z : TimeZones}

def invalidCommand (message : String) : Exn := .persistenceError "INVALID_COMMAND" message

def conflict (message : String) : Exn := .persistenceError "CONFLICT" message

def staleVersion (message : String) : Exn := .persistenceError "STALE_VERSION" message

/-- `_validate_id`. -/
def validateId (value : Text) (fieldName : String) : Result Unit :=
  raiseIf (Text.isBlank value = true ∨ 140 < value.length)
    (invalidCommand s!"{fieldName} must be non-blank text")

/-- `_validate_version` of a command. -/
def validateExpected (value : ℤ) (fieldName : String) : Result Unit :=
  raiseIf (value < 1) (invalidCommand s!"{fieldName} must be an integer >= 1")

/-- `_validate_record`. -/
def validateRecord (value : MemoryRecord (AwareDatetime Z)) (fieldName : String) : Result Unit :=
  raiseIf (¬value.Valid) (invalidCommand s!"{fieldName} is invalid")

/-- `_ensure_durable`. -/
def ensureDurable (record : MemoryRecord (AwareDatetime Z)) (fieldName : String) : Result Unit := do
  raiseIf (record.kind = .working) (invalidCommand s!"{fieldName} cannot persist Working memory")
  raiseIf (record.contentClassification ≠ .untrusted)
    (invalidCommand s!"{fieldName} must remain UNTRUSTED")

/-- `_validate_candidate`. -/
def validateCandidate (record : MemoryRecord (AwareDatetime Z)) : Result Unit := do
  validateRecord record "candidate"
  ensureDurable record "candidate"
  raiseIf (record.state ≠ .candidate) (invalidCommand "candidate must be in CANDIDATE state")
  raiseIf (record.stateVersion ≠ 1) (invalidCommand "candidate state_version must start at 1")
  raiseIf (record.reviewer.isSome ∨ record.reviewedAt.isSome)
    (invalidCommand "candidate cannot contain review metadata")

/-- The `_IMMUTABLE_FIELDS` that are no time. -/
structure ImmutableFields where
  memoryId : Option Text
  kind : MemoryKind
  scope : MemoryScope
  sourceRunId : Option Governance.Uuid
  sourceClaimId : Option Text
  sourceRevision : Text
  content : Text
  digest : Text
  version : ℕ
  supersedesMemoryId : Option Text
  contentClassification : ContentClassification
  deriving DecidableEq

def MemoryRecord.immutableFields {τ : Type} (r : MemoryRecord τ) : ImmutableFields where
  memoryId := r.memoryId
  kind := r.kind
  scope := r.scope
  sourceRunId := r.sourceRunId
  sourceClaimId := r.sourceClaimId
  sourceRevision := r.sourceRevision
  content := r.content
  digest := r.digest
  version := r.version
  supersedesMemoryId := r.supersedesMemoryId
  contentClassification := r.contentClassification

/-- The `_IMMUTABLE_FIELDS` of two records are the same, the times up to a relation. -/
def SameImmutable {τ : Type} (rel : τ → τ → Prop) (current updated : MemoryRecord τ) : Prop :=
  current.immutableFields = updated.immutableFields ∧ rel current.createdAt updated.createdAt ∧
    Option.Rel rel current.expiresAt updated.expiresAt

instance (current updated : MemoryRecord (AwareDatetime Z)) :
    Decidable (SameImmutable AwareDatetime.Equals current updated) := by
  unfold SameImmutable
  infer_instance

/-- `_ensure_immutable_fields`. -/
def ensureImmutableFields (current updated : MemoryRecord (AwareDatetime Z)) (fieldName : String) :
    Result Unit :=
  raiseIf (¬SameImmutable AwareDatetime.Equals current updated)
    (conflict s!"{fieldName} immutable field cannot change")

/-- `_ensure_lifecycle_update`. -/
def ensureLifecycleUpdate (current updated : MemoryRecord (AwareDatetime Z)) (fieldName : String) :
    Result Unit :=
  match transitionState current.state updated.state current.stateVersion
    (some current.stateVersion) with
  | .error _ => .error (conflict s!"{fieldName} transition is invalid")
  | .ok (_, expectedStateVersion) =>
      raiseIf (updated.stateVersion ≠ expectedStateVersion)
        (conflict s!"{fieldName} state_version must increment by one")

/-! ## Commands -/

structure CandidateInsertCommand (Z : TimeZones) where
  record : MemoryRecord (AwareDatetime Z)
  checked : validateCandidate record = .ok ()

/-- The arguments of a `SingleRecordCasCommand`. -/
structure SingleRecordCas (Z : TimeZones) where
  current : MemoryRecord (AwareDatetime Z)
  updated : MemoryRecord (AwareDatetime Z)
  expectedStateVersion : ℤ
  targetMemoryId : Option Text

/-- The check of `target_memory_id`. -/
def SingleRecordCas.validateTarget (c : SingleRecordCas Z) : Result Unit :=
  match c.targetMemoryId with
  | none => .ok ()
  | some targetId => do
      validateId targetId "target_memory_id"
      raiseIf (some targetId ≠ c.current.memoryId)
        (conflict "target ID does not match current memory ID")

def SingleRecordCas.postInit (c : SingleRecordCas Z) : Result Unit := do
  validateExpected c.expectedStateVersion "expected_state_version"
  validateRecord c.current "current"
  validateRecord c.updated "updated"
  ensureDurable c.current "current"
  ensureDurable c.updated "updated"
  raiseIf (c.current.memoryId = none ∨ c.updated.memoryId = none)
    (invalidCommand "current and updated memory must have durable IDs")
  raiseIf (c.current.memoryId ≠ c.updated.memoryId)
    (conflict "current and updated memory IDs must match")
  c.validateTarget
  raiseIf ((c.current.stateVersion : ℤ) ≠ c.expectedStateVersion)
    (staleVersion "current state_version does not match expected version")
  ensureImmutableFields c.current c.updated "memory"
  ensureLifecycleUpdate c.current c.updated "memory"
  raiseIf ((c.updated.stateVersion : ℤ) ≠ c.expectedStateVersion + 1)
    (conflict "updated state_version must equal expected version plus one")

structure SingleRecordCasCommand (Z : TimeZones) extends SingleRecordCas Z where
  checked : toSingleRecordCas.postInit = .ok ()

/-- The arguments of an `AtomicCorrectionCommand`. -/
structure AtomicCorrection (Z : TimeZones) where
  candidateBefore : MemoryRecord (AwareDatetime Z)
  priorBefore : MemoryRecord (AwareDatetime Z)
  approvedCorrection : MemoryRecord (AwareDatetime Z)
  supersededPrior : MemoryRecord (AwareDatetime Z)
  expectedCandidateVersion : ℤ
  expectedPriorVersion : ℤ

def AtomicCorrection.postInit (c : AtomicCorrection Z) : Result Unit := do
  validateExpected c.expectedCandidateVersion "expected_candidate_version"
  validateExpected c.expectedPriorVersion "expected_prior_version"
  validateRecord c.candidateBefore "candidate_before"
  validateRecord c.priorBefore "prior_before"
  validateRecord c.approvedCorrection "approved_correction"
  validateRecord c.supersededPrior "superseded_prior"
  ensureDurable c.candidateBefore "candidate_before"
  ensureDurable c.priorBefore "prior_before"
  ensureDurable c.approvedCorrection "approved_correction"
  ensureDurable c.supersededPrior "superseded_prior"
  raiseIf (c.candidateBefore.memoryId = none ∨ c.priorBefore.memoryId = none ∨
      c.approvedCorrection.memoryId = none ∨ c.supersededPrior.memoryId = none)
    (invalidCommand "correction pair requires durable IDs")
  raiseIf (c.candidateBefore.memoryId ≠ c.approvedCorrection.memoryId)
    (conflict "candidate snapshot and result IDs must match")
  raiseIf (c.priorBefore.memoryId ≠ c.supersededPrior.memoryId)
    (conflict "prior snapshot and result IDs must match")
  raiseIf (c.candidateBefore.memoryId = c.priorBefore.memoryId)
    (conflict "correction pair requires distinct memory IDs")
  raiseIf (c.candidateBefore.state ≠ .candidate ∨ c.priorBefore.state ≠ .approved)
    (conflict "correction snapshots have invalid lifecycle states")
  raiseIf (c.approvedCorrection.state ≠ .approved ∨ c.supersededPrior.state ≠ .superseded)
    (conflict "correction results have invalid lifecycle states")
  raiseIf ((c.candidateBefore.stateVersion : ℤ) ≠ c.expectedCandidateVersion)
    (staleVersion "candidate snapshot does not match expected version")
  raiseIf ((c.priorBefore.stateVersion : ℤ) ≠ c.expectedPriorVersion)
    (staleVersion "prior snapshot does not match expected version")
  ensureLifecycleUpdate c.candidateBefore c.approvedCorrection "candidate correction"
  ensureLifecycleUpdate c.priorBefore c.supersededPrior "prior supersession"
  ensureImmutableFields c.candidateBefore c.approvedCorrection "candidate correction"
  ensureImmutableFields c.priorBefore c.supersededPrior "prior supersession"
  raiseIf (c.candidateBefore.supersedesMemoryId ≠ c.priorBefore.memoryId)
    (conflict "candidate snapshot predecessor ID does not match")
  raiseIf (c.approvedCorrection.supersedesMemoryId ≠ c.supersededPrior.memoryId)
    (conflict "correction predecessor ID does not match")
  raiseIf (c.candidateBefore.scope ≠ c.priorBefore.scope ∨
      c.approvedCorrection.scope ≠ c.supersededPrior.scope)
    (conflict "correction pair scopes must match exactly")
  raiseIf (c.candidateBefore.kind ≠ c.priorBefore.kind ∨
      c.approvedCorrection.kind ≠ c.supersededPrior.kind)
    (conflict "correction pair kinds must match")
  raiseIf (c.candidateBefore.version ≠ c.priorBefore.version + 1)
    (conflict "candidate snapshot version must be consecutive")
  raiseIf (c.approvedCorrection.version ≠ c.supersededPrior.version + 1)
    (conflict "correction version must be consecutive")
  raiseIf ((c.approvedCorrection.stateVersion : ℤ) ≠ c.expectedCandidateVersion + 1)
    (conflict "correction state_version must equal expected plus one")
  raiseIf ((c.supersededPrior.stateVersion : ℤ) ≠ c.expectedPriorVersion + 1)
    (conflict "prior state_version must equal expected plus one")

structure AtomicCorrectionCommand (Z : TimeZones) extends AtomicCorrection Z where
  checked : toAtomicCorrection.postInit = .ok ()

/-! ## What the constructors accept -/

theorem validateCandidate_eq_ok {record : MemoryRecord (AwareDatetime Z)} :
    validateCandidate record = .ok () ↔
      record.Valid ∧ record.kind ≠ .working ∧ record.state = .candidate ∧
        record.stateVersion = 1 ∧ record.reviewer = none ∧ record.reviewedAt = none := by
  simp only [validateCandidate, validateRecord, ensureDurable, check_bind_eq_ok, raiseIf_eq_ok,
    not_not, not_or, and_true, Option.not_isSome_iff_eq_none, ne_eq]

/-- One step of the lifecycle of a record. -/
structure Advances (current updated : MemoryRecord (AwareDatetime Z)) : Prop where
  valid_before : current.Valid
  valid : updated.Valid
  transition : updated.state ∈ transitions current.state
  stateVersion : updated.stateVersion = current.stateVersion + 1
  same : SameImmutable AwareDatetime.Equals current updated

theorem Advances.memoryId {current updated : MemoryRecord (AwareDatetime Z)}
    (h : Advances current updated) : updated.memoryId = current.memoryId :=
  (congrArg ImmutableFields.memoryId h.same.1).symm

theorem ensureLifecycleUpdate_eq_ok {current updated : MemoryRecord (AwareDatetime Z)}
    {fieldName : String} (hvalid : current.Valid) :
    ensureLifecycleUpdate current updated fieldName = .ok () ↔
      updated.state ∈ transitions current.state ∧
        updated.stateVersion = current.stateVersion + 1 := by
  have hpos := hvalid.stateVersion_pos
  unfold ensureLifecycleUpdate
  cases htransition : transitionState current.state updated.state current.stateVersion
      (some current.stateVersion) with
  | error e =>
      have hnone : ¬updated.state ∈ transitions current.state := by
        intro hmem
        have hok : transitionState current.state updated.state current.stateVersion
            (some current.stateVersion) = .ok (updated.state, current.stateVersion + 1) := by
          rw [transitionState_eq_ok]
          exact ⟨hmem, rfl, by omega, rfl, by omega⟩
        rw [htransition] at hok
        cases hok
      simp [hnone]
  | ok next =>
      obtain ⟨hmem, -, -, -, hversion⟩ := transitionState_eq_ok.mp htransition
      simp only [raiseIf_eq_ok, not_not, hmem, true_and]
      omega

theorem SingleRecordCas.postInit_eq_ok {c : SingleRecordCas Z} :
    c.postInit = .ok () ↔
      Advances c.current c.updated ∧ c.current.kind ≠ .working ∧ c.current.memoryId ≠ none ∧
        c.expectedStateVersion = c.current.stateVersion ∧ c.validateTarget = .ok () := by
  simp only [postInit, validateExpected, validateRecord, ensureDurable, ensureImmutableFields,
    check_bind_eq_ok, raiseIf_eq_ok, not_not, not_or]
  constructor
  · rintro ⟨-, hcurrent, hupdated, ⟨hkind, -⟩, -, ⟨hid, -⟩, -, htarget, hversion, hsame,
      hlifecycle, -⟩
    obtain ⟨htransition, hnext⟩ := (ensureLifecycleUpdate_eq_ok hcurrent).mp hlifecycle
    exact ⟨⟨hcurrent, hupdated, htransition, hnext, hsame⟩, hkind, hid, hversion.symm, htarget⟩
  · rintro ⟨hadvance, hkind, hid, hversion, htarget⟩
    have hpos := hadvance.valid_before.stateVersion_pos
    have hnext := hadvance.stateVersion
    have hkind' : c.updated.kind = c.current.kind :=
      (congrArg ImmutableFields.kind hadvance.same.1).symm
    have hlifecycle : ensureLifecycleUpdate c.current c.updated "memory" = .ok () :=
      (ensureLifecycleUpdate_eq_ok hadvance.valid_before).mpr ⟨hadvance.transition, hnext⟩
    exact ⟨by omega, hadvance.valid_before, hadvance.valid, ⟨hkind, trivial⟩,
      ⟨hkind' ▸ hkind, trivial⟩, ⟨hid, hadvance.memoryId ▸ hid⟩, hadvance.memoryId.symm, htarget,
      hversion.symm, hadvance.same, hlifecycle, by omega⟩

/-- What an accepted correction is: two steps, of a candidate that becomes approved and of
the record it corrects, which was approved and becomes superseded. -/
structure Corrects (c : AtomicCorrection Z) : Prop where
  candidate : Advances c.candidateBefore c.approvedCorrection
  prior : Advances c.priorBefore c.supersededPrior
  candidate_state : c.candidateBefore.state = .candidate
  prior_state : c.priorBefore.state = .approved
  approved : c.approvedCorrection.state = .approved
  superseded : c.supersededPrior.state = .superseded
  distinct : c.candidateBefore.memoryId ≠ c.priorBefore.memoryId
  predecessor : c.candidateBefore.supersedesMemoryId = c.priorBefore.memoryId
  scope : c.candidateBefore.scope = c.priorBefore.scope
  kind : c.candidateBefore.kind = c.priorBefore.kind
  version : c.candidateBefore.version = c.priorBefore.version + 1
  durable : c.candidateBefore.kind ≠ .working
  candidate_id : c.candidateBefore.memoryId ≠ none
  prior_id : c.priorBefore.memoryId ≠ none
  expected_candidate : c.expectedCandidateVersion = c.candidateBefore.stateVersion
  expected_prior : c.expectedPriorVersion = c.priorBefore.stateVersion

theorem AtomicCorrection.postInit_eq_ok {c : AtomicCorrection Z} :
    c.postInit = .ok () ↔ Corrects c := by
  simp only [postInit, validateExpected, validateRecord, ensureDurable, ensureImmutableFields,
    check_bind_eq_ok, raiseIf_eq_ok, not_not, not_or]
  constructor
  · rintro ⟨-, -, hcandidate, hprior, hcorrection, hsuperseded, ⟨hkind, -⟩, -, -, -,
      ⟨hcandidateId, hpriorId, -, -⟩, -, -, hdistinct, ⟨hstate, hpriorState⟩,
      ⟨happroved, hsupersededState⟩, hexpected, hpriorExpected, hlifecycle, hpriorLifecycle, hsame,
      hpriorSame, hpredecessor, -, ⟨hscope, -⟩, ⟨hkinds, -⟩, hversion, -, -, -⟩
    obtain ⟨htransition, hnext⟩ := (ensureLifecycleUpdate_eq_ok hcandidate).mp hlifecycle
    obtain ⟨hpriorTransition, hpriorNext⟩ := (ensureLifecycleUpdate_eq_ok hprior).mp hpriorLifecycle
    exact ⟨⟨hcandidate, hcorrection, htransition, hnext, hsame⟩,
      ⟨hprior, hsuperseded, hpriorTransition, hpriorNext, hpriorSame⟩, hstate, hpriorState,
      happroved, hsupersededState, hdistinct, hpredecessor, hscope, hkinds, hversion, hkind,
      hcandidateId, hpriorId, hexpected.symm, hpriorExpected.symm⟩
  · intro h
    have hpos := h.candidate.valid_before.stateVersion_pos
    have hpriorPos := h.prior.valid_before.stateVersion_pos
    have hnext := h.candidate.stateVersion
    have hpriorNext := h.prior.stateVersion
    have hexpected := h.expected_candidate
    have hpriorExpected := h.expected_prior
    have himmutable := h.candidate.same.1
    have hpriorImmutable := h.prior.same.1
    simp only [MemoryRecord.immutableFields, ImmutableFields.mk.injEq] at himmutable hpriorImmutable
    obtain ⟨hid, hkind, hscope, -, -, -, -, -, hversion, hsupersedes, -⟩ := himmutable
    obtain ⟨hpriorId, hpriorKind, hpriorScope, -, -, -, -, -, hpriorVersion, -, -⟩ :=
      hpriorImmutable
    have hlifecycle : ensureLifecycleUpdate c.candidateBefore c.approvedCorrection
        "candidate correction" = .ok () :=
      (ensureLifecycleUpdate_eq_ok h.candidate.valid_before).mpr ⟨h.candidate.transition, hnext⟩
    have hpriorLifecycle : ensureLifecycleUpdate c.priorBefore c.supersededPrior
        "prior supersession" = .ok () :=
      (ensureLifecycleUpdate_eq_ok h.prior.valid_before).mpr ⟨h.prior.transition, hpriorNext⟩
    have hkindPrior : c.priorBefore.kind ≠ .working := h.kind ▸ h.durable
    have hpredecessor := h.predecessor
    have hscopes := h.scope
    have hversions := h.version
    refine ⟨by omega, by omega, h.candidate.valid_before, h.prior.valid_before, h.candidate.valid,
      h.prior.valid, ⟨h.durable, trivial⟩, ⟨hkindPrior, trivial⟩, ⟨hkind ▸ h.durable, trivial⟩,
      ⟨hpriorKind ▸ hkindPrior, trivial⟩,
      ⟨h.candidate_id, h.prior_id, hid ▸ h.candidate_id, hpriorId ▸ h.prior_id⟩, hid, hpriorId,
      h.distinct, ⟨h.candidate_state, h.prior_state⟩, ⟨h.approved, h.superseded⟩, hexpected.symm,
      hpriorExpected.symm, hlifecycle, hpriorLifecycle, h.candidate.same, h.prior.same,
      hpredecessor, ?_, ⟨hscopes, ?_⟩, ⟨h.kind, ?_⟩, hversions, ?_, by omega, by omega⟩
    · rw [← hsupersedes, ← hpriorId, hpredecessor]
    · rw [← hscope, ← hpriorScope, hscopes]
    · rw [← hkind, ← hpriorKind, h.kind]
    · rw [← hversion, ← hpriorVersion, hversions]

/-! ## Decisions give commands -/

theorem rebuild_eq_ok {record updated : MemoryRecord (AwareDatetime Z)} :
    rebuild record = .ok updated ↔ record.Valid ∧ record = updated := by
  by_cases h : record.Valid
  · simp [rebuild, h]
  · simp [rebuild, h]

/-- A decision writes the review and the state of a record, and nothing else. -/
theorem sameImmutable_review (record : MemoryRecord (AwareDatetime Z)) (state : MemoryState)
    (stateVersion : ℕ) (reviewedAt : Option (AwareDatetime Z))
    (reviewer reviewReason : Option Text) :
    SameImmutable AwareDatetime.Equals record
      { record with
        state := state
        stateVersion := stateVersion
        reviewedAt := reviewedAt
        reviewer := reviewer
        reviewReason := reviewReason } :=
  ⟨rfl, AwareDatetime.equals_refl _, optionRel_refl AwareDatetime.equals_refl _⟩

/-- An approved candidate can be committed on its own, a correction included. -/
theorem advances_of_approveCandidate {candidate updated : MemoryRecord (AwareDatetime Z)}
    {reviewer : Text} {reviewedAt now : Option (AwareDatetime Z)} {expectedVersion : ℤ}
    (hvalid : candidate.Valid)
    (h : approveCandidate candidate reviewer reviewedAt now expectedVersion = .ok updated) :
    Advances candidate updated ∧ updated.state = .approved ∧
      expectedVersion = candidate.stateVersion := by
  simp only [approveCandidate, Except.bind_eq_ok, raiseIf_eq_ok, exists_const, Prod.exists] at h
  obtain ⟨reviewed, decisionNow, -, -, -, _, -, _, -, next, version, htransition, hrebuild⟩ := h
  obtain ⟨hmem, rfl, -, hexpected, hversion⟩ := transitionState_eq_ok.mp htransition
  obtain ⟨hupdated, rfl⟩ := rebuild_eq_ok.mp hrebuild
  exact ⟨⟨hvalid, hupdated, hmem, by simp only; omega, sameImmutable_review ..⟩, rfl, hexpected⟩

theorem advances_of_rejectCandidate {candidate updated : MemoryRecord (AwareDatetime Z)}
    {reviewer : Text} {reviewedAt now : Option (AwareDatetime Z)} {expectedVersion : ℤ}
    {reviewReason : Option Text} (hvalid : candidate.Valid)
    (h : rejectCandidate candidate reviewer reviewedAt now expectedVersion reviewReason =
      .ok updated) :
    Advances candidate updated ∧ updated.state = .rejected ∧
      expectedVersion = candidate.stateVersion := by
  simp only [rejectCandidate, Except.bind_eq_ok, raiseIf_eq_ok, exists_const, Prod.exists] at h
  obtain ⟨reviewed, decisionNow, -, -, _, -, _, -, next, version, htransition, hrebuild⟩ := h
  obtain ⟨hmem, rfl, -, hexpected, hversion⟩ := transitionState_eq_ok.mp htransition
  obtain ⟨hupdated, rfl⟩ := rebuild_eq_ok.mp hrebuild
  exact ⟨⟨hvalid, hupdated, hmem, by simp only; omega, sameImmutable_review ..⟩, rfl, hexpected⟩

/-- The pair of `approve_correction` is accepted by the command that commits both. -/
theorem corrects_of_approveCorrection {candidate prior : MemoryRecord (AwareDatetime Z)}
    {reviewer : Text} {reviewedAt now : Option (AwareDatetime Z)}
    {expectedCandidateVersion expectedPriorVersion : ℤ}
    {pair : MemoryRecord (AwareDatetime Z) × MemoryRecord (AwareDatetime Z)}
    (hcandidate : candidate.Valid) (hprior : prior.Valid)
    (h : approveCorrection candidate prior reviewer reviewedAt now expectedCandidateVersion
      expectedPriorVersion = .ok pair) :
    Corrects ⟨candidate, prior, pair.1, pair.2, expectedCandidateVersion, expectedPriorVersion⟩ := by
  simp only [approveCorrection, Except.bind_eq_ok, raiseIf_eq_ok, exists_const, not_or, not_not,
    Prod.exists] at h
  obtain ⟨reviewed, decisionNow, -, ⟨hkind, -⟩, ⟨hid, hpriorId⟩, hdistinct, hpredecessor, hscope,
    hkinds, hversion, -, -, _, -, _, -, _, -, next, version, htransition, priorNext, priorVersion,
    hpriorTransition, correction, hcorrection, superseded, hsuperseded, hpair⟩ := h
  obtain ⟨hmem, rfl, -, hexpected, hnext⟩ := transitionState_eq_ok.mp htransition
  obtain ⟨hpriorMem, rfl, -, hpriorExpected, hpriorNext⟩ :=
    transitionState_eq_ok.mp hpriorTransition
  obtain ⟨hvalid, rfl⟩ := rebuild_eq_ok.mp hcorrection
  obtain ⟨hpriorValid, rfl⟩ := rebuild_eq_ok.mp hsuperseded
  cases hpair
  have hstate : candidate.state = .candidate := by
    cases hcases : candidate.state <;> simp [hcases, transitions] at hmem ⊢
  have hpriorState : prior.state = .approved := by
    cases hcases : prior.state <;> simp [hcases, transitions] at hpriorMem ⊢
  exact ⟨⟨hcandidate, hvalid, hmem, by simp only; omega, sameImmutable_review ..⟩,
    ⟨hprior, hpriorValid, hpriorMem, by simp only; omega, sameImmutable_review ..⟩, hstate,
    hpriorState, rfl, rfl, hdistinct, hpredecessor, hscope, hkinds, hversion, hkind, hid, hpriorId,
    hexpected, hpriorExpected⟩

end

end Memory
