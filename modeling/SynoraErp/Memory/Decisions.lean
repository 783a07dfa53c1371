import SynoraErp.Memory.Contracts

/-!
# Review and correction decisions

The lifecycle of a record and the decisions that move it: `transition_state`,
`approve_candidate`, `reject_candidate` and `approve_correction`. A time is `none` where
the source is given something else than an aware datetime.
-/

namespace Memory

open Python

/-! ## Lifecycle -/

/-- `_TRANSITIONS`. -/
def transitions : MemoryState → List MemoryState
  | .candidate => [.approved, .rejected, .expired, .deleted]
  | .approved => [.superseded, .expired, .deleted]
  | .rejected => [.deleted]
  | .superseded => [.deleted]
  | .expired => [.deleted]
  | .deleted => []

/-- `_validate_version` of the lifecycle. -/
def validateVersion (value : ℤ) (fieldName : String) : Result ℕ := do
  raiseIf (value < 1) (.stateError "INVALID_VERSION" s!"{fieldName} must be an integer >= 1")
  .ok value.toNat

/-- `validate_transition`. -/
def validateTransition (current target : MemoryState) : Result Unit :=
  raiseIf (target ∉ transitions current)
    (.stateError "INVALID_TRANSITION" "Memory state transition is not allowed")

/-- `transition_state`. -/
def transitionState (current target : MemoryState) (stateVersion : ℤ)
    (expectedVersion : Option ℤ) : Result (MemoryState × ℕ) := do
  let currentVersion ← validateVersion stateVersion "state_version"
  match expectedVersion with
  | none => .ok ()
  | some expectedVersion => do
      let expected ← validateVersion expectedVersion "expected_version"
      raiseIf (expected ≠ currentVersion)
        (.stateError "STALE_VERSION" "Memory state changed concurrently")
  validateTransition current target
  .ok (target, currentVersion + 1)

theorem validateVersion_eq_ok {value : ℤ} {fieldName : String} {n : ℕ} :
    validateVersion value fieldName = .ok n ↔ 1 ≤ n ∧ value = n := by
  simp only [validateVersion, Except.bind_eq_ok, raiseIf_eq_ok, Except.ok.injEq]
  constructor
  · rintro ⟨-, hpos, rfl⟩
    omega
  · rintro ⟨hpos, rfl⟩
    exact ⟨(), by omega, Int.toNat_natCast n⟩

theorem transitionState_eq_ok {current target next : MemoryState} {stateVersion expected : ℤ}
    {version : ℕ} :
    transitionState current target stateVersion (some expected) = .ok (next, version) ↔
      target ∈ transitions current ∧ next = target ∧ 1 ≤ stateVersion ∧
        expected = stateVersion ∧ (version : ℤ) = stateVersion + 1 := by
  simp only [transitionState, validateTransition, Except.bind_eq_ok, raiseIf_eq_ok,
    validateVersion_eq_ok, Except.ok.injEq, Prod.mk.injEq, not_not]
  constructor
  · rintro ⟨n, ⟨hpos, rfl⟩, m, ⟨-, rfl⟩, -, rfl, -, hmem, rfl, rfl⟩
    exact ⟨hmem, rfl, by omega, rfl, by omega⟩
  · rintro ⟨hmem, rfl, hpos, rfl, hversion⟩
    obtain ⟨n, hn⟩ := Int.eq_ofNat_of_zero_le (by omega : 0 ≤ expected)
    subst hn
    exact ⟨n, ⟨by omega, rfl⟩, n, ⟨by omega, rfl⟩, (), rfl, (), hmem, rfl, by omega⟩

/-! ## Decisions -/

section

variable {Z : TimeZones}

/-- `_aware_timestamp`. -/
def awareTimestamp (value : Option (AwareDatetime Z)) (fieldName : String) :
    Result (AwareDatetime Z) :=
  match value with
  | none => .error (.stateError "INVALID_TIMESTAMP" s!"{fieldName} must be timezone-aware")
  | some t => .ok t

/-- `_review_context`: the time of the review and the time of the decision. -/
def reviewContext (reviewer : Text) (reviewedAt now : Option (AwareDatetime Z)) :
    Result (AwareDatetime Z × AwareDatetime Z) := do
  raiseIf (Text.isBlank reviewer = true)
    (.stateError "INVALID_REVIEW" "reviewer must be non-blank text")
  let reviewed ← awareTimestamp reviewedAt "reviewed_at"
  let decisionNow ← awareTimestamp now "now"
  raiseIf (decisionNow.lt reviewed)
    (.stateError "INVALID_REVIEW" "reviewed_at cannot be in the future")
  .ok (reviewed, decisionNow)

/-- `_ensure_review_chronology`. -/
def ensureReviewChronology (record : MemoryRecord (AwareDatetime Z))
    (reviewedAt : AwareDatetime Z) : Result Unit := do
  raiseIf (reviewedAt.lt record.createdAt)
    (.stateError "INVALID_TIMESTAMP" "reviewed_at must not precede created_at")
  raiseIf (∃ expires ∈ record.expiresAt, expires.le reviewedAt)
    (.stateError "EXPIRED" "review must occur before memory expiry")

/-- `_ensure_not_expired`. -/
def ensureNotExpired (record : MemoryRecord (AwareDatetime Z)) (now : AwareDatetime Z)
    (label : String) : Result Unit :=
  raiseIf (∃ expires ∈ record.expiresAt, expires.le now)
    (.stateError "EXPIRED" s!"{label} memory is expired")

/-- `_rebuild`: the updated record, through the constructor. -/
def rebuild (record : MemoryRecord (AwareDatetime Z)) : Result (MemoryRecord (AwareDatetime Z)) :=
  if record.Valid then .ok record
  else .error (.stateError "INVALID_DECISION" "resulting memory record is invalid")

/-- `approve_candidate`. -/
def approveCandidate (candidate : MemoryRecord (AwareDatetime Z)) (reviewer : Text)
    (reviewedAt now : Option (AwareDatetime Z)) (expectedVersion : ℤ) :
    Result (MemoryRecord (AwareDatetime Z)) := do
  let (reviewed, decisionNow) ← reviewContext reviewer reviewedAt now
  raiseIf (candidate.kind = .working)
    (.stateError "INVALID_DECISION" "working memory cannot be durably approved")
  raiseIf (candidate.kind = .episodic ∧ candidate.expiresAt.isNone)
    (.stateError "INVALID_DECISION" "episodic approval requires an explicit expiry")
  ensureReviewChronology candidate reviewed
  ensureNotExpired candidate decisionNow "candidate"
  let (newState, newVersion) ←
    transitionState candidate.state .approved candidate.stateVersion (some expectedVersion)
  rebuild
    { candidate with
      state := newState
      stateVersion := newVersion
      reviewer := some reviewer
      reviewedAt := some reviewed }

/-- `reject_candidate`. -/
def rejectCandidate (candidate : MemoryRecord (AwareDatetime Z)) (reviewer : Text)
    (reviewedAt now : Option (AwareDatetime Z)) (expectedVersion : ℤ)
    (reviewReason : Option Text) : Result (MemoryRecord (AwareDatetime Z)) := do
  let (reviewed, decisionNow) ← reviewContext reviewer reviewedAt now
  raiseIf (candidate.kind = .working)
    (.stateError "INVALID_DECISION" "working memory cannot be durably rejected")
  ensureReviewChronology candidate reviewed
  ensureNotExpired candidate decisionNow "candidate"
  let (newState, newVersion) ←
    transitionState candidate.state .rejected candidate.stateVersion (some expectedVersion)
  rebuild
    { candidate with
      state := newState
      stateVersion := newVersion
      reviewer := some reviewer
      reviewedAt := some reviewed
      reviewReason := reviewReason }

/-- `approve_correction`: the approved correction and its superseded predecessor. -/
def approveCorrection (candidate prior : MemoryRecord (AwareDatetime Z)) (reviewer : Text)
    (reviewedAt now : Option (AwareDatetime Z)) (expectedCandidateVersion expectedPriorVersion : ℤ) :
    Result (MemoryRecord (AwareDatetime Z) × MemoryRecord (AwareDatetime Z)) := do
  let (reviewed, decisionNow) ← reviewContext reviewer reviewedAt now
  raiseIf (candidate.kind = .working ∨ prior.kind = .working)
    (.stateError "INVALID_DECISION" "working memory cannot be corrected durably")
  raiseIf (candidate.memoryId = none ∨ prior.memoryId = none)
    (.stateError "INVALID_DECISION" "correction and prior memory IDs are required")
  raiseIf (candidate.memoryId = prior.memoryId)
    (.stateError "INVALID_DECISION" "correction must use a new memory ID")
  raiseIf (candidate.supersedesMemoryId ≠ prior.memoryId)
    (.stateError "INVALID_DECISION" "correction predecessor does not match")
  raiseIf (candidate.scope ≠ prior.scope)
    (.stateError "INVALID_DECISION" "correction scope must match its predecessor")
  raiseIf (candidate.kind ≠ prior.kind)
    (.stateError "INVALID_DECISION" "correction kind must match its predecessor")
  raiseIf (candidate.version ≠ prior.version + 1)
    (.stateError "INVALID_DECISION" "correction version must be consecutive")
  raiseIf (prior.reviewer.isNone ∨ prior.reviewedAt.isNone)
    (.stateError "INVALID_REVIEW" "approved predecessor lacks review evidence")
  raiseIf (∃ priorReviewed ∈ prior.reviewedAt, decisionNow.lt priorReviewed)
    (.stateError "INVALID_REVIEW" "approved predecessor review is in the future")
  ensureNotExpired candidate decisionNow "correction"
  ensureNotExpired prior decisionNow "prior"
  ensureReviewChronology candidate reviewed
  let (newCandidateState, newCandidateVersion) ←
    transitionState candidate.state .approved candidate.stateVersion (some expectedCandidateVersion)
  let (newPriorState, newPriorVersion) ←
    transitionState prior.state .superseded prior.stateVersion (some expectedPriorVersion)
  let approvedCorrection ← rebuild
    { candidate with
      state := newCandidateState
      stateVersion := newCandidateVersion
      reviewer := some reviewer
      reviewedAt := some reviewed }
  let supersededPrior ← rebuild
    { prior with
      state := newPriorState
      stateVersion := newPriorVersion }
  .ok (approvedCorrection, supersededPrior)

end

end Memory
