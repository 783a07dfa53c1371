import SynoraErp.Execution.Service

/-!
# Reservations

The programs of `governance/execution.py` that every executor uses: how a reservation is
inserted and updated, how the receipt of an outcome is made, and how ERP candidates are
classified by a reconciliation.
-/

namespace Execution

open Python Governance

variable {I : Interpreter}

/-! ## The rows of an execution -/

/-- `_reservation_by_key` under its lock. -/
def reservationByKey (key : IdempotencyKey) : Prog I (Option Reservation) := do
  match ← call (.lock (.reservation key)) with
  | some (.reservation _) => do
      match ← call (.get (.reservation key)) with
      | some (.reservation row) => pure (some row)
      | _ => throw doesNotExist
  | _ => pure none

/-- `frappe.get_doc("Synora Execution Reservation", ...)`. -/
def getReservation (key : IdempotencyKey) (reservationId : Uuid) : Prog I Reservation := do
  match ← call (.get (.reservation key)) with
  | some (.reservation row) =>
      if row.identity.reservationId = reservationId then pure row else throw doesNotExist
  | _ => throw doesNotExist

/-- A reservation belongs to an action, its key and its executor. -/
def IdentityMatches (reservation : Reservation) (action : ProposedAction I) (key : ExecutionKey)
    (actor : Text) : Prop :=
  reservation.identity.action = action.actionId ∧ reservation.identity.run = action.runId ∧
    reservation.identity.idempotencyKey = key.idempotencyKey ∧
    reservation.identity.proposalDigest = key.proposalDigest ∧
    Text.ofString reservation.identity.targetDoctype = key.targetDoctype ∧
    reservation.identity.executor = actor

instance decidableIdentityMatches (reservation : Reservation) (action : ProposedAction I)
    (key : ExecutionKey) (actor : Text) :
    Decidable (IdentityMatches reservation action key actor) :=
  inferInstanceAs (Decidable (_ ∧ _ ∧ _ ∧ _ ∧ _ ∧ _))

/-- `_reservation_identity_matches`. -/
def reservationIdentityMatches (reservation : Reservation) (action : ProposedAction I)
    (key : ExecutionKey) (actor : Text) : Prog I Unit :=
  if IdentityMatches reservation action key actor then pure ()
  else throw (conflicts "idempotency reservation conflicts")

/-- `LEASE_SECONDS`, in microseconds. -/
def leaseTime : ℤ := 300000000

/-- `value.replace(microsecond=0)`. -/
def wholeSeconds (reading : Reading) : Reading := reading / 1000000 * 1000000

/-- The document that `_insert_reservation` inserts. -/
def startedReservation (action : ProposedAction I) (key : ExecutionKey) (actor : Text)
    (reservationId ownerToken : Uuid) (now : Reading) (startedAt : DateTime) : Reservation where
  identity :=
    { reservationId := reservationId
      action := action.actionId
      run := action.runId
      idempotencyKey := key.idempotencyKey
      proposalDigest := key.proposalDigest
      targetDoctype := action.actionType.targetDoctype
      executor := actor
      ownerToken := ownerToken
      leaseExpiresAt := wholeSeconds (now + leaseTime)
      attempt := 1
      startedAt := startedAt
      correlationId := action.correlationId }
  status := .started
  targetName := none
  receipt := none
  responseCategory := none
  failureCategory := none
  completedAt := none
  reconciliationCount := 0
  lastReconciledAt := none

/-- `_insert_reservation`, and whether the reservation is new. -/
def insertReservation (action : ProposedAction I) (key : ExecutionKey) (actor : Text) :
    Prog I (Reservation × Bool) := do
  match ← reservationByKey key.idempotencyKey with
  | some existing => do
      reservationIdentityMatches existing action key actor
      pure (existing, false)
  | none => do
      let reservationId ← external .uuid4
      let ownerToken ← external .uuid4
      let now ← external .now
      let startedAt ← external .timestamp
      let row := startedReservation action key actor reservationId ownerToken now startedAt
      let created ← insert (.reservation key.idempotencyKey) (.reservation row)
      if created = true then pure (row, true)
      else do
        call .rollback
        match ← reservationByKey key.idempotencyKey with
        | none => throw (conflicts "idempotency reservation race is unresolved")
        | some winner => do
            reservationIdentityMatches winner action key actor
            pure (winner, false)

/-- The arguments of `_update_reservation`. -/
structure Update where
  targetName : Option (RequiredText 140) := none
  receipt : Option Uuid := none
  responseCategory : Option (OneOf responseCategories) := none
  failureCategory : Option (RequiredText 80) := none

/-- The document that `_update_reservation` saves. -/
def updated (row : Reservation) (state : ReceiptState) (update : Update) (completedAt : DateTime)
    (reconciledAt : DateTime) : Reservation :=
  let reconciles : Bool := row.status ≠ .settled state && decide (state ∈ reconciledStates)
  { row with
    status := .settled state
    targetName := update.targetName.or row.targetName
    receipt := update.receipt.or row.receipt
    responseCategory := update.responseCategory.or row.responseCategory
    failureCategory := update.failureCategory.or row.failureCategory
    completedAt := some completedAt
    reconciliationCount := row.reconciliationCount + if reconciles = true then 1 else 0
    lastReconciledAt := if reconciles = true then some reconciledAt else row.lastReconciledAt }

/-- `_update_reservation` to the state of a receipt. -/
def updateReservation (row : Reservation) (state : ReceiptState) (update : Update) :
    Prog I Reservation := do
  if isOpen row.status = false ∧ row.status ≠ .settled state then
    throw (conflicts "execution reservation is already finalized")
  if row.status = .settled state ∧ update.targetName = none ∧ update.receipt = none ∧
      update.responseCategory.isNone = true ∧ update.failureCategory = none then
    pure row
  else do
    let reconciledAt ← external .timestamp
    let completedAt ← external .timestamp
    let after := updated row state update completedAt reconciledAt
    lift (validateReservation row after)
    save (.reservation row.identity.idempotencyKey) (.reservation row) (.reservation after)
      (.other "TimestampMismatchError")
    pure after

/-- `_lease_expired`. -/
def leaseExpired (row : Reservation) : Prog I Bool := do
  let now ← external .now
  pure (decide (row.identity.leaseExpiresAt ≤ now))

/-! ## The receipt of an outcome -/

/-- `ERP_VALIDATION_ERROR` and the other categories are response categories. -/
theorem mem_responseCategories {name : String}
    (h : name = "ERP_VALIDATION_ERROR" ∨ name = "ERP_PERMISSION_ERROR" ∨
      name = "ERP_NOT_FOUND" ∨ name = "CONFLICT" ∨ name = "UNCERTAIN_RESULT") :
    name ∈ responseCategories := by
  unfold responseCategories
  simp only [List.mem_cons, List.not_mem_nil, or_false]
  tauto

def validationError : OneOf responseCategories :=
  ⟨"ERP_VALIDATION_ERROR", mem_responseCategories (.inl rfl)⟩

def permissionError : OneOf responseCategories :=
  ⟨"ERP_PERMISSION_ERROR", mem_responseCategories (.inr (.inl rfl))⟩

def erpNotFound : OneOf responseCategories :=
  ⟨"ERP_NOT_FOUND", mem_responseCategories (.inr (.inr (.inl rfl)))⟩

def conflictCategory : OneOf responseCategories :=
  ⟨"CONFLICT", mem_responseCategories (.inr (.inr (.inr (.inl rfl))))⟩

def uncertainResult : OneOf responseCategories :=
  ⟨"UNCERTAIN_RESULT", mem_responseCategories (.inr (.inr (.inr (.inr rfl))))⟩

/-- What `map_execution_error` makes of an exception. -/
structure Failure where
  category : OneOf responseCategories
  name : String
  statusCode : ℕ

/-- `map_execution_error`. -/
def mapExecutionError : Raised → Failure
  | .fault f =>
      if f.code ∈ ["PERMISSION_DENIED", "ERP_PERMISSION_ERROR"] then
        ⟨permissionError, f.code, 403⟩
      else if f.code ∈ ["CONFLICT", "STALE", "POLICY_REJECTED", "EXPIRED"] then
        ⟨conflictCategory, f.code, 409⟩
      else if f.code ∈ ["UNCERTAIN_RESULT", "TIMEOUT"] then ⟨uncertainResult, f.code, 503⟩
      else ⟨validationError, f.code, f.statusCode⟩
  | .other name =>
      if name ∈ ["PermissionError", "NotPermittedError"] then ⟨permissionError, name, 403⟩
      else if name = "DoesNotExistError" then ⟨erpNotFound, name, 404⟩
      else if name ∈ ["ValidationError", "MandatoryError", "LinkValidationError",
          "InvalidStatusError", "UniqueValidationError", "ReadBackMismatch",
          "TimestampMismatchError"] then ⟨validationError, name, 422⟩
      else ⟨uncertainResult, "UNEXPECTED_EXECUTION_ERROR", 503⟩

/-- The fields of a receipt that the execution does not take from its action. -/
def receiptContext (receiptId : Uuid) (approver : Option Text) (executor : Text)
    (startedAt completedAt : DateTime) (correlationId : Uuid) : Result ReceiptContext := do
  let approver ← optionally ((approver.map Value.str).getD .none) (requiredText · "approver" 140)
  let executor ← requiredText (.str executor) "executor" 140
  .ok
    { receiptId := receiptId
      approver := approver
      executor := executor
      startedAt := startedAt
      completedAt := completedAt
      correlationId := correlationId }

/-- The receipt of an action, a context and an outcome. -/
def createReceipt (context : ReceiptContext) (action : ProposedAction I) (outcome : Outcome) :
    Result ExecutionReceipt :=
  createExecutionReceipt I (.dict (Governance.record (receiptInput context action outcome)))

/-- `_receipt_input`. -/
def newReceipt (action : ProposedAction I) (reservation : Reservation) (outcome : Outcome) :
    Prog I ExecutionReceipt := do
  let approval ← external (.latestApproval action.actionId action.digest)
  let receiptId ← external .uuid4
  let completedAt ← external .timestamp
  let context ← lift (receiptContext receiptId (approval.map ApprovalRow.actor)
    reservation.identity.executor reservation.identity.startedAt completedAt
    reservation.identity.correlationId)
  lift (createReceipt context action outcome)

/-- `_reconciliation_receipt`: the receipt that is there keeps its identity. -/
def reconciliationReceipt (action : ProposedAction I) (reservation : Reservation)
    (existing : Option ExecutionReceipt) (outcome : Outcome) : Prog I ExecutionReceipt := do
  let approval ← external (.latestApproval action.actionId action.digest)
  let completedAt ← external .timestamp
  match existing with
  | some receipt => do
      let approver := (receipt.approver.map RequiredText.text).or (approval.map ApprovalRow.actor)
      let context ← lift (receiptContext receipt.receiptId approver
        reservation.identity.executor receipt.startedAt completedAt receipt.correlationId)
      lift (createReceipt context action outcome)
  | none => do
      let receiptId ← external .uuid4
      let context ← lift (receiptContext receiptId (approval.map ApprovalRow.actor)
        reservation.identity.executor reservation.identity.startedAt completedAt
        reservation.identity.correlationId)
      lift (createReceipt context action outcome)

/-- `_persist_receipt`, or `transition_execution_receipt` for a receipt that is there. -/
def storeReceipt (user : Text) (existing : Option ExecutionReceipt) (receipt : ExecutionReceipt) :
    Prog I Unit :=
  match existing with
  | none => persistExecutionReceipt user receipt receipt.finalState.isSuccess
  | some _ => transitionExecutionReceipt user receipt

/-- The text of a name or a category, as the contract of a receipt takes it. -/
def boundedText (text : Text) (label : String) (maximum : ℕ) : Prog I (RequiredText maximum) :=
  lift (requiredText (.str text) label maximum)

/-- The receipt that a reservation names, if it names one. -/
def namedReceipt (reservation : Reservation) (missing : Raised) :
    Prog I (Option ExecutionReceipt) :=
  match reservation.receipt with
  | none => pure none
  | some receiptId => do
      let receipt ← getReceipt reservation.identity.idempotencyKey receiptId missing
      pure (some receipt)

/-! ## Reconciliation -/

/-- `ReconciliationClassification`. -/
structure Classification where
  status : ReceiptState
  reason : String

/-- `classify_reconciliation`. -/
def classifyReconciliation (candidateCount matchingCount : ℕ) (leaseExpired : Bool)
    (failureEvidenceComplete : Bool) : Result Classification :=
  if candidateCount < matchingCount then
    .error (invalid "reconciliation candidate counts are invalid")
  else if candidateCount = 1 ∧ matchingCount = 1 then
    .ok ⟨.reconciledSuccess, "one complete ERP match"⟩
  else if 0 < candidateCount then
    .ok ⟨.manualIntervention, "candidate count or critical fields are ambiguous"⟩
  else if leaseExpired = false then
    .ok ⟨.reconciliationRequired, "execution lease is still active"⟩
  else if failureEvidenceComplete = true then
    .ok ⟨.reconciledFailure,
      "lease ended with no matching ERP document and complete failure evidence"⟩
  else .ok ⟨.manualIntervention, "no ERP document but failure evidence is incomplete"⟩

/-- `_reconciliation_candidates`: the names, and those whose document reads back. -/
def reconciliationCandidates (action : ProposedAction I) (reservation : Reservation) :
    Prog I (List Text × List (Text × Dict)) := do
  let names ←
    match reservation.targetName with
    | some name => pure [name.text]
    | none => external (.candidates action)
  let matching ← names.foldlM
    (fun (found : List (Text × Dict)) name =>
      tryCatch
        (do
          external (.loadTarget action name)
          let verified ← external (.readBack action name)
          pure (found ++ [(name, verified)]))
        fun e =>
          if e = .other "ReadBackMismatch" ∨ e = doesNotExist then pure found else throw e) []
  pure (names, matching)

/-- `",".join(names)`. -/
def joinNames (names : List Text) : Text := (names.intersperse (Text.ofString ",")).flatten

/-- `_reconciliation_evidence`. -/
def reconciliationEvidence (classification : Classification) (candidates : List Text)
    (matching : List (Text × Dict)) (correlationId : Uuid) : Dict :=
  Governance.record
    [("result_status", Value.ofString classification.status.name),
      ("reason", Value.ofString classification.reason),
      ("candidate_count", Value.int candidates.length),
      ("matching_count", Value.int matching.length),
      ("candidate_names", Value.str (joinNames (candidates.take 20))),
      ("matching_names", Value.str (joinNames ((matching.take 20).map Prod.fst))),
      ("reconciliation_correlation_id", correlationId.value)]

/-! ## Answers -/

/-- `_serialize_receipt_for_actor`, for what it raises. -/
def serializeReceiptForActor (user : Text) (action : ProposedAction I) (receipt : ExecutionReceipt)
    (actor : Text) : Prog I Unit := do
  external (.verifyReceipt action receipt actor)
  serializeReceipt user receipt (some actor)

end Execution
