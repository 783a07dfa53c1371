import SynoraErp.Execution.Reservation

/-!
# Material Requests and Purchase Orders

The executors of `governance/execution.py` and `governance/purchase_order_execution.py`, which
differ in what they name: a reservation is committed before the ERP document is written, the
receipt, the action and the reservation are brought to their last state in one transaction,
and a failure is recorded in a new one.
-/

namespace Execution

open Python Governance

variable {I : Interpreter}

/-- What an executor names. -/
structure DraftWriter where
  actionType : ActionType
  onlySupported : String
  executedReason : String
  reconciledReason : String
  failed : String

/-- `execute_material_request` and `reconcile_material_request`. -/
def materialRequest : DraftWriter where
  actionType := .createMrDraft
  onlySupported := "only CREATE_MR_DRAFT is supported"
  executedReason := "Material Request Draft created and read back"
  reconciledReason := "ERP Draft found by read-only reconciliation"
  failed := "governed Material Request execution failed"

/-- `execute_purchase_order` and `reconcile_purchase_order`. -/
def purchaseOrder : DraftWriter where
  actionType := .createPoDraft
  onlySupported := "only CREATE_PO_DRAFT is supported"
  executedReason := "Purchase Order Draft created and read back"
  reconciledReason := "Purchase Order Draft found by read-only reconciliation"
  failed := "governed Purchase Order execution failed"

/-- The arguments of a request. -/
structure Arguments where
  actionId : Uuid
  digest : Digest
  key : IdempotencyKey
  correlationId : Uuid

variable (W : DraftWriter) (user : Text) (args : Arguments)

/-- The user may still read the documents of the executor. -/
def checkReader : Prog I Unit := do
  let enabled ← external (.enabled user)
  if enabled = false then throw (forbidden "current user is disabled")
  let permitted ← external (.hasPermission W.actionType.targetDoctype user)
  if permitted = false then throw (forbidden "current ERP permission is insufficient")
  pure ()

/-- The states of a reservation that has succeeded. -/
def isSucceeded (status : ReservationStatus) : Bool :=
  decide (status = .settled .succeeded ∨ status = .settled .reconciledSuccess)

/-! ## Execution -/

/-- `_replay_success`. -/
def replaySuccess (locked : LockedAction I) (run : RunRow) (reservation : Reservation) :
    Prog I Unit := do
  let key ← lift (executionKey locked.action)
  reservationIdentityMatches reservation locked.action key user
  if locked.doc.state ≠ .executed ∨ isSucceeded reservation.status = false then
    throw (conflicts "execution reservation is not replayable")
  checkReader W user
  match reservation.receipt, reservation.targetName with
  | some receiptId, some targetName => do
      let receipt ← getReceipt reservation.identity.idempotencyKey receiptId
        (uncertain "verified ERP outcome is unavailable")
      if receipt.finalState.isSuccess = false ∨
          receipt.target.map Prod.snd ≠ some targetName then
        throw (uncertain "verified Receipt conflicts with target")
      serializeReceiptForActor user locked.action receipt user
      external (.audit run reservation.identity.correlationId "CACHED" none)
      call .commit
      serializeAction user locked.doc none
  | _, _ => throw (uncertain "verified replay evidence is incomplete")

/-- What is raised for a reservation that was there before. -/
def reservedBefore (status : ReservationStatus) : Raised :=
  if status ∈ [ReservationStatus.settled .failed, .settled .reconciledFailure,
      .settled .manualIntervention] then
    conflicts "execution is finalized and cannot be retried"
  else conflicts "execution is already reserved and cannot be retried"

/-- The transaction after the reservation: the ERP document and the last states of its
records. -/
def performDraft (reservation : Reservation) : Prog I Unit := do
  preExecuteRecheck user args.actionId args.digest args.key
  let run ← lockRunForAction args.actionId
  let locked ← lockAction args.actionId
  let target ← external (.write locked.action)
  let verified ← external (.readBack locked.action target)
  let targetName ← boundedText target "target_name" 140
  let receipt ← newReceipt locked.action reservation
    { finalState := .succeeded
      responseCategory := erpSuccess
      failureCategory := none
      targetName := some targetName
      verifiedFields := verified
      reconciliationEvidence := none }
  persistExecutionReceipt user receipt true
  transitionActionState user locked.action.actionId
    { target := .executed
      expectedVersion := locked.locked.stateVersion
      reason := Text.ofString W.executedReason
      approvalDigest := some locked.action.digest }
  let _ ← updateReservation reservation .succeeded
    { targetName := some targetName
      receipt := some receipt.receiptId
      responseCategory := some erpSuccess }
  let run ← external (.closeRun run .succeeded args.correlationId)
  external (.audit run args.correlationId "SUCCEEDED" none)
  call .commit
  let stored ← getAction locked.action.actionId
  serializeAction user stored none

/-- The states of a failure: of the receipt and the reservation, and of the Run. -/
def failedState (isUncertain : Bool) : ReceiptState :=
  if isUncertain = true then .reconciliationRequired else .failed

def failedRunState (isUncertain : Bool) : RunState :=
  if isUncertain = true then .reconciliationRequired else .failed

/-- The transaction that `_finalize_failure` tries to commit. -/
def recordFailure (reservationId : Uuid) (failure : Failure) : Prog I Unit := do
  let isUncertain := decide (failure.category.name = "UNCERTAIN_RESULT")
  let reservation ← getReservation args.key reservationId
  let doc ← getAction args.actionId
  let run ← external (.getRun reservation.identity.run)
  let action ← loadActionFromDoc doc
  if reservation.status ≠ .started then pure ()
  else do
    let name ← boundedText (Text.ofString failure.name) "failure_category" 80
    let receipt ← newReceipt action reservation
      { finalState := failedState isUncertain
        responseCategory := if isUncertain = true then uncertainResult else failure.category
        failureCategory := some name
        targetName := none
        verifiedFields := []
        reconciliationEvidence := if isUncertain = true then
          some (Governance.record [("reason", name.value)]) else none }
    persistExecutionReceipt user receipt false
    if isUncertain = false ∧ doc.state = .approved then
      transitionActionState user args.actionId
        { target := .expired
          expectedVersion := doc.stateVersion
          reason := name.text.take 2000
          approvalDigest := none }
    let _ ← updateReservation reservation (failedState isUncertain)
      { receipt := some receipt.receiptId
        responseCategory := some (if isUncertain = true then uncertainResult else failure.category)
        failureCategory := some name }
    let run ← external (.closeRun run (failedRunState isUncertain)
      reservation.identity.correlationId)
    external (.audit run reservation.identity.correlationId "REJECTED" (some name.text))
    call .commit

/-- `except Exception: pass` around a rollback. -/
def rollbackQuietly : Prog I Unit := tryCatch (call .rollback) fun _ => pure ()

/-- `_finalize_failure`. -/
def finalizeFailure (reservationId : Uuid) (failure : Failure) : Prog I Unit :=
  tryCatch (recordFailure user args reservationId failure) fun _ => rollbackQuietly

/-- The reservation is committed, together with the Run that executes. -/
def commitReservation (run : RunRow) : Prog I Unit :=
  tryCatch
    (do
      let _ ← external (.moveToExecuting run)
      call .commit)
    fun _ => do
      call .rollback
      throw (conflicts "execution reservation could not be committed")

/-- An executor past the check that nothing is reserved. -/
def executeReserved (reservation : Reservation) : Prog I Unit :=
  tryCatch (performDraft W user args reservation) fun e => do
    let failure := mapExecutionError e
    rollbackQuietly
    finalizeFailure user args reservation.identity.reservationId failure
    throw (faultOf failure.category.name W.failed failure.statusCode)

/-- An executor past its checks of the arguments and of an earlier reservation. -/
def executeNew (key : ExecutionKey) : Prog I Unit := do
  preExecuteRecheck user args.actionId args.digest args.key
  let run ← lockRunForAction args.actionId
  let locked ← lockAction args.actionId
  if locked.doc.state ≠ .approved then throw (conflicts "governed action is not approved")
  let (reservation, created) ← insertReservation locked.action key user
  if created = false then
    if isSucceeded reservation.status = true then do
      call .rollback
      let run ← lockRunForAction args.actionId
      let locked ← lockAction args.actionId
      replaySuccess W user locked run reservation
    else throw (reservedBefore reservation.status)
  else do
    commitReservation run
    executeReserved W user args reservation

/-- `execute_material_request` and `execute_purchase_order`. -/
def executeDraft : Prog I Unit := do
  authenticate user
  let run ← lockRunForAction args.actionId
  let locked ← lockAction args.actionId
  if locked.action.runId ≠ run.name ∨ locked.action.digest ≠ args.digest then
    throw (conflicts "execution digest or Run conflicts")
  if locked.action.idempotencyKey ≠ args.key then throw (conflicts "idempotency key conflicts")
  if locked.action.actionType ≠ W.actionType then
    throw (faultOf "INVALID_INPUT" W.onlySupported 400)
  let key ← lift (executionKey locked.action)
  if key.proposalDigest ≠ args.digest ∨ key.idempotencyKey ≠ args.key then
    throw (conflicts "execution key conflicts")
  match ← reservationByKey args.key with
  | some existing => do
      reservationIdentityMatches existing locked.action key user
      if isSucceeded existing.status = true then replaySuccess W user locked run existing
      else if existing.status = .settled .reconciliationRequired then
        throw (uncertain "execution result requires reconciliation")
      else throw (reservedBefore existing.status)
  | none => executeNew W user args key

/-! ## Reconciliation -/

/-- `_reconciliation_response`, for what it raises. -/
def reconciliationResponse (doc : StoredAction I) (reservation : Reservation)
    (receipt : Option ExecutionReceipt) : Prog I Unit := do
  let action ← loadActionFromDoc doc
  match receipt with
  | none =>
      if reservation.targetName.isSome = true then
        throw (uncertain "verified Receipt evidence is incomplete")
      else serializeAction user doc none
  | some receipt => do
      serializeReceiptForActor user action receipt user
      serializeAction user doc none

/-- A reservation whose lease has run out is brought to `RECONCILIATION_REQUIRED`. -/
def requireReconciliation (reservation : Reservation) : Prog I Reservation :=
  if reservation.status = .started then do
    let pending ← boundedText "RECONCILIATION_PENDING" "failure_category" 80
    let updated ← updateReservation reservation .reconciliationRequired
      { responseCategory := some uncertainResult
        failureCategory := some (reservation.failureCategory.getD pending) }
    getReservation updated.identity.idempotencyKey updated.identity.reservationId
  else pure reservation

/-- The last states of the records of a reconciliation. -/
def settleDraft (locked : LockedAction I) (run : RunRow) (reservation : Reservation)
    (existing : Option ExecutionReceipt) (classification : Classification)
    (target : Option (RequiredText 140)) (verified evidence : Dict) : Prog I Unit := do
  let isSuccess := decide (classification.status = .reconciledSuccess)
  let category := if isSuccess = true then erpSuccess
    else reservation.responseCategory.getD uncertainResult
  let name ← boundedText (Text.ofString classification.status.name) "failure_category" 80
  let failure := if isSuccess = true then none else some (reservation.failureCategory.getD name)
  let receipt ← reconciliationReceipt locked.action reservation existing
    { finalState := classification.status
      responseCategory := category
      failureCategory := failure
      targetName := target
      verifiedFields := verified
      reconciliationEvidence := some evidence }
  storeReceipt user existing receipt
  if isSuccess = true then do
    transitionActionState user locked.action.actionId
      { target := .executed
        expectedVersion := locked.locked.stateVersion
        reason := Text.ofString W.reconciledReason
        approvalDigest := some locked.action.digest }
    let _ ← updateReservation reservation .reconciledSuccess
      { targetName := target
        receipt := some receipt.receiptId
        responseCategory := some erpSuccess }
    let run ← external (.closeRun run .succeeded args.correlationId)
    external (.audit run args.correlationId "CACHED" (some "RECONCILED_SUCCESS"))
  else do
    if locked.doc.state = .approved then
      transitionActionState user locked.action.actionId
        { target := .expired
          expectedVersion := locked.locked.stateVersion
          reason := (Text.ofString classification.reason).take 2000
          approvalDigest := none }
    let _ ← updateReservation reservation classification.status
      { receipt := some receipt.receiptId
        responseCategory := some category
        failureCategory := failure }
    let run ← if run.state = .executing then external (.setRunState run .reconciliationRequired)
      else pure run
    let run ← external (.closeRun run
      (if classification.status = .reconciledFailure then .failed else .reconciliationRequired)
      args.correlationId)
    external (.audit run args.correlationId "REJECTED" (failure.map RequiredText.text))
  call .commit
  let stored ← getAction locked.action.actionId
  reconciliationResponse user stored reservation (some receipt)

/-- A success that was found for an action which is not approved any more. -/
def downgraded (classification : Classification) (state : ActionState) : Classification :=
  if classification.status = .reconciledSuccess ∧ state ≠ .approved then
    ⟨.manualIntervention, "Action state is no longer APPROVED"⟩
  else classification

/-- A reconciliation past its checks, of a reservation whose lease has run out. -/
def reconcileOpen (locked : LockedAction I) (run : RunRow) (reservation : Reservation)
    (existing : Option ExecutionReceipt) : Prog I Unit := do
  let (candidates, matching) ← reconciliationCandidates locked.action reservation
  let found ← lift (classifyReconciliation candidates.length matching.length true
    reservation.failureCategory.isSome)
  let reservation ← requireReconciliation reservation
  let classification := downgraded found locked.doc.state
  let evidence := reconciliationEvidence classification candidates matching args.correlationId
  match classification.status, matching with
  | .reconciledSuccess, (name, verified) :: _ => do
      let target ← boundedText name "target_name" 140
      settleDraft W user args locked run reservation existing classification (some target)
        verified evidence
  | _, _ => settleDraft W user args locked run reservation existing classification none [] evidence

/-- `reconcile_material_request` and `reconcile_purchase_order`. -/
def reconcileDraft : Prog I Unit := do
  authenticate user
  let run ← lockRunForAction args.actionId
  let locked ← lockAction args.actionId
  if locked.action.runId ≠ run.name ∨ locked.action.digest ≠ args.digest then
    throw (conflicts "reconciliation digest or Run conflicts")
  if locked.action.idempotencyKey ≠ args.key ∨ locked.action.actionType ≠ W.actionType then
    throw (conflicts "reconciliation idempotency tuple conflicts")
  let key ← lift (executionKey locked.action)
  match ← reservationByKey args.key with
  | none => throw (unavailable "execution reservation is not available")
  | some reservation => do
      reservationIdentityMatches reservation locked.action key user
      checkReader W user
      let existing ← namedReceipt reservation (uncertain "reconciliation Receipt is unavailable")
      if isOpen reservation.status = false then
        reconciliationResponse user locked.doc reservation existing
      else do
        let expired ← leaseExpired reservation
        if expired = false then reconciliationResponse user locked.doc reservation existing
        else reconcileOpen W user args locked run reservation existing

end Execution
