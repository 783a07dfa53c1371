import SynoraErp.Execution.Draft

/-!
# Procure-to-pay actions

The executor of `governance/p2p_execution.py`: it also checks the earlier actions of the Run,
holds named locks on the source document over its transactions, and takes any failure past
the start of the operation for uncertain unless a controller has refused. A reservation whose
lease has run out is reconciled by the next execution.
-/

namespace Execution

open Python Governance

variable {I : Interpreter}

/-- `SOURCE_ACTIONS`. -/
def sourceActions : List ActionType :=
  [.submitPo, .cancelPo, .submitPr, .cancelPr, .submitPi, .cancelPi, .submitPaymentEntry,
    .cancelPaymentEntry]

/-- `CREATE_ACTIONS`. -/
def createActions : List ActionType := [.createPrDraft, .createPiDraft, .createPaymentEntryDraft]

/-- `action_type.startswith("CANCEL_")`. -/
def cancels (t : ActionType) : Bool :=
  decide (t ∈ [ActionType.cancelPo, .cancelPr, .cancelPi, .cancelPaymentEntry])

/-- `KNOWN_CONTROLLER_FAILURES`. -/
def knownControllerFailures : List String :=
  ["ValidationError", "MandatoryError", "LinkValidationError", "InvalidStatusError",
    "UniqueValidationError", "PermissionError", "NotPermittedError", "DoesNotExistError"]

def notEnabled : Raised :=
  conflicts "P2P action is not enabled in the current Phase 10 increment"

variable (user : Text) (args : Arguments)

/-! ## Failures -/

/-- The target of a failed call, as the recovery finds it, with its `docstatus`. -/
def persistedTarget (action : ProposedAction I) (hasTarget : Bool) :
    Prog I (Option (Text × ℕ)) :=
  if hasTarget = false then pure none
  else do
    let (name, remembered) ← external (.inMemory action)
    let there ← if name = [] then pure false
      else external (.exists action.actionType.targetDoctype name)
    if there = false then pure none
    else do
      let docstatus ← tryCatch (external (.docstatus action.actionType.targetDoctype name))
        fun _ => pure remembered
      pure (some (name, docstatus))

/-- What is known of the side effect of a failed call. -/
def sideEffectState (action : ProposedAction I) (target : Option (Text × ℕ))
    (isUncertain : Bool) : String :=
  if isUncertain = false then "NOT_APPLIED"
  else if target.map Prod.snd = some (if cancels action.actionType = true then 2 else 1) then
    "APPLIED_BUT_RESPONSE_FAILED"
  else "UNKNOWN"

/-- The evidence of a failed call, for an uncertain result or a cancellation. -/
def recoveryEvidence (action : ProposedAction I) (target : Option (Text × ℕ))
    (isUncertain : Bool) (failure : Text) : Option Dict :=
  if (isUncertain || cancels action.actionType) = true then
    some (Governance.record
      [("operation", Value.ofString (if cancels action.actionType = true then "cancel"
          else "p2p_write")),
        ("side_effect_state", Value.ofString (sideEffectState action target isUncertain)),
        ("target_observed", Value.bool target.isSome),
        ("target_docstatus", ((target.map fun t => Value.int t.2).getD .none)),
        ("manual_intervention", Value.bool isUncertain),
        ("recovery_action", Value.ofString (if isUncertain = true then
          "read_only_reconcile_then_manual_intervention"
          else "inspect_failure_and_repropose_after_state_recheck")),
        ("reason", Value.str failure)])
  else none

/-- The transaction that `_finalize_failure` tries to commit. -/
def recordP2pFailure (reservationId : Uuid) (failure : Failure) (isUncertain hasTarget : Bool) :
    Prog I Unit := do
  let reservation ← getReservation args.key reservationId
  let doc ← getAction args.actionId
  let run ← external (.getRun reservation.identity.run)
  let action ← loadActionFromDoc doc
  if reservation.status ≠ .started then pure ()
  else do
    let persisted ← persistedTarget action hasTarget
    let name ← boundedText (Text.ofString failure.name) "failure_category" 80
    let targetName ←
      match persisted with
      | some (target, _) => do
          let target ← boundedText target "target_name" 140
          pure (some target)
      | none => pure none
    let receipt ← newReceipt action reservation
      { finalState := failedState isUncertain
        responseCategory := if isUncertain = true then uncertainResult else failure.category
        failureCategory := some name
        targetName := targetName
        verifiedFields := []
        reconciliationEvidence := recoveryEvidence action persisted isUncertain name.text }
    persistExecutionReceipt user receipt false
    let _ ← updateReservation reservation (failedState isUncertain)
      { targetName := targetName
        receipt := some receipt.receiptId
        responseCategory := some (if isUncertain = true then uncertainResult else failure.category)
        failureCategory := some name }
    let run ← if isUncertain = true ∧ run.state = .executing then
        external (.setRunState run .reconciliationRequired)
      else pure run
    if doc.state = .approved then
      transitionActionState user action.actionId
        { target := .expired
          expectedVersion := doc.stateVersion
          reason := name.text.take 2000
          approvalDigest := some action.digest }
    external (.audit run reservation.identity.correlationId "REJECTED" (some name.text))
    call .commit

/-- `_finalize_failure`. -/
def finalizeP2pFailure (reservationId : Uuid) (failure : Failure) (isUncertain hasTarget : Bool) :
    Prog I Unit :=
  tryCatch (recordP2pFailure user args reservationId failure isUncertain hasTarget) fun _ =>
    call .rollback

/-- The handler of a failure past the reservation; it always raises. A target is at hand
once the operation has started. -/
def failP2p {α : Type} (reservation : Reservation) (run : Uuid) (started : Bool) (e : Raised) :
    Prog I α := do
  let failure := mapExecutionError e
  let isUncertain := failure.category.name = "UNCERTAIN_RESULT" ||
    started && !knownControllerFailures.contains failure.name
  call .rollback
  finalizeP2pFailure user args reservation.identity.reservationId failure isUncertain started
  tryCatch (external (.syncPlan run)) fun _ => pure ()
  throw (faultOf (if isUncertain = true then "UNCERTAIN_RESULT" else failure.category.name)
    "governed P2P execution failed" (if isUncertain = true then 503 else failure.statusCode))

/-! ## Reconciliation -/

/-- What the target of a reconciliation reads back, if it does. -/
def readTarget (action : ProposedAction I) (target : Option Text) : Prog I Dict :=
  match target with
  | none => pure []
  | some name =>
      tryCatch
        (do
          external (.loadTarget action name)
          external (.readBack action name))
        fun e =>
          match e with
          | .other "ReadBackMismatch" => pure []
          | .fault f => if f.code = "PERMISSION_DENIED" then throw e else pure []
          | e => throw e

/-- The reason of a reconciliation. -/
def reconciledReason (reconciled : Bool) : String :=
  if reconciled = true then "one reviewed P2P target read back"
  else "target identity or critical fields could not be verified"

/-- `response`, for what it raises. -/
def p2pResponse (locked : LockedAction I) (doc : StoredAction I)
    (receipt : Option ExecutionReceipt) : Prog I Unit := do
  match receipt with
  | some receipt => serializeReceiptForActor user locked.action receipt user
  | none => pure ()
  serializeAction user doc (some user)

/-- The last states of the records of a reconciliation. -/
def settleP2p (locked : LockedAction I) (run : RunRow) (reservation : Reservation)
    (existing : Option ExecutionReceipt) (target : Option Text) (verified : Dict)
    (found : Option (RequiredText 140)) : Prog I Unit := do
  let reconciled := found.isSome
  let state : ReceiptState := if reconciled = true then .reconciledSuccess else .manualIntervention
  let ambiguous ← boundedText "AMBIGUOUS_P2P_RESULT" "failure_category" 80
  let failure := if reconciled = true then none
    else some (reservation.failureCategory.getD ambiguous)
  let reservation ← requireReconciliation reservation
  let receipt ← reconciliationReceipt locked.action reservation existing
    { finalState := state
      responseCategory := if reconciled = true then erpSuccess else uncertainResult
      failureCategory := failure
      targetName := found
      verifiedFields := verified
      reconciliationEvidence := some (Governance.record
        [("reason", Value.ofString (reconciledReason reconciled)),
          ("target_name", (target.map Value.str).getD .none),
          ("verified", Value.bool reconciled),
          ("reconciliation_correlation_id", args.correlationId.value)]) }
  storeReceipt user existing receipt
  if reconciled = true then do
    transitionActionState user locked.action.actionId
      { target := .executed
        expectedVersion := locked.doc.stateVersion
        reason := "P2P target was found by read-only reconciliation"
        approvalDigest := some locked.action.digest }
    let _ ← updateReservation reservation .reconciledSuccess
      { targetName := found
        receipt := some receipt.receiptId
        responseCategory := some erpSuccess }
  else do
    if locked.doc.state = .approved then
      transitionActionState user locked.action.actionId
        { target := .expired
          expectedVersion := locked.doc.stateVersion
          reason := (Text.ofString (reconciledReason reconciled)).take 2000
          approvalDigest := some locked.action.digest }
    let _ ← updateReservation reservation .manualIntervention
      { receipt := some receipt.receiptId
        responseCategory := some uncertainResult
        failureCategory := failure }
    let _ ← if run.state = .executing then external (.setRunState run .reconciliationRequired)
      else pure run
  external (.syncPlan run.name)
  external (.audit run args.correlationId (if reconciled = true then "CACHED" else "REJECTED")
    (some (Text.ofString state.name)))
  call .commit
  let stored ← getAction locked.action.actionId
  p2pResponse user locked stored (some receipt)

/-- The name of the target that a reconciliation looks for. -/
def targetToFind (action : ProposedAction I) (reservation : Reservation) : Option Text :=
  match reservation.targetName with
  | some name => some name.text
  | none =>
      if action.actionType ∈ sourceActions then
        some (strItem (payloadDict action.toProposal) "source_name")
      else none

/-- `reconcile_p2p_action`. -/
def reconcileP2p : Prog I Unit := do
  authenticate user
  let run ← lockRunForAction args.actionId
  let locked ← lockAction args.actionId
  if locked.action.actionType.isP2p = false ∨ locked.action.digest ≠ args.digest then
    throw (conflicts "reconciliation identity conflicts")
  if locked.action.actionType ∉ enabledP2pActionTypes then throw notEnabled
  match ← reservationByKey args.key with
  | none => throw (unavailable "P2P execution reservation is unavailable")
  | some reservation => do
      let key ← lift (executionKey locked.action)
      reservationIdentityMatches reservation locked.action key user
      let existing ← namedReceipt reservation
        (uncertain "P2P reconciliation Receipt is unavailable")
      if isOpen reservation.status = false then p2pResponse user locked locked.doc existing
      else do
        let expired ← leaseExpired reservation
        if expired = false then p2pResponse user locked locked.doc existing
        else do
          let target := targetToFind locked.action reservation
          let verified ← readTarget locked.action target
          if verified ≠ [] ∧ locked.doc.state = .approved then do
            let name ← boundedText (target.getD []) "target_name" 140
            settleP2p user args locked run reservation existing target verified (some name)
          else settleP2p user args locked run reservation existing target verified none

/-! ## Execution -/

/-- `_replay`. -/
def replayP2p (locked : LockedAction I) (run : RunRow) (reservation : Reservation) :
    Prog I Unit := do
  let key ← lift (executionKey locked.action)
  reservationIdentityMatches reservation locked.action key user
  match reservation.receipt, reservation.targetName with
  | some receiptId, some targetName => do
      if locked.doc.state ≠ .executed then
        throw (uncertain "verified P2P replay evidence is incomplete")
      let receipt ← getReceipt reservation.identity.idempotencyKey receiptId doesNotExist
      external (.loadTarget locked.action targetName.text)
      external (.verifyReceipt locked.action receipt user)
      external (.audit run reservation.identity.correlationId "CACHED" none)
      serializeReceipt user receipt (some user)
      serializeAction user locked.doc (some reservation.identity.executor)
  | _, _ => throw (uncertain "verified P2P replay evidence is incomplete")

/-- The checks after the source is locked, which are made again for a new document. -/
def recheckP2p : Prog I (LockedAction I × RunRow) := do
  preExecuteRecheck user args.actionId args.digest args.key
  let run ← lockRunForAction args.actionId
  let locked ← lockAction args.actionId
  external (.dependencies locked.action.actionId)
  if locked.action.actionType ∈ createActions then do
    preExecuteRecheck user args.actionId args.digest args.key
    let run ← lockRunForAction args.actionId
    let locked ← lockAction args.actionId
    pure (locked, run)
  else pure (locked, run)

/-- The operation, and the last states of its records. -/
def performP2p (reservation : Reservation) (locked : LockedAction I) (run : RunRow) :
    Prog I Unit := do
  let target ← external (.write locked.action)
  let verified ← external (.readBack locked.action target)
  let targetName ← boundedText target "target_name" 140
  let receipt ← newReceipt locked.action reservation
    { finalState := .succeeded
      responseCategory := erpSuccess
      failureCategory := none
      targetName := some targetName
      verifiedFields := verified
      reconciliationEvidence := none }
  persistExecutionReceipt user receipt true
  transitionActionState user locked.action.actionId
    { target := .executed
      expectedVersion := locked.locked.stateVersion
      reason := Text.ofString
        s!"{locked.action.actionType.targetDoctype} action succeeded and was read back"
      approvalDigest := some locked.action.digest }
  let _ ← updateReservation reservation .succeeded
    { targetName := some targetName
      receipt := some receipt.receiptId
      responseCategory := some erpSuccess }
  external (.audit run args.correlationId "SUCCEEDED" none)
  external (.syncPlan run.name)
  call .commit
  let stored ← getAction locked.action.actionId
  serializeAction user stored (some reservation.identity.executor)

/-- `_release_p2p_source_locks`, which raises nothing. -/
def releaseSource (locks : List Text) : Prog I Unit :=
  tryCatch (external (.releaseSource locks)) fun _ => pure ()

/-- The checks and the operation while the source is locked. A failure of the operation is
told from one before it. -/
def operateP2p (reservation : Reservation) (run : RunRow) : Prog I Unit := do
  let (locked, run) ← tryCatch
    (do
      let (locked, run) ← recheckP2p user args
      external (.prepare locked.action)
      pure (locked, run))
    fun e => failP2p user args reservation run.name false e
  tryCatch (performP2p user args reservation locked run) fun e =>
    failP2p user args reservation run.name true e

/-- The executor past the commit of its reservation. -/
def executeP2pReserved (action : ProposedAction I) (reservation : Reservation) (run : RunRow) :
    Prog I Unit := do
  let locks ← tryCatch (external (.lockSource action)) fun e =>
    failP2p user args reservation run.name false e
  tryCatch (operateP2p user args reservation run) fun e => do
    releaseSource locks
    throw e
  releaseSource locks

/-- The executor past its checks of the arguments and of an earlier reservation. -/
def executeP2pNew (key : ExecutionKey) : Prog I Unit := do
  preExecuteRecheck user args.actionId args.digest args.key
  let run ← lockRunForAction args.actionId
  let locked ← lockAction args.actionId
  let (reservation, created) ← insertReservation locked.action key user
  if created = false then throw (conflicts "execution is already reserved")
  else do
    commitReservation run
    executeP2pReserved user args locked.action reservation run

/-- `execute_p2p_action`. -/
def executeP2p : Prog I Unit := do
  authenticate user
  let run ← lockRunForAction args.actionId
  let locked ← lockAction args.actionId
  if locked.action.actionType.isP2p = false then
    throw (faultOf "INVALID_INPUT" "only Phase 10 P2P actions are supported" 400)
  if locked.action.actionType ∉ enabledP2pActionTypes then throw notEnabled
  if locked.action.runId ≠ run.name ∨ locked.action.digest ≠ args.digest then
    throw (conflicts "execution digest or Run conflicts")
  if locked.action.idempotencyKey ≠ args.key then throw (conflicts "idempotency key conflicts")
  external (.dependencies locked.action.actionId)
  let key ← lift (executionKey locked.action)
  match ← reservationByKey args.key with
  | some existing => do
      reservationIdentityMatches existing locked.action key user
      if isSucceeded existing.status = true then replayP2p user locked run existing
      else do
        let expired ← if existing.status = .started then leaseExpired existing else pure false
        if expired = true then reconcileP2p user args
        else if existing.status = .settled .reconciliationRequired then
          throw (uncertain "execution result requires reconciliation")
        else throw (conflicts "execution is already reserved or finalized")
  | none => executeP2pNew user args key

end Execution
