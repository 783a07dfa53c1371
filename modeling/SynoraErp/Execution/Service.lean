import SynoraErp.Execution.Record

/-!
# The services of a governed action

The programs of `governance/service.py` and `governance/policy.py` that an execution uses: how
an action is loaded, locked and moved to another state, how a receipt is persisted and
reconciled, and the check of every fact just before a write.
-/

namespace Execution

open Python Governance

variable {I : Interpreter}

/-- `_actor` and `_authenticated_actor`. -/
def authenticate (user : Text) : Prog I Unit := do
  let _ ← lift (authenticatedActor ⟨user, false⟩)

/-- A question to Frappe whether a user is a System Manager, unless the user owns the row. -/
def ownsOrManages (user : Text) (row : StoredAction I) : Prog I Bool :=
  if user = row.action.initiator.text then pure true else external (.systemManager user)

/-! ## Actions -/

/-- `frappe.get_doc("Synora Proposed Action", ...)`. -/
def getAction (actionId : Uuid) : Prog I (StoredAction I) := do
  match ← call (.get (.action actionId)) with
  | some (.action row) => pure row
  | _ => throw doesNotExist

/-- `_load_action_from_doc`. -/
def loadActionFromDoc (row : StoredAction I) : Prog I (ProposedAction I) :=
  lift (buildProposedAction I (.dict row.action.toDict))

/-- `_load_action`. -/
def loadAction (actionId : Uuid) : Prog I (ProposedAction I) := do
  match ← call (.get (.action actionId)) with
  | some (.action row) => lift (reload row.action)
  | _ => throw (unavailable "governed action is not available")

/-- `_lock_run_for_action`. -/
def lockRunForAction (actionId : Uuid) : Prog I RunRow := do
  match ← call (.get (.action actionId)) with
  | some (.action row) => external (.lockRun row.action.runId)
  | _ => throw (unavailable "governed action is not available")

variable (I) in
/-- What `_lock_action` gives back: the document, its action, and the row under the lock. -/
structure LockedAction where
  doc : StoredAction I
  action : ProposedAction I
  locked : StoredAction I

/-- `_lock_action`. -/
def lockAction (actionId : Uuid) : Prog I (LockedAction I) := do
  match ← call (.lock (.action actionId)) with
  | some (.action locked) => do
      let doc ← getAction actionId
      let action ← lift (reload doc.action)
      pure ⟨doc, action, locked⟩
  | _ => throw (unavailable "governed action is not available")

/-- `_read_authorized`. -/
def readAuthorized (user : Text) (row : StoredAction I) (allowedActor : Option Text) :
    Prog I Unit := do
  authenticate user
  if allowedActor = some user then pure ()
  else do
    let allowed ← ownsOrManages user row
    if allowed = true then pure () else throw (forbidden "governed action is not available")

/-- `serialize_action`, for what it raises. -/
def serializeAction (user : Text) (row : StoredAction I) (allowedActor : Option Text) :
    Prog I Unit := do
  readAuthorized user row allowedActor
  let action ← loadActionFromDoc row
  external (.calculate action)

/-- `serialize_receipt`, for what it raises. -/
def serializeReceipt (user : Text) (receipt : ExecutionReceipt) (allowedActor : Option Text) :
    Prog I Unit := do
  let row ← getAction receipt.actionId
  readAuthorized user row allowedActor

/-- `persist_proposed_action`. -/
def persistProposedAction (user : Text) (action : ProposedAction I) : Prog I Unit := do
  authenticate user
  if user ≠ action.initiator.text then
    throw (forbidden "action initiator does not match session")
  match ← external (.runInitiator action.runId) with
  | none => throw (faultOf "RUN_REJECTED" "run is not available" 404)
  | some owner => do
      if owner ≠ action.initiator.text then
        throw (forbidden "action run initiator does not match")
      let taken ← external (.keyTaken action.idempotencyKey)
      if taken = true then throw (conflicts "idempotency key already exists")
      lift (Records.validateAction action)
      let row : StoredAction I := ⟨action, .draft, 1, "created", action.initiator.text⟩
      let created ← insert (.action action.actionId) (.action row)
      if created = false then throw (conflicts "governance record already exists")
      serializeAction user row none

/-! ## Transitions of an action -/

/-- What an approval or a refusal asks for. -/
def checkApproval (user : Text) (actionId : Uuid) (row : StoredAction I)
    (decision : ApprovalOutcome) (approvalDigest : Option Digest) : Prog I Unit := do
  if approvalDigest ≠ some row.action.digest then throw (forbidden "approval proof is required")
  let policy ← external (.policyAllows actionId row.action.digest)
  let approval ← external (.decided actionId row.action.digest user decision)
  if (policy && approval) = false then throw (forbidden "approval proof is not available")
  let allowed ← ownsOrManages user row
  if allowed = true then pure ()
  else do
    let action ← loadAction actionId
    if action.actionType.approvalClass = "INITIATOR_CONFIRMATION" ∧
        user ≠ action.initiator.text then
      throw (forbidden "initiator confirmation is required")
    if action.actionType.approvalClass = "INDEPENDENT_APPROVER" ∧
        user = action.initiator.text then
      throw (forbidden "independent approval requires a different user")
    pure ()

/-- What any other transition asks for: the approver of an action may also close it. -/
def checkOwner (user : Text) (actionId : Uuid) (row : StoredAction I) (target : ActionState)
    (approvalDigest : Option Digest) : Prog I Unit := do
  let allowed ← ownsOrManages user row
  if allowed = true then pure ()
  else do
    let action ← loadAction actionId
    if (target = .executed ∨ target = .expired) ∧
        action.actionType.approvalClass = "INDEPENDENT_APPROVER" ∧
        approvalDigest = some row.action.digest then do
      let approved ← external (.decided actionId row.action.digest user .allow)
      if approved = true then pure () else throw (forbidden "governed action is not available")
    else throw (forbidden "governed action is not available")

def checkTransition (user : Text) (actionId : Uuid) (row : StoredAction I) (target : ActionState)
    (approvalDigest : Option Digest) : Prog I Unit :=
  match target with
  | .approved => checkApproval user actionId row .allow approvalDigest
  | .declined => checkApproval user actionId row .decline approvalDigest
  | target => checkOwner user actionId row target approvalDigest

/-- The arguments of `transition_action_state`. -/
structure ActionMove where
  target : ActionState
  expectedVersion : ℕ
  reason : Text
  approvalDigest : Option Digest

/-- The document that `transition_action_state` saves. -/
def movedAction (user : Text) (doc : StoredAction I) (next : ActionState × ℕ) (reason : Text) :
    StoredAction I :=
  { doc with
    state := next.1
    stateVersion := next.2
    stateReason := reason
    stateChangedBy := user }

/-- `transition_action_state`. -/
def transitionActionState (user : Text) (actionId : Uuid) (t : ActionMove) : Prog I Unit := do
  authenticate user
  match ← call (.lock (.action actionId)) with
  | some (.action row) => do
      checkTransition user actionId row t.target t.approvalDigest
      let next ← lift (ActionState.transitionState row.state t.target row.stateVersion
        (some t.expectedVersion))
      if t.reason = [] ∨ 2000 < t.reason.length then
        throw (faultOf "INVALID_INPUT" "state transition reason is invalid" 400)
      let doc ← getAction actionId
      lift (Records.validateAction doc.action)
      save (.action actionId) (.action doc) (.action (movedAction user doc next t.reason))
        (conflicts "governed action changed concurrently")
      serializeAction user (movedAction user doc next t.reason) (some user)
  | _ => throw (unavailable "governed action is not available")

/-! ## Receipts -/

/-- `persist_execution_receipt`. -/
def persistExecutionReceipt (user : Text) (receipt : ExecutionReceipt) (verified : Bool) :
    Prog I Unit := do
  authenticate user
  if user ≠ receipt.executor.text then
    throw (forbidden "receipt executor does not match session")
  if receipt.finalState.isSuccess = true ∧ verified = false then
    throw (forbidden "verified execution evidence is required")
  let action ← loadAction receipt.actionId
  if action.runId ≠ receipt.runId ∨ action.initiator ≠ receipt.initiator ∨
      action.idempotencyKey ≠ receipt.idempotencyKey ∨ action.digest ≠ receipt.proposalDigest then
    throw (conflicts "receipt action identity conflicts")
  let created ← insert (.receipt receipt.idempotencyKey) (.receipt receipt)
  if created = false then throw (conflicts "execution receipt already exists")
  serializeReceipt user receipt (some user)

/-- `frappe.get_doc("Synora Execution Receipt", ...)`. -/
def getReceipt (key : IdempotencyKey) (receiptId : Uuid) (missing : Raised) :
    Prog I ExecutionReceipt := do
  match ← call (.get (.receipt key)) with
  | some (.receipt receipt) => if receipt.receiptId = receiptId then pure receipt else throw missing
  | _ => throw missing

/-- `transition_execution_receipt`. -/
def transitionExecutionReceipt (user : Text) (receipt : ExecutionReceipt) : Prog I Unit := do
  authenticate user
  if user ≠ receipt.executor.text then
    throw (forbidden "receipt executor does not match session")
  if receipt.finalState ∉ reconciledStates then
    throw (conflicts "receipt reconciliation state is invalid")
  let doc ← getReceipt receipt.idempotencyKey receipt.receiptId
    (unavailable "execution receipt is not available")
  if doc.finalState ≠ .reconciliationRequired then
    throw (conflicts "execution receipt is already finalized")
  if receiptIdentity doc ≠ receiptIdentity receipt then
    throw (conflicts "receipt reconciliation identity conflicts")
  lift (validateReceipt doc receipt)
  save (.receipt receipt.idempotencyKey) (.receipt doc) (.receipt receipt)
    (conflicts "execution receipt changed concurrently")
  serializeReceipt user receipt (some user)

/-! ## The check before a write -/

/-- `RULE_ID`. -/
def ruleId : Text := "P6-MAP-20260827-v1"

/-- `RULE_VERSION`. -/
def ruleVersion : Text := "1"

/-- `_expire_if_owner`. -/
def expireIfOwner (user : Text) (locked : LockedAction I) (reason : Text) : Prog I Unit :=
  if user ≠ locked.action.initiator.text then pure ()
  else if locked.doc.state = .approved then
    transitionActionState user locked.action.actionId
      { target := .expired
        expectedVersion := locked.doc.stateVersion
        reason := reason
        approvalDigest := none }
  else pure ()

/-- The newest policy decision still allows the action. -/
def checkPolicy (action : ProposedAction I) : Prog I Unit := do
  match ← external (.latestPolicy action.actionId action.digest) with
  | none => throw (conflicts "policy is missing or stale")
  | some policy => do
      if policy.snapshotRef ≠ action.snapshotRef.text ∨ action.actionType.isP2p = true ∧
          (policy.matchedRule ≠ ruleId ∨ policy.ruleVersion ≠ ruleVersion) then
        throw (conflicts "policy is missing or stale")
      let passes ← external (.expiryPasses policy.expiresAt)
      if passes = false then throw (conflicts "policy is missing or stale")
      pure ()

/-- The newest approval still allows the action. -/
def checkLatestApproval (action : ProposedAction I) : Prog I ApprovalRow := do
  match ← external (.latestApproval action.actionId action.digest) with
  | none => throw (conflicts "approval is missing or stale")
  | some approval => do
      if approval.snapshotRef ≠ action.snapshotRef.text then
        throw (conflicts "approval is missing or stale")
      let passes ← external (.expiryPasses approval.expiresAt)
      if passes = false then throw (conflicts "approval is missing or stale")
      pure approval

/-- The gates and the deadline of the action, which is expired when one does not pass. -/
def checkGates (user : Text) (locked : LockedAction I) (run : RunRow)
    (approvedActor : Option Text) : Prog I Unit := do
  let failed ← external (.gateChecks locked.action run user approvedActor)
  let passes ← external (.expiryPasses (timestampText locked.action.expiresAt))
  if passes = false then
    expireIfOwner user locked "execution proof expired"
    throw (conflicts "governed action has expired")
  match failed with
  | some gate => do
      expireIfOwner user locked (Text.ofString s!"execution proof stale at {gate} gate")
      throw (conflicts s!"execution proof failed at {gate} gate")
  | none => pure ()

/-- `pre_execute_recheck`. -/
def preExecuteRecheck (user : Text) (actionId : Uuid) (digest : Digest) (key : IdempotencyKey) :
    Prog I Unit := do
  authenticate user
  let run ← lockRunForAction actionId
  let locked ← lockAction actionId
  if locked.action.actionType.isP2p = true ∧
      locked.action.actionType ∉ enabledP2pActionTypes then
    throw (conflicts "P2P action is not enabled in the current Phase 10 increment")
  if locked.action.runId ≠ run.name ∨ locked.action.digest ≠ digest then
    throw (conflicts "execution digest or Run conflicts")
  if locked.action.idempotencyKey ≠ key then throw (conflicts "idempotency key conflicts")
  if locked.locked.state ≠ .approved then throw (conflicts "governed action is not approved")
  let receipt ← call (.get (.receipt key))
  if receipt.isSome = true then throw (conflicts "idempotency key is already reserved")
  checkPolicy locked.action
  let approval ← checkLatestApproval locked.action
  let approvedActor :=
    if locked.action.actionType.approvalClass = "INITIATOR_CONFIRMATION" then none
    else some approval.actor
  if locked.action.actionType.approvalClass = "INDEPENDENT_APPROVER" ∧
      approvedActor ≠ some user then
    throw (forbidden "executor is not the approving user")
  checkGates user locked run approvedActor

end Execution
