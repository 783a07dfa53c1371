import SynoraErp.Governance.ApprovalQueue
import SynoraErp.Governance.ExecutionScope
import SynoraErp.Governance.Service
import SynoraErp.Python.Zoned
import SynoraErp.Transition.Documents

/-!
# The records of an execution

The proposed actions, the reservations of their execution and its receipts, as rows of one
table, with what their controllers ask of a save. An action is found by its id; a
reservation and a receipt are found by their unique idempotency key, under which a row that
is asked for by its name has to have that name.
-/

namespace Execution

open Python Governance
open Transition (Program)
open Transition.Documents (Call)

/-! ## Exceptions -/

/-- What a request raises: a fault, or an exception of another class. -/
inductive Raised where
  | fault (f : GatewayFault)
  | other (className : String)
  deriving DecidableEq

/-- The class of an exception of the contracts. -/
def Raised.ofExn : Exn → Raised
  | .gatewayFault f => .fault f
  | .readBackMismatch _ => .other "ReadBackMismatch"
  | .typeError => .other "TypeError"
  | .lookupError => .other "LookupError"
  | .unicodeEncodeError => .other "UnicodeEncodeError"
  | .overflowError => .other "OverflowError"
  | .decimalOverflow => .other "Overflow"
  | .validationError _ => .other "ValidationError"

/-- A `GatewayFault` of a code. -/
def faultOf (code message : String) (statusCode : ℕ) : Raised :=
  .fault ⟨code, message, statusCode⟩

/-- A conflict of the services. -/
def conflicts (message : String) : Raised := faultOf "CONFLICT" message 409

def forbidden (message : String) : Raised := faultOf "PERMISSION_DENIED" message 403

def uncertain (message : String) : Raised := faultOf "UNCERTAIN_RESULT" message 503

def unavailable (message : String) : Raised := faultOf "NOT_FOUND" message 404

def doesNotExist : Raised := .other "DoesNotExistError"

/-! ## Rows -/

/-- A reading of the clock, in microseconds. -/
abbrev Reading := ℤ

/-- `IDENTITY_FIELDS` of a reservation. -/
structure ReservationIdentity where
  reservationId : Uuid
  action : Uuid
  run : Uuid
  idempotencyKey : IdempotencyKey
  proposalDigest : Digest
  targetDoctype : String
  executor : Text
  ownerToken : Uuid
  leaseExpiresAt : Reading
  attempt : ℕ
  startedAt : DateTime
  correlationId : Uuid
  deriving DecidableEq

/-- A Synora Execution Reservation. The fields past its status are `MUTABLE_FIELDS`. -/
structure Reservation where
  identity : ReservationIdentity
  status : ReservationStatus
  targetName : Option (RequiredText 140)
  receipt : Option Uuid
  responseCategory : Option (OneOf responseCategories)
  failureCategory : Option (RequiredText 80)
  completedAt : Option DateTime
  reconciliationCount : ℕ
  lastReconciledAt : Option DateTime

/-- A table and a unique key. -/
inductive Key where
  | action (actionId : Uuid)
  | reservation (idempotencyKey : IdempotencyKey)
  | receipt (idempotencyKey : IdempotencyKey)
  deriving DecidableEq

variable (I : Interpreter)

/-- A row. -/
inductive Record where
  | action (row : StoredAction I)
  | reservation (row : Reservation)
  | receipt (row : ExecutionReceipt)

variable {I}

/-! ## Controllers -/

/-- A status that `_update_reservation` may leave. -/
def isOpen : ReservationStatus → Bool
  | .started | .settled .reconciliationRequired => true
  | .settled _ => false

/-- `SynoraExecutionReservation.validate` of a save by the service, which sets both flags. -/
def validateReservation (before after : Reservation) : Result Unit :=
  if after.identity ≠ before.identity then
    .error (.validationError "Execution reservation identity is immutable")
  else if after.status ≠ before.status ∧ after.status ∉ before.status.transitions then
    .error (.validationError "Execution reservation transition is invalid")
  else .ok ()

theorem validateReservation_eq_ok {before after : Reservation} :
    validateReservation before after = .ok () ↔ after.identity = before.identity ∧
      (after.status = before.status ∨ after.status ∈ before.status.transitions) := by
  rw [validateReservation, ite_error_eq_ok, ite_error_eq_ok, not_not, not_and_or, not_not, not_not]
  simp

/-- The states that a reconciliation brings a receipt to. -/
def reconciledStates : List ReceiptState :=
  [.reconciledSuccess, .reconciledFailure, .manualIntervention]

/-- `IDENTITY_FIELDS` of a receipt. -/
structure ReceiptIdentity where
  receiptId : Uuid
  actionId : Uuid
  runId : Uuid
  idempotencyKey : IdempotencyKey
  initiator : RequiredText 140
  approver : Option (RequiredText 140)
  executor : RequiredText 140
  proposalDigest : Digest
  startedAt : DateTime
  correlationId : Uuid
  deriving DecidableEq

def receiptIdentity (receipt : ExecutionReceipt) : ReceiptIdentity where
  receiptId := receipt.receiptId
  actionId := receipt.actionId
  runId := receipt.runId
  idempotencyKey := receipt.idempotencyKey
  initiator := receipt.initiator
  approver := receipt.approver
  executor := receipt.executor
  proposalDigest := receipt.proposalDigest
  startedAt := receipt.startedAt
  correlationId := receipt.correlationId

/-- `SynoraExecutionReceipt.validate` of a save by the service, which sets its flags. -/
def validateReceipt (before after : ExecutionReceipt) : Result Unit :=
  if before.finalState ≠ .reconciliationRequired ∨ after.finalState ∉ reconciledStates then
    .error (.validationError "ExecutionReceipt reconciliation transition is invalid")
  else if receiptIdentity after ≠ receiptIdentity before then
    .error (.validationError "ExecutionReceipt identity is immutable")
  else .ok ()

theorem validateReceipt_eq_ok {before after : ExecutionReceipt} :
    validateReceipt before after = .ok () ↔ before.finalState = .reconciliationRequired ∧
      after.finalState ∈ reconciledStates ∧ receiptIdentity after = receiptIdentity before := by
  rw [validateReceipt, ite_error_eq_ok, ite_error_eq_ok, not_or, not_not, not_not, not_not]
  simp [and_assoc]

/-! ## Calls to the outside -/

/-- The Run of an action, as it was locked or last saved. -/
structure RunRow where
  name : Uuid
  state : RunState
  stateVersion : ℕ

/-- The newest policy decision on an action. -/
structure PolicyRow where
  snapshotRef : Text
  matchedRule : Text
  ruleVersion : Text
  expiresAt : Text

/-- The newest approval of an action. -/
structure ApprovalRow where
  actor : Text
  snapshotRef : Text
  expiresAt : Text

variable (I) in
/-- The calls to the outside: the clock and the random source, the questions to Frappe and to
the tables of other services, the Run, and the ERP documents. `write` is the call that
creates, submits or cancels one. -/
inductive External where
  | uuid4
  | now
  | timestamp
  | enabled (user : Text)
  | hasPermission (doctype user : Text)
  | systemManager (user : Text)
  | expiryPasses (expiresAt : Text)
  | latestPolicy (actionId : Uuid) (digest : Digest)
  | latestApproval (actionId : Uuid) (digest : Digest)
  | policyAllows (actionId : Uuid) (digest : Digest)
  | decided (actionId : Uuid) (digest : Digest) (actor : Text) (decision : ApprovalOutcome)
  | gateChecks (action : ProposedAction I) (run : RunRow) (actor : Text)
      (approvedActor : Option Text)
  | keyTaken (idempotencyKey : IdempotencyKey)
  | calculate (action : ProposedAction I)
  | runInitiator (run : Uuid)
  | getRun (run : Uuid)
  | lockRun (run : Uuid)
  | moveToExecuting (run : RunRow)
  | setRunState (run : RunRow) (target : RunState)
  | closeRun (run : RunRow) (target : RunState) (correlationId : Uuid)
  | dependencies (actionId : Uuid)
  | lockSource (action : ProposedAction I)
  | releaseSource (locks : List Text)
  | prepare (action : ProposedAction I)
  | write (action : ProposedAction I)
  | readBack (action : ProposedAction I) (target : Text)
  | candidates (action : ProposedAction I)
  | loadTarget (action : ProposedAction I) (target : Text)
  | inMemory (action : ProposedAction I)
  | exists (doctype name : Text)
  | docstatus (doctype name : Text)
  | verifyReceipt (action : ProposedAction I) (receipt : ExecutionReceipt) (actor : Text)
  | audit (run : RunRow) (correlationId : Uuid) (outcome : String) (error : Option Text)
  | syncPlan (run : Uuid)

/-- What a call to the outside gives back. -/
abbrev External.Value : External I → Type
  | .uuid4 => Uuid
  | .now => Reading
  | .timestamp => DateTime
  | .enabled _ | .hasPermission .. | .systemManager _ | .expiryPasses _ | .policyAllows ..
  | .decided .. | .keyTaken _ | .exists .. => Bool
  | .latestPolicy .. => Option PolicyRow
  | .latestApproval .. => Option ApprovalRow
  | .gateChecks .. => Option String
  | .runInitiator _ => Option Text
  | .getRun _ | .lockRun _ | .moveToExecuting _ | .setRunState .. | .closeRun .. => RunRow
  | .lockSource _ => List Text
  | .write _ => Text
  | .readBack .. => Dict
  | .candidates .. => List Text
  | .inMemory _ => Text × ℕ
  | .docstatus .. => ℕ
  | _ => Unit

variable (I) in
/-- A program of a request. -/
abbrev Prog (α : Type) :=
  Program (Call Key (Record I) (External I)) (Call.Reply External.Value Raised) Raised α

/-- One call. -/
def call (c : Call Key (Record I) (External I)) : Prog I (c.Value External.Value) :=
  .call c fun reply => .ofExcept reply

/-- One call to the outside. -/
def external (x : External I) : Prog I x.Value := call (.external x)

/-- A computation of the contracts. -/
def lift {α : Type} (result : Result α) : Prog I α := .ofExcept (result.mapError .ofExn)

/-- `except (frappe.DuplicateEntryError, frappe.UniqueValidationError)`. -/
def isDuplicate (e : Raised) : Bool :=
  e = .other "DuplicateEntryError" || e = .other "UniqueValidationError"

/-- `doc.insert`; whether the row is new. -/
def insert (k : Key) (row : Record I) : Prog I Bool :=
  tryCatch (call (.insert k row)) fun e => if isDuplicate e then pure false else throw e

/-- `doc.save`, and the conflict that a service makes of a row which has changed. -/
def save (k : Key) (before after : Record I) (changed : Raised) : Prog I Unit :=
  tryCatch (call (.save k before after)) fun e =>
    throw (if e = .other "TimestampMismatchError" then changed else e)

end Execution
