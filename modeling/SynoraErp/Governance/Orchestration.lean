import Mathlib.Data.Prod.Lex
import SynoraErp.Governance.ActionState
import SynoraErp.Governance.Document
import SynoraErp.Order.SortedByKey

/-!
# Orchestration of a run

The entries of a run, the dependencies inferred between them, their projection into
plan steps, the chain built from the steps, and the guard every execution passes.
-/

namespace Governance

open Python

namespace ReceiptState

/-- `UNCERTAIN_RECEIPT_STATES`. -/
def isUncertain : ReceiptState → Bool
  | reconciliationRequired | manualIntervention => true
  | _ => false

/-- `FAILED_RECEIPT_STATES`. -/
def isFailed : ReceiptState → Bool
  | failed | reconciledFailure => true
  | _ => false

end ReceiptState

/-- `ACTION_ORDER`. -/
def actionOrder : ActionType → Option ℕ
  | .submitPo => some 10
  | .createPrDraft => some 20
  | .submitPr => some 30
  | .createPiDraft => some 40
  | .submitPi => some 50
  | .createPaymentEntryDraft => some 60
  | .submitPaymentEntry => some 70
  | .cancelPaymentEntry => some 80
  | .cancelPi => some 90
  | .cancelPr => some 100
  | .cancelPo => some 110
  | .createMrDraft | .createPoDraft => none

theorem isSome_actionOrder (t : ActionType) : (actionOrder t).isSome = t.isP2p := by
  cases t <;> rfl

/-- What an entry reads of a reservation. -/
structure EntryReservation where
  status : ReservationStatus
  target : Option (OneOf targetDoctypes × RequiredText 140)

variable (I : Interpreter)

/-- `_minimal_entry`: an action of a run with its latest receipt and reservation. Only
P2P actions are selected. -/
structure Entry where
  action : ProposedAction I
  isP2p : action.actionType.isP2p = true
  state : ActionState
  stateVersion : ℕ
  stateReason : Text
  createdAt : Text
  receipt : Option ExecutionReceipt
  reservation : Option EntryReservation
  reinvestigationRequired : Bool

/-- A document, by doctype and name. -/
abbrev Ref := Text × Text

variable {I}

/-! ## References -/

/-- `str(payload.get(key) or "")`, for a payload field that is a text when it is there. -/
def payloadText (payload : Dict) (key : String) : Text :=
  match item payload key with
  | .str t => t
  | _ => []

/-- A doctype and a name, when neither is empty. -/
def namedRef (doctype name : Text) : Option Ref :=
  if doctype = [] ∨ name = [] then none else some (doctype, name)

/-- The payload of an action as the `dict` it is stored as. -/
def payloadDict (p : Proposal I) : Dict :=
  match payloadValue p.payload with
  | .dict payload => payload
  | _ => []

/-- `source_doctype` and `source_name` of a payload. -/
def sourceRef (p : Proposal I) : Option Ref :=
  namedRef (payloadText (payloadDict p) "source_doctype")
    (payloadText (payloadDict p) "source_name")

/-- `target_doctype` and `target_name` of a receipt or a reservation. -/
def recordedRef (target : Option (OneOf targetDoctypes × RequiredText 140)) : Option Ref :=
  target.map fun t => (Text.ofString t.1.name, t.2.text)

/-- `_target_ref`. -/
def targetRef (p : Proposal I) (receipt : Option ExecutionReceipt)
    (reservation : Option EntryReservation) : Option Ref :=
  ((receipt.bind fun r => recordedRef r.target).or
    (reservation.bind fun r => recordedRef r.target)).or (sourceRef p)

/-- The references of a payment. -/
def referenceRefs (p : Proposal I) : List Ref :=
  match item (payloadDict p) "references" with
  | .list references => references.filterMap fun
      | .dict reference => namedRef (payloadText reference "reference_doctype")
          (payloadText reference "reference_name")
      | _ => none
  | _ => []

/-- A verified field as a cell; a receipt holds scalars only. -/
def Cell.ofValue : Value → Cell
  | .bool b => .bool b
  | .int n => .int n
  | .float x => .float x
  | .str t => .text t
  | _ => .none

/-- The document a verified field names. -/
def verifiedRef (entry : Text × Value) : Option Ref :=
  let cell := Cell.ofValue entry.2
  let names (suffix : String) : Bool := decide (Text.ofString suffix <:+ entry.1)
  if !cell.truthy then none
  else if names ".purchase_order" then some ("Purchase Order", cell.str I)
  else if names ".purchase_receipt" then some ("Purchase Receipt", cell.str I)
  else if names ".reference_name" then some ("Purchase Invoice", cell.str I)
  else none

/-- `_related_refs`. -/
def relatedRefs (p : Proposal I) (receipt : Option ExecutionReceipt) : List Ref :=
  (targetRef p receipt none).toList ++ (sourceRef p).toList ++ referenceRefs p ++
    match receipt with
    | some r => r.verifiedFields.filterMap (verifiedRef (I := I))
    | none => []

namespace Entry

def actionId (e : Entry I) : Text := e.action.actionId.text

def actionType (e : Entry I) : ActionType := e.action.actionType

/-- `ACTION_ORDER[action_type]`. -/
def rank (e : Entry I) : ℕ := (actionOrder e.actionType).getD 0

/-- The key entries are sorted by: the time of creation, then the action. -/
def key (e : Entry I) : Text ×ₗ Text := toLex (e.createdAt, e.actionId)

def refs (e : Entry I) : List Ref := relatedRefs e.action.toProposal e.receipt

/-- `_receipt_state`. -/
def receiptState (e : Entry I) : Option ReceiptState := e.receipt.map ExecutionReceipt.finalState

/-- The state of the receipt is in a set of states. -/
def receiptIn (e : Entry I) (states : ReceiptState → Bool) : Bool := e.receiptState.any states

/-- The status of the reservation is in a set of states. -/
def reservationIn (e : Entry I) (states : ReceiptState → Bool) : Bool :=
  e.reservation.any fun r =>
    match r.status with
    | .settled state => states state
    | .started => false

/-- An edge of the plan: an action of lower rank that shares a document. -/
def DependsOn (current prior : Entry I) : Prop :=
  prior.rank < current.rank ∧ ∃ ref ∈ current.refs, ref ∈ prior.refs

instance (current prior : Entry I) : Decidable (current.DependsOn prior) :=
  inferInstanceAs (Decidable (_ ∧ ∃ ref ∈ current.refs, ref ∈ prior.refs))

/-- The test of the guard on a dependency: executed, with a success receipt. -/
def Confirmed (e : Entry I) : Prop :=
  e.state = .executed ∧ e.receiptIn ReceiptState.isSuccess = true

instance (e : Entry I) : Decidable e.Confirmed :=
  inferInstanceAs (Decidable (_ ∧ _))

end Entry

/-- Entries by time of creation, then by action. -/
def sortEntries (entries : List (Entry I)) : List (Entry I) := SortedByKey.sortBy Entry.key entries

/-! ## Dependencies -/

/-- The dependencies of one entry among those before it, by rank, time and action. -/
def dependenciesAmong (prior : List (Entry I)) (current : Entry I) : List Text :=
  (SortedByKey.sortBy (fun p => toLex (p.rank, p.key))
    (prior.filter fun p => current.DependsOn p)).map Entry.actionId

/-- The edges of the entries that follow `prior`. -/
def dependencyEdges : List (Entry I) → List (Entry I) → List (Text × List Text)
  | _, [] => []
  | prior, current :: later =>
      (current.actionId, dependenciesAmong prior current) ::
        dependencyEdges (prior ++ [current]) later

/-- `infer_dependencies`. The filter keeps every entry, since `ACTION_ORDER` ranks every
P2P action. -/
def inferDependencies (entries : List (Entry I)) : List (Text × List Text) :=
  dependencyEdges [] (sortEntries (entries.filter fun e => (actionOrder e.actionType).isSome))

/-- `infer_dependencies(entries).get(action_id, ())`. -/
def dependenciesOf (entries : List (Entry I)) (actionId : Text) : List Text :=
  ((inferDependencies entries).lookup actionId).getD []

/-! ## Plan steps -/

/-- The states of a plan step. -/
inductive StepState where
  | planned
  | waitingApproval
  | ready
  | executing
  | waitingDependency
  | blocked
  | succeeded
  | failed
  | reconciliationRequired
  | reinvestigationRequired
  | cancelled
  | expired
  deriving DecidableEq

namespace StepState

def name : StepState → String
  | planned => "PLANNED"
  | waitingApproval => "WAITING_APPROVAL"
  | ready => "READY"
  | executing => "EXECUTING"
  | waitingDependency => "WAITING_DEPENDENCY"
  | blocked => "BLOCKED"
  | succeeded => "SUCCEEDED"
  | failed => "FAILED"
  | reconciliationRequired => "RECONCILIATION_REQUIRED"
  | reinvestigationRequired => "REINVESTIGATION_REQUIRED"
  | cancelled => "CANCELLED"
  | expired => "EXPIRED"

/-- `TERMINAL_STEP_STATES`. -/
def isTerminal : StepState → Bool
  | succeeded | failed | reconciliationRequired | reinvestigationRequired | cancelled
  | expired => true
  | _ => false

/-- The states of a dependency that block its dependents. -/
def blocks : StepState → Bool
  | failed | reconciliationRequired | reinvestigationRequired | cancelled | expired => true
  | _ => false

end StepState

/-- The state of a step before its dependencies are looked at. -/
def projected (e : Entry I) : StepState :=
  if e.receiptIn ReceiptState.isSuccess then .succeeded
  else if e.receiptIn ReceiptState.isFailed || e.reservationIn ReceiptState.isFailed ||
      decide (e.state = .policyRejected) then .failed
  else if e.receiptIn ReceiptState.isUncertain || e.reservationIn ReceiptState.isUncertain then
    .reconciliationRequired
  else if e.reservation.any fun r => decide (r.status = .started) then .executing
  else
    match e.state with
    | .executed => .reconciliationRequired
    | .awaitingApproval => .waitingApproval
    | .approved => .ready
    | .declined => .failed
    | .expired => .expired
    | .draft | .invalid | .policyRejected => .planned

/-- `P2PPlanStepView`. -/
structure PlanStepView where
  actionId : Text
  order : ℕ
  state : StepState
  dependsOn : List Text
  blockedReason : Option Text
  reinvestigationRequired : Bool

/-- `step_id`. -/
def PlanStepView.stepId (view : PlanStepView) : Text := Text.ofString "p2p-" ++ view.actionId.take 12

/-- `raw.get(dep, "BLOCKED")`. -/
def rawState (entries : List (Entry I)) (actionId : Text) : StepState :=
  ((entries.find? fun e => e.actionId = actionId).map projected).getD .blocked

/-- A step that is not terminal waits for its dependencies. -/
def gatedState (entries : List (Entry I)) (dependencies : List Text) (state : StepState) :
    StepState × Option Text :=
  let states := dependencies.map fun dep => (dep, rawState entries dep)
  match states.find? (fun d => d.2.blocks), states.find? (fun d => d.2 ≠ .succeeded) with
  | some failed, _ => (.blocked,
      some (Text.ofString "dependency " ++ failed.1 ++ Text.ofString " is " ++ failed.2.name))
  | none, some pending => (.waitingDependency,
      some (Text.ofString "waiting for dependency " ++ pending.1))
  | none, none => (state,
      if state = .waitingApproval then some "waiting for independent approval" else none)

/-- The view of one entry. -/
def stepView (entries : List (Entry I)) (order : ℕ) (e : Entry I) : PlanStepView :=
  let dependencies := dependenciesOf entries e.actionId
  let gated := if (projected e).isTerminal then (projected e, none)
    else gatedState entries dependencies (projected e)
  { actionId := e.actionId
    order := order
    state := gated.1
    dependsOn := dependencies
    blockedReason := gated.2
    reinvestigationRequired := e.reinvestigationRequired }

/-- `derive_step_views`. -/
def deriveStepViews (entries : List (Entry I)) : List PlanStepView :=
  (sortEntries entries).mapIdx fun index e => stepView (sortEntries entries) (index + 1) e

/-! ## The chain of a run -/

/-- `RUN_STATES`. -/
inductive RunState where
  | created
  | analyzing
  | proposed
  | awaitingApproval
  | executing
  | succeeded
  | failed
  | cancelled
  | reconciliationRequired
  | declined
  | expired
  deriving DecidableEq

/-- The states of a goal. -/
inductive GoalState where
  | missing
  | confirmed
  | stale
  | invalid
  deriving DecidableEq

/-- The statuses of a chain. -/
inductive ChainStatus where
  | cancelled
  | expired
  | failed
  | succeeded
  | reinvestigationRequired
  | reconciliationRequired
  | blocked
  | waitingGoalConfirmation
  | waitingBusinessFacts
  | waitingApproval
  | waitingDependency
  | executing
  | planned
  | inProgress
  deriving DecidableEq

/-- The progress of the goal, as far as a chain reads it. -/
structure GoalProgress where
  goalState : GoalState
  goalVersion : ℕ
  goalDigest : Option Text
  complete : Bool
  blockedReasons : List Text

/-- The progress a chain assumes when none is given. -/
def defaultProgress (goal : Option Dict) : GoalProgress :=
  let confirmed := goal.any fun g => !g.isEmpty
  { goalState := if confirmed then .confirmed else .missing
    goalVersion := if confirmed then 1 else 0
    goalDigest := none
    complete := confirmed
    blockedReasons := if confirmed then [] else
      ["P2P business goal requires initiator confirmation"] }

/-- The status of a goal that is not settled, when there is nothing else to wait for. -/
def goalStatus (goalState : GoalState) (businessComplete : Bool) : Option ChainStatus :=
  if goalState = .missing then some .waitingGoalConfirmation
  else if goalState ≠ .confirmed then some .reinvestigationRequired
  else if !businessComplete then some .waitingBusinessFacts
  else none

/-- `_overall_status`. -/
def overallStatus (runState : RunState) (views : List PlanStepView) (goalState : GoalState)
    (businessComplete : Bool) : ChainStatus :=
  let has (state : StepState) : Bool := views.any fun v => decide (v.state = state)
  if runState = .cancelled then .cancelled
  else if runState = .expired then .expired
  else if runState = .failed ∧ views = [] then .failed
  else if runState = .succeeded ∧ views = [] then .succeeded
  else if has .reinvestigationRequired || views.any (·.reinvestigationRequired) then
    .reinvestigationRequired
  else if has .reconciliationRequired then .reconciliationRequired
  else if has .blocked then .blocked
  else if has .failed then .failed
  else if views ≠ [] ∧ ∀ v ∈ views, v.state = .succeeded then
    (goalStatus goalState businessComplete).getD .succeeded
  else if has .waitingApproval then .waitingApproval
  else if has .waitingDependency then .waitingDependency
  else if has .executing then .executing
  else if views = [] then (goalStatus goalState businessComplete).getD .planned
  else .inProgress

/-- A row of the timeline. -/
structure TimelineRow where
  stepId : Text
  actionId : Text
  actionType : ActionType
  state : StepState
  targetDoctype : String
  targetName : Option Text
  dependsOn : List Text
  blockedReason : Option Text
  receiptState : Option ReceiptState
  receiptId : Option Text

/-- The row of a view and its entry. -/
def timelineRow (view : PlanStepView) (e : Entry I) : TimelineRow where
  stepId := view.stepId
  actionId := view.actionId
  actionType := e.actionType
  state := view.state
  targetDoctype := e.actionType.targetDoctype
  targetName := (targetRef e.action.toProposal e.receipt e.reservation).map Prod.snd
  dependsOn := view.dependsOn
  blockedReason := view.blockedReason
  receiptState := e.receiptState
  receiptId := e.receipt.map fun r => r.receiptId.text

/-- What `chain_from_entries` returns. -/
structure Chain where
  status : ChainStatus
  completionReady : Bool
  stepsComplete : Bool
  businessGoalComplete : Bool
  goal : Option Dict
  businessProgress : GoalProgress
  needsReinvestigation : Bool
  nextStepId : Option Text
  blockedReasons : List Text
  steps : List PlanStepView
  timeline : List TimelineRow

/-- The states of the next step. -/
def StepState.isNext : StepState → Bool
  | waitingApproval | ready | executing | waitingDependency => true
  | _ => false

/-- `chain_from_entries`. -/
def chainFromEntries (runState : RunState) (entries : List (Entry I)) (goal : Option Dict)
    (businessProgress : Option GoalProgress) : Chain :=
  let views := deriveStepViews entries
  let progress := businessProgress.getD (defaultProgress goal)
  let status := overallStatus runState views progress.goalState progress.complete
  let stepsComplete := !views.isEmpty && views.all fun v => decide (v.state = .succeeded)
  { status := status
    completionReady :=
      stepsComplete && decide (progress.goalState = .confirmed) && progress.complete
    stepsComplete := stepsComplete
    businessGoalComplete := progress.complete
    goal := goal
    businessProgress := progress
    needsReinvestigation := decide (status = .reinvestigationRequired)
    nextStepId := (views.find? fun v => v.state.isNext).map PlanStepView.stepId
    blockedReasons := views.filterMap (·.blockedReason) ++
      progress.blockedReasons.filter fun reason => !reason.isEmpty
    steps := views
    timeline := views.filterMap fun v =>
      (entries.find? fun e => e.actionId = v.actionId).map (timelineRow v) }

/-! ## The guard of an execution -/

/-- The most actions a run is read with. -/
def runLimit : ℕ := 200

/-- `_entries_for_run`: of the actions of a run, the first by time of creation and name. -/
def entriesForRun (rows : List (Entry I)) : List (Entry I) := (sortEntries rows).take runLimit

/-- The faults of the guard. -/
inductive DependencyFault where
  | actionUnavailable
  | dependencyUnavailable
  | notConfirmed (dependency reason : Text)
  deriving DecidableEq

namespace DependencyFault

def code : DependencyFault → String
  | actionUnavailable => "NOT_FOUND"
  | _ => "CONFLICT"

def statusCode : DependencyFault → ℕ
  | actionUnavailable => 404
  | _ => 409

def message : DependencyFault → Text
  | actionUnavailable => "governed action is not available"
  | dependencyUnavailable => "P2P action dependency is unavailable"
  | notConfirmed dependency reason =>
      Text.ofString "P2P action dependency is not confirmed: " ++ dependency ++
        Text.ofString " (" ++ reason ++ Text.ofString ")"

end DependencyFault

/-- Why a dependency is not confirmed. -/
def unconfirmedReason (e : Entry I) : Text :=
  if e.stateReason ≠ [] then e.stateReason
  else
    match e.receiptState with
    | some state => state.name
    | none => "not confirmed"

/-- The dependencies of the guard, in their order. -/
def assertConfirmed (entries : List (Entry I)) : List Text → Except DependencyFault Unit
  | [] => .ok ()
  | dependencyId :: rest =>
      match entries.find? fun e => e.actionId = dependencyId with
      | none => .error .dependencyUnavailable
      | some dependency =>
          if dependency.Confirmed then assertConfirmed entries rest
          else .error (.notConfirmed dependencyId (unconfirmedReason dependency))

/-- `assert_p2p_action_dependencies`, on the actions of the run. -/
def assertP2pActionDependencies (rows : List (Entry I)) (actionId : Text) :
    Except DependencyFault Unit :=
  let entries := entriesForRun rows
  match entries.find? fun e => e.actionId = actionId with
  | none => .error .actionUnavailable
  | some _ => assertConfirmed entries (dependenciesOf entries actionId)

/-! ## A goal that is confirmed again -/

/-- The state `_invalidate_pending_p2p_actions` moves a pending action to. -/
def invalidatedState : ActionState → Option ActionState
  | .draft => some .invalid
  | .awaitingApproval | .approved => some .expired
  | _ => none

/-- `_invalidate_pending_p2p_actions`, on one action. -/
def invalidatePending (reason : Text) (e : Entry I) : Result (Entry I) :=
  match invalidatedState e.state with
  | none => .ok e
  | some target => do
      let next ← ActionState.transitionState e.state target e.stateVersion (some e.stateVersion)
      .ok { e with
        state := next.1
        stateVersion := next.2
        stateReason := reason.take 2000 }

end Governance
