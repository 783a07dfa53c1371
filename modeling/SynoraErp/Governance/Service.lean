import SynoraErp.Governance.ActionState
import SynoraErp.Governance.Decision
import SynoraErp.Governance.RoundTrip

/-!
# Governance records

The stored actions with their policy and approval decisions, and the calls that write
them. A call is modelled up to its last write: what follows only builds the answer, and
may still raise.
-/

namespace Governance

open Python

variable (I : Interpreter)

/-- A row of `Synora Proposed Action`. -/
structure StoredAction where
  action : ProposedAction I
  state : ActionState
  stateVersion : ℕ
  stateReason : Text
  stateChangedBy : Text

/-- The records of the service. -/
structure Records where
  actions : List (StoredAction I)
  policies : List PolicyDecision
  approvals : List ApprovalDecision

/-- The user of a call and what the user may do. -/
structure Session where
  user : Text
  systemManager : Bool

variable {I}

/-- `_authenticated_actor`. -/
def authenticatedActor (session : Session) : Result Text :=
  if session.user = [] ∨ session.user = Text.ofString "Guest" then
    .error (.gatewayFault ⟨"AUTHENTICATION_REQUIRED", "authenticated user required", 401⟩)
  else .ok session.user

/-- `GatewayFault("PERMISSION_DENIED", message, 403)`. -/
def denied (message : String) : Exn := .gatewayFault ⟨"PERMISSION_DENIED", message, 403⟩

/-- `GatewayFault("NOT_FOUND", message, 404)`. -/
def notFound (message : String) : Exn := .gatewayFault ⟨"NOT_FOUND", message, 404⟩

namespace Records

/-- The row of an action. -/
def find? (r : Records I) (actionId : Text) : Option (StoredAction I) :=
  r.actions.find? fun row => row.action.actionId.text = actionId

/-- `_load_action`. -/
def loadAction (r : Records I) (actionId : Text) : Result (ProposedAction I) :=
  match r.find? actionId with
  | none => .error (notFound "governed action is not available")
  | some row => reload row.action

/-- `SynoraProposedAction.validate`, on the content of a row. -/
def validateAction (a : ProposedAction I) : Result Unit :=
  match reload a with
  | .error _ => .error (.validationError "ProposedAction contract is invalid")
  | .ok b =>
      if b.digest.text = a.digest.text then .ok ()
      else .error (.validationError "ProposedAction digest does not match typed content")

/-- `persist_proposed_action`. The run is given by its initiator, when there is one. -/
def persistProposedAction (session : Session) (runInitiator : Option Text) (a : ProposedAction I)
    (r : Records I) : Result (Records I) := do
  let actor ← authenticatedActor session
  if actor ≠ a.initiator.text then
    .error (denied "action initiator does not match session")
  else
    match runInitiator with
    | none => .error (.gatewayFault ⟨"RUN_REJECTED", "run is not available", 404⟩)
    | some owner =>
        if owner ≠ a.initiator.text then .error (denied "action run initiator does not match")
        else if ∃ row ∈ r.actions, row.action.idempotencyKey = a.idempotencyKey then
          .error (conflict "idempotency key already exists")
        else if (r.find? a.actionId.text).isSome then
          .error (conflict "governance record already exists")
        else do
          validateAction a
          .ok { r with actions := r.actions ++ [⟨a, .draft, 1, "created", a.initiator.text⟩] }

/-- `persist_policy_decision`. -/
def persistPolicyDecision (session : Session) (decision : PolicyDecision) (r : Records I) :
    Result (Records I) := do
  let actor ← authenticatedActor session
  if actor ≠ decision.actor.text then .error (denied "policy actor does not match session")
  else do
    let action ← r.loadAction decision.actionId.text
    if action.digest ≠ decision.proposalDigest then
      .error (conflict "policy decision digest conflicts")
    else if ∃ p ∈ r.policies, p.decisionId = decision.decisionId then
      .error (conflict "governance record already exists")
    else .ok { r with policies := r.policies ++ [decision] }

/-- `persist_approval_decision`. -/
def persistApprovalDecision (session : Session) (decision : ApprovalDecision) (r : Records I) :
    Result (Records I) := do
  let actor ← authenticatedActor session
  if actor ≠ decision.actor.text then .error (denied "approval actor does not match session")
  else do
    let action ← r.loadAction decision.actionId.text
    if action.digest ≠ decision.proposalDigest then
      .error (conflict "approval decision digest conflicts")
    else if ∃ p ∈ r.approvals, p.decisionId = decision.decisionId then
      .error (conflict "governance record already exists")
    else .ok { r with approvals := r.approvals ++ [decision] }

/-- A policy decision for an action and a digest allows. -/
def policyAllows (r : Records I) (actionId : Text) (digest : Digest) : Prop :=
  ∃ p ∈ r.policies, p.actionId.text = actionId ∧ p.proposalDigest = digest ∧ p.outcome = .allow

/-- An actor has decided on an action and a digest. -/
def actorDecided (r : Records I) (actionId : Text) (digest : Digest) (actor : Text)
    (decision : ApprovalOutcome) : Prop :=
  ∃ p ∈ r.approvals, p.actionId.text = actionId ∧ p.proposalDigest = digest ∧
    p.actor.text = actor ∧ p.decision = decision

instance (r : Records I) (actionId : Text) (digest : Digest) :
    Decidable (r.policyAllows actionId digest) :=
  inferInstanceAs (Decidable (∃ p ∈ r.policies, _ ∧ _ ∧ _))

instance (r : Records I) (actionId : Text) (digest : Digest) (actor : Text)
    (decision : ApprovalOutcome) : Decidable (r.actorDecided actionId digest actor decision) :=
  inferInstanceAs (Decidable (∃ p ∈ r.approvals, _ ∧ _ ∧ _ ∧ _))

end Records

/-- A call of `transition_action_state`. -/
structure TransitionCall where
  actionId : Text
  target : ActionState
  expectedVersion : ℕ
  reason : Text
  approvalDigest : Option Digest

namespace Records

/-- The proof `transition_action_state` asks for before an approval or a refusal. -/
def checkApproval (session : Session) (t : TransitionCall) (decision : ApprovalOutcome)
    (row : StoredAction I) (r : Records I) : Result Unit :=
  match t.approvalDigest with
  | none => .error (denied "approval proof is required")
  | some digest =>
      if digest ≠ row.action.digest then .error (denied "approval proof is required")
      else if ¬(r.policyAllows t.actionId digest ∧
          r.actorDecided t.actionId digest session.user decision) then
        .error (denied "approval proof is not available")
      else if session.user ≠ row.action.initiator.text ∧ session.systemManager = false then do
        let action ← r.loadAction t.actionId
        if action.actionType.approvalClass = "INITIATOR_CONFIRMATION" ∧
            session.user ≠ action.initiator.text then
          .error (denied "initiator confirmation is required")
        else if action.actionType.approvalClass = "INDEPENDENT_APPROVER" ∧
            session.user = action.initiator.text then
          .error (denied "independent approval requires a different user")
        else .ok ()
      else .ok ()

/-- The exception for the approver of an action, who may also close it. -/
def checkOwner (session : Session) (t : TransitionCall) (row : StoredAction I) (r : Records I) :
    Result Unit :=
  if session.user ≠ row.action.initiator.text ∧ session.systemManager = false then do
    let action ← r.loadAction t.actionId
    if (t.target = .executed ∨ t.target = .expired) ∧
        action.actionType.approvalClass = "INDEPENDENT_APPROVER" ∧
        t.approvalDigest = some row.action.digest ∧
        r.actorDecided t.actionId row.action.digest session.user .allow then .ok ()
    else .error (denied "governed action is not available")
  else .ok ()

/-- The permission of a transition. -/
def checkTransition (session : Session) (t : TransitionCall) (row : StoredAction I) (r : Records I) :
    Result Unit :=
  match t.target with
  | .approved => r.checkApproval session t .allow row
  | .declined => r.checkApproval session t .decline row
  | _ => r.checkOwner session t row

/-- The row after a transition. -/
def replaceAction (r : Records I) (row : StoredAction I) : Records I :=
  { r with actions := r.actions.map fun x =>
      if x.action.actionId = row.action.actionId then row else x }

/-- `transition_action_state`. -/
def transitionActionState (session : Session) (t : TransitionCall) (r : Records I) :
    Result (Records I) := do
  let actor ← authenticatedActor session
  match r.find? t.actionId with
  | none => .error (notFound "governed action is not available")
  | some row => do
      r.checkTransition session t row
      let next ← ActionState.transitionState row.state t.target row.stateVersion
        (some t.expectedVersion)
      if t.reason = [] ∨ 2000 < t.reason.length then
        .error (invalid "state transition reason is invalid")
      else do
        validateAction row.action
        .ok (r.replaceAction { row with
          state := next.1
          stateVersion := next.2
          stateReason := t.reason
          stateChangedBy := actor })

end Records

end Governance
