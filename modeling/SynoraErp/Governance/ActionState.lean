import SynoraErp.Governance.Receipt

/-!
# States of an action and of its reservation

The state machine of a proposed action, with its version, and the status of the
reservation an execution holds.
-/

namespace Governance

open Python

/-- `ACTION_STATES`. -/
inductive ActionState where
  | draft
  | invalid
  | policyRejected
  | awaitingApproval
  | approved
  | declined
  | expired
  | executed
  deriving DecidableEq

namespace ActionState

def name : ActionState → String
  | draft => "DRAFT"
  | invalid => "INVALID"
  | policyRejected => "POLICY_REJECTED"
  | awaitingApproval => "AWAITING_APPROVAL"
  | approved => "APPROVED"
  | declined => "DECLINED"
  | expired => "EXPIRED"
  | executed => "EXECUTED"

/-- `_TRANSITIONS`. -/
def transitions : ActionState → List ActionState
  | draft => [invalid, policyRejected, awaitingApproval]
  | awaitingApproval => [approved, declined, expired]
  | approved => [executed, expired]
  | invalid | policyRejected | declined | expired | executed => []

/-- `validate_transition`. -/
def validateTransition (current target : ActionState) : Result Unit :=
  if target ∉ current.transitions then
    .error (conflict "governed action state transition is not allowed")
  else .ok ()

/-- `transition_state`. -/
def transitionState (current target : ActionState) (stateVersion : ℕ)
    (expectedVersion : Option ℕ) : Result (ActionState × ℕ) :=
  if stateVersion < 1 then .error (conflict "governed action state version is invalid")
  else if expectedVersion.isSome ∧ expectedVersion ≠ some stateVersion then
    .error (conflict "governed action state changed concurrently")
  else do
    validateTransition current target
    .ok (target, stateVersion + 1)

theorem transitionState_eq_ok {current target next : ActionState} {stateVersion version : ℕ}
    {expectedVersion : Option ℕ} :
    transitionState current target stateVersion expectedVersion = .ok (next, version) ↔
      1 ≤ stateVersion ∧ (expectedVersion.isSome → expectedVersion = some stateVersion) ∧
        target ∈ current.transitions ∧ next = target ∧ version = stateVersion + 1 := by
  simp only [transitionState, ite_error_eq_ok, bind_eq_ok, validateTransition, not_not, not_lt,
    not_and, Except.ok.injEq, Prod.mk.injEq]
  constructor
  · rintro ⟨hversion, hexpected, -, ⟨htarget, -⟩, hnext, hversion'⟩
    exact ⟨hversion, hexpected, htarget, hnext.symm, hversion'.symm⟩
  · rintro ⟨hversion, hexpected, htarget, rfl, rfl⟩
    exact ⟨hversion, hexpected, (), ⟨htarget, trivial⟩, rfl, rfl⟩

/-- The position of a state on a path of transitions. -/
def stage : ActionState → ℕ
  | draft => 0
  | awaitingApproval => 1
  | approved => 2
  | invalid | policyRejected | declined | expired | executed => 3

/-- A transition goes forward, so no state is entered twice. -/
theorem stage_lt_of_mem_transitions {current target : ActionState}
    (h : target ∈ current.transitions) : current.stage < target.stage := by
  cases current <;> cases target <;> revert h <;> decide

end ActionState

/-- `STATUSES`: a reservation that has started, or the state of its receipt. -/
inductive ReservationStatus where
  | started
  | settled (state : ReceiptState)
  deriving DecidableEq

namespace ReservationStatus

def name : ReservationStatus → String
  | started => "STARTED"
  | settled state => state.name

/-- `TRANSITIONS`. -/
def transitions : ReservationStatus → List ReservationStatus
  | started => [settled .succeeded, settled .failed, settled .reconciliationRequired]
  | settled .reconciliationRequired =>
      [settled .reconciledSuccess, settled .reconciledFailure, settled .manualIntervention]
  | settled _ => []

end ReservationStatus

end Governance
