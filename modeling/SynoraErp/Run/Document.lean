import Mathlib.Logic.Relation
import SynoraErp.Gateway.Invocation
import SynoraErp.Gateway.Registry
import SynoraErp.Governance.Orchestration

/-!
# The document of a Run

A Synora Agent Run with the groups of fields its controller protects, the controller's
check of a save, and the table of its states. A reading of the clock is a count of
microseconds.
-/

namespace Run

open Python
open Governance (Exn RunState Uuid Digest)

/-- What a request raises: an exception of the services, or one of the database. -/
inductive Raised where
  | exn (e : Exn)
  | timestampMismatch
  | duplicateEntry
  | databaseError
  deriving DecidableEq

/-- A `GatewayFault` of a code. -/
def faultOf (code message : String) (statusCode : ℕ) : Raised :=
  .exn (.gatewayFault ⟨code, message, statusCode⟩)

/-! ## States -/

/-- `_TRANSITIONS`. -/
def transitions : RunState → List RunState
  | .created => [.analyzing, .proposed, .cancelled, .expired]
  | .analyzing => [.proposed, .failed, .cancelled, .created, .expired]
  | .proposed => [.awaitingApproval, .succeeded, .cancelled, .expired]
  | .awaitingApproval => [.declined, .expired, .executing, .cancelled]
  | .executing => [.succeeded, .failed, .reconciliationRequired, .cancelled, .expired]
  | .reconciliationRequired => [.succeeded, .failed, .cancelled, .expired]
  | .succeeded | .failed | .cancelled | .declined | .expired => []

/-- `CANCELLABLE_STATES`. -/
def cancellableStates : List RunState := [.created, .analyzing]

/-- `validate_transition`; the state of a Run is always one of the table. -/
def validateTransition (current target : RunState) : Except Raised Unit :=
  if target ∉ transitions current then
    .error (faultOf "CONFLICT" "run state transition is not allowed" 409)
  else .ok ()

@[simp] theorem validateTransition_eq_ok {current target : RunState} :
    validateTransition current target = .ok () ↔ target ∈ transitions current := by
  unfold validateTransition
  split_ifs with h <;> simp_all

/-- A state can be reached from another by transitions. -/
abbrev Leads : RunState → RunState → Prop :=
  Relation.ReflTransGen fun current target => target ∈ transitions current

/-! ## The document -/

inductive ExecutionMode where
  | deterministic
  | agent
  | planExecute
  deriving DecidableEq

inductive RunStatus where
  | active
  | revoked
  | expired
  deriving DecidableEq

/-- A reading of the clock, in microseconds. -/
abbrev Reading := ℤ

/-- `IMMUTABLE_FIELDS - CAPABILITY_FIELDS`. -/
structure RunIdentity where
  initiator : Text
  companyScope : Text
  warehouseScope : Option Text
  goal : Text
  executionMode : ExecutionMode
  timeWindowDays : ℤ
  capabilityAudience : Text
  workflowExpiresAt : Option Reading
  correlationId : Text
  deriving DecidableEq

/-- `CAPABILITY_FIELDS`. -/
structure Credential where
  capabilityDigest : Digest
  issuedAt : Reading
  expiresAt : Reading
  deriving DecidableEq

/-- `LIFECYCLE_FIELDS`. -/
structure Lifecycle where
  revoked : Bool
  status : RunStatus
  runState : RunState
  stateVersion : ℕ
  revokedAt : Option Reading
  revokedBy : Option Text
  revocationCorrelationId : Option Text
  deriving DecidableEq

/-- `P2P_GOAL_FIELDS`. -/
structure P2pGoal where
  schemaVersion : Text
  json : Option Text
  version : ℕ
  digest : Option Digest
  state : Text
  confirmedBy : Option Text
  confirmedAt : Option Reading
  deriving DecidableEq

/-- A Synora Agent Run. -/
structure AgentRun where
  purpose : Text
  identity : RunIdentity
  credential : Credential
  lifecycle : Lifecycle
  p2pGoal : P2pGoal
  deriving DecidableEq

namespace AgentRun

variable (run : AgentRun)

abbrev status : RunStatus := run.lifecycle.status

abbrev revoked : Bool := run.lifecycle.revoked

abbrev runState : RunState := run.lifecycle.runState

abbrev stateVersion : ℕ := run.lifecycle.stateVersion

/-- `run.status == "ACTIVE" and not run.revoked`. -/
def IsActive : Prop := run.status = .active ∧ run.revoked = false

instance decidableIsActive : Decidable run.IsActive := inferInstanceAs (Decidable (_ ∧ _))

end AgentRun

/-- The flags of a document that its controller reads. -/
structure Flags where
  revocation : Bool := false
  stateChange : Bool := false
  capabilityRotation : Bool := false
  p2pGoalUpdate : Bool := false

/-- `validate` of a document that is not new. -/
def validate (before after : AgentRun) (flags : Flags) : Except Raised Unit :=
  if after.identity ≠ before.identity ∨
      after.credential ≠ before.credential ∧ flags.capabilityRotation = false then
    .error (.exn <| .validationError "Synora Agent Run identity and scope are immutable")
  else if after.p2pGoal ≠ before.p2pGoal ∧ flags.p2pGoalUpdate = false then
    .error (.exn <| .validationError
      "Synora Agent Run P2P goal changes require the governed goal service")
  else if after.lifecycle ≠ before.lifecycle ∧ ¬(flags.revocation = true ∨
      flags.stateChange = true ∨ flags.capabilityRotation = true) then
    .error (.exn <| .validationError
      "Synora Agent Run lifecycle changes require the controlled transition path")
  else .ok ()

theorem identity_of_validate {before after : AgentRun} {flags : Flags}
    (h : validate before after flags = .ok ()) : after.identity = before.identity := by
  by_contra hidentity
  rw [validate, if_pos (Or.inl hidentity)] at h
  cases h

/-! ## How a save changes a Run -/

/-- The lifecycle of a Run after a save: its state is kept or takes one transition, and a
Run that is not active stays so. -/
structure Advances (before after : Lifecycle) : Prop where
  state : after.runState = before.runState ∧
      (after.stateVersion = before.stateVersion ∨ after.stateVersion = before.stateVersion + 1) ∨
    after.runState ∈ transitions before.runState ∧ after.stateVersion = before.stateVersion + 1
  revoked : before.revoked = true → after.revoked = true
  status : before.status ≠ .active → after.status ≠ .active

/-- What a save may change. -/
structure Changes (before after : AgentRun) : Prop where
  identity : after.identity = before.identity
  lifecycle : Advances before.lifecycle after.lifecycle
  credential : after.credential ≠ before.credential →
    before.IsActive ∧ before.runState = .analyzing ∧ after.lifecycle = before.lifecycle

/-- A Run as it is issued. -/
structure Issued (run : AgentRun) : Prop where
  active : run.IsActive
  runState : run.runState = .created
  stateVersion : run.stateVersion = 1

/-- What is known of a Run from an earlier version of it. -/
structure Precedes (earlier later : AgentRun) : Prop where
  identity : later.identity = earlier.identity
  stateVersion : earlier.stateVersion ≤ later.stateVersion
  leads : Leads earlier.runState later.runState
  /-- A version has one state. -/
  runState : later.stateVersion = earlier.stateVersion → later.runState = earlier.runState
  revoked : earlier.revoked = true → later.revoked = true
  status : earlier.status ≠ .active → later.status ≠ .active
  /-- The credential of a Run that is over is never replaced. -/
  credential : ¬earlier.IsActive → later.credential = earlier.credential

theorem Precedes.refl (run : AgentRun) : Precedes run run where
  identity := rfl
  stateVersion := le_rfl
  leads := .refl
  runState _ := rfl
  revoked h := h
  status h := h
  credential _ := rfl

theorem Precedes.not_isActive {earlier later : AgentRun} (h : Precedes earlier later)
    (hearlier : ¬earlier.IsActive) : ¬later.IsActive := by
  rintro ⟨hstatus, hrevoked⟩
  apply hearlier
  constructor
  · by_contra hover
    exact h.status hover hstatus
  · by_contra hover
    have hlater := h.revoked (by simpa using hover)
    rw [hrevoked] at hlater
    cases hlater

theorem Precedes.trans {first second third : AgentRun} (h : Precedes first second)
    (h' : Precedes second third) : Precedes first third where
  identity := h'.identity.trans h.identity
  stateVersion := h.stateVersion.trans h'.stateVersion
  leads := h.leads.trans h'.leads
  runState heq := by
    have hsecond : second.stateVersion = first.stateVersion :=
      le_antisymm (heq ▸ h'.stateVersion) h.stateVersion
    have hthird : third.stateVersion = second.stateVersion := heq.trans hsecond.symm
    exact (h'.runState hthird).trans (h.runState hsecond)
  revoked hfirst := h'.revoked (h.revoked hfirst)
  status hfirst := h'.status (h.status hfirst)
  credential hfirst := (h'.credential (h.not_isActive hfirst)).trans (h.credential hfirst)

theorem Changes.precedes {before after : AgentRun} (h : Changes before after) :
    Precedes before after where
  identity := h.identity
  stateVersion := by
    rcases h.lifecycle.state with ⟨-, heq | heq⟩ | ⟨-, heq⟩
    · exact heq.ge
    · exact (Nat.le_succ _).trans heq.ge
    · exact (Nat.le_succ _).trans heq.ge
  leads := by
    rcases h.lifecycle.state with ⟨hkept, -⟩ | ⟨hmoved, -⟩
    · rw [AgentRun.runState, AgentRun.runState, hkept]
    · exact .single hmoved
  runState heq := by
    rcases h.lifecycle.state with ⟨hkept, -⟩ | ⟨-, hversion⟩
    · exact hkept
    · exact absurd (heq.symm.trans hversion) (Nat.succ_ne_self _).symm
  revoked := h.lifecycle.revoked
  status := h.lifecycle.status
  credential hover := by
    by_contra hchanged
    exact hover (h.credential hchanged).1

end Run
