import SynoraErp.Governance.Payload

/-!
# Results of policy gates
-/

namespace Governance

open Python

/-- `GATE_STATUSES`. -/
inductive GateStatus where
  | pass
  | fail
  | unknown
  deriving DecidableEq

/-- `GateResult`: its reason is short and not empty. -/
structure GateResult where
  status : GateStatus
  reason : Text
  reason_ne_nil : reason ≠ []
  reason_le : reason.length ≤ 2000

/-- `GateResult(status, reason)`. -/
def GateResult.build (status : GateStatus) (reason : Text) : Result GateResult :=
  if h : reason = [] ∨ 2000 < reason.length then
    .error (invalid "policy gate reason is invalid")
  else
    .ok
      { status := status
        reason := reason
        reason_ne_nil := (not_or.mp h).1
        reason_le := not_lt.mp (not_or.mp h).2 }

theorem GateResult.exists_build (status : GateStatus) {reason : Text} (hne : reason ≠ [])
    (hle : reason.length ≤ 2000) :
    ∃ result, GateResult.build status reason = .ok result ∧ result.status = status ∧
      result.reason = reason := by
  have h : ¬(reason = [] ∨ 2000 < reason.length) := not_or.mpr ⟨hne, not_lt.mpr hle⟩
  rw [GateResult.build, dif_neg h]
  exact ⟨_, rfl, rfl, rfl⟩

end Governance
