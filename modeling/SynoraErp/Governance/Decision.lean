import SynoraErp.Governance.ProposedAction

/-!
# Policy and approval decisions

The two records an approval is proved with, as their contracts accept them.
-/

namespace Governance

open Python

/-- `_CHECKS`, sorted. -/
def policyChecks : List String :=
  ["deterministic", "identity", "permission", "scope", "workflow_policy"]

/-- `_CHECK_VALUES`. -/
def checkValues : List String := ["PASS", "FAIL", "UNKNOWN"]

/-- The outcomes of a policy. -/
inductive PolicyOutcome where
  | allow
  | reject
  deriving DecidableEq

/-- The decisions of an approver. -/
inductive ApprovalOutcome where
  | allow
  | decline
  | changesRequested
  deriving DecidableEq

/-- `PolicyDecision`. A policy that allows has passed every check. -/
structure PolicyDecision where
  decisionId : Uuid
  actionId : Uuid
  proposalDigest : Digest
  actor : RequiredText 140
  checks : List (OneOf checkValues)
  checks_length : checks.length = policyChecks.length
  matchedRule : RequiredText 256
  ruleVersion : RequiredText 64
  outcome : PolicyOutcome
  reason : RequiredText 2000
  snapshotRef : RequiredText 256
  expiresAt : DateTime
  decidedAt : DateTime
  correlationId : Uuid
  allowed : outcome = .allow → ∀ check ∈ checks, check.name = "PASS"

/-- `ApprovalDecision`. -/
structure ApprovalDecision where
  decisionId : Uuid
  actionId : Uuid
  proposalDigest : Digest
  actor : RequiredText 140
  decision : ApprovalOutcome
  matchedRule : RequiredText 256
  snapshotRef : RequiredText 256
  expiresAt : DateTime
  reason : RequiredText 2000
  decidedAt : DateTime
  correlationId : Uuid

end Governance
