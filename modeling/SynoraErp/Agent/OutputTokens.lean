import SynoraErp.Agent.Budget

/-!
# Two counts of output tokens

A provider call bills `total - prompt`, so as not to count reasoning twice; the account of a
run adds the completion and the reasoning tokens. They agree on a cap when both counts lie
on one side of it, as they do for a provider that reports reasoning outside of completion.
-/

namespace Agent

open Python Provider

/-- A response with the counts of a usage block. -/
def answered (usage : Usage) (text : Text) : ProviderResponse where
  text := text
  toolCalls := []
  promptTokens := usage.promptTokens
  completionTokens := usage.completionTokens
  reasoningTokens := usage.reasoningTokens
  reasoningContentPresent := false

/-- The provider call accepts a usage block under the cap of the account. -/
def ProviderAccepts (account : BudgetAccount) (usage : Usage) (sha256 : Text) : Prop :=
  checkReportedUsage (some account.limits.maxOutputTokens) sha256 usage = .ok ()

/-- The account does not stop a response with the counts of the block for what it is by
itself. -/
def AccountAccepts (account : BudgetAccount) (usage : Usage) (text : Text) : Prop :=
  account.perCallStop (answered usage text) = none

/-- A count of the response is negative. -/
def HasNegative (usage : Usage) : Prop :=
  usage.promptTokens < 0 ∨ usage.completionTokens < 0 ∨ usage.reasoningTokens < 0

instance decidableHasNegative (usage : Usage) : Decidable (HasNegative usage) :=
  inferInstanceAs (Decidable (_ ∨ _))

/-- The tokens that the account counts as output. -/
def accountedOutput (usage : Usage) : ℤ := usage.completionTokens + usage.reasoningTokens

/-- Both counts are within the cap, or both are beyond it; a negative bill is beyond every
cap. -/
def SameSide (usage : Usage) (cap : ℤ) : Prop :=
  (0 ≤ usage.billedOutputTokens ∧ usage.billedOutputTokens ≤ cap ∧ accountedOutput usage ≤ cap) ∨
    ((usage.billedOutputTokens < 0 ∨ cap < usage.billedOutputTokens) ∧ cap < accountedOutput usage)

/-- No cap from 1 to 512 separates the counts. -/
def NeverSeparated (usage : Usage) : Prop :=
  (0 ≤ usage.billedOutputTokens ∧ usage.billedOutputTokens = accountedOutput usage) ∨
    (0 ≤ usage.billedOutputTokens ∧ usage.billedOutputTokens ≤ 1 ∧ accountedOutput usage ≤ 1) ∨
    ((usage.billedOutputTokens < 0 ∨ 512 < usage.billedOutputTokens) ∧
      512 < accountedOutput usage)

/-! ## What each side accepts -/

theorem providerAccepts_iff (account : BudgetAccount) (usage : Usage) (sha256 : Text) :
    ProviderAccepts account usage sha256 ↔
      ¬HasNegative usage ∧ 0 ≤ usage.billedOutputTokens ∧
        usage.billedOutputTokens ≤ account.limits.maxOutputTokens := by
  have htotal : usage.totalTokens = usage.billedOutputTokens + usage.promptTokens :=
    (sub_add_cancel _ _).symm
  unfold ProviderAccepts checkReportedUsage HasNegative
  dsimp only
  split_ifs with hnegative hbilled hcap
  · constructor
    · intro h
      cases h
    · rintro ⟨hcounts, h0, -⟩
      omega
  · constructor
    · intro h
      cases h
    · rintro ⟨-, h0, -⟩
      exact absurd h0 (not_le.mpr hbilled)
  · constructor
    · intro h
      cases h
    · rintro ⟨-, -, hle⟩
      exact absurd hle (not_le.mpr hcap)
  · simp only [true_iff]
    omega

theorem accountAccepts_iff (account : BudgetAccount) (usage : Usage) (text : Text) :
    AccountAccepts account usage text ↔
      ¬HasNegative usage ∧ accountedOutput usage ≤ account.limits.maxOutputTokens := by
  have hmin : min (min usage.promptTokens usage.completionTokens) usage.reasoningTokens < 0 ↔
      HasNegative usage := by
    rw [min_lt_iff, min_lt_iff, or_assoc, HasNegative]
  unfold AccountAccepts BudgetAccount.perCallStop answered
  dsimp only
  split_ifs with hnegative hcap
  · simp [hmin.mp hnegative]
  · simp only [false_iff, not_and, not_le]
    exact fun _ => hcap
  · simp only [true_iff]
    exact ⟨fun h => hnegative (hmin.mpr h), not_lt.mp hcap⟩

/-! ## When they agree -/

theorem accepts_iff_accepts (account : BudgetAccount) (usage : Usage) (sha256 text : Text) :
    (ProviderAccepts account usage sha256 ↔ AccountAccepts account usage text) ↔
      HasNegative usage ∨ SameSide usage account.limits.maxOutputTokens := by
  rw [providerAccepts_iff, accountAccepts_iff]
  by_cases hnegative : HasNegative usage
  · simp [hnegative]
  · simp only [hnegative, not_false_eq_true, true_and, false_or, SameSide]
    omega

/-- An account with a given cap. -/
def capped (cap : ℕ) (h : 1 ≤ cap ∧ cap ≤ 512) : BudgetAccount where
  limits :=
    { defaultLimits with
      maxOutputTokens := cap
      maxOutputTokens_mem := h }
  pricing := none
  requirePricing := false

theorem neverSeparated_iff (usage : Usage) :
    (∀ cap : ℕ, 1 ≤ cap ∧ cap ≤ 512 → SameSide usage cap) ↔ NeverSeparated usage := by
  unfold SameSide NeverSeparated
  constructor
  · intro h
    have hone := h 1 (by decide)
    have hlast := h 512 (by decide)
    have hbilled := h usage.billedOutputTokens.toNat
    have haccounted := h (accountedOutput usage).toNat
    omega
  · intro h cap hcap
    omega

/-- The provider call and the account agree on a usage block under a cap exactly when a
count is negative or the cap does not separate their counts, and under every cap exactly
when none does. -/
theorem outputTokens_agree_iff (usage : Usage) (sha256 text : Text) :
    (∀ account : BudgetAccount,
      (ProviderAccepts account usage sha256 ↔ AccountAccepts account usage text) ↔
        HasNegative usage ∨ SameSide usage account.limits.maxOutputTokens) ∧
      ((∀ account : BudgetAccount,
        ProviderAccepts account usage sha256 ↔ AccountAccepts account usage text) ↔
          HasNegative usage ∨ NeverSeparated usage) := by
  constructor
  · intro account
    exact accepts_iff_accepts account usage sha256 text
  · rw [← neverSeparated_iff]
    constructor
    · intro h
      by_cases hnegative : HasNegative usage
      · exact Or.inl hnegative
      · right
        intro cap hcap
        have hagree := (accepts_iff_accepts (capped cap hcap) usage sha256 text).mp (h _)
        exact hagree.resolve_left hnegative
    · intro h account
      apply (accepts_iff_accepts account usage sha256 text).mpr
      exact h.imp_right fun hsame => hsame _ account.limits.maxOutputTokens_mem

/-! ## The two conventions -/

/-- A provider that reports reasoning outside of completion is counted alike. -/
theorem neverSeparated_of_outside {usage : Usage} (hcounts : ¬HasNegative usage)
    (h : usage.totalTokens =
      usage.promptTokens + usage.completionTokens + usage.reasoningTokens) :
    NeverSeparated usage := by
  unfold HasNegative at hcounts
  unfold NeverSeparated Usage.billedOutputTokens accountedOutput
  omega

/-- A provider that reports reasoning inside of completion is counted alike only where the
reasoning makes no difference to any cap. -/
theorem neverSeparated_inside_iff {usage : Usage} (hcounts : ¬HasNegative usage)
    (h : usage.totalTokens = usage.promptTokens + usage.completionTokens) :
    NeverSeparated usage ↔
      usage.reasoningTokens = 0 ∨ usage.completionTokens + usage.reasoningTokens ≤ 1 ∨
        512 < usage.completionTokens := by
  unfold HasNegative at hcounts
  unfold NeverSeparated Usage.billedOutputTokens accountedOutput
  omega

/-- A usage block with the reasoning inside of the completion. -/
def reasoningInside : Usage where
  promptTokens := 10
  completionTokens := 500
  totalTokens := 510
  details := some ⟨400⟩

/-- The provider call accepts the block under the cap of 512, the account does not. -/
theorem outputTokens_disagree :
    ¬(ProviderAccepts (capped 512 (by decide)) reasoningInside [] ↔
      AccountAccepts (capped 512 (by decide)) reasoningInside []) := by
  rw [providerAccepts_iff, accountAccepts_iff]
  decide

end Agent
