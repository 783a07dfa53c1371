import SynoraErp.Agent.Budget

/-!
# Preflight

A call that passed its preflight stays within the budget of its run, when the provider
counts no more prompt tokens than were estimated and no more output tokens than its cap: the
input and the output of a call are reserved apart, each rounded up, and the most expensive
kind of output token is reserved for all.
-/

namespace Agent

open Python Provider

variable {I : Interpreter}

/-! ## The cost of a call is within its reservation -/

theorem le_highestPrice (pricing : Pricing) :
    pricing.output ≤ (if pricing.reasoning ≤ pricing.output then pricing.output
        else pricing.reasoning) ∧
      pricing.reasoning ≤ (if pricing.reasoning ≤ pricing.output then pricing.output
        else pricing.reasoning) := by
  by_cases h : pricing.reasoning ≤ pricing.output
  · rw [if_pos h]
    exact ⟨le_rfl, h⟩
  · rw [if_neg h]
    exact ⟨(not_le.mp h).le, le_rfl⟩

/-- Output is priced at the highest of its prices. -/
theorem output_le_reserved (pricing : Pricing) {price : ℚ} (hprice : 0 ≤ price)
    (houtput : pricing.output ≤ price) (hreasoning : pricing.reasoning ≤ price)
    {completion reasoning cap : ℕ} (hcap : completion + reasoning ≤ cap) :
    (completion : ℚ) * pricing.output + reasoning * pricing.reasoning ≤ cap * price := by
  calc (completion : ℚ) * pricing.output + reasoning * pricing.reasoning
      ≤ completion * price + reasoning * price := by
        apply add_le_add
        · exact mul_le_mul_of_nonneg_left houtput (Nat.cast_nonneg completion)
        · exact mul_le_mul_of_nonneg_left hreasoning (Nat.cast_nonneg reasoning)
    _ = ((completion + reasoning : ℕ) : ℚ) * price := by
        rw [Nat.cast_add, add_mul]
    _ ≤ cap * price := mul_le_mul_of_nonneg_right (Nat.cast_le.mpr hcap) hprice

/-- A call costs at most its reservation. -/
theorem costMicrousd_le_reservation (account : BudgetAccount) (pricing : Pricing)
    {prompt units completion reasoning : ℕ} (hprompt : prompt ≤ units)
    (hcap : completion + reasoning ≤ account.limits.maxOutputTokens) :
    pricing.costMicrousd prompt completion reasoning ≤ account.reservation pricing units := by
  obtain ⟨houtput, hreasoning⟩ := le_highestPrice pricing
  have hprice := pricing.output_nonneg.trans houtput
  have hreserved := output_le_reserved pricing hprice houtput hreasoning hcap
  have hinput : (prompt : ℚ) * pricing.input ≤ units * pricing.input :=
    mul_le_mul_of_nonneg_right (Nat.cast_le.mpr hprompt) pricing.input_nonneg
  have hmillion : (0 : ℚ) ≤ microusdPerMillion := by
    rw [microusdPerMillion]
    norm_num
  rw [BudgetAccount.reservation, Pricing.costMicrousd, Pricing.costMicrousd,
    Pricing.maximumOutputCostMicrousd]
  apply (Nat.ceil_mono _).trans (Nat.ceil_add_le _ _)
  rw [Nat.cast_zero, zero_mul, zero_mul, zero_div, add_zero, add_zero, add_assoc, ← add_div]
  apply add_le_add
  · exact div_le_div_of_nonneg_right hinput hmillion
  · exact div_le_div_of_nonneg_right hreserved hmillion

/-! ## The counts of a response -/

theorem nonneg_of_checkReportedUsage {maxTokens : Option ℤ} {sha256 : Text} {usage : Usage}
    (h : checkReportedUsage maxTokens sha256 usage = .ok ()) :
    0 ≤ usage.promptTokens ∧ 0 ≤ usage.completionTokens ∧ 0 ≤ usage.reasoningTokens := by
  unfold checkReportedUsage at h
  by_cases hnegative : usage.promptTokens < 0 ∨ usage.completionTokens < 0 ∨
      usage.reasoningTokens < 0 ∨ usage.totalTokens < 0
  · rw [if_pos hnegative] at h
    cases h
  · omega

/-- A provider returns no response with a negative count. -/
theorem nonneg_of_complete {wire : WireApi} {parse : ByteArray → Option Value}
    {request : Request} {exchange : Exchange} {response : ProviderResponse}
    (h : complete wire parse request exchange = .ok response) :
    0 ≤ response.promptTokens ∧ 0 ≤ response.completionTokens ∧
      0 ≤ response.reasoningTokens := by
  simp only [complete, Except.bind_eq_ok] at h
  obtain ⟨-, -, body, -, reply, -, checked, husage, hresponse⟩ := h
  rw [Reply.response] at hresponse
  by_cases hempty : reply.text.isEmpty = true ∧ reply.toolCalls.isEmpty = true
  · rw [if_pos hempty] at hresponse
    cases hresponse
  · rw [if_neg hempty] at hresponse
    cases hresponse
    unfold Reply.count
    cases hreported : reply.usage with
    | none => exact ⟨le_rfl, le_rfl, le_rfl⟩
    | some usage =>
        rw [hreported] at husage
        exact nonneg_of_checkReportedUsage husage

/-! ## Runs -/

/-- A call that passed its preflight, and whose answer is within what was estimated. The
counts are those of a provider, which reports no negative one. -/
structure Preflighted (I : Interpreter) (account : BudgetAccount) (elapsedMs : ℕ)
    (messages : List ProviderMessage) (tools : List ProviderToolSpec)
    (response : ProviderResponse) : Prop where
  preflight : account.preflight I elapsedMs messages tools = some none
  prompt_nonneg : 0 ≤ response.promptTokens
  completion_nonneg : 0 ≤ response.completionTokens
  reasoning_nonneg : 0 ≤ response.reasoningTokens
  prompt_le : ∀ units, estimateInputUnits I messages tools = some units →
    response.promptTokens ≤ units
  output_le : response.completionTokens + response.reasoningTokens ≤
    account.limits.maxOutputTokens

/-- The accounts that a run reaches, over any number of calls. -/
inductive Reached (I : Interpreter) (limits : BudgetLimits) (pricing : Option Pricing)
    (requirePricing : Bool) : BudgetAccount → Prop
  | opened : Reached I limits pricing requirePricing
      { limits := limits, pricing := pricing, requirePricing := requirePricing }
  | called {account : BudgetAccount} {before after : ℕ} {messages : List ProviderMessage}
      {tools : List ProviderToolSpec} {response : ProviderResponse} :
      Reached I limits pricing requirePricing account →
      Preflighted I account before messages tools response →
      Reached I limits pricing requirePricing (account.record after response).1

/-- The account is within the limits of its run. -/
structure WithinLimits (account : BudgetAccount) : Prop where
  output_le : account.outputTokens ≤ account.limits.maxTotalOutputTokens
  cost_le : account.usage.costMicrousd ≤ account.limits.maxCostMicrousd

/-- What a preflight that passes has checked. -/
theorem preflight_eq_some_none {account : BudgetAccount} {elapsedMs : ℕ}
    {messages : List ProviderMessage} {tools : List ProviderToolSpec}
    (h : account.preflight I elapsedMs messages tools = some none) :
    account.outputTokens + account.limits.maxOutputTokens ≤ account.limits.maxTotalOutputTokens ∧
      ∀ pricing, account.pricing = some pricing → ∃ units,
        estimateInputUnits I messages tools = some units ∧
          account.usage.costMicrousd + account.reservation pricing units ≤
            account.limits.maxCostMicrousd := by
  unfold BudgetAccount.preflight at h
  by_cases htime : account.limits.maxWallTimeMs ≤ elapsedMs
  · rw [if_pos htime] at h
    cases h
  · rw [if_neg htime] at h
    by_cases htotal : account.limits.maxTotalOutputTokens <
        account.outputTokens + account.limits.maxOutputTokens
    · rw [if_pos htotal] at h
      cases h
    · rw [if_neg htotal] at h
      constructor
      · exact not_lt.mp htotal
      · intro pricing hpricing
        rw [hpricing] at h
        obtain ⟨units, hunits, h⟩ := Option.bind_eq_some_iff.mp h
        by_cases hcost : account.limits.maxCostMicrousd <
            account.usage.costMicrousd + account.reservation pricing units
        · rw [if_pos hcost] at h
          cases h
        · exact ⟨units, hunits, not_lt.mp hcost⟩

section

variable {account : BudgetAccount} {before : ℕ} {messages : List ProviderMessage}
  {tools : List ProviderToolSpec} {response : ProviderResponse}

theorem Preflighted.not_negative (h : Preflighted I account before messages tools response) :
    ¬min (min response.promptTokens response.completionTokens) response.reasoningTokens < 0 := by
  rw [not_lt, le_min_iff, le_min_iff]
  exact ⟨⟨h.prompt_nonneg, h.completion_nonneg⟩, h.reasoning_nonneg⟩

/-- The response of a preflighted call is charged. -/
theorem Preflighted.record_fst (h : Preflighted I account before messages tools response)
    (after : ℕ) :
    (account.record after response).1 =
      account.charge response.promptTokens.toNat response.completionTokens.toNat
        response.reasoningTokens.toNat := by
  rw [BudgetAccount.record, if_neg h.not_negative]

theorem Preflighted.perCallStop (h : Preflighted I account before messages tools response) :
    account.perCallStop response = none := by
  rw [BudgetAccount.perCallStop, if_neg h.not_negative, if_neg (not_lt.mpr h.output_le)]

/-- The output of a preflighted call was reserved. -/
theorem Preflighted.output_toNat_le
    (h : Preflighted I account before messages tools response) :
    response.completionTokens.toNat + response.reasoningTokens.toNat ≤
      account.limits.maxOutputTokens := by
  have houtput := h.output_le
  have hcompletion := h.completion_nonneg
  have hreasoning := h.reasoning_nonneg
  omega

/-- The cost of a preflighted call was reserved. -/
theorem Preflighted.responseCost_le
    (h : Preflighted I account before messages tools response)
    (hcost : account.usage.costMicrousd ≤ account.limits.maxCostMicrousd) :
    account.usage.costMicrousd + account.responseCost response.promptTokens.toNat
        response.completionTokens.toNat response.reasoningTokens.toNat ≤
      account.limits.maxCostMicrousd := by
  rw [BudgetAccount.responseCost]
  cases hpricing : account.pricing with
  | none => exact hcost
  | some pricing =>
      obtain ⟨units, hunits, hreserved⟩ := (preflight_eq_some_none h.preflight).2 pricing hpricing
      have hprompt : response.promptTokens.toNat ≤ units := Int.toNat_le.mpr (h.prompt_le _ hunits)
      have hle := costMicrousd_le_reservation account pricing hprompt h.output_toNat_le
      exact (Nat.add_le_add_left hle _).trans hreserved

/-- One call keeps the account within the limits. -/
theorem Preflighted.withinLimits (h : Preflighted I account before messages tools response)
    (hwithin : WithinLimits account) (after : ℕ) :
    WithinLimits (account.record after response).1 := by
  rw [h.record_fst]
  constructor
  · have htotal := (preflight_eq_some_none h.preflight).1
    have houtput := h.output_toNat_le
    unfold BudgetAccount.outputTokens at htotal
    unfold BudgetAccount.charge BudgetAccount.outputTokens
    dsimp only
    omega
  · exact h.responseCost_le hwithin.cost_le

/-- One call never exceeds the tokens or the cost. -/
theorem Preflighted.record_snd (h : Preflighted I account before messages tools response)
    (hwithin : WithinLimits account) (after : ℕ) :
    (account.record after response).2 ≠ some .tokenBudget ∧
      (account.record after response).2 ≠ some .costBudget := by
  have hcharged := h.withinLimits hwithin after
  rw [h.record_fst] at hcharged
  have htotal := hcharged.output_le
  have hcost := hcharged.cost_le
  rw [BudgetAccount.limits_charge] at htotal hcost
  rw [BudgetAccount.record, if_neg h.not_negative]
  dsimp only
  rw [h.perCallStop, Option.isSome_none, if_neg (by decide), if_neg (not_lt.mpr htotal),
    if_neg (not_lt.mpr hcost)]
  split_ifs <;> simp

end

theorem Reached.withinLimits {limits : BudgetLimits} {pricing : Option Pricing}
    {requirePricing : Bool} {account : BudgetAccount}
    (h : Reached I limits pricing requirePricing account) : WithinLimits account := by
  induction h with
  | opened => exact ⟨Nat.zero_le _, Nat.zero_le _⟩
  | called _ hcall ih => exact hcall.withinLimits ih _

/-- Preflight is sound: over any number of preflighted calls, no call is found to exceed the
tokens or the cost, and what has been charged is within the limits. -/
theorem preflight_sound {limits : BudgetLimits} {pricing : Option Pricing}
    {requirePricing : Bool} {account : BudgetAccount} {before after : ℕ}
    {messages : List ProviderMessage} {tools : List ProviderToolSpec}
    {response : ProviderResponse} (hreached : Reached I limits pricing requirePricing account)
    (hcall : Preflighted I account before messages tools response) :
    (account.record after response).2 ≠ some .tokenBudget ∧
      (account.record after response).2 ≠ some .costBudget ∧
      WithinLimits (account.record after response).1 := by
  obtain ⟨htokens, hcost⟩ := hcall.record_snd hreached.withinLimits after
  exact ⟨htokens, hcost, hcall.withinLimits hreached.withinLimits after⟩

/-! ## A call of a run -/

def samplePricing : Pricing where
  input := 150000
  output := 600000
  reasoning := 900000
  input_nonneg := by decide
  output_nonneg := by decide
  reasoning_nonneg := by decide

def sampleAccount : BudgetAccount where
  limits := defaultLimits
  pricing := some samplePricing
  requirePricing := true

def sampleMessage : ProviderMessage where
  role := .user
  content := "Which receipts are open?"
  toolCalls := []
  toolCallId := none
  name := none
  valid := rfl

def sampleResponse : ProviderResponse where
  text := "None."
  toolCalls := []
  promptTokens := 21
  completionTokens := 300
  reasoningTokens := 212
  reasoningContentPresent := false

theorem estimateInputUnits_sample :
    estimateInputUnits Interpreter.ascii [sampleMessage] [] = some 100 := by
  decide +kernel

theorem reservation_sample : sampleAccount.reservation samplePricing 100 = 476 := by
  decide +kernel

/-- The call passes the preflight of an account that has room for it. -/
theorem preflighted_sample {account : BudgetAccount} {before : ℕ}
    (hlimits : account.limits = defaultLimits) (hpricing : account.pricing = some samplePricing)
    (htime : before < defaultLimits.maxWallTimeMs)
    (houtput : account.outputTokens + defaultLimits.maxOutputTokens ≤
      defaultLimits.maxTotalOutputTokens)
    (hcost : account.usage.costMicrousd + 476 ≤ defaultLimits.maxCostMicrousd) :
    Preflighted Interpreter.ascii account before [sampleMessage] [] sampleResponse where
  preflight := by
    have hreservation : account.reservation samplePricing 100 = 476 := by
      have hsample : sampleAccount.limits = defaultLimits := rfl
      rw [← reservation_sample, BudgetAccount.reservation, BudgetAccount.reservation, hlimits,
        hsample]
    rw [BudgetAccount.preflight, hlimits, hpricing, if_neg (Nat.not_le.mpr htime),
      if_neg (Nat.not_lt.mpr houtput)]
    dsimp only
    rw [estimateInputUnits_sample, Option.bind_eq_bind, Option.bind_some, hreservation,
      if_neg (Nat.not_lt.mpr hcost)]
  prompt_nonneg := by decide
  completion_nonneg := by decide
  reasoning_nonneg := by decide
  prompt_le := by
    intro units hunits
    rw [estimateInputUnits_sample, Option.some.injEq] at hunits
    rw [← hunits]
    decide
  output_le := by
    rw [hlimits]
    decide

/-- The second call of a run. -/
theorem preflight_sound_sample :
    ((sampleAccount.record 900 sampleResponse).1.record 2000 sampleResponse).2 ≠
        some .tokenBudget ∧
      ((sampleAccount.record 900 sampleResponse).1.record 2000 sampleResponse).2 ≠
        some .costBudget ∧
      WithinLimits ((sampleAccount.record 900 sampleResponse).1.record 2000 sampleResponse).1 := by
  have hfirst : Preflighted Interpreter.ascii sampleAccount 0 [sampleMessage] [] sampleResponse :=
    preflighted_sample rfl rfl (by decide) (by decide) (by decide)
  have hcharged := hfirst.record_fst 900
  have hsecond : Preflighted Interpreter.ascii (sampleAccount.record 900 sampleResponse).1 1000
      [sampleMessage] [] sampleResponse := by
    rw [hcharged]
    exact preflighted_sample rfl rfl (by decide) (by decide) (by decide +kernel)
  exact preflight_sound (.called .opened hfirst) hsecond

end Agent
