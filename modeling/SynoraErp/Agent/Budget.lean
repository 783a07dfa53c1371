import Mathlib.Algebra.Order.Floor.Semiring
import Mathlib.Data.Rat.Floor
import SynoraErp.Provider.Complete

/-!
# Budgets

The account of a run: what a call of the provider may cost before it is made, and what it
did cost. Prices are decimals, whose arithmetic is exact here; a cost is rounded up. The
time that has passed is read from a clock, and is given.
-/

namespace Agent

open Python Provider

/-- The `StopCode`s of a budget. -/
inductive StopCode where
  | tokenBudget
  | costBudget
  | wallTimeBudget
  deriving DecidableEq

/-- The fields of `BudgetLimits` that an account reads. -/
structure BudgetLimits where
  maxOutputTokens : ℕ
  maxTotalOutputTokens : ℕ
  maxWallTimeMs : ℕ
  maxCostMicrousd : ℕ
  maxOutputTokens_mem : 1 ≤ maxOutputTokens ∧ maxOutputTokens ≤ 512
  maxTotalOutputTokens_mem : 1 ≤ maxTotalOutputTokens ∧ maxTotalOutputTokens ≤ 3072
  maxWallTimeMs_mem : 1 ≤ maxWallTimeMs ∧ maxWallTimeMs ≤ 180000
  maxCostMicrousd_le : maxCostMicrousd ≤ 50000

/-- The limits of a run that was given none. -/
def defaultLimits : BudgetLimits where
  maxOutputTokens := 512
  maxTotalOutputTokens := 3072
  maxWallTimeMs := 180000
  maxCostMicrousd := 50000
  maxOutputTokens_mem := by decide
  maxTotalOutputTokens_mem := by decide
  maxWallTimeMs_mem := by decide
  maxCostMicrousd_le := le_rfl

/-- `Pricing`: micro-USD per one million tokens. -/
structure Pricing where
  input : ℚ
  output : ℚ
  reasoning : ℚ
  input_nonneg : 0 ≤ input
  output_nonneg : 0 ≤ output
  reasoning_nonneg : 0 ≤ reasoning

/-- `MICROUSD_PER_MILLION`. -/
def microusdPerMillion : ℚ := 1000000

namespace Pricing

variable (pricing : Pricing)

/-- `cost_microusd`. -/
def costMicrousd (promptTokens completionTokens reasoningTokens : ℕ) : ℕ :=
  ⌈promptTokens * pricing.input / microusdPerMillion +
    completionTokens * pricing.output / microusdPerMillion +
    reasoningTokens * pricing.reasoning / microusdPerMillion⌉₊

/-- `maximum_output_cost_microusd`. -/
def maximumOutputCostMicrousd (outputTokens : ℕ) : ℕ :=
  let highestPrice :=
    if pricing.reasoning ≤ pricing.output then pricing.output else pricing.reasoning
  ⌈outputTokens * highestPrice / microusdPerMillion⌉₊

end Pricing

/-! ## The estimate of a request -/

/-- `tool_call.model_dump(mode="json")`. -/
def dumpToolCall (call : ProviderToolCall) : Value :=
  .dict [("id", .str call.id), ("name", .str call.name), ("arguments", .str call.arguments)]

def roleName : Role → String
  | .system => "system"
  | .user => "user"
  | .assistant => "assistant"
  | .tool => "tool"

/-- `None`, or the text. -/
def dumpOptional : Option Text → Value
  | none => .none
  | some t => .str t

/-- `message.model_dump(mode="json")`. -/
def dumpMessage (message : ProviderMessage) : Value :=
  .dict [("role", .ofString (roleName message.role)), ("content", .str message.content),
    ("tool_calls", .list (message.toolCalls.map dumpToolCall)),
    ("tool_call_id", dumpOptional message.toolCallId), ("name", dumpOptional message.name)]

/-- `tool.model_dump(mode="json")`. -/
def dumpTool (tool : ProviderToolSpec) : Value :=
  .dict [("name", .str tool.name), ("description", .str tool.description),
    ("parameters", .dict tool.parameters)]

variable (I : Interpreter)

/-- `len(canonical_json(value).encode("utf-8"))`; `none` where that raises. -/
def encodedBytes (value : Value) : Option ℕ := do
  let text ← Json.dumps I value
  let bytes ← text.encodeUtf8
  some bytes.size

/-- `estimate_input_units`. -/
def estimateInputUnits (messages : List ProviderMessage) (tools : List ProviderToolSpec) :
    Option ℕ := do
  let messageBytes ← messages.mapM fun message => encodedBytes I (dumpMessage message)
  let toolBytes ← tools.mapM fun tool => encodedBytes I (dumpTool tool)
  some (messageBytes.sum + toolBytes.sum)

/-! ## The account -/

/-- `UsageSnapshot`. -/
structure UsageSnapshot where
  promptTokens : ℕ := 0
  completionTokens : ℕ := 0
  reasoningTokens : ℕ := 0
  costMicrousd : ℕ := 0

/-- `BudgetAccount`. -/
structure BudgetAccount where
  limits : BudgetLimits
  pricing : Option Pricing
  requirePricing : Bool
  usage : UsageSnapshot := {}

namespace BudgetAccount

variable (account : BudgetAccount)

/-- The output tokens of the run. -/
def outputTokens : ℕ := account.usage.completionTokens + account.usage.reasoningTokens

/-- The cost that is reserved for a call: its input, and the most its output can cost. -/
def reservation (pricing : Pricing) (estimatedInputUnits : ℕ) : ℕ :=
  pricing.costMicrousd estimatedInputUnits 0 0 +
    pricing.maximumOutputCostMicrousd account.limits.maxOutputTokens

/-- `preflight`; the outer `none` is the exception of an estimate that fails. -/
def preflight (elapsedMs : ℕ) (messages : List ProviderMessage) (tools : List ProviderToolSpec) :
    Option (Option StopCode) :=
  if account.limits.maxWallTimeMs ≤ elapsedMs then some (some .wallTimeBudget)
  else if account.limits.maxTotalOutputTokens <
      account.outputTokens + account.limits.maxOutputTokens then
    some (some .tokenBudget)
  else
    match account.pricing with
    | none => if account.requirePricing then some (some .costBudget) else some none
    | some pricing => do
        let units ← estimateInputUnits I messages tools
        if account.limits.maxCostMicrousd <
            account.usage.costMicrousd + account.reservation pricing units then
          some (some .costBudget)
        else some none

/-- The cost of a response. -/
def responseCost (promptTokens completionTokens reasoningTokens : ℕ) : ℕ :=
  match account.pricing with
  | none => 0
  | some pricing => pricing.costMicrousd promptTokens completionTokens reasoningTokens

/-- The usage with the counts of a response. -/
def charge (promptTokens completionTokens reasoningTokens : ℕ) : BudgetAccount :=
  { account with
    usage :=
      { promptTokens := account.usage.promptTokens + promptTokens
        completionTokens := account.usage.completionTokens + completionTokens
        reasoningTokens := account.usage.reasoningTokens + reasoningTokens
        costMicrousd := account.usage.costMicrousd +
          account.responseCost promptTokens completionTokens reasoningTokens } }

@[simp] theorem limits_charge (promptTokens completionTokens reasoningTokens : ℕ) :
    (account.charge promptTokens completionTokens reasoningTokens).limits = account.limits := rfl

/-- The checks of `record` that look at the response alone: a negative count, and the cap of
one call. -/
def perCallStop (response : ProviderResponse) : Option StopCode :=
  if min (min response.promptTokens response.completionTokens) response.reasoningTokens < 0 then
    some .tokenBudget
  else if (account.limits.maxOutputTokens : ℤ) <
      response.completionTokens + response.reasoningTokens then
    some .tokenBudget
  else none

/-- `record`: the account that has the response, and the budget that is exceeded. -/
def record (elapsedMs : ℕ) (response : ProviderResponse) : BudgetAccount × Option StopCode :=
  if min (min response.promptTokens response.completionTokens) response.reasoningTokens < 0 then
    (account, some .tokenBudget)
  else
    let charged := account.charge response.promptTokens.toNat response.completionTokens.toNat
      response.reasoningTokens.toNat
    (charged,
      if (account.perCallStop response).isSome then some .tokenBudget
      else if account.limits.maxTotalOutputTokens < charged.outputTokens then some .tokenBudget
      else if account.limits.maxCostMicrousd < charged.usage.costMicrousd then some .costBudget
      else if account.limits.maxWallTimeMs ≤ elapsedMs then some .wallTimeBudget
      else none)

end BudgetAccount

end Agent
