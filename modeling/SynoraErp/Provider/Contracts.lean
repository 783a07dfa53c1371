import SynoraErp.Python.Except
import SynoraErp.Python.Json
import SynoraErp.Python.Sha256

/-!
# Provider contracts

The messages a provider is asked with, what it answers, and what a call of it raises.
-/

namespace Provider

open Python

/-- `ProviderToolCall`. -/
structure ProviderToolCall where
  id : Text
  name : Text
  arguments : Text
  id_ne_nil : id ≠ []
  id_le : id.length ≤ 200

inductive Role where
  | system
  | user
  | assistant
  | tool
  deriving DecidableEq

/-- `not value`, of an optional text. -/
def isFalsy (value : Option Text) : Bool := value.all fun t => t == []

/-- `validate_role_fields`. -/
def validateRoleFields (role : Role) (content : Text) (toolCalls : List ProviderToolCall)
    (toolCallId name : Option Text) : Bool :=
  match role with
  | .system | .user =>
      content != [] && toolCalls.isEmpty && isFalsy toolCallId && isFalsy name
  | .assistant =>
      (content != [] || !toolCalls.isEmpty) && isFalsy toolCallId && isFalsy name
  | .tool => content != [] && !isFalsy toolCallId && !isFalsy name && toolCalls.isEmpty

/-- `ProviderMessage`. -/
structure ProviderMessage where
  role : Role
  content : Text
  toolCalls : List ProviderToolCall
  toolCallId : Option Text
  name : Option Text
  valid : validateRoleFields role content toolCalls toolCallId name = true

/-- `ProviderToolSpec`. -/
structure ProviderToolSpec where
  name : Text
  description : Text
  parameters : Dict

/-- `ProviderResponse`. -/
structure ProviderResponse where
  text : Text
  toolCalls : List ProviderToolCall
  promptTokens : ℤ
  completionTokens : ℤ
  reasoningTokens : ℤ
  reasoningContentPresent : Bool

/-- The `failure_code` of a provider error. -/
inductive FailureCode where
  | invalidRequest
  | timeout
  | transportError
  | responseTooLarge
  | rateLimited
  | upstreamUnavailable
  | httpError
  | responseSchema
  | responseNoChoices
  | responseContentMissing
  | usageMissing
  | usageInvalid
  | budgetExceeded
  | noProvider
  deriving DecidableEq

/-- `_FAILOVER_FAILURE_CODES`. -/
def FailureCode.failsOver : FailureCode → Bool
  | rateLimited | upstreamUnavailable | timeout | transportError | responseSchema
  | responseNoChoices | responseContentMissing => true
  | _ => false

/-- `ProviderError`; its budget code, if it has one, is `TOKEN_BUDGET`. -/
structure ProviderError where
  message : Text
  promptTokens : ℤ := 0
  completionTokens : ℤ := 0
  reasoningTokens : ℤ := 0
  tokenBudget : Bool := false
  failureCode : FailureCode
  responseSha256 : Option Text := none

/-- What a call raises: the provider's own error, a `ValidationError` of a contract, or the
`ValueError` of a request that is not admitted. -/
inductive Raised where
  | providerError (error : ProviderError)
  | validationError
  | valueError (message : String)

abbrev Result := Except Raised

/-- `raise ProviderError(...)`. -/
def fail {α : Type} (error : ProviderError) : Result α := .error (.providerError error)

/-- The call returns, or raises the provider's own error. -/
def FailsClosed {α : Type} : Result α → Prop
  | .ok _ => True
  | .error (.providerError _) => True
  | .error _ => False

@[simp] theorem failsClosed_ok {α : Type} (a : α) : FailsClosed (.ok a : Result α) := trivial

@[simp] theorem failsClosed_fail {α : Type} (error : ProviderError) :
    FailsClosed (fail error : Result α) := trivial

/-- A sequence fails closed when each of its steps does. -/
theorem failsClosed_bind {α β : Type} {x : Result α} {f : α → Result β} :
    FailsClosed (x >>= f) ↔ FailsClosed x ∧ ∀ a, x = .ok a → FailsClosed (f a) := by
  cases x with
  | error raised =>
      cases raised with
      | providerError error => simp [FailsClosed]
      | validationError => simp [FailsClosed]
      | valueError message => simp [FailsClosed]
  | ok a => simp [FailsClosed]

/-- `ProviderToolCall(id=id, name=name, arguments=arguments)`. -/
def ProviderToolCall.build (id name arguments : Text) : Result ProviderToolCall :=
  if h : id ≠ [] ∧ id.length ≤ 200 then
    .ok
      { id := id
        name := name
        arguments := arguments
        id_ne_nil := h.1
        id_le := h.2 }
  else .error .validationError

theorem failsClosed_build {id name arguments : Text} :
    FailsClosed (ProviderToolCall.build id name arguments) ↔ id ≠ [] ∧ id.length ≤ 200 := by
  rw [ProviderToolCall.build]
  split_ifs with h
  · simp [h]
  · simp [FailsClosed, h]

end Provider
