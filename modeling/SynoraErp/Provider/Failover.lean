import Mathlib.Algebra.BigOperators.Group.List.Basic
import Mathlib.Algebra.Group.Prod
import Mathlib.Data.Int.Basic
import Mathlib.Data.List.TakeWhile
import SynoraErp.Provider.ToolCallIds

/-!
# Failover

`FailoverProvider.complete` tries the configured providers one after another. It goes on to
the next after a failure that fails over, and ends with any other outcome. The error of a
chain that failed throughout sums the tokens of its attempts; an error that ends the chain
earlier is raised as it is, with its own tokens only.
-/

namespace Provider

open Python

/-- A provider of a chain: its kind, and what it answers to a request. -/
structure ConfiguredProvider where
  isOpenAICompatible : Bool
  call : Request → Result ProviderResponse

namespace ConfiguredProvider

/-- `_effective_max_tokens`. -/
def effectiveMaxTokens (provider : ConfiguredProvider) (index : ℕ) (maxTokens : Option ℤ) :
    Option ℤ :=
  if index = 0 then maxTokens
  else if provider.isOpenAICompatible then maxTokens.map fun n => min n maxOutputTokenLimit
  else maxTokens

/-- `_call_provider`. -/
def outcome (provider : ConfiguredProvider) (index : ℕ) (request : Request) :
    Result ProviderResponse :=
  provider.call
    { request with maxTokens := provider.effectiveMaxTokens index request.maxTokens }

end ConfiguredProvider

/-- The tokens an error reports: prompt, completion, reasoning. -/
def ProviderError.tokens (error : ProviderError) : ℤ × ℤ × ℤ :=
  (error.promptTokens, error.completionTokens, error.reasoningTokens)

/-- `_aggregate_errors`. -/
def aggregateErrors (errors : List ProviderError) (last : ProviderError) : ProviderError where
  message := "all configured providers failed"
  promptTokens := (errors.map ProviderError.promptTokens).sum
  completionTokens := (errors.map ProviderError.completionTokens).sum
  reasoningTokens := (errors.map ProviderError.reasoningTokens).sum
  tokenBudget := errors.any ProviderError.tokenBudget
  failureCode := last.failureCode

/-- The attempts of a chain, by their outcomes, and what the chain ends with. -/
structure Chain where
  attempts : List (Result ProviderResponse)
  result : Result ProviderResponse

/-- `iter_candidates`, up to its first response. -/
def iterCandidates (request : Request) :
    ℕ → List ProviderError → List ConfiguredProvider → Chain
  | _, errors, [] =>
      { attempts := []
        result :=
          match errors.getLast? with
          | none =>
              fail { message := "no provider is configured", failureCode := .noProvider }
          | some last => fail (aggregateErrors errors last) }
  | index, errors, provider :: providers =>
      match provider.outcome index request with
      | .error (.providerError error) =>
          if error.failureCode.failsOver then
            let chain := iterCandidates request (index + 1) (errors ++ [error]) providers
            { chain with attempts := .error (.providerError error) :: chain.attempts }
          else
            { attempts := [.error (.providerError error)], result := fail error }
      | outcome => { attempts := [outcome], result := outcome }

/-- `FailoverProvider`: there is at least one provider. -/
structure FailoverProvider where
  providers : List ConfiguredProvider
  providers_ne_nil : providers ≠ []

/-- `FailoverProvider.complete`. -/
def FailoverProvider.complete (chain : FailoverProvider) (request : Request) : Chain :=
  iterCandidates request 0 [] chain.providers

/-! ## The outcomes of the providers -/

/-- What each provider of a chain answers, were it called. -/
def outcomes (request : Request) : ℕ → List ConfiguredProvider → List (Result ProviderResponse)
  | _, [] => []
  | index, provider :: providers =>
      provider.outcome index request :: outcomes request (index + 1) providers

@[simp] theorem length_outcomes (request : Request) (index : ℕ)
    (providers : List ConfiguredProvider) :
    (outcomes request index providers).length = providers.length := by
  induction providers generalizing index with
  | nil => rfl
  | cons provider providers ih => simp [outcomes, ih]

/-- The error of an outcome after which the chain goes on. -/
def passedOver : Result ProviderResponse → Option ProviderError
  | .error (.providerError error) => if error.failureCode.failsOver then some error else none
  | _ => none

/-- The outcome that ends a chain, if one does. -/
def deciding (all : List (Result ProviderResponse)) : Option (Result ProviderResponse) :=
  all.find? fun outcome => (passedOver outcome).isNone

/-- The errors ahead of the outcome that ends the chain. -/
def passedErrors (all : List (Result ProviderResponse)) : List ProviderError :=
  (all.takeWhile fun outcome => (passedOver outcome).isSome).filterMap passedOver

theorem passedOver_eq_some {outcome : Result ProviderResponse} {error : ProviderError} :
    passedOver outcome = some error ↔
      outcome = .error (.providerError error) ∧ error.failureCode.failsOver = true := by
  cases outcome with
  | ok response => simp [passedOver]
  | error raised =>
      cases raised with
      | providerError found =>
          rw [passedOver]
          by_cases hfails : found.failureCode.failsOver = true
          · rw [if_pos hfails, Option.some.injEq, Except.error.injEq, Raised.providerError.injEq]
            constructor
            · rintro rfl
              exact ⟨rfl, hfails⟩
            · exact And.left
          · rw [if_neg hfails, Except.error.injEq, Raised.providerError.injEq]
            constructor
            · intro h
              cases h
            · rintro ⟨rfl, h⟩
              exact absurd h hfails
      | validationError => simp [passedOver]
      | valueError message => simp [passedOver]

theorem iterCandidates_passed {request : Request} {index : ℕ} {errors : List ProviderError}
    {provider : ConfiguredProvider} {providers : List ConfiguredProvider} {error : ProviderError}
    (h : passedOver (provider.outcome index request) = some error) :
    iterCandidates request index errors (provider :: providers) =
      { attempts := provider.outcome index request ::
          (iterCandidates request (index + 1) (errors ++ [error]) providers).attempts
        result := (iterCandidates request (index + 1) (errors ++ [error]) providers).result } := by
  obtain ⟨houtcome, hfails⟩ := passedOver_eq_some.mp h
  rw [iterCandidates, houtcome]
  exact if_pos hfails

theorem iterCandidates_decided {request : Request} {index : ℕ} {errors : List ProviderError}
    {provider : ConfiguredProvider} {providers : List ConfiguredProvider}
    (h : passedOver (provider.outcome index request) = none) :
    iterCandidates request index errors (provider :: providers) =
      { attempts := [provider.outcome index request]
        result := provider.outcome index request } := by
  rw [iterCandidates]
  revert h
  cases provider.outcome index request with
  | ok response => exact fun _ => rfl
  | error raised =>
      cases raised with
      | providerError error =>
          intro h
          have hfails : ¬error.failureCode.failsOver = true := by
            intro hfails
            rw [passedOver, if_pos hfails] at h
            cases h
          exact if_neg hfails
      | validationError => exact fun _ => rfl
      | valueError message => exact fun _ => rfl

/-! ## Which providers are tried -/

/-- A chain tries the providers that follow failures it passes over, and no others. -/
theorem attempts_iterCandidates (request : Request) (index : ℕ) (errors : List ProviderError)
    (providers : List ConfiguredProvider) :
    (iterCandidates request index errors providers).attempts =
      ((outcomes request index providers).takeWhile fun outcome => (passedOver outcome).isSome) ++
        (deciding (outcomes request index providers)).toList := by
  induction providers generalizing index errors with
  | nil => rfl
  | cons provider providers ih =>
      rw [outcomes, deciding]
      cases h : passedOver (provider.outcome index request) with
      | none =>
          rw [iterCandidates_decided h, List.takeWhile_cons_of_neg (by simp [h]),
            List.find?_cons_of_pos (by simp [h])]
          rfl
      | some error =>
          rw [iterCandidates_passed h, List.takeWhile_cons_of_pos (by simp [h]),
            List.find?_cons_of_neg (by simp [h]), List.cons_append, ih]
          rfl

/-- Provider `i` is called exactly when all those ahead of it failed over. -/
def CalledInOrder (all attempts : List (Result ProviderResponse)) : Prop :=
  attempts <+: all ∧ ∀ i < all.length,
    (i < attempts.length ↔ ∀ j < i, ∃ outcome ∈ all[j]?, (passedOver outcome).isSome)

theorem calledInOrder_cons_of_passed {outcome : Result ProviderResponse}
    {all attempts : List (Result ProviderResponse)} (h : (passedOver outcome).isSome = true)
    (hrest : CalledInOrder all attempts) :
    CalledInOrder (outcome :: all) (outcome :: attempts) := by
  constructor
  · exact List.prefix_cons_inj outcome |>.mpr hrest.1
  · intro i hi
    cases i with
    | zero => simp
    | succ i =>
        rw [List.length_cons, Nat.succ_lt_succ_iff, hrest.2 i (Nat.succ_lt_succ_iff.mp hi)]
        constructor
        · intro hall j hj
          cases j with
          | zero => exact ⟨outcome, rfl, h⟩
          | succ j => exact hall j (Nat.succ_lt_succ_iff.mp hj)
        · intro hall j hj
          exact hall (j + 1) (Nat.succ_lt_succ hj)

theorem calledInOrder_of_decided {outcome : Result ProviderResponse}
    {all : List (Result ProviderResponse)} (h : passedOver outcome = none) :
    CalledInOrder (outcome :: all) [outcome] := by
  constructor
  · exact List.prefix_cons_inj outcome |>.mpr (List.nil_prefix)
  · intro i _
    cases i with
    | zero => simp
    | succ i =>
        constructor
        · intro hlt
          exact absurd hlt (by simp)
        · intro hall
          obtain ⟨first, hfirst, hsome⟩ := hall 0 (Nat.succ_pos i)
          rw [List.getElem?_cons_zero, Option.mem_some_iff] at hfirst
          rw [← hfirst, h] at hsome
          cases hsome

theorem calledInOrder_iterCandidates (request : Request) (index : ℕ)
    (errors : List ProviderError) (providers : List ConfiguredProvider) :
    CalledInOrder (outcomes request index providers)
      (iterCandidates request index errors providers).attempts := by
  induction providers generalizing index errors with
  | nil =>
      constructor
      · exact List.nil_prefix
      · intro i hi
        cases hi
  | cons provider providers ih =>
      rw [outcomes]
      cases h : passedOver (provider.outcome index request) with
      | none =>
          rw [iterCandidates_decided h]
          exact calledInOrder_of_decided h
      | some error =>
          rw [iterCandidates_passed h]
          exact calledInOrder_cons_of_passed (by simp [h]) (ih (index + 1) (errors ++ [error]))

/-! ## What a chain ends with -/

/-- The result of a chain: the outcome that decided it, or the sum of the failures. -/
theorem result_iterCandidates (request : Request) (index : ℕ) (errors : List ProviderError)
    (providers : List ConfiguredProvider) :
    (iterCandidates request index errors providers).result =
      match deciding (outcomes request index providers) with
      | some outcome => outcome
      | none =>
          match (errors ++ passedErrors (outcomes request index providers)).getLast? with
          | none => fail { message := "no provider is configured", failureCode := .noProvider }
          | some last =>
              fail (aggregateErrors
                (errors ++ passedErrors (outcomes request index providers)) last) := by
  induction providers generalizing index errors with
  | nil => simp [iterCandidates, outcomes, deciding, passedErrors]
  | cons provider providers ih =>
      rw [outcomes, deciding, passedErrors]
      cases h : passedOver (provider.outcome index request) with
      | none => rw [iterCandidates_decided h, List.find?_cons_of_pos (by simp [h])]
      | some error =>
          rw [iterCandidates_passed h, List.find?_cons_of_neg (by simp [h]),
            List.takeWhile_cons_of_pos (by simp [h]), List.filterMap_cons_some h, ih,
            ← deciding, ← passedErrors, List.append_assoc, List.singleton_append]

/-- The error of an attempt. -/
def providerError? : Result ProviderResponse → Option ProviderError
  | .error (.providerError error) => some error
  | _ => none

/-- A chain ends with a response, or with the provider's own error whose tokens are the sums
over the attempts. -/
def EndsClosed (chain : Chain) : Prop :=
  FailsClosed chain.result ∧ ∀ error, chain.result = fail error →
    error.tokens = ((chain.attempts.filterMap providerError?).map ProviderError.tokens).sum

/-- The outcome that ends the chain, if one does, is a response, or an error ahead of which
the attempts reported no tokens. -/
def DecidedClosed (all : List (Result ProviderResponse)) : Prop :=
  match deciding all with
  | none => True
  | some (.ok _) => True
  | some (.error (.providerError _)) =>
      ((passedErrors all).map ProviderError.tokens).sum = 0
  | some (.error _) => False

theorem providerError?_of_passedOver {outcome : Result ProviderResponse}
    (h : (passedOver outcome).isSome = true) : providerError? outcome = passedOver outcome := by
  obtain ⟨error, herror⟩ := Option.isSome_iff_exists.mp h
  rw [herror, (passedOver_eq_some.mp herror).1]
  rfl

theorem filterMap_providerError?_takeWhile (all : List (Result ProviderResponse)) :
    (all.takeWhile fun outcome => (passedOver outcome).isSome).filterMap providerError? =
      passedErrors all := by
  apply List.filterMap_congr
  intro outcome houtcome
  have hpassed : (passedOver outcome).isSome = true :=
    List.mem_takeWhile_imp (p := fun outcome => (passedOver outcome).isSome) houtcome
  exact providerError?_of_passedOver hpassed

/-- The aggregate of a chain of failures has the sums of their tokens. -/
theorem tokens_aggregateErrors (errors : List ProviderError) (last : ProviderError) :
    (aggregateErrors errors last).tokens = (errors.map ProviderError.tokens).sum := by
  induction errors with
  | nil => rfl
  | cons error errors ih =>
      rw [List.map_cons, List.sum_cons, ← ih]
      rfl

theorem passedErrors_ne_nil {all : List (Result ProviderResponse)} (hne : all ≠ [])
    (h : deciding all = none) : passedErrors all ≠ [] := by
  cases all with
  | nil => exact absurd rfl hne
  | cons outcome all =>
      have hhead := List.find?_eq_none.mp h outcome List.mem_cons_self
      have hsome : (passedOver outcome).isSome = true := by
        simpa [Option.isSome_iff_ne_none] using hhead
      obtain ⟨error, herror⟩ := Option.isSome_iff_exists.mp hsome
      have hpassed : passedErrors (outcome :: all) = error :: passedErrors all := by
        simp [passedErrors, herror]
      rw [hpassed]
      exact List.cons_ne_nil _ _

theorem FailoverProvider.attempts_complete (chain : FailoverProvider) (request : Request) :
    (chain.complete request).attempts.filterMap providerError? =
      passedErrors (outcomes request 0 chain.providers) ++
        (deciding (outcomes request 0 chain.providers)).toList.filterMap providerError? := by
  rw [FailoverProvider.complete, attempts_iterCandidates, List.filterMap_append,
    filterMap_providerError?_takeWhile]

theorem FailoverProvider.result_complete (chain : FailoverProvider) (request : Request) :
    (chain.complete request).result =
      match deciding (outcomes request 0 chain.providers) with
      | some outcome => outcome
      | none =>
          match (passedErrors (outcomes request 0 chain.providers)).getLast? with
          | none => fail { message := "no provider is configured", failureCode := .noProvider }
          | some last =>
              fail (aggregateErrors (passedErrors (outcomes request 0 chain.providers)) last) :=
  result_iterCandidates request 0 [] chain.providers

theorem FailoverProvider.endsClosed_iff (chain : FailoverProvider) (request : Request) :
    EndsClosed (chain.complete request) ↔
      DecidedClosed (outcomes request 0 chain.providers) := by
  rw [EndsClosed, chain.attempts_complete, chain.result_complete, DecidedClosed]
  cases h : deciding (outcomes request 0 chain.providers) with
  | none =>
      have hne : outcomes request 0 chain.providers ≠ [] := by
        intro hnil
        have hlength := congrArg List.length hnil
        rw [length_outcomes, List.length_nil, List.length_eq_zero_iff] at hlength
        exact chain.providers_ne_nil hlength
      have hpassed := passedErrors_ne_nil hne h
      rw [List.getLast?_eq_some_getLast hpassed]
      apply iff_true_intro
      constructor
      · exact failsClosed_fail _
      · intro error herror
        cases herror
        rw [tokens_aggregateErrors, Option.toList_none, List.filterMap_nil, List.append_nil]
  | some outcome =>
      cases outcome with
      | ok response => simp [fail]
      | error raised =>
          cases raised with
          | providerError error =>
              have hsum : (((passedErrors (outcomes request 0 chain.providers) ++ [error]).map
                  ProviderError.tokens).sum) =
                  ((passedErrors (outcomes request 0 chain.providers)).map
                    ProviderError.tokens).sum + error.tokens := by
                rw [List.map_append, List.sum_append, List.map_singleton, List.sum_singleton]
              have herror : (some (Except.error (.providerError error) :
                  Result ProviderResponse)).toList.filterMap providerError? = [error] := rfl
              rw [herror, hsum]
              constructor
              · rintro ⟨-, htokens⟩
                exact right_eq_add.mp (htokens error rfl)
              · intro hzero
                constructor
                · exact failsClosed_fail _
                · intro found hfound
                  cases hfound
                  exact right_eq_add.mpr hzero
          | validationError => simp [FailsClosed]
          | valueError message => simp [FailsClosed]

/-! ## Providers that speak one of the wire formats -/

/-- An `OpenAICompatibleProvider` of a chain, with what its endpoint answers. -/
def compatible (wire : WireApi) (parse : ByteArray → Option Value) (exchange : Exchange) :
    ConfiguredProvider where
  isOpenAICompatible := true
  call request := complete wire parse request exchange

/-- When a call of one provider and a chain of providers end in a response or in the
provider's own error, with the sums of the tokens: whatever the response, and whatever the
providers of the chain answer. -/
theorem providers_fail_closed_iff (wire : WireApi) (parse : ByteArray → Option Value)
    {request : Request} (hadmitted : request.Admitted) (exchange : Exchange)
    (chain : FailoverProvider) :
    (FailsClosed (complete wire parse request exchange) ↔
        ∀ id ∈ answeredIds wire parse request exchange, FitId id) ∧
      CalledInOrder (outcomes request 0 chain.providers) (chain.complete request).attempts ∧
      (EndsClosed (chain.complete request) ↔
        DecidedClosed (outcomes request 0 chain.providers)) := by
  constructor
  · exact failsClosed_complete wire parse hadmitted exchange
  · constructor
    · exact calledInOrder_iterCandidates request 0 [] chain.providers
    · exact chain.endsClosed_iff request

/-- A reader that reads one body. -/
def readsOnly (body : String) (value : Value) : ByteArray → Option Value :=
  fun bytes => if bytes.data = body.toUTF8.data then some value else none

/-- A question without a cap. -/
def question : Request where
  messages := [⟨.user, "Which orders are open?", [], none, none, rfl⟩]
  maxTokens := none
  reasoningEffort := none

/-- A completion that calls a tool under an empty identifier. -/
def unnamedCall : String :=
  "\x7b\"choices\":[\x7b\"message\":\x7b\"role\":\"assistant\",\"tool_calls\":[\x7b\"id\":\"\"," ++
    "\"type\":\"function\",\"function\":\x7b\"name\":\"get_item\",\"arguments\":\"\"\x7d\x7d]\x7d\x7d]\x7d"

def unnamedCallValue : Value :=
  .dict [("choices", .list [.dict [("message", .dict [("role", .ofString "assistant"),
    ("tool_calls", .list [.dict [("id", .ofString ""), ("type", .ofString "function"),
      ("function", .dict [("name", .ofString "get_item"), ("arguments", .ofString "")])]])])]])]

/-- A completion without content, which reports its tokens. -/
def emptyCompletion : String :=
  "\x7b\"choices\":[\x7b\"message\":\x7b\"role\":\"assistant\",\"content\":\"\"\x7d\x7d]," ++
    "\"usage\":\x7b\"prompt_tokens\":9,\"completion_tokens\":4,\"total_tokens\":13\x7d\x7d"

def emptyCompletionValue : Value :=
  .dict [("choices", .list [.dict [("message", .dict [("role", .ofString "assistant"),
      ("content", .ofString "")])]]),
    ("usage", .dict [("prompt_tokens", .int 9), ("completion_tokens", .int 4),
      ("total_tokens", .int 13)])]

/-- A provider whose completion is empty, and one that refuses the key. -/
def paidThenRefused : FailoverProvider where
  providers :=
    [compatible .chatCompletions (readsOnly emptyCompletion emptyCompletionValue)
        (.response 200 emptyCompletion.toUTF8),
      compatible .chatCompletions (readsOnly "" .none) (.response 401 "".toUTF8)]
  providers_ne_nil := List.cons_ne_nil _ _

theorem readsOnly_self (body : String) (value : Value) :
    readsOnly body value body.toUTF8 = some value := if_pos rfl

theorem question_admitted : question.Admitted := by
  constructor
  · intro effort h
    cases h
  · intro maxTokens h
    cases h

theorem receive_success {body : String} (h : body.toUTF8.size ≤ maxProviderResponseBytes) :
    receive (.response 200 body.toUTF8) = .ok body.toUTF8 := by
  rw [receive, if_neg (not_lt.mpr h), if_pos (by decide)]

theorem answeredIds_unnamedCall :
    answeredIds .chatCompletions (readsOnly unnamedCall unnamedCallValue) question
      (.response 200 unnamedCall.toUTF8) = [[]] := by
  have hreceive := receive_success (show unnamedCall.toUTF8.size ≤ _ by decide +kernel)
  have hread : (CompletionEnvelope.read unnamedCallValue).map CompletionEnvelope.ids =
      some [[]] := rfl
  obtain ⟨envelope, henvelope, hids⟩ := Option.map_eq_some_iff.mp hread
  have hcheck : checkRequest .chatCompletions question = .ok () := rfl
  rw [answeredIds, hcheck, hreceive]
  simp only [reportedIds, readsOnly_self, Option.bind_some, henvelope, hids]

/-- The first attempt reports tokens and fails over. -/
theorem complete_emptyCompletion : ∃ error,
    passedOver (complete .chatCompletions (readsOnly emptyCompletion emptyCompletionValue) question
      (.response 200 emptyCompletion.toUTF8)) = some error ∧ error.tokens = (9, 4, 0) := by
  have hreceive := receive_success (show emptyCompletion.toUTF8.size ≤ _ by decide +kernel)
  have hcheck : checkRequest .chatCompletions question = .ok () := rfl
  have hread : (readReply .chatCompletions (readsOnly emptyCompletion emptyCompletionValue)
      emptyCompletion.toUTF8) = .ok ⟨[], [], false, some ⟨9, 4, 13, none⟩⟩ := by
    rw [readReply, readsOnly_self]
    rfl
  rw [complete, hcheck, hreceive, Except.ok_bind, Except.ok_bind, hread]
  exact ⟨_, rfl, rfl⟩

/-- The second attempt fails, and does not fail over. -/
theorem complete_refused : ∃ error,
    complete .chatCompletions (readsOnly "" .none) question (.response 401 "".toUTF8) =
      .error (.providerError error) ∧ error.failureCode.failsOver = false := by
  have hsize : ¬maxProviderResponseBytes < "".toUTF8.size := by decide +kernel
  have hcheck : checkRequest .chatCompletions question = .ok () := rfl
  rw [complete, hcheck, receive, if_neg hsize, if_neg (by decide)]
  exact ⟨_, rfl, rfl⟩

/-- An attempt that was paid for is not in the error of the next provider. -/
theorem not_decidedClosed_of_paid {first : Result ProviderResponse} {error last : ProviderError}
    (hpassed : passedOver first = some error) (htokens : error.tokens ≠ 0)
    (hfails : last.failureCode.failsOver = false) :
    ¬DecidedClosed [first, .error (.providerError last)] := by
  have hdecided : passedOver (.error (.providerError last)) = none := by
    rw [passedOver, hfails, if_neg (by decide)]
  simp [DecidedClosed, deciding, passedErrors, hpassed, hdecided, htokens]

/-- A call can end in another error than the provider's own, and a chain in an error that
leaves out the tokens of an attempt. -/
theorem providers_not_fail_closed :
    ¬FailsClosed (complete .chatCompletions (readsOnly unnamedCall unnamedCallValue) question
        (.response 200 unnamedCall.toUTF8)) ∧
      ¬EndsClosed (paidThenRefused.complete question) := by
  constructor
  · rw [failsClosed_complete _ _ question_admitted, answeredIds_unnamedCall]
    intro h
    exact (h [] List.mem_cons_self).1 rfl
  · obtain ⟨error, hpassed, htokens⟩ := complete_emptyCompletion
    obtain ⟨last, hlast, hfails⟩ := complete_refused
    have houtcomes : outcomes question 0 paidThenRefused.providers =
        [complete .chatCompletions (readsOnly emptyCompletion emptyCompletionValue) question
            (.response 200 emptyCompletion.toUTF8),
          complete .chatCompletions (readsOnly "" .none) question
            (.response 401 "".toUTF8)] := rfl
    rw [FailoverProvider.endsClosed_iff, houtcomes, hlast]
    exact not_decidedClosed_of_paid hpassed (by rw [htokens]; decide) hfails

/-- A call that is answered with HTTP 401, and the chain of two whose second call is. -/
theorem providers_fail_closed_iff_question :
    question.Admitted ∧
      (FailsClosed (complete .chatCompletions (readsOnly "" .none) question
          (.response 401 "".toUTF8)) ↔
        ∀ id ∈ answeredIds .chatCompletions (readsOnly "" .none) question
          (.response 401 "".toUTF8), FitId id) ∧
      CalledInOrder (outcomes question 0 paidThenRefused.providers)
        (paidThenRefused.complete question).attempts ∧
      (EndsClosed (paidThenRefused.complete question) ↔
        DecidedClosed (outcomes question 0 paidThenRefused.providers)) :=
  ⟨question_admitted, providers_fail_closed_iff .chatCompletions (readsOnly "" .none)
    question_admitted (.response 401 "".toUTF8) paidThenRefused⟩

end Provider
