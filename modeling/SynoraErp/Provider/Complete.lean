import SynoraErp.Provider.Envelope

/-!
# One call of a provider

`OpenAICompatibleProvider.complete`: the request is checked and posted, the body that comes
back is read against the envelope of its wire format, the reported usage is checked against
the cap, and the answer is built.
-/

namespace Provider

open Python

inductive WireApi where
  | chatCompletions
  | responses
  deriving DecidableEq

/-- What of a request the call depends on. -/
structure Request where
  messages : List ProviderMessage
  maxTokens : Option ℤ
  reasoningEffort : Option Text

/-- What posting a request gives. -/
inductive Exchange where
  | timeout
  | transportFailure
  | response (statusCode : ℕ) (body : ByteArray)

/-! ## The request -/

/-- `_REASONING_EFFORTS`. -/
def reasoningEfforts : List Text := ["none", "low", "medium", "high", "xhigh"].map Text.ofString

/-- `PROVIDER_MAX_OUTPUT_TOKEN_LIMIT`. -/
def maxOutputTokenLimit : ℤ := 8192

/-- `_serialize_responses_message` refuses the message. -/
def isToolMessage (message : ProviderMessage) : Bool :=
  message.role == .tool || !message.toolCalls.isEmpty

/-- The checks ahead of the post. -/
def checkRequest (wire : WireApi) (request : Request) : Result Unit :=
  if request.messages.isEmpty then
    fail { message := "provider requires at least one message", failureCode := .invalidRequest }
  else if ¬∀ effort ∈ request.reasoningEffort, effort ∈ reasoningEfforts then
    .error (.valueError
      "provider reasoning_effort must be none, low, medium, high, or xhigh")
  else if wire = .responses ∧ request.messages.any isToolMessage then
    fail
      { message := "responses provider does not accept tool messages in this request"
        failureCode := .invalidRequest }
  else if ¬∀ maxTokens ∈ request.maxTokens, 1 ≤ maxTokens ∧ maxTokens ≤ maxOutputTokenLimit then
    .error (.valueError "provider max_tokens must be within 1..8192")
  else .ok ()

/-! ## The response -/

/-- `MAX_PROVIDER_RESPONSE_BYTES`. -/
def maxProviderResponseBytes : ℕ := 2000000

/-- The failure code of a status that is not a success. -/
def statusFailure (statusCode : ℕ) : FailureCode :=
  if statusCode = 429 then .rateLimited
  else if statusCode = 408 then .timeout
  else if 500 ≤ statusCode ∧ statusCode ≤ 599 then .upstreamUnavailable
  else .httpError

/-- The body of a successful response. -/
def receive : Exchange → Result ByteArray
  | .timeout => fail { message := "provider request timed out", failureCode := .timeout }
  | .transportFailure =>
      fail { message := "provider transport failed", failureCode := .transportError }
  | .response statusCode body =>
      if maxProviderResponseBytes < body.size then
        fail
          { message := "provider response exceeded size limit"
            failureCode := .responseTooLarge
            responseSha256 := some (Sha256.hexdigest body) }
      else if 200 ≤ statusCode ∧ statusCode ≤ 299 then .ok body
      else
        fail
          { message := Text.ofString "provider returned HTTP " ++ natText statusCode
            failureCode := statusFailure statusCode
            responseSha256 := some (Sha256.hexdigest body) }

/-- What is read from a body. -/
structure Reply where
  text : Text
  toolCalls : List ProviderToolCall
  reasoningContentPresent : Bool
  usage : Option Usage

def invalidResponse (sha256 : Text) : ProviderError where
  message := "provider returned an invalid response"
  failureCode := .responseSchema
  responseSha256 := some sha256

/-- The tool call of a chat message. -/
def chatToolCall (call : WireToolCall) : Result ProviderToolCall :=
  ProviderToolCall.build call.id call.function.name call.function.arguments

/-- The reply of the first choice. -/
def chatReply (sha256 : Text) (envelope : CompletionEnvelope) : Result Reply :=
  match envelope.choices with
  | [] =>
      fail
        { message := "provider returned no choices"
          failureCode := .responseNoChoices
          responseSha256 := some sha256 }
  | choice :: _ => do
      let toolCalls ← choice.message.toolCalls.mapM chatToolCall
      .ok
        { text := choice.message.content.getD []
          toolCalls := toolCalls
          reasoningContentPresent := choice.message.reasoningContent.isSome
          usage := envelope.usage }

/-- The texts of a message, one after another. -/
def outputText (content : List OutputContent) : Text :=
  content.flatMap fun part =>
    if part.type = Text.ofString "output_text" then part.text.getD [] else []

/-- A function call without a name or without arguments. -/
def OutputItem.isIncomplete (item : OutputItem) : Bool :=
  item.type == Text.ofString "function_call" && (isFalsy item.name || item.arguments.isNone)

/-- `item.call_id or item.id`. -/
def OutputItem.toolCallId (item : OutputItem) : Text :=
  if isFalsy item.callId then item.id else item.callId.getD []

/-- The tool call of an output item. -/
def outputToolCall (item : OutputItem) : Result ProviderToolCall :=
  if item.isIncomplete then
    fail
      { message := "provider returned an invalid function call", failureCode := .responseSchema }
  else
    ProviderToolCall.build item.toolCallId (item.name.getD []) (item.arguments.getD [])

/-- `_responses_output_values`. -/
def outputValues (usage : Option Usage) : List OutputItem → Result Reply
  | [] =>
      .ok { text := [], toolCalls := [], reasoningContentPresent := false, usage := usage }
  | item :: items =>
      if item.type = Text.ofString "reasoning" then do
        let values ← outputValues usage items
        .ok { values with reasoningContentPresent := true }
      else if item.type = Text.ofString "message" then do
        let values ← outputValues usage items
        .ok { values with text := outputText item.content ++ values.text }
      else if item.type = Text.ofString "function_call" then do
        let call ← outputToolCall item
        let values ← outputValues usage items
        .ok { values with toolCalls := call :: values.toolCalls }
      else outputValues usage items

/-- The reply of a `responses` envelope. -/
def responsesReply (sha256 : Text) (envelope : ResponsesEnvelope) : Result Reply :=
  if envelope.output.isEmpty then
    fail
      { message := "provider returned no output"
        failureCode := .responseNoChoices
        responseSha256 := some sha256 }
  else outputValues envelope.usage envelope.output

/-- The body, read against the envelope of the wire format. The reader of the JSON text is
given by `parse`; it refuses with `none`. -/
def readReply (wire : WireApi) (parse : ByteArray → Option Value) (body : ByteArray) :
    Result Reply :=
  match wire with
  | .chatCompletions =>
      match (parse body).bind CompletionEnvelope.read with
      | none => fail (invalidResponse (Sha256.hexdigest body))
      | some envelope => chatReply (Sha256.hexdigest body) envelope
  | .responses =>
      match (parse body).bind ResponsesEnvelope.read with
      | none => fail (invalidResponse (Sha256.hexdigest body))
      | some envelope => responsesReply (Sha256.hexdigest body) envelope

/-! ## The usage -/

/-- `total_tokens - prompt_tokens`. -/
def Usage.billedOutputTokens (usage : Usage) : ℤ := usage.totalTokens - usage.promptTokens

/-- A refusal of the reported usage, which keeps the counts as evidence. -/
def usageError (usage : Usage) (sha256 message : Text) (failureCode : FailureCode) :
    ProviderError where
  message := message
  promptTokens := usage.promptTokens
  completionTokens := usage.completionTokens
  reasoningTokens := usage.reasoningTokens
  tokenBudget := true
  failureCode := failureCode
  responseSha256 := some sha256

/-- The checks of a reported usage. -/
def checkReportedUsage (maxTokens : Option ℤ) (sha256 : Text) (usage : Usage) : Result Unit :=
  if usage.promptTokens < 0 ∨ usage.completionTokens < 0 ∨ usage.reasoningTokens < 0 ∨
      usage.totalTokens < 0 then
    fail (usageError usage sha256 "provider returned invalid token usage" .usageInvalid)
  else if usage.billedOutputTokens < 0 then
    fail (usageError usage sha256 "provider returned invalid token usage" .usageInvalid)
  else
    match maxTokens with
    | some maxTokens =>
        if maxTokens < usage.billedOutputTokens then
          fail (usageError usage sha256
            (Text.ofString "provider exceeded max_tokens budget (" ++
              Json.intText usage.billedOutputTokens ++ Text.ofString " > " ++
              Json.intText maxTokens ++ Text.ofString ")") .budgetExceeded)
        else .ok ()
    | none => .ok ()

/-- The checks of the usage; a capped request must come back with one. -/
def checkUsage (maxTokens : Option ℤ) (sha256 : Text) : Option Usage → Result Unit
  | some usage => checkReportedUsage maxTokens sha256 usage
  | none =>
      if maxTokens.isSome then
        fail
          { message := "provider omitted usage for budgeted response"
            tokenBudget := true
            failureCode := .usageMissing
            responseSha256 := some sha256 }
      else .ok ()

/-- A count of the usage, zero without one. -/
def Reply.count (reply : Reply) (count : Usage → ℤ) : ℤ :=
  match reply.usage with
  | some usage => count usage
  | none => 0

/-- The response, which has a text or a tool call. -/
def Reply.response (sha256 : Text) (reply : Reply) : Result ProviderResponse :=
  if reply.text.isEmpty ∧ reply.toolCalls.isEmpty then
    fail
      { message := "provider returned no final content"
        promptTokens := reply.count Usage.promptTokens
        completionTokens := reply.count Usage.completionTokens
        reasoningTokens := reply.count Usage.reasoningTokens
        failureCode := .responseContentMissing
        responseSha256 := some sha256 }
  else
    .ok
      { text := reply.text
        toolCalls := reply.toolCalls
        promptTokens := reply.count Usage.promptTokens
        completionTokens := reply.count Usage.completionTokens
        reasoningTokens := reply.count Usage.reasoningTokens
        reasoningContentPresent := reply.reasoningContentPresent }

/-- `OpenAICompatibleProvider.complete`. -/
def complete (wire : WireApi) (parse : ByteArray → Option Value) (request : Request)
    (exchange : Exchange) : Result ProviderResponse := do
  checkRequest wire request
  let body ← receive exchange
  let reply ← readReply wire parse body
  checkUsage request.maxTokens (Sha256.hexdigest body) reply.usage
  reply.response (Sha256.hexdigest body)

end Provider
