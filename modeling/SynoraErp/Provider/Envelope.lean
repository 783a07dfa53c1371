import SynoraErp.Provider.Contracts

/-!
# Response envelopes

The strict models of the two wire formats: what is read from the JSON value of a body.
`none` is the `ValidationError` of the reader.
-/

namespace Provider

open Python

/-! ## Strict readers -/

def strictText : Value → Option Text
  | .str t => some t
  | _ => none

def strictInt : Value → Option ℤ
  | .int n => some n
  | _ => none

/-- `Optional[...]`. -/
def nullable {α : Type} (read : Value → Option α) : Value → Option (Option α)
  | .none => some none
  | v => (read v).map some

/-- `tuple[..., ...]`. -/
def tupleOf {α : Type} (read : Value → Option α) : Value → Option (List α)
  | .list xs => xs.mapM read
  | _ => none

/-- A field that must be given. -/
def required {α : Type} (read : Value → Option α) (d : Dict) (key : String) : Option α :=
  (Dict.get? d key).bind read

/-- A field with a default. -/
def defaulting {α : Type} (read : Value → Option α) (d : Dict) (key : String) (default : α) :
    Option α :=
  match Dict.get? d key with
  | none => some default
  | some v => read v

/-- A `Literal` of one text. -/
def literal (expected : String) : Value → Option Unit
  | .str t => if t = Text.ofString expected then some () else none
  | _ => none

/-- An object, whatever its other keys. -/
def objectOf {α : Type} (read : Dict → Option α) : Value → Option α
  | .dict d => read d
  | _ => none

/-- An object with no other key. -/
def strictObjectOf {α : Type} (keys : List String) (read : Dict → Option α) : Value → Option α
  | .dict d =>
      if ∀ key ∈ Dict.keys d, key ∈ keys.map Text.ofString then read d else none
  | _ => none

/-! ## `chat/completions` -/

/-- `_ToolCallFunction`. -/
structure ToolCallFunction where
  name : Text
  arguments : Text

def ToolCallFunction.read : Value → Option ToolCallFunction :=
  strictObjectOf ["name", "arguments"] fun d => do
    let name ← required strictText d "name"
    let arguments ← required strictText d "arguments"
    some ⟨name, arguments⟩

/-- `_ProviderToolCall`. -/
structure WireToolCall where
  id : Text
  function : ToolCallFunction

def WireToolCall.read : Value → Option WireToolCall :=
  strictObjectOf ["id", "type", "function"] fun d => do
    let id ← required strictText d "id"
    let _ ← required (literal "function") d "type"
    let function ← required ToolCallFunction.read d "function"
    some ⟨id, function⟩

/-- `_AssistantMessage`. -/
structure AssistantMessage where
  content : Option Text
  reasoningContent : Option Text
  refusal : Option Text
  toolCalls : List WireToolCall

def AssistantMessage.read : Value → Option AssistantMessage :=
  objectOf fun d => do
    let _ ← required (literal "assistant") d "role"
    let content ← defaulting (nullable strictText) d "content" none
    let reasoningContent ← defaulting (nullable strictText) d "reasoning_content" none
    let refusal ← defaulting (nullable strictText) d "refusal" none
    let toolCalls ← defaulting (tupleOf WireToolCall.read) d "tool_calls" []
    some ⟨content, reasoningContent, refusal, toolCalls⟩

/-- `_Choice`. -/
structure Choice where
  message : AssistantMessage
  finishReason : Text
  index : ℤ

def Choice.read : Value → Option Choice :=
  objectOf fun d => do
    let message ← required AssistantMessage.read d "message"
    let finishReason ← defaulting strictText d "finish_reason" []
    let index ← defaulting strictInt d "index" 0
    some ⟨message, finishReason, index⟩

/-- `_CompletionTokenDetails` and `_ResponsesUsageOutputDetails`. -/
structure TokenDetails where
  reasoningTokens : ℤ

def TokenDetails.read : Value → Option TokenDetails :=
  objectOf fun d => do
    let reasoningTokens ← defaulting strictInt d "reasoning_tokens" 0
    some ⟨reasoningTokens⟩

/-- `_Usage` and `_ResponsesUsage`, which name the counts differently. -/
structure Usage where
  promptTokens : ℤ
  completionTokens : ℤ
  totalTokens : ℤ
  details : Option TokenDetails

/-- The reasoning tokens that are reported, or none. -/
def Usage.reasoningTokens (usage : Usage) : ℤ :=
  match usage.details with
  | some details => details.reasoningTokens
  | none => 0

def Usage.read (promptKey completionKey detailsKey : String) : Value → Option Usage :=
  objectOf fun d => do
    let promptTokens ← required strictInt d promptKey
    let completionTokens ← required strictInt d completionKey
    let totalTokens ← required strictInt d "total_tokens"
    let details ← defaulting (nullable TokenDetails.read) d detailsKey none
    some ⟨promptTokens, completionTokens, totalTokens, details⟩

/-- `_CompletionEnvelope`. -/
structure CompletionEnvelope where
  usage : Option Usage
  choices : List Choice

def CompletionEnvelope.read : Value → Option CompletionEnvelope :=
  objectOf fun d => do
    let _ ← defaulting strictText d "id" []
    let _ ← defaulting strictText d "request_id" []
    let _ ← defaulting strictText d "object" []
    let _ ← defaulting strictInt d "created" 0
    let _ ← defaulting strictText d "model" []
    let usage ← defaulting (nullable (Usage.read "prompt_tokens" "completion_tokens"
      "completion_tokens_details")) d "usage" none
    let choices ← defaulting (tupleOf Choice.read) d "choices" []
    some ⟨usage, choices⟩

/-! ## `responses` -/

/-- `_ResponsesOutputContent`. -/
structure OutputContent where
  type : Text
  text : Option Text

def OutputContent.read : Value → Option OutputContent :=
  objectOf fun d => do
    let type ← defaulting strictText d "type" []
    let text ← defaulting (nullable strictText) d "text" none
    some ⟨type, text⟩

/-- `_ResponsesOutputItem`. -/
structure OutputItem where
  type : Text
  role : Option Text
  content : List OutputContent
  id : Text
  callId : Option Text
  name : Option Text
  arguments : Option Text

def OutputItem.read : Value → Option OutputItem :=
  objectOf fun d => do
    let type ← defaulting strictText d "type" []
    let role ← defaulting (nullable strictText) d "role" none
    let content ← defaulting (tupleOf OutputContent.read) d "content" []
    let id ← defaulting strictText d "id" []
    let callId ← defaulting (nullable strictText) d "call_id" none
    let name ← defaulting (nullable strictText) d "name" none
    let arguments ← defaulting (nullable strictText) d "arguments" none
    some ⟨type, role, content, id, callId, name, arguments⟩

/-- `_ResponsesEnvelope`. -/
structure ResponsesEnvelope where
  output : List OutputItem
  usage : Option Usage

def ResponsesEnvelope.read : Value → Option ResponsesEnvelope :=
  objectOf fun d => do
    let output ← defaulting (tupleOf OutputItem.read) d "output" []
    let usage ← defaulting (nullable (Usage.read "input_tokens" "output_tokens"
      "output_tokens_details")) d "usage" none
    some ⟨output, usage⟩

end Provider
