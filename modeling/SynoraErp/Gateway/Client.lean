import SynoraErp.Gateway.Invocation
import SynoraErp.Gateway.Tools
import SynoraErp.Workflow.Runtime

/-!
# The Gateway client

How the adapter of the Runtime turns an action into a request, and what the client puts on
the wire.
-/

namespace Gateway

open Python
open Governance (Uuid Digest sha256 record)
open Workflow (Action isStepId)

/-- The context of a durable workflow step: what `set_workflow_context` is given. -/
structure StepContext where
  planVersion : ℕ
  stepId : Text
  planVersion_pos : 1 ≤ planVersion
  planVersion_le : planVersion ≤ 10000
  isStepId : isStepId stepId = true

/-- `GatewayToolAdapter`, before it is closed. -/
structure GatewayToolAdapter where
  runId : Uuid
  correlationId : Uuid
  capability : Text
  context : Option StepContext

/-- The metadata `execute` adds to the request of a workflow step. -/
structure StepMetadata where
  planVersion : ℕ
  stepId : Text
  argsDigest : Digest
  invocationId : Digest

/-- `GatewayRequest`; its schema version is `"1"`. -/
structure GatewayRequest where
  runId : Uuid
  capability : Text
  correlationId : Uuid
  tool : ToolCall
  metadata : Option StepMetadata

/-- `validate_capability`. -/
def isCapability (token : Text) : Bool :=
  token.length == 43 && token.all fun c =>
    (0x30 ≤ c.val && c.val ≤ 0x39) || (0x41 ≤ c.val && c.val ≤ 0x5A) ||
      (0x61 ≤ c.val && c.val ≤ 0x7A) || c == 0x5F || c == 0x2D

/-- `canonical_json(value).encode("utf-8")`; `none` is its exception. -/
def canonicalBytes (I : Interpreter) (value : Value) : Option ByteArray :=
  (Json.dumpsLimited I value).bind Text.encodeUtf8

namespace GatewayToolAdapter

/-- The metadata of a step, of the arguments as the plan has them. -/
def stepMetadata (I : Interpreter) (adapter : GatewayToolAdapter) (context : StepContext)
    (action : Action) (tool : ToolCall) : Option StepMetadata := do
  let args ← canonicalBytes I action.canonicalArgs.value
  let argsDigest := sha256 args
  let identity ← Text.encodeUtf8 (material adapter.runId context.planVersion context.stepId
    tool.tool.name "1" argsDigest)
  some ⟨context.planVersion, context.stepId, argsDigest, sha256 identity⟩

/-- The request `execute` hands to the client; `none` is an exception, which `execute` raises
as a `GATEWAY_ERROR`. -/
def request (I : Interpreter) (adapter : GatewayToolAdapter) (action : Action) :
    Option GatewayRequest := do
  let tool ← validateToolCall (.step action.toolName) action.canonicalArgs.entries
  if isCapability adapter.capability = true then
    match adapter.context with
    | none => some ⟨adapter.runId, adapter.capability, adapter.correlationId, tool, none⟩
    | some context => do
        let metadata ← adapter.stepMetadata I context action tool
        some ⟨adapter.runId, adapter.capability, adapter.correlationId, tool, some metadata⟩
  else none

end GatewayToolAdapter

mutual

/-- `_contains_secret`. -/
def containsSecret (secret : Text) : Value → Bool
  | .str t => decide (secret <:+: t)
  | .list xs => containsSecretItems secret xs
  | .dict entries => containsSecretEntries secret entries
  | _ => false

def containsSecretItems (secret : Text) : List Value → Bool
  | [] => false
  | x :: xs => containsSecret secret x || containsSecretItems secret xs

def containsSecretEntries (secret : Text) : List (Text × Value) → Bool
  | [] => false
  | (k, v) :: entries =>
      decide (secret <:+: k) || containsSecret secret v || containsSecretEntries secret entries

end

namespace GatewayRequest

/-- The input with its defaults, without what is `None`. -/
def wireInput (request : GatewayRequest) : Dict := Model.excludeNone request.tool.input

/-- The call in the payload. -/
def toolPayload (request : GatewayRequest) : Dict :=
  record
    [("input", some (.dict request.wireInput)), ("name", some (.ofString request.tool.tool.name)),
      ("version", some (.ofString "1"))]

/-- `model_dump(mode="json", exclude={"capability"}, exclude_none=True)` with the capability
put in, in the order of the keys. -/
def payload (request : GatewayRequest) : Dict :=
  record
    [("args_digest", request.metadata.map fun m => m.argsDigest.value),
      ("capability", some (.str request.capability)),
      ("correlation_id", some request.correlationId.value),
      ("invocation_id", request.metadata.map fun m => m.invocationId.value),
      ("plan_version", request.metadata.map fun m => .int m.planVersion),
      ("run_id", some request.runId.value),
      ("schema_version", some (.ofString "1")),
      ("step_id", request.metadata.map fun m => .str m.stepId),
      ("tool", some (.dict request.toolPayload))]

/-- The body `GatewayClient.execute` sends; `none` is the `GatewayProtocolError` of an input
that holds the capability. -/
def body (I : Interpreter) (request : GatewayRequest) : Option Text :=
  if containsSecret request.capability (.dict request.tool.input) = true then none
  else some (Json.render I (.dict request.payload))

end GatewayRequest

end Gateway
