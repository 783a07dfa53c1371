import SynoraErp.Agent.Secrets
import SynoraErp.Python.Wire
import SynoraErp.Workflow.State

/-!
# Checkpoint payloads

`model_dump(mode="json")` of a state with its nested records, `_safe_payload`,
`_encode`, and what `load` makes of a payload. The fields of an object stand in key
order, as `canonical_json` writes them. A payload is read into the records first and
checked as a whole afterwards, since any check that fails refuses it.
-/

namespace Workflow

open Python
open Governance (Uuid isCanonicalUuid)

/-! ## Formats -/

/-- The spellings of a UUID: with hyphens, without, as a URN and in braces. -/
def uuidForms (t : Text) : List Text :=
  let lower := t.map Text.asciiLower
  let hyphenated := lower.take 8 ++ ("-" ++ ((lower.drop 8).take 4 ++ ("-" ++
    ((lower.drop 12).take 4 ++ ("-" ++ ((lower.drop 16).take 4 ++ ("-" ++ lower.drop 20)))))))
  [lower, hyphenated,
    if lower.take 9 = Text.ofString "urn:uuid:" then lower.drop 9 else [],
    if lower.head? = some (codePoint '\x7b') ∧ lower.getLast? = some (codePoint '\x7d') then
      lower.tail.dropLast else []]

def readUuid (t : Text) : Option Uuid :=
  (uuidForms t).findSome? fun form =>
    if h : isCanonicalUuid form = true then some ⟨form, h⟩ else none

theorem readUuid_text (u : Uuid) : readUuid u.text = some u := by
  have hlower : u.text.map Text.asciiLower = u.text := u.map_asciiLower
  simp [readUuid, uuidForms, hlower, u.canonical]

namespace Wire

open Python.Wire

def uuid : Wire Uuid where
  write u := .str u.text
  read
    | .str t => readUuid t
    | _ => none
  read_write := readUuid_text

def toolName : Wire ToolName :=
  .choice [.itemLookup, .supplierLookup, .stockProjected, .demandOpen, .materialRequestOpen,
      .purchaseOrderOpen]
    (fun
      | .itemLookup => "item.lookup"
      | .supplierLookup => "supplier.lookup"
      | .stockProjected => "stock.projected"
      | .demandOpen => "demand.open"
      | .materialRequestOpen => "material_request.open"
      | .purchaseOrderOpen => "purchase_order.open")
    (by intro a; cases a <;> decide)

def answerType : Wire AnswerType :=
  .choice [.text, .choice, .boolean, .number]
    (fun
      | .text => "TEXT"
      | .choice => "CHOICE"
      | .boolean => "BOOLEAN"
      | .number => "NUMBER")
    (by intro a; cases a <;> decide)

def stepType : Wire StepType :=
  .choice [.tool, .clarification, .governedAction, .finalize]
    (fun
      | .tool => "TOOL"
      | .clarification => "CLARIFICATION"
      | .governedAction => "GOVERNED_ACTION"
      | .finalize => "FINALIZE")
    (by intro a; cases a <;> decide)

def stepStatus : Wire StepStatus :=
  .choice [.pending, .ready, .running, .waiting, .succeeded, .failed, .skipped, .cancelled]
    (fun
      | .pending => "PENDING"
      | .ready => "READY"
      | .running => "RUNNING"
      | .waiting => "WAITING"
      | .succeeded => "SUCCEEDED"
      | .failed => "FAILED"
      | .skipped => "SKIPPED"
      | .cancelled => "CANCELLED")
    (by intro a; cases a <;> decide)

def workflowStatus : Wire WorkflowStatus :=
  .choice [.ready, .running, .interrupted, .succeeded, .failed, .cancelled, .expired]
    (fun
      | .ready => "READY"
      | .running => "RUNNING"
      | .interrupted => "INTERRUPTED"
      | .succeeded => "SUCCEEDED"
      | .failed => "FAILED"
      | .cancelled => "CANCELLED"
      | .expired => "EXPIRED")
    (by intro a; cases a <;> decide)

def replanReason : Wire ReplanReason :=
  .choice [.inputClarified, .toolError, .observationConflict, .stateDrift, .noProgress]
    (fun
      | .inputClarified => "INPUT_CLARIFIED"
      | .toolError => "TOOL_ERROR"
      | .observationConflict => "OBSERVATION_CONFLICT"
      | .stateDrift => "STATE_DRIFT"
      | .noProgress => "NO_PROGRESS")
    (by intro a; cases a <;> decide)

/-- `Literal["1"]`. -/
def schemaVersion : Wire Unit where
  write _ := .str "1"
  read
    | .str t => if t = Text.ofString "1" then some () else none
    | _ => none
  read_write _ := by simp

def jsonMapping : Wire JsonMapping where
  write := JsonMapping.value
  read
    | .dict entries => if h : IsJson (.dict entries) = true then some ⟨entries, h⟩ else none
    | _ => none
  read_write m := dif_pos m.isJson

def clarification : Wire ClarificationRequest where
  write r := .dict
    [("answer_max_length", nat.write r.answerMaxLength),
      ("answer_type", answerType.write r.answerType),
      ("choices", (list text).write r.choices),
      ("interrupt_id", uuid.write r.interruptId),
      ("question", text.write r.question),
      ("schema_version", schemaVersion.write ())]
  read v := do
    let d ← object ["schema_version", "interrupt_id", "question", "answer_type",
      "answer_max_length", "choices"] v
    let _ ← schemaVersion.field d "schema_version" (some ())
    let interruptId ← uuid.field d "interrupt_id" none
    let question ← text.field d "question" none
    let answerType ← answerType.field d "answer_type" none
    let answerMaxLength ← nat.field d "answer_max_length" (some 500)
    let choices ← (list text).field d "choices" (some [])
    some ⟨interruptId, question, answerType, answerMaxLength, choices⟩
  read_write r := by
    rw [object_eq_some ["answer_max_length", "answer_type", "choices", "interrupt_id", "question",
      "schema_version"] rfl (by decide), Option.bind_eq_bind, Option.bind_some]
    iterate 6 refine bind_field rfl ?_
    rfl

def governedAction : Wire GovernedActionIntent where
  write i := .dict
    [("action_type", text.write i.actionType),
      ("goal_version", nat.write i.goalVersion),
      ("items", (list jsonMapping).write i.items),
      ("payment", (optional jsonMapping (by simp [jsonMapping, JsonMapping.value])).write i.payment),
      ("reason", text.write i.reason),
      ("run_id", uuid.write i.runId),
      ("run_version", nat.write i.runVersion),
      ("schema_version", schemaVersion.write ()),
      ("source_doctype", text.write i.sourceDoctype),
      ("source_name", text.write i.sourceName)]
  read v := do
    let d ← object ["schema_version", "run_id", "goal_version", "run_version", "action_type",
      "source_doctype", "source_name", "items", "payment", "reason"] v
    let _ ← schemaVersion.field d "schema_version" (some ())
    let runId ← uuid.field d "run_id" none
    let goalVersion ← nat.field d "goal_version" none
    let runVersion ← nat.field d "run_version" none
    let actionType ← text.field d "action_type" none
    let sourceDoctype ← text.field d "source_doctype" none
    let sourceName ← text.field d "source_name" none
    let items ← (list jsonMapping).field d "items" (some [])
    let payment ← (optional jsonMapping (by simp [jsonMapping, JsonMapping.value])).field d
      "payment" (some none)
    let reason ← text.field d "reason" none
    some ⟨runId, goalVersion, runVersion, actionType, sourceDoctype, sourceName, items, payment,
      reason⟩
  read_write i := by
    rw [object_eq_some ["action_type", "goal_version", "items", "payment", "reason", "run_id",
      "run_version", "schema_version", "source_doctype", "source_name"] rfl (by decide),
      Option.bind_eq_bind, Option.bind_some]
    iterate 10 refine bind_field rfl ?_
    rfl

/-- `str | None`. -/
def textOrNone : Wire (Option Text) := optional text text_write_ne_none

def toolNameOrNone : Wire (Option ToolName) := optional toolName (by simp [toolName, choice])

def clarificationOrNone : Wire (Option ClarificationRequest) :=
  optional clarification (by simp [clarification])

def governedActionOrNone : Wire (Option GovernedActionIntent) :=
  optional governedAction (by simp [governedAction])

def replanReasonOrNone : Wire (Option ReplanReason) :=
  optional replanReason (by simp [replanReason, choice])

def planStep : Wire PlanStep where
  write s := .dict
    [("allowed_tools", (list toolName).write s.allowedTools),
      ("clarification", clarificationOrNone.write s.clarification),
      ("completed_at", textOrNone.write s.completedAt),
      ("depends_on", (list text).write s.dependsOn),
      ("error", textOrNone.write s.error),
      ("governed_action", governedActionOrNone.write s.governedAction),
      ("observation_digest", textOrNone.write s.observationDigest),
      ("order", nat.write s.order),
      ("parameters", jsonMapping.write s.parameters),
      ("schema_version", schemaVersion.write ()),
      ("status", stepStatus.write s.status),
      ("step_id", text.write s.stepId),
      ("tool_name", toolNameOrNone.write s.toolName),
      ("type", stepType.write s.type)]
  read v := do
    let d ← object ["schema_version", "step_id", "order", "type", "depends_on", "allowed_tools",
      "tool_name", "clarification", "governed_action", "parameters", "status",
      "observation_digest", "error", "completed_at"] v
    let _ ← schemaVersion.field d "schema_version" (some ())
    let stepId ← text.field d "step_id" none
    let order ← nat.field d "order" none
    let type ← stepType.field d "type" none
    let dependsOn ← (list text).field d "depends_on" (some [])
    let allowedTools ← (list toolName).field d "allowed_tools" (some [])
    let toolName ← toolNameOrNone.field d "tool_name" (some none)
    let clarification ← clarificationOrNone.field d "clarification" (some none)
    let governedAction ← governedActionOrNone.field d "governed_action" (some none)
    let parameters ← jsonMapping.field d "parameters" (some .empty)
    let status ← stepStatus.field d "status" (some .pending)
    let observationDigest ← textOrNone.field d "observation_digest" (some none)
    let error ← textOrNone.field d "error" (some none)
    let completedAt ← textOrNone.field d "completed_at" (some none)
    some ⟨stepId, order, type, dependsOn, allowedTools, toolName, clarification, governedAction,
      parameters, status, observationDigest, error, completedAt⟩
  read_write s := by
    rw [object_eq_some ["allowed_tools", "clarification", "completed_at", "depends_on", "error",
      "governed_action", "observation_digest", "order", "parameters", "schema_version", "status",
      "step_id", "tool_name", "type"] rfl (by decide), Option.bind_eq_bind, Option.bind_some]
    iterate 14 refine bind_field rfl ?_
    rfl

def budget : Wire WorkflowBudget where
  write b := .dict
    [("max_elapsed_ms", nat.write b.maxElapsedMs),
      ("max_observation_bytes", nat.write b.maxObservationBytes),
      ("max_steps", nat.write b.maxSteps)]
  read v := do
    let d ← object ["max_steps", "max_elapsed_ms", "max_observation_bytes"] v
    let maxSteps ← nat.field d "max_steps" (some WorkflowBudget.default.maxSteps)
    let maxElapsedMs ← nat.field d "max_elapsed_ms" (some WorkflowBudget.default.maxElapsedMs)
    let maxObservationBytes ← nat.field d "max_observation_bytes"
      (some WorkflowBudget.default.maxObservationBytes)
    some ⟨maxSteps, maxElapsedMs, maxObservationBytes⟩
  read_write b := by
    rw [object_eq_some ["max_elapsed_ms", "max_observation_bytes", "max_steps"] rfl (by decide),
      Option.bind_eq_bind, Option.bind_some]
    iterate 3 refine bind_field rfl ?_
    rfl

def workflowState : Wire WorkflowState where
  write s := .dict
    [("budget", budget.write s.budget),
      ("clarification", clarificationOrNone.write s.clarification),
      ("crash_recovered", bool.write s.crashRecovered),
      ("current_step_id", textOrNone.write s.currentStepId),
      ("deadline", text.write s.deadline),
      ("graph_version", text.write s.graphVersion),
      ("plan_version", nat.write s.planVersion),
      ("replan_reason", replanReasonOrNone.write s.replanReason),
      ("revision", nat.write s.revision),
      ("run_id", uuid.write s.runId),
      ("schema_version", schemaVersion.write ()),
      ("status", workflowStatus.write s.status),
      ("steps", (list planStep).write s.steps),
      ("stop_reason", textOrNone.write s.stopReason),
      ("trace_id", uuid.write s.traceId)]
  read v := do
    let d ← object ["schema_version", "run_id", "revision", "plan_version", "graph_version",
      "status", "current_step_id", "steps", "clarification", "replan_reason", "budget",
      "deadline", "trace_id", "stop_reason", "crash_recovered"] v
    let _ ← schemaVersion.field d "schema_version" (some ())
    let runId ← uuid.field d "run_id" none
    let revision ← nat.field d "revision" (some 0)
    let planVersion ← nat.field d "plan_version" (some 1)
    let graphVersion ← text.field d "graph_version" (some "workflow-v1")
    let status ← workflowStatus.field d "status" (some .ready)
    let currentStepId ← textOrNone.field d "current_step_id" (some none)
    let steps ← (list planStep).field d "steps" none
    let clarification ← clarificationOrNone.field d "clarification" (some none)
    let replanReason ← replanReasonOrNone.field d "replan_reason" (some none)
    let budget ← budget.field d "budget" (some .default)
    let deadline ← text.field d "deadline" none
    let traceId ← uuid.field d "trace_id" none
    let stopReason ← textOrNone.field d "stop_reason" (some none)
    let crashRecovered ← bool.field d "crash_recovered" (some false)
    some ⟨runId, revision, planVersion, graphVersion, status, currentStepId, steps, clarification,
      replanReason, budget, deadline, traceId, stopReason, crashRecovered⟩
  read_write s := by
    rw [object_eq_some ["budget", "clarification", "crash_recovered", "current_step_id",
      "deadline", "graph_version", "plan_version", "replan_reason", "revision", "run_id",
      "schema_version", "status", "steps", "stop_reason", "trace_id"] rfl (by decide),
      Option.bind_eq_bind, Option.bind_some]
    iterate 15 refine bind_field rfl ?_
    rfl

end Wire

/-! ## Payloads -/

/-- The words of the checkpoint's `_SENSITIVE_KEY`. -/
def checkpointWords : List String :=
  ["capability", "authorization", "cookie", "password", "passwd", "secret", "apikey", "api_key",
    "api-key", "bearer", "token", "prompt"]

def incompatible (detail : String) : Exn := .checkpointError "CHECKPOINT_INCOMPATIBLE" detail

section

variable (W : Agent.WordClass)

mutual

/-- `_safe_payload`. -/
def safePayload : Value → Result Unit
  | .str t =>
      if Agent.hasSecret W none t then .error (incompatible "checkpoint contains a secret-like value")
      else .ok ()
  | .list xs => safeItems xs
  | .dict entries => safeEntries entries
  | _ => .ok ()

def safeItems : List Value → Result Unit
  | [] => .ok ()
  | x :: xs => do
      safePayload x
      safeItems xs

def safeEntries : List (Text × Value) → Result Unit
  | [] => .ok ()
  | (k, v) :: entries =>
      if Agent.hasWord checkpointWords k then
        .error (incompatible "checkpoint contains a forbidden field")
      else do
        safePayload v
        safeEntries entries

end

variable (I : Interpreter)

/-- `_encode`. `canonical_json` refuses a float that is no number and an integer past
the digit limit. -/
def encode (s : WorkflowState) : Result Text := do
  let value := Wire.workflowState.write s
  safePayload W value
  if IsJson value = false then .error (incompatible "checkpoint state is not JSON safe")
  else .ok (Json.render I value)

/-- The database binds no text without a UTF-8 form. -/
def bindText (t : Text) : Result Unit :=
  if Text.encodeUtf8 t = none then .error .unicodeEncodeError else .ok ()

/-- The payload of a state that `create` and `save` can store. -/
def storedPayload (s : WorkflowState) : Result Text := do
  let payload ← encode W I s
  bindText payload
  .ok payload

/-- `WorkflowState.model_validate_json`: a text that has no UTF-8 form, is no JSON or
breaks a check is refused. -/
def validateJson (t : Text) : Option WorkflowState := do
  let _ ← Text.encodeUtf8 t
  let value ← Json.loads I .default t
  let s ← Wire.workflowState.read value
  if s.Valid I then some s else none

/-- `decoded.get("schema_version") == "1"` of an object. -/
def hasSchemaVersion : Value → Bool
  | .dict d => decide (Dict.get? d "schema_version" = some (.str "1"))
  | _ => false

/-- The state `load` makes of a payload. -/
def decode (payload : Text) : Result WorkflowState :=
  match Json.loads I .default payload with
  | none => .error (incompatible "checkpoint payload is invalid")
  | some decoded => do
      safePayload W decoded
      if hasSchemaVersion decoded = false then
        .error (incompatible "checkpoint payload is invalid")
      else
        match (Json.dumps I decoded).bind (validateJson I) with
        | none => .error (incompatible "checkpoint payload is invalid")
        | some s => .ok s

end

section Payloads

variable {W : Agent.WordClass} {I : Interpreter} {s : WorkflowState} {payload : Text}

theorem storedPayload_eq_ok (h : storedPayload W I s = .ok payload) :
    safePayload W (Wire.workflowState.write s) = .ok () ∧
      IsJson (Wire.workflowState.write s) = true ∧
      payload = Json.render I (Wire.workflowState.write s) ∧
      Text.encodeUtf8 payload ≠ none := by
  simp only [storedPayload, encode, bindText, Except.bind_eq_ok, Except.ite_error_eq_ok,
    Bool.not_eq_false] at h
  obtain ⟨p, ⟨u, hsafe, hjson, hp⟩, v, ⟨hutf, -⟩, hpayload⟩ := h
  obtain rfl := Except.ok.inj hp
  obtain rfl := Except.ok.inj hpayload
  exact ⟨hsafe, hjson, rfl, hutf⟩

end Payloads

end Workflow
