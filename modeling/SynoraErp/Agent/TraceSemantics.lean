import SynoraErp.Agent.Numerals
import SynoraErp.Python.Equality
import SynoraErp.Python.Except

/-!
# The semantics of a trace

`_validate_trace_semantics`: the events of a Runtime trace, the summaries its tools
observed, and the final answer that cites them.
-/

namespace Agent

open Python
open Governance (isAlphanumeric isLowerHex isDigest)

/-- What the validation raises. -/
inductive TraceError where
  | valueError (message : String)
  | typeError
  | unicodeEncodeError
  deriving DecidableEq

abbrev Checked := Except TraceError

/-- `if not condition: raise ValueError(message)`. -/
def require (condition : Prop) [Decidable condition] (message : String) : Checked Unit :=
  if condition then .ok () else .error (.valueError message)

/-- A reading that fails with `message`. -/
def orRaise {α : Type} (value : Option α) (message : String) : Checked α :=
  match value with
  | some a => .ok a
  | none => .error (.valueError message)

/-- `_AGENT_READ_TOOL_NAMES`. -/
def agentReadToolNames : List Text :=
  [("item.lookup" : Text), "supplier.lookup", "stock.projected", "demand.open",
    "material_request.open", "purchase_order.open"]

/-- `_CONTEXT_FRAGMENT_ID.fullmatch(value)`. -/
def isFragmentId : Text → Bool
  | [] => false
  | c :: t =>
      isLowerAlphanumeric c && t.length ≤ 119 &&
        t.all fun c => isLowerAlphanumeric c || (Text.ofString "_.:-").contains c
where
  /-- `[a-z0-9]`. -/
  isLowerAlphanumeric (c : CodePoint) : Bool :=
    (0x30 ≤ c.val && c.val ≤ 0x39) || (0x61 ≤ c.val && c.val ≤ 0x7A)

/-- `_CONTEXT_PROFILE_HASHES`, whose keys are `_CONTEXT_PROFILE_IDS`. -/
def contextProfileHashes : List (Text × Text) :=
  [("native-agent", "1a676172e121c37910512c73b4a77cf3955cad7bca2c659f342d5b2c6e9dbda4"),
    ("deterministic-plan-enhancement",
      "0e7cb90710391876819feb3b1fb92e0d72748406dec237a38c587c77c10a47f0")]

/-- `_CONTEXT_SKILL_HASHES` with `_CONTEXT_SKILL_TOOLS`. -/
def contextSkills : List (Text × Text × List Text) :=
  [("duplicate-purchase-check", "7dafd44000576e93f72a3f9c9e16b5cf0a1764b1aa04087dee45c959b53f7d69",
      [("material_request.open" : Text), "purchase_order.open"]),
    ("material-request-draft", "95d12ba3f1b5ec2c1d7fb666fd5836a6fdb9c832ff39c1e21a7d84313905bed9",
      [("material_request.open" : Text)]),
    ("reconciliation", "8951d6205d26ac1afeb57d9e43b12f7d2a9e750bbb1894a5a3bfc923db9b5d4f",
      [("material_request.open" : Text), "purchase_order.open"]),
    ("replenishment-analysis", "14e9dd82a26ae1ebc114c422c0cd4c1dedc971fd9bddc54643e1aac2cedad3eb",
      [("demand.open" : Text), "stock.projected"])]

/-- `_CONTEXT_EVENT_FIELDS` without the optional `actual_prompt_tokens`. -/
def contextEventFields : List Text :=
  [("step" : Text), "context_builder_version", "instruction_schema_version",
    "instruction_profile_id", "instruction_profile_hash", "skill_refs", "selected_fragment_ids",
    "dropped_fragment_ids", "estimated_input_units_before", "estimated_input_units_after",
    "input_budget", "compression_reasons", "effective_tool_names"]

/-- The fields of a `skill.loaded` event. -/
def skillEventFields : List Text :=
  [("step" : Text), "skill_id", "skill_version", "skill_manifest_hash", "disclosure_level",
    "effective_tool_names", "load_reason"]

/-- `payload.get(field)` when it is an `int` and not a `bool`. -/
def intField (payload : Dict) (field : String) : Option ℤ :=
  match payload.get? field with
  | some (.int n) => some n
  | _ => none

/-- `payload.get(field)` when it is a `str`. -/
def textField (payload : Dict) (field : String) : Option Text :=
  match payload.get? field with
  | some (.str t) => some t
  | _ => none

def asText : Value → Option Text
  | .str t => some t
  | _ => none

/-- `payload.get(field)` when it is a `list` of `str`. -/
def textsField (payload : Dict) (field : String) : Option (List Text) :=
  match payload.get? field with
  | some (.list values) => values.mapM asText
  | _ => none

/-- The identity of the profile a context event names. -/
def checkProfile (payload : Dict) : Checked Unit :=
  match payload.get? "instruction_profile_id" with
  | some (.list _) | some (.dict _) => .error .typeError
  | some (.str id) =>
      require (∃ hash ∈ contextProfileHashes.lookup id,
        textField payload "instruction_profile_hash" = some hash)
        "context event identity is invalid"
  | _ => .error (.valueError "context event identity is invalid")

/-- One of the three lists of fragment identifiers. -/
def fragmentIds (payload : Dict) (field : String) : Checked (List Text) := do
  let ids ← orRaise (textsField payload field) "context fragment metadata is invalid"
  require (ids.length ≤ 256 ∧ ids.all isFragmentId ∧ ids.Nodup)
    "context fragment metadata is invalid"
  return ids

/-- `effective_tool_names` of a context event and of a skill event. -/
def effectiveToolNames (payload : Dict) (message : String) : Checked (List Text) := do
  let names ← orRaise (textsField payload "effective_tool_names") message
  require (names.length ≤ agentReadToolNames.length ∧ names ⊆ agentReadToolNames ∧ names.Nodup)
    message
  return names

/-- The token estimates of a context event. -/
def checkEstimates (payload : Dict) (stopCode : Text) : Checked Unit := do
  let before ← orRaise (intField payload "estimated_input_units_before")
    "context budget metadata is invalid"
  require (0 ≤ before) "context budget metadata is invalid"
  let after ← orRaise (intField payload "estimated_input_units_after")
    "context budget metadata is invalid"
  require (0 ≤ after) "context budget metadata is invalid"
  let budget ← orRaise (intField payload "input_budget") "context budget metadata is invalid"
  require (0 < budget) "context budget metadata is invalid"
  require (after ≤ before ∧ after ≤ budget) "context estimate exceeds its budget"
  match payload.get? "actual_prompt_tokens" with
  | none | some .none => return ()
  | some (.int actual) =>
      require (0 ≤ actual) "actual prompt usage is invalid"
      require (actual ≤ budget ∨ stopCode = "CONTEXT_BUDGET")
        "actual prompt usage exceeds budget without a context stop"
  | some _ => .error (.valueError "actual prompt usage is invalid")

/-- `_validate_context_event_payload`. -/
def validateContextEventPayload (payload : Dict) (stopCode : Text) (compressed : Bool) :
    Checked ℤ := do
  require (payload.keys ⊆ ("actual_prompt_tokens" : Text) :: contextEventFields)
    "context event contains unsupported fields"
  require (contextEventFields ⊆ payload.keys) "context event metadata is incomplete"
  let step ← orRaise (intField payload "step") "context event identity is invalid"
  require (1 ≤ step ∧ step ≤ 64 ∧
      textField payload "context_builder_version" = some (Text.ofString "1") ∧
      textField payload "instruction_schema_version" = some (Text.ofString "2"))
    "context event identity is invalid"
  checkProfile payload
  let _ ← fragmentIds payload "skill_refs"
  let selected ← fragmentIds payload "selected_fragment_ids"
  let dropped ← fragmentIds payload "dropped_fragment_ids"
  require (∀ id ∈ selected, id ∉ dropped) "context selection metadata overlaps"
  let _ ← effectiveToolNames payload "context effective tools are invalid"
  checkEstimates payload stopCode
  let reasons ← orRaise (textsField payload "compression_reasons")
    "context compression metadata is invalid"
  require (reasons.length ≤ 32 ∧ ∀ reason ∈ reasons, reason ≠ [] ∧ reason.length ≤ 240)
    "context compression metadata is invalid"
  require (compressed = false ∨ dropped ≠ [] ∨ reasons ≠ []) "compressed context has no recorded loss"
  return step

/-! ## The events -/

/-- The `pending` tuple: its phase, the tool and the step. -/
structure Pending where
  phase : Text
  toolName : Text
  step : ℤ
  deriving DecidableEq

/-- The variables of the loop over the events. What was observed last of a digest stands
first. -/
structure TraceState where
  observed : List (Text × Text) := []
  pending : Option Pending := none
  contextSteps : List ℤ := []
  modelSteps : List ℤ := []
  lastContextStep : Option ℤ := none
  lastContextKind : Option Text := none

/-- The checks that `pending` is of a phase, and of the tool and step of the payload. -/
def checkPending (s : TraceState) (phase : String) (payload : Dict) (transition ownership : String) :
    Checked Pending := do
  let pending ← orRaise s.pending transition
  require (pending.phase = phase) transition
  require ((payload.get? "tool_name").any (fun v => v.normal = .str pending.toolName) ∧
      (payload.get? "step").any (fun v => v.normal = .int pending.step)) ownership
  return pending

/-- `skill.loaded`. -/
def skillLoaded (requireContext : Bool) (payload : Dict) : Checked Unit := do
  require (requireContext = true) "skill event requires prompt schema v2"
  require (payload.keys ⊆ skillEventFields ∧ skillEventFields ⊆ payload.keys)
    "skill event metadata is invalid"
  let step ← orRaise (intField payload "step") "skill event metadata is invalid"
  let skillId ← orRaise (textField payload "skill_id") "skill event metadata is invalid"
  let (hash, tools) ← orRaise (contextSkills.lookup skillId) "skill event metadata is invalid"
  let level ← orRaise (intField payload "disclosure_level") "skill event metadata is invalid"
  require (1 ≤ step ∧ step ≤ 64 ∧ isFragmentId skillId = true ∧
      textField payload "skill_version" = some (Text.ofString "1.0.0") ∧
      textField payload "skill_manifest_hash" = some hash ∧ 1 ≤ level ∧ level ≤ 3)
    "skill event metadata is invalid"
  let names ← effectiveToolNames payload "skill event metadata is invalid"
  let reason ← orRaise (textField payload "load_reason") "skill event metadata is invalid"
  require (names ⊆ tools ∧ reason ≠ [] ∧ reason.length ≤ 240) "skill event metadata is invalid"

/-- `context.assembled` and `context.compressed`. -/
def contextEvent (requireContext : Bool) (stopCode kind : Text) (s : TraceState) (payload : Dict) :
    Checked TraceState := do
  require (requireContext = true) "context event requires prompt schema v2"
  let step ← validateContextEventPayload payload stopCode (kind = "context.compressed")
  require (kind = "context.compressed" → s.lastContextStep = some step ∧
      s.lastContextKind = some (Text.ofString "context.assembled"))
    "context compression ordering is invalid"
  require (kind = "context.assembled" → step ∈ s.contextSteps →
      step ∈ s.modelSteps ∧ (payload.get? "actual_prompt_tokens").any (· ≠ .none))
    "context assembly is duplicated"
  return { s with
    contextSteps := step :: s.contextSteps
    lastContextStep := some step
    lastContextKind := some kind }

/-- `model.requested`. -/
def modelRequested (requireContext : Bool) (s : TraceState) (payload : Dict) :
    Checked TraceState := do
  let step ← orRaise (intField payload "step") "model request metadata is invalid"
  let count ← orRaise (intField payload "tool_count") "model request metadata is invalid"
  require (1 ≤ step ∧ step ≤ 64 ∧ 0 ≤ count ∧ count ≤ agentReadToolNames.length)
    "model request metadata is invalid"
  require (requireContext = true → step ∈ s.contextSteps) "model request has no assembled context"
  return { s with
    modelSteps := step :: s.modelSteps
    lastContextStep := none
    lastContextKind := none }

/-- `action.proposed`. -/
def actionProposed (s : TraceState) (payload : Dict) : Checked TraceState := do
  require (s.pending = none) "trace action overlaps"
  let toolName ← orRaise (textField payload "tool_name") "trace action identity is invalid"
  let step ← orRaise (intField payload "step") "trace action identity is invalid"
  return { s with pending := some ⟨"action", toolName, step⟩ }

/-- `action.validated` and `tool.started`: the next phase of an action. -/
def advance (s : TraceState) (phase next : String) (payload : Dict)
    (transition ownership : String) : Checked TraceState := do
  let pending ← checkPending s phase payload transition ownership
  return { s with pending := some { pending with phase := next } }

/-- `tool.observed`. -/
def toolObserved (s : TraceState) (payload : Dict) : Checked TraceState := do
  let _ ← checkPending s "tool" payload "trace observation transition is invalid"
    "trace observation ownership is invalid"
  let summary ← orRaise (textField payload "summary") "trace observation is invalid"
  let digest ← orRaise (textField payload "digest") "trace observation is invalid"
  require (payload.get? "ok" = some (.bool true)) "trace observation is invalid"
  require (isDigest digest = true) "trace observation digest is invalid"
  match Text.encodeUtf8 summary with
  | none => .error .unicodeEncodeError
  | some bytes =>
      require (Sha256.hexdigest bytes = digest) "trace observation digest is invalid"
      return { s with observed := (digest, summary) :: s.observed, pending := none }

/-- `tool.failed`. -/
def toolFailed (s : TraceState) (payload : Dict) : Checked TraceState := do
  let _ ← checkPending s "tool" payload "trace tool failure transition is invalid"
    "trace failure ownership is invalid"
  return { s with pending := none }

/-- `final.proposed`. -/
def finalProposed (s : TraceState) : Checked TraceState := do
  require (s.pending = none) "trace final transition is invalid"
  return { s with pending := some ⟨"final", "", 0⟩ }

/-- `final.validated`. -/
def finalValidated (s : TraceState) : Checked TraceState := do
  require (∃ pending ∈ s.pending, pending.phase = "final")
    "trace final validation transition is invalid"
  return { s with pending := none }

/-- The branch of an event type. -/
def validateKind (requireContext : Bool) (stopCode kind : Text) (s : TraceState) (payload : Dict) :
    Checked TraceState :=
  if kind = "skill.loaded" then do
    skillLoaded requireContext payload
    return s
  else if kind = "context.assembled" ∨ kind = "context.compressed" then
    contextEvent requireContext stopCode kind s payload
  else if kind = "model.requested" then modelRequested requireContext s payload
  else if kind = "action.proposed" then actionProposed s payload
  else if kind = "action.validated" then
    advance s "action" "validated" payload "trace action transition is invalid"
      "trace action transition is invalid"
  else if kind = "action.rejected" then .ok { s with pending := none }
  else if kind = "tool.started" then
    advance s "validated" "tool" payload "trace tool transition is invalid"
      "trace tool ownership is invalid"
  else if kind = "tool.observed" then toolObserved s payload
  else if kind = "tool.failed" then toolFailed s payload
  else if kind = "final.proposed" then finalProposed s
  else if kind = "final.validated" then finalValidated s
  else if kind = "final.rejected" then .ok { s with pending := none }
  else if kind = "run.stopped" then .error (.valueError "trace has events after terminal")
  else if kind = "guard.checked" then .ok s
  else if kind = "run.started" then .error (.valueError "trace has an unexpected run start")
  else .error (.valueError "trace event semantics are unknown")

/-- One event between the first and the last. -/
def validateEvent (requireContext : Bool) (stopCode : Text) (s : TraceState) (event : Dict) :
    Checked TraceState :=
  match event.get? "payload" with
  | some (.dict payload) =>
      match event.get? "event_type" with
      | some (.str kind) => validateKind requireContext stopCode kind s payload
      | some (.list _) | some (.dict _) => .error .typeError
      | _ => .error (.valueError "trace event semantics are unknown")
  | _ => .error (.valueError "trace payload is invalid")

/-! ## The final answer -/

def isHashable : Value → Bool
  | .list _ | .dict _ => false
  | _ => true

/-- Two values of `get`, a missing one being `None`. -/
def sameItem (d e : Dict) (field : Text) : Bool :=
  decide (((d.get? field).getD .none).normal = ((e.get? field).getD .none).normal)

/-- `str(final_answer.get("summary", ""))`, where `show` renders what is not a text. -/
def summaryText (render : Value → Text) (answer : Dict) : Text :=
  match answer.get? "summary" with
  | none => []
  | some (.str t) => t
  | some v => render v

/-- `observed[ref]`. -/
def observedText (observed : List (Text × Text)) (ref : Value) : Option Text :=
  (asText ref).bind fun digest => observed.lookup digest

/-- `set(refs).issubset(observed)` and the summaries observed of them. -/
def observedOf (observed : List (Text × Text)) (answer : Dict) : Checked (List Text) :=
  match answer.get? "evidence_refs" with
  | some (.list refs) => do
      require (refs ≠ []) "final evidence reference is not observed"
      if refs.all isHashable then
        orRaise (refs.mapM (observedText observed)) "final evidence reference is not observed"
      else .error .typeError
  | _ => .error (.valueError "final evidence reference is not observed")

def hasType (event : Dict) (kind : String) : Bool :=
  decide (event.get? "event_type" = some (.str kind))

/-- The answer that is checked: the one given, or else the last one proposed, which both agree
with. -/
def answerOf (events : List Dict) (finalAnswer : Option Dict) : Checked Dict := do
  let proposed ← orRaise (events.filter fun event => hasType event "final.proposed").getLast?
    "final evidence is missing"
  require (events.any fun event => hasType event "final.validated") "final evidence is missing"
  match proposed.get? "payload" with
  | some (.dict proposal) =>
      let answer := (finalAnswer.filter fun answer => answer ≠ []).getD proposal
      require (∀ field ∈ [("status" : Text), "summary", "evidence_refs", "unknowns"],
        sameItem proposal answer field = true) "final evidence does not match trace"
      return answer
  | _ => throw (.valueError "final evidence does not match trace")

/-- The last event against the stop code of the run. -/
def checkStopped (last : Dict) (stopCode : Text) (s : TraceState) : Checked Unit :=
  match last.get? "payload" with
  | some (.dict stopped) =>
      require (Dict.get? stopped "code" = some (.str stopCode) ∧ s.pending = none)
        "trace stop reason is inconsistent"
  | _ => .error (.valueError "trace stop reason is inconsistent")

section

variable (N : NumberClass) (render : Value → Text)

/-- The checks of a `FINAL_ANSWER`. -/
def validateFinalAnswer (events : List Dict) (finalAnswer : Option Dict)
    (observed : List (Text × Text)) : Checked Unit := do
  let answer ← answerOf events finalAnswer
  let summaries ← observedOf observed answer
  require ((numberToken N).findall (summaryText render answer) ⊆
    (numberToken N).findall (joinedLines summaries)) "final numeric claim is not observed"

/-- `_validate_trace_semantics`. -/
def validateTraceSemantics (events : List Dict) (stopCode : Text) (finalAnswer : Option Dict)
    (requireContext : Bool) : Checked (List (Text × Text)) := do
  let first ← orRaise events.head? "trace terminal events are invalid"
  let last ← orRaise events.getLast? "trace terminal events are invalid"
  require (hasType first "run.started" ∧ hasType last "run.stopped")
    "trace terminal events are invalid"
  let s ← (events.tail.dropLast).foldlM (validateEvent requireContext stopCode) {}
  checkStopped last stopCode s
  if stopCode = "FINAL_ANSWER" then
    validateFinalAnswer N render events finalAnswer s.observed
  return s.observed

end

/-! ## What an accepted trace observed -/

theorem bind_eq_ok {α β : Type} {x : Checked α} {f : α → Checked β} {b : β} :
    (x >>= f) = .ok b ↔ ∃ a, x = .ok a ∧ f a = .ok b :=
  Python.Except.bind_eq_ok

@[simp] theorem require_eq_ok {condition : Prop} [Decidable condition] {message : String}
    {u : Unit} : require condition message = .ok u ↔ condition := by
  unfold require
  split_ifs with h <;> simp [h]

@[simp] theorem orRaise_eq_ok {α : Type} {value : Option α} {message : String} {a : α} :
    orRaise value message = .ok a ↔ value = some a := by
  cases value with
  | none => simp [orRaise]
  | some b => simp [orRaise]

/-- An event of a trace that observes a summary under its digest. -/
def Observes (event : Dict) (digest summary : Text) : Prop :=
  ∃ payload : Dict, event.get? "event_type" = some (.str "tool.observed") ∧
    event.get? "payload" = some (.dict payload) ∧ payload.get? "ok" = some (.bool true) ∧
    payload.get? "digest" = some (.str digest) ∧ payload.get? "summary" = some (.str summary)

theorem textField_eq_some {payload : Dict} {field : String} {t : Text} :
    textField payload field = some t ↔ payload.get? field = some (.str t) := by
  unfold textField
  split
  · simp_all
  · simp_all

theorem toolObserved_eq_ok {s s' : TraceState} {payload : Dict}
    (h : toolObserved s payload = .ok s') :
    ∃ digest summary, payload.get? "ok" = some (.bool true) ∧
      payload.get? "digest" = some (.str digest) ∧ payload.get? "summary" = some (.str summary) ∧
      s'.observed = (digest, summary) :: s.observed := by
  simp only [toolObserved, bind_eq_ok, orRaise_eq_ok, require_eq_ok, textField_eq_some] at h
  obtain ⟨-, -, summary, hsummary, digest, hdigest, -, hok, -, -, h⟩ := h
  cases hbytes : Text.encodeUtf8 summary with
  | none =>
      rw [hbytes] at h
      cases h
  | some bytes =>
      rw [hbytes] at h
      simp only [bind_eq_ok, require_eq_ok] at h
      obtain ⟨-, -, h⟩ := h
      obtain rfl := Except.ok.inj h
      exact ⟨digest, summary, hok, hdigest, hsummary, rfl⟩

theorem contextEvent_observed {requireContext : Bool} {stopCode kind : Text} {s s' : TraceState}
    {payload : Dict} (h : contextEvent requireContext stopCode kind s payload = .ok s') :
    s'.observed = s.observed := by
  simp only [contextEvent, bind_eq_ok] at h
  obtain ⟨-, -, step, -, -, -, -, -, h⟩ := h
  obtain rfl := Except.ok.inj h
  rfl

theorem modelRequested_observed {requireContext : Bool} {s s' : TraceState} {payload : Dict}
    (h : modelRequested requireContext s payload = .ok s') : s'.observed = s.observed := by
  simp only [modelRequested, bind_eq_ok] at h
  obtain ⟨step, -, -, -, -, -, -, -, h⟩ := h
  obtain rfl := Except.ok.inj h
  rfl

theorem actionProposed_observed {s s' : TraceState} {payload : Dict}
    (h : actionProposed s payload = .ok s') : s'.observed = s.observed := by
  simp only [actionProposed, bind_eq_ok] at h
  obtain ⟨-, -, toolName, -, step, -, h⟩ := h
  obtain rfl := Except.ok.inj h
  rfl

theorem advance_observed {s s' : TraceState} {payload : Dict}
    {phase next transition ownership : String}
    (h : advance s phase next payload transition ownership = .ok s') :
    s'.observed = s.observed := by
  simp only [advance, bind_eq_ok] at h
  obtain ⟨pending, -, h⟩ := h
  obtain rfl := Except.ok.inj h
  rfl

theorem toolFailed_observed {s s' : TraceState} {payload : Dict}
    (h : toolFailed s payload = .ok s') : s'.observed = s.observed := by
  simp only [toolFailed, bind_eq_ok] at h
  obtain ⟨-, -, h⟩ := h
  obtain rfl := Except.ok.inj h
  rfl

theorem finalProposed_observed {s s' : TraceState} (h : finalProposed s = .ok s') :
    s'.observed = s.observed := by
  simp only [finalProposed, bind_eq_ok] at h
  obtain ⟨-, -, h⟩ := h
  obtain rfl := Except.ok.inj h
  rfl

theorem finalValidated_observed {s s' : TraceState} (h : finalValidated s = .ok s') :
    s'.observed = s.observed := by
  simp only [finalValidated, bind_eq_ok] at h
  obtain ⟨-, -, h⟩ := h
  obtain rfl := Except.ok.inj h
  rfl

/-- An event of any other type observes nothing. -/
theorem validateKind_observed {requireContext : Bool} {stopCode kind : Text} {s s' : TraceState}
    {payload : Dict} (hkind : kind ≠ "tool.observed")
    (h : validateKind requireContext stopCode kind s payload = .ok s') :
    s'.observed = s.observed := by
  have hkept : ∀ {t : TraceState}, (Except.ok t : Checked TraceState) = .ok s' →
      t.observed = s.observed → s'.observed = s.observed := by
    intro t ht hobserved
    rw [← Except.ok.inj ht, hobserved]
  rw [validateKind] at h
  by_cases h1 : kind = "skill.loaded"
  · rw [if_pos h1, bind_eq_ok] at h
    obtain ⟨-, -, h⟩ := h
    exact hkept h rfl
  rw [if_neg h1] at h
  by_cases h2 : kind = "context.assembled" ∨ kind = "context.compressed"
  · rw [if_pos h2] at h
    exact contextEvent_observed h
  rw [if_neg h2] at h
  by_cases h3 : kind = "model.requested"
  · rw [if_pos h3] at h
    exact modelRequested_observed h
  rw [if_neg h3] at h
  by_cases h4 : kind = "action.proposed"
  · rw [if_pos h4] at h
    exact actionProposed_observed h
  rw [if_neg h4] at h
  by_cases h5 : kind = "action.validated"
  · rw [if_pos h5] at h
    exact advance_observed h
  rw [if_neg h5] at h
  by_cases h6 : kind = "action.rejected"
  · rw [if_pos h6] at h
    exact hkept h rfl
  rw [if_neg h6] at h
  by_cases h7 : kind = "tool.started"
  · rw [if_pos h7] at h
    exact advance_observed h
  rw [if_neg h7, if_neg hkind] at h
  by_cases h8 : kind = "tool.failed"
  · rw [if_pos h8] at h
    exact toolFailed_observed h
  rw [if_neg h8] at h
  by_cases h9 : kind = "final.proposed"
  · rw [if_pos h9] at h
    exact finalProposed_observed h
  rw [if_neg h9] at h
  by_cases h10 : kind = "final.validated"
  · rw [if_pos h10] at h
    exact finalValidated_observed h
  rw [if_neg h10] at h
  by_cases h11 : kind = "final.rejected"
  · rw [if_pos h11] at h
    exact hkept h rfl
  rw [if_neg h11] at h
  by_cases h12 : kind = "run.stopped"
  · rw [if_pos h12] at h
    cases h
  rw [if_neg h12] at h
  by_cases h13 : kind = "guard.checked"
  · rw [if_pos h13] at h
    exact hkept h rfl
  rw [if_neg h13] at h
  by_cases h14 : kind = "run.started"
  · rw [if_pos h14] at h
    cases h
  · rw [if_neg h14] at h
    cases h

theorem validateKind_tool_observed (requireContext : Bool) (stopCode : Text) (s : TraceState)
    (payload : Dict) :
    validateKind requireContext stopCode "tool.observed" s payload = toolObserved s payload := rfl

/-- One event observes at most one summary, and only where it says so. -/
theorem validateEvent_eq_ok {requireContext : Bool} {stopCode : Text} {s s' : TraceState}
    {event : Dict} (h : validateEvent requireContext stopCode s event = .ok s') :
    s'.observed = s.observed ∨
      ∃ digest summary, Observes event digest summary ∧
        s'.observed = (digest, summary) :: s.observed := by
  unfold validateEvent at h
  split at h
  · rename_i payload hpayload
    split at h
    · rename_i kind hkind
      by_cases hobserved : kind = "tool.observed"
      · rw [hobserved, validateKind_tool_observed] at h
        obtain ⟨digest, summary, hok, hdigest, hsummary, hnew⟩ := toolObserved_eq_ok h
        exact .inr ⟨digest, summary,
          ⟨payload, by rw [hkind, hobserved], hpayload, hok, hdigest, hsummary⟩, hnew⟩
      · exact .inl (validateKind_observed hobserved h)
    · cases h
    · cases h
    · cases h
  · cases h

/-- What a run over the events has observed, one of the events observes. -/
theorem exists_observes_of_foldlM {requireContext : Bool} {stopCode : Text} {events : List Dict}
    {s s' : TraceState} (h : events.foldlM (validateEvent requireContext stopCode) s = .ok s')
    {digest summary : Text} (hmem : (digest, summary) ∈ s'.observed) :
    (digest, summary) ∈ s.observed ∨ ∃ event ∈ events, Observes event digest summary := by
  induction events generalizing s with
  | nil =>
      obtain rfl := Except.ok.inj h
      exact .inl hmem
  | cons event events ih =>
      rw [List.foldlM_cons, bind_eq_ok] at h
      obtain ⟨s₁, hstep, hrest⟩ := h
      cases ih hrest with
      | inr hlater =>
          obtain ⟨later, hmem, hobserves⟩ := hlater
          exact .inr ⟨later, List.mem_cons_of_mem _ hmem, hobserves⟩
      | inl hbefore =>
          cases validateEvent_eq_ok hstep with
          | inl hkept =>
              rw [hkept] at hbefore
              exact .inl hbefore
          | inr hobserved =>
              obtain ⟨d, t, hobserves, hnew⟩ := hobserved
              rw [hnew, List.mem_cons] at hbefore
              obtain heq | hold := hbefore
              · obtain ⟨rfl, rfl⟩ := Prod.mk.inj heq
                exact .inr ⟨event, List.mem_cons_self, hobserves⟩
              · exact .inl hold

/-- What an accepted trace has observed, one of its events observes. -/
theorem exists_observes {N : NumberClass} {render : Value → Text} {events : List Dict}
    {stopCode : Text} {finalAnswer : Option Dict} {requireContext : Bool}
    {observed : List (Text × Text)}
    (h : validateTraceSemantics N render events stopCode finalAnswer requireContext = .ok observed) :
    (∀ digest summary, (digest, summary) ∈ observed →
      ∃ event ∈ events, Observes event digest summary) ∧
      (stopCode = "FINAL_ANSWER" →
        validateFinalAnswer N render events finalAnswer observed = .ok ()) := by
  rw [validateTraceSemantics, bind_eq_ok] at h
  obtain ⟨first, -, h⟩ := h
  rw [bind_eq_ok] at h
  obtain ⟨last, -, h⟩ := h
  rw [bind_eq_ok] at h
  obtain ⟨-, -, h⟩ := h
  rw [bind_eq_ok] at h
  obtain ⟨s, hrun, h⟩ := h
  rw [bind_eq_ok] at h
  obtain ⟨-, -, h⟩ := h
  have hobserves : ∀ digest summary, (digest, summary) ∈ s.observed →
      ∃ event ∈ events, Observes event digest summary := by
    intro digest summary hmem
    obtain hinitial | ⟨event, hevent, hobserves⟩ := exists_observes_of_foldlM hrun hmem
    · cases hinitial
    · exact ⟨event, List.mem_of_mem_tail (List.mem_of_mem_dropLast hevent), hobserves⟩
  by_cases hfinal : stopCode = "FINAL_ANSWER"
  · rw [if_pos hfinal, bind_eq_ok] at h
    obtain ⟨u, hanswer, h⟩ := h
    obtain rfl := Except.ok.inj h
    exact ⟨hobserves, fun _ => hanswer⟩
  · rw [if_neg hfinal] at h
    obtain rfl := Except.ok.inj h
    exact ⟨hobserves, fun hstop => absurd hstop hfinal⟩

end Agent
