import SynoraErp.Governance.Fields

/-!
# The Gateway contract

How the ERP reads a request, and the identity of a workflow invocation it recomputes.
-/

namespace Gateway

open Python
open Governance (Exn Result invalid conflict Uuid Digest isCanonicalUuid isDigest item object)

/-- `_strict_object`. -/
def strictObject (value : Value) (fields : List String) (label : String)
    (required : List String) : Result Dict :=
  object value fields required label

/-- `_required_text`. -/
def requiredText (value : Value) (label : String) (maximum : ℕ) : Result Text :=
  match value with
  | .str t =>
      if t = [] ∨ maximum < t.length then .error (invalid s!"{label} is invalid") else .ok t
  | _ => .error (invalid s!"{label} is invalid")

/-- `canonical_uuid`. No code point outside ASCII has a hexadecimal digit or a hyphen as its
lower case, so ASCII lower casing decides it. -/
def canonicalUuid (value : Value) (label : String) : Result Uuid := do
  let text ← requiredText value label 36
  if h : isCanonicalUuid (text.map Text.asciiLower) = true then .ok ⟨_, h⟩
  else .error (invalid s!"{label} is invalid")

/-- `_hex_digest`. -/
def hexDigest (value : Value) (label : String) : Result Digest := do
  let text ← requiredText value label 64
  if h : isDigest text = true then .ok ⟨text, h⟩ else .error (invalid s!"{label} is invalid")

/-- `positive_int`. -/
def positiveInt (value : Value) (label : String) (maximum : ℕ) : Result ℕ :=
  match value with
  | .int n =>
      if n < 0 ∨ maximum < n then .error (invalid s!"{label} is invalid") else .ok n.toNat
  | _ => .error (invalid s!"{label} is invalid")

/-- `ToolCall`. -/
structure ReceivedCall where
  name : Text
  version : Text
  input : Dict

/-- The four metadata fields of a workflow request. -/
structure Metadata where
  invocationId : Digest
  planVersion : ℕ
  stepId : Text
  argsDigest : Digest

/-- `GatewayRequest`. -/
structure ReceivedRequest where
  runId : Uuid
  capability : Text
  correlationId : Uuid
  tool : ReceivedCall
  /-- All four fields or none. -/
  metadata : Option Metadata

def requestFields : List String :=
  ["schema_version", "run_id", "capability", "correlation_id", "tool", "invocation_id",
    "plan_version", "step_id", "args_digest"]

def requiredFields : List String :=
  ["schema_version", "run_id", "capability", "correlation_id", "tool"]

def metadataFields : List String := ["invocation_id", "plan_version", "step_id", "args_digest"]

/-- The metadata of a request that has any. -/
def parseMetadata (body : Dict) : Result (Option Metadata) :=
  if ∀ name ∈ metadataFields, Text.ofString name ∉ Dict.keys body then .ok none
  else if ∃ name ∈ metadataFields, Text.ofString name ∉ Dict.keys body then
    .error (invalid "workflow invocation metadata is incomplete")
  else do
    let invocationId ← hexDigest (item body "invocation_id") "invocation_id"
    let planVersion ← positiveInt (item body "plan_version") "plan_version" 10000
    if planVersion < 1 then .error (invalid "plan_version is invalid")
    else
      let stepId ← requiredText (item body "step_id") "step_id" 64
      let argsDigest ← hexDigest (item body "args_digest") "args_digest"
      .ok (some ⟨invocationId, planVersion, stepId, argsDigest⟩)

/-- `tool`, ahead of the metadata: an object whose `input` is an object. -/
def parseTool (value : Value) : Result (Dict × Dict) := do
  let tool ← strictObject value ["name", "version", "input"] "tool" ["name", "version", "input"]
  match item tool "input" with
  | .dict input => .ok (tool, input)
  | _ => .error (invalid "tool.input must be an object")

/-- `parse_request`. -/
def parseRequest (payload : Value) : Result ReceivedRequest := do
  let body ← strictObject payload requestFields "request" requiredFields
  if item body "schema_version" ≠ .ofString "1" then
    .error (.gatewayFault ⟨"UNSUPPORTED_VERSION", "schema version is not supported", 400⟩)
  else
    let (tool, input) ← parseTool (item body "tool")
    let metadata ← parseMetadata body
    let runId ← canonicalUuid (item body "run_id") "run_id"
    let capability ← requiredText (item body "capability") "capability" 512
    let correlationId ← canonicalUuid (item body "correlation_id") "correlation_id"
    let name ← requiredText (item tool "name") "tool.name" 200
    let version ← requiredText (item tool "version") "tool.version" 20
    .ok ⟨runId, capability, correlationId, ⟨name, version, input⟩, metadata⟩

/-! ## What the readers accept -/

theorem requiredText_eq_ok {value : Value} {label : String} {maximum : ℕ} {t : Text} :
    requiredText value label maximum = .ok t ↔
      value = .str t ∧ t ≠ [] ∧ t.length ≤ maximum := by
  cases value with
  | str s =>
      rw [requiredText, Governance.ite_error_eq_ok, Except.ok.injEq, Value.str.injEq, not_or,
        Nat.not_lt]
      constructor
      · rintro ⟨h, rfl⟩
        exact ⟨rfl, h⟩
      · rintro ⟨rfl, h⟩
        exact ⟨h, rfl⟩
  | _ => simp [requiredText]

theorem canonicalUuid_value (u : Uuid) (label : String) : canonicalUuid u.value label = .ok u := by
  have hlength := u.length_text
  have hne : u.text ≠ [] := List.ne_nil_of_length_pos (by rw [hlength]; decide)
  have htext : requiredText u.value label 36 = .ok u.text :=
    requiredText_eq_ok.mpr ⟨rfl, hne, hlength.le⟩
  rw [canonicalUuid, htext, Governance.ok_bind]
  simp only [u.map_asciiLower]
  exact dif_pos u.canonical

theorem hexDigest_value (d : Digest) (label : String) : hexDigest d.value label = .ok d := by
  have hvalid := d.valid
  rw [isDigest, Bool.and_eq_true, beq_iff_eq] at hvalid
  have hne : d.text ≠ [] := List.ne_nil_of_length_pos (by rw [hvalid.1]; decide)
  have htext : requiredText d.value label 64 = .ok d.text :=
    requiredText_eq_ok.mpr ⟨rfl, hne, hvalid.1.le⟩
  rw [hexDigest, htext, Governance.ok_bind]
  exact dif_pos d.valid

theorem positiveInt_natCast {n maximum : ℕ} (h : n ≤ maximum) (label : String) :
    positiveInt (.int n) label maximum = .ok n := by
  rw [positiveInt, Governance.ite_error_eq_ok]
  exact ⟨by omega, by rw [Int.toNat_natCast]⟩

end Gateway
