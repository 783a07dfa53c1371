import SynoraErp.Gateway.Invocation
import SynoraErp.Gateway.Tools

/-!
# The tool registry

The tools the Gateway has, how it reads the input of a call, and the response it makes of
what a handler returns. What the handlers read in the ERP is not modelled.
-/

namespace Gateway

open Python
open Governance (GatewayFault Exn Result invalid Uuid item)

/-! ## Inputs -/

/-- `InputField`. -/
structure InputField where
  parse : Value → Result Value
  required : Bool
  default : Value

/-- `bounded_text`. -/
def boundedText (value : Value) (label : String) : Result Value := do
  let text ← requiredText value label 140
  .ok (.str text)

/-- `optional_text`. -/
def optionalText (value : Value) (label : String) : Result Value :=
  if Model.isNone value = true then .ok .none else boundedText value label

/-- `_optional`. -/
def optionalInput (label : String) : InputField where
  parse value := optionalText value label
  required := false
  default := .none

/-- `_required`. -/
def requiredInput (label : String) : InputField where
  parse value := boundedText value label
  required := true
  default := .none

/-- `_required_identifier`. -/
def requiredIdentifier (label : String) : InputField where
  parse value := do
    let text ← requiredText value label 140
    if Text.isBlank text = true then .error (invalid s!"{label} is invalid") else .ok (.str text)
  required := true
  default := .none

/-- The fields every input has besides its own. -/
def pageFields (maxPageSize : ℕ) : List (String × InputField) :=
  [("offset", ⟨fun value => do .ok (.int (← positiveInt value "offset" 10000)), false, .int 0⟩),
    ("limit",
      ⟨fun value => do .ok (.int (← positiveInt value "limit" maxPageSize)), false, .int 20⟩)]

/-- One field of `parse_tool_input`. -/
def parseInputField (payload : Dict) (name : String) (field : InputField) :
    Result (Text × Value) :=
  match Dict.get? payload name with
  | some value => do .ok (name, ← field.parse value)
  | none => .ok (name, field.default)

/-- `parse_tool_input`. -/
def parseToolInput (payload : Dict) (fields : List (String × InputField)) (maxPageSize : ℕ) :
    Result Dict :=
  let allFields := fields ++ pageFields maxPageSize
  if (∃ key ∈ Dict.keys payload, ∀ f ∈ allFields, Text.ofString f.1 ≠ key) ∨
      (∃ f ∈ allFields, f.2.required = true ∧ Text.ofString f.1 ∉ Dict.keys payload) then
    .error (invalid "tool.input fields are invalid")
  else do
    let parsed ← allFields.mapM fun f => parseInputField payload f.1 f.2
    if item parsed "limit" = .int 0 then .error (invalid "limit is invalid") else .ok parsed

/-! ## Tools -/

/-- `ToolSpec`, without its handler. -/
structure ToolSpec where
  name : String
  version : String
  risk : String
  timeoutMs : ℕ
  maxPageSize : ℕ
  requiredDoctypes : List String
  inputFields : List (String × InputField)

/-- `register`. -/
def register (name : String) (requiredDoctypes : List String)
    (inputFields : List (String × InputField)) (timeoutMs : ℕ) : ToolSpec where
  name := name
  version := "1"
  risk := "READ"
  timeoutMs := timeoutMs
  maxPageSize := 50
  requiredDoctypes := requiredDoctypes
  inputFields := inputFields

namespace Tool

/-- What each tool is registered with. -/
def spec : Tool → ToolSpec
  | .step .itemLookup => register "item.lookup" ["Item"] [("query", optionalInput "query")] 5000
  | .step .supplierLookup =>
      register "supplier.lookup" ["Supplier"] [("query", optionalInput "query")] 5000
  | .step .stockProjected =>
      register "stock.projected" ["Bin", "Item", "Warehouse"]
        [("item_code", requiredInput "item_code"), ("warehouse", optionalInput "warehouse")] 5000
  | .step .demandOpen =>
      register "demand.open" ["Material Request", "Item", "Warehouse"]
        [("item_code", optionalInput "item_code"), ("warehouse", optionalInput "warehouse")] 8000
  | .step .materialRequestOpen =>
      register "material_request.open" ["Item", "Warehouse", "Material Request"] [] 5000
  | .step .purchaseOrderOpen =>
      register "purchase_order.open" ["Item", "Supplier", "Warehouse", "Purchase Order"]
        [("supplier", optionalInput "supplier")] 5000
  | .currentMaterialRequest =>
      register "material_request.current" ["Material Request"]
        [("name", requiredIdentifier "name")] 5000
  | .currentPurchaseOrder =>
      register "purchase_order.current" ["Purchase Order"] [("name", requiredIdentifier "name")]
        5000

def all : List Tool :=
  [.step .itemLookup, .step .supplierLookup, .step .stockProjected, .step .demandOpen,
    .step .materialRequestOpen, .step .purchaseOrderOpen, .currentMaterialRequest,
    .currentPurchaseOrder]

theorem name_spec (tool : Tool) : tool.spec.name = tool.name := by
  rcases tool with ⟨⟨⟩⟩ | _ | _ <;> rfl

theorem version_spec (tool : Tool) : tool.spec.version = "1" := by
  rcases tool with ⟨⟨⟩⟩ | _ | _ <;> rfl

end Tool

/-- `_TOOLS.get((name, version))`. -/
def registered? (name version : Text) : Option Tool :=
  Tool.all.find? fun tool =>
    decide (Text.ofString tool.spec.name = name ∧ Text.ofString tool.spec.version = version)

/-- `get_tool_spec`. -/
def getToolSpec (name version : Text) : Result ToolSpec :=
  match registered? name version with
  | some tool => .ok tool.spec
  | none =>
      .error (.gatewayFault ⟨"TOOL_NOT_ALLOWED", "tool name or version is not allowed", 404⟩)

/-- A tool is found under its name and the one version there is. -/
theorem getToolSpec_eq_ok {name version : Text} {spec : ToolSpec}
    (h : getToolSpec name version = .ok spec) :
    ∃ tool : Tool, name = Text.ofString tool.name ∧ version = "1" ∧ spec = tool.spec := by
  rw [getToolSpec] at h
  cases hfind : registered? name version with
  | none =>
      rw [hfind] at h
      cases h
  | some tool =>
      rw [hfind] at h
      have hfound := List.find?_some (p := fun tool : Tool =>
        decide (Text.ofString tool.spec.name = name ∧ Text.ofString tool.spec.version = version))
        hfind
      obtain ⟨hname, hversion⟩ := of_decide_eq_true hfound
      rw [tool.name_spec] at hname
      rw [tool.version_spec] at hversion
      exact ⟨tool, hname.symm, hversion.symm, (Except.ok.inj h).symm⟩

/-- Neither the name nor the version of a tool holds a bar. -/
theorem bar_not_mem_of_getToolSpec {name version : Text} {spec : ToolSpec}
    (h : getToolSpec name version = .ok spec) : bar ∉ name ∧ bar ∉ version := by
  obtain ⟨tool, rfl, rfl, -⟩ := getToolSpec_eq_ok h
  constructor
  · rcases tool with ⟨⟨⟩⟩ | _ | _ <;> decide
  · decide

/-! ## Responses -/

/-- `RunContext`. -/
structure RunContext where
  runId : Uuid
  initiator : Text
  company : Text
  warehouse : Option Text
  stateVersion : ℕ

/-- `ToolResult`. -/
structure ToolResult where
  items : List Value
  sourceModifiedAt : Option Text
  omissions : Dict
  heldItems : Json.HeldItems items
  heldOmissions : Json.Held (.dict omissions)

/-- What `dispatch` takes for a row: an object without an object or a list in it. -/
def isRow : Value → Bool
  | .dict entries => entries.all fun entry =>
      match entry.2 with
      | .dict _ | .list _ => false
      | _ => true
  | _ => false

/-- The integer a parsed input has under a name. -/
def intItem (input : Dict) (name : String) : ℤ :=
  match item input name with
  | .int n => n
  | _ => 0

/-- The checks of `dispatch` on the rows of a result. -/
def checkResult (limit : ℤ) (result : ToolResult) : Result Unit :=
  if limit + 1 < result.items.length then
    .error (.gatewayFault ⟨"ERP_ERROR", "tool exceeded its result limit", 502⟩)
  else if result.items.all isRow = true then .ok ()
  else .error (.gatewayFault ⟨"ERP_ERROR", "tool returned an invalid result", 502⟩)

def optionalValue (t : Option Text) : Value := (t.map Value.str).getD .none

/-- What `dispatch` returns. -/
def toolResponse (request : ReceivedRequest) (run : RunContext) (spec : ToolSpec) (input : Dict)
    (result : ToolResult) (capturedAt : Text) : Dict :=
  let limit := intItem input "limit"
  let rows := result.items.take limit.toNat
  [("ok", .bool true),
    ("schema_version", .ofString "1"),
    ("run_id", run.runId.value),
    ("state_version", .int run.stateVersion),
    ("correlation_id", request.correlationId.value),
    ("tool", .dict
      [("name", .ofString spec.name),
        ("version", .ofString spec.version),
        ("risk", .ofString spec.risk),
        ("caller_authorization", .ofString "FRAPPE_PERMISSION_AND_RUN_SCOPE"),
        ("timeout_ms", .int spec.timeoutMs),
        ("max_page_size", .int spec.maxPageSize)]),
    ("authorized_scope", .dict
      [("company", .str run.company), ("warehouse", optionalValue run.warehouse)]),
    ("snapshot", .dict
      [("captured_at", .str capturedAt),
        ("source_modified_at", optionalValue result.sourceModifiedAt),
        ("frappe_revision", .ofString "6a329d068416768ec47ccd3326b9cc95a8d7bf99"),
        ("erpnext_revision", .ofString "11e0ba0a1c45f217e2e73e885f699102d06da325")]),
    ("completeness", .dict
      [("status", .ofString (if result.omissions = [] then "COMPLETE" else "PARTIAL")),
        ("omissions", .dict result.omissions)]),
    ("page", .dict
      [("offset", .int (intItem input "offset")),
        ("limit", .int limit),
        ("returned", .int rows.length),
        ("has_more", .bool (decide (limit < result.items.length)))]),
    ("data", .list rows)]

theorem held_optionalValue (t : Option Text) : Json.Held (optionalValue t) := by
  cases t <;> trivial

/-- A response is a value an interpreter can hold. -/
theorem held_toolResponse (request : ReceivedRequest) (run : RunContext) (spec : ToolSpec)
    (input : Dict) (result : ToolResult) (capturedAt : Text) :
    Json.Held (.dict (toolResponse request run spec input result capturedAt)) := by
  have hrows : Json.HeldItems (result.items.take (intItem input "limit").toNat) :=
    Json.heldItems_iff.mpr fun x hx =>
      Json.heldItems_iff.mp result.heldItems x (List.mem_of_mem_take hx)
  have homissions := result.heldOmissions
  have hoptional := held_optionalValue
  rw [Json.Held] at homissions ⊢
  constructor
  · show (["ok", "schema_version", "run_id", "state_version", "correlation_id", "tool",
      "authorized_scope", "snapshot", "completeness", "page", "data"].map Text.ofString).Nodup
    decide
  · have hnodup : (Dict.keys result.omissions).Nodup ∧ Json.HeldEntries result.omissions :=
      homissions
    simp only [toolResponse, Json.HeldEntries, Json.Held, hnodup.1, hnodup.2, hoptional, hrows,
      Dict.keys_cons, Dict.keys_nil, Value.ofString, Uuid.value, true_and, and_true]
    decide

end Gateway
