import SynoraErp.Python.Encodes
import SynoraErp.Python.Model
import SynoraErp.Workflow.Contracts

/-!
# Tool inputs

The inputs of the closed tool union of the Runtime. A model lists its fields in the order of
their names: nothing on the wire depends on the order they are declared in.
-/

namespace Gateway

open Python
open Workflow (ToolName)

/-- A strict `str` of 1 to 140 code points that can be encoded. -/
def isText : Value → Bool
  | .str t => decide (1 ≤ t.length ∧ t.length ≤ 140) && (Text.encodeUtf8 t).isSome
  | _ => false

/-- `int = Field(default=..., ge=..., le=...)`. -/
def intField (name : String) (default low high : ℤ) : ModelField where
  name := name
  default := some (.int default)
  accepts
    | .int n => decide (low ≤ n ∧ n ≤ high)
    | _ => false

/-- `str = Field(min_length=1, max_length=140)`. -/
def textField (name : String) : ModelField where
  name := name
  default := none
  accepts := isText

/-- `str | None = Field(default=None, min_length=1, max_length=140)`. -/
def optionalTextField (name : String) : ModelField where
  name := name
  default := some .none
  accepts v := Model.isNone v || isText v

/-- `name`, with `validate_name`. -/
def nameField : ModelField where
  name := "name"
  default := none
  accepts
    | .str t => isText (.str t) && !Text.isBlank t
    | _ => false

def offset : ModelField := intField "offset" 0 0 10000

def limit : ModelField := intField "limit" 20 1 50

def pageInput : Model := [limit, offset]

def itemLookupInput : Model := [limit, offset, optionalTextField "query"]

def supplierLookupInput : Model := [limit, offset, optionalTextField "query"]

def projectedStockInput : Model :=
  [textField "item_code", limit, offset, optionalTextField "warehouse"]

def openDemandInput : Model :=
  [optionalTextField "item_code", limit, offset, optionalTextField "warehouse"]

def openMaterialRequestInput : Model := pageInput

def openPurchaseOrderInput : Model := [limit, offset, optionalTextField "supplier"]

/-- `CurrentDocumentInput`, the input of two calls that no workflow step makes. -/
def currentDocumentInput : Model := [limit, nameField, offset]

/-- The tags of `ToolCall`. -/
inductive Tool where
  | step (name : ToolName)
  | currentMaterialRequest | currentPurchaseOrder
  deriving DecidableEq

namespace Tool

/-- The `name` of the call. -/
def name : Tool → String
  | .step .itemLookup => "item.lookup"
  | .step .supplierLookup => "supplier.lookup"
  | .step .stockProjected => "stock.projected"
  | .step .demandOpen => "demand.open"
  | .step .materialRequestOpen => "material_request.open"
  | .step .purchaseOrderOpen => "purchase_order.open"
  | .currentMaterialRequest => "material_request.current"
  | .currentPurchaseOrder => "purchase_order.current"

/-- The model of the `input` of the call. -/
def input : Tool → Model
  | .step .itemLookup => itemLookupInput
  | .step .supplierLookup => supplierLookupInput
  | .step .stockProjected => projectedStockInput
  | .step .demandOpen => openDemandInput
  | .step .materialRequestOpen => openMaterialRequestInput
  | .step .purchaseOrderOpen => openPurchaseOrderInput
  | .currentMaterialRequest => currentDocumentInput
  | .currentPurchaseOrder => currentDocumentInput

theorem name_injective : Function.Injective name := by
  intro s t h
  rcases s with ⟨⟨⟩⟩ | _ | _ <;> rcases t with ⟨⟨⟩⟩ | _ | _ <;> first | rfl | (revert h; decide)

theorem names_input (tool : Tool) : tool.input.names.Pairwise (· < ·) := by
  rcases tool with ⟨⟨⟩⟩ | _ | _ <;> decide

end Tool

/-- A member of `ToolCall`; its version is `"1"`. -/
structure ToolCall where
  tool : Tool
  /-- Every field of the input with its value. -/
  input : Dict

/-- `_TOOL_CALL_ADAPTER.validate_python({"name": ..., "version": "1", "input": args})`. -/
def validateToolCall (tool : Tool) (args : Dict) : Option ToolCall :=
  (tool.input.validate args).map fun input => ⟨tool, input⟩

/-! ## The values of an input -/

/-- A value a field of an input holds: nothing, a small number or a text that encodes. -/
inductive IsScalar : Value → Prop where
  | none : IsScalar .none
  | int {n : ℤ} (h : 0 ≤ n ∧ n ≤ 10000) : IsScalar (.int n)
  | str {t : Text} (h : Encodes t) : IsScalar (.str t)

theorem isScalar_of_isText {v : Value} (h : isText v = true) : IsScalar v := by
  cases v with
  | str t =>
      rw [isText, Bool.and_eq_true, Option.isSome_iff_ne_none] at h
      exact .str (encodes_iff.mpr h.2)
  | _ => cases h

theorem isScalar_intField {name : String} {default low high : ℤ} (hlow : 0 ≤ low)
    (hhigh : high ≤ 10000) {v : Value} (h : (intField name default low high).accepts v = true) :
    IsScalar v := by
  cases v with
  | int n =>
      have hbounds := of_decide_eq_true h
      exact .int ⟨hlow.trans hbounds.1, hbounds.2.trans hhigh⟩
  | _ => cases h

theorem isScalar_optionalTextField {name : String} {v : Value}
    (h : (optionalTextField name).accepts v = true) : IsScalar v := by
  rcases (Bool.or_eq_true _ _).mp h with h | h
  · obtain rfl := Model.isNone_eq_true.mp h
    exact .none
  · exact isScalar_of_isText h

theorem isScalar_nameField {v : Value} (h : nameField.accepts v = true) : IsScalar v := by
  cases v with
  | str t => exact isScalar_of_isText ((Bool.and_eq_true _ _).mp h).1
  | _ => cases h

/-- A field with a name of the source that holds scalars, by default and when it is given. -/
structure IsInputField (f : ModelField) : Prop where
  named : ∃ name : String, f.name = name
  default : ∀ v, f.default = some v → IsScalar v
  accepts : ∀ v, f.accepts v = true → IsScalar v

theorem isInputField_limit : IsInputField limit where
  named := ⟨"limit", rfl⟩
  default v h := by
    obtain rfl := Option.some.inj h
    exact .int (by decide)
  accepts v h := isScalar_intField (by decide) (by decide) h

theorem isInputField_offset : IsInputField offset where
  named := ⟨"offset", rfl⟩
  default v h := by
    obtain rfl := Option.some.inj h
    exact .int (by decide)
  accepts v h := isScalar_intField (by decide) (by decide) h

theorem isInputField_textField (name : String) : IsInputField (textField name) where
  named := ⟨name, rfl⟩
  default v h := by cases h
  accepts v h := isScalar_of_isText h

theorem isInputField_optionalTextField (name : String) :
    IsInputField (optionalTextField name) where
  named := ⟨name, rfl⟩
  default v h := by
    obtain rfl := Option.some.inj h
    exact .none
  accepts v h := isScalar_optionalTextField h

theorem isInputField_nameField : IsInputField nameField where
  named := ⟨"name", rfl⟩
  default v h := by cases h
  accepts v h := isScalar_nameField h

theorem isInputField_of_mem (tool : Tool) : ∀ f ∈ tool.input, IsInputField f := by
  have hlimit := isInputField_limit
  have hoffset := isInputField_offset
  have htext := isInputField_textField
  have hoptional := isInputField_optionalTextField
  have hname := isInputField_nameField
  rcases tool with ⟨⟨⟩⟩ | _ | _ <;>
    simp [Tool.input, itemLookupInput, supplierLookupInput, projectedStockInput, openDemandInput,
      openMaterialRequestInput, openPurchaseOrderInput, currentDocumentInput, pageInput, *]

theorem Tool.encodes_names (tool : Tool) : ∀ name ∈ tool.input.names, Encodes name := by
  intro name hname
  obtain ⟨f, hf, rfl⟩ := List.mem_map.mp hname
  obtain ⟨name, hname⟩ := (isInputField_of_mem tool f hf).named
  rw [hname]
  exact encodes_ofString name

theorem isScalar_of_validate {tool : Tool} {args input : Dict}
    (h : tool.input.validate args = some input) : ∀ entry ∈ input, IsScalar entry.2 := by
  intro entry hentry
  obtain ⟨f, hf, -, hread⟩ := Model.mem_of_validate h hentry
  have hfield := isInputField_of_mem tool f hf
  cases hget : Dict.get? args f.name with
  | none =>
      rw [ModelField.read, hget] at hread
      exact hfield.default _ hread
  | some v =>
      obtain ⟨rfl, haccepts⟩ := ModelField.read_of_get? hget hread
      exact hfield.accepts _ haccepts

theorem IsScalar.plain {v : Value} (h : IsScalar v) : Json.Plain v := by
  cases h with
  | none => trivial
  | str => trivial
  | @int n h =>
      rw [Json.Plain, length_natDigits]
      have hlog : Nat.log 10 n.natAbs < 5 := Nat.log_lt_of_lt_pow' (by decide) (by omega)
      exact hlog.trans (by decide)

theorem IsScalar.encodes {I : Interpreter} {v : Value} (h : IsScalar v) :
    Encodes (Json.render I v) := by
  cases h with
  | none => exact encodes_ofString "null"
  | int => exact encodes_intText _
  | str h => exact encodes_encodeString.mpr h

/-- An object of scalars under names that encode. -/
structure IsArguments (d : Dict) : Prop where
  sorted : (Dict.keys d).Pairwise (· < ·)
  keys : ∀ key ∈ Dict.keys d, Encodes key
  values : ∀ entry ∈ d, IsScalar entry.2

namespace IsArguments

variable {I : Interpreter} {d : Dict}

theorem plain (h : IsArguments d) : Json.Plain (.dict d) :=
  ⟨h.sorted, Json.plainEntries_iff.mpr fun entry hentry => (h.values entry hentry).plain⟩

theorem encodes (h : IsArguments d) : Encodes (Json.render I (.dict d)) :=
  encodes_render_dict.mpr fun entry hentry =>
    ⟨h.keys entry.1 (List.mem_map_of_mem hentry), (h.values entry hentry).encodes⟩

end IsArguments

theorem isArguments_of_validate {tool : Tool} {args input : Dict}
    (hargs : (Dict.keys args).Pairwise (· < ·)) (h : tool.input.validate args = some input) :
    IsArguments args where
  sorted := hargs
  keys key hkey := tool.encodes_names key (Model.keys_of_validate h key hkey)
  values entry hentry := isScalar_of_validate h entry (Model.mem_of_mem hargs h hentry)

/-- The input as it is written on the wire. -/
theorem isArguments_excludeNone {tool : Tool} {args input : Dict}
    (h : tool.input.validate args = some input) : IsArguments (Model.excludeNone input) where
  sorted := by
    apply Model.keys_excludeNone
    rw [Model.names_of_validate h]
    exact tool.names_input
  keys key hkey := by
    obtain ⟨entry, hentry, rfl⟩ := List.mem_map.mp hkey
    apply tool.encodes_names
    rw [← Model.names_of_validate h]
    exact List.mem_map_of_mem (Model.mem_excludeNone.mp hentry).1
  values entry hentry := isScalar_of_validate h entry (Model.mem_excludeNone.mp hentry).1

end Gateway
