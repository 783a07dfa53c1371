import SynoraErp.Governance.Fields

/-!
# Payloads

The payload of a proposed action, by action type, and its parser `_parse_payload`.
A parsed payload lists its fields in key order, the order they are stored in; an
optional field that was not submitted has no entry.
-/

namespace Governance

open Python

/-- `ACTION_TYPES`. -/
inductive ActionType where
  | createMrDraft
  | createPoDraft
  | submitPo
  | cancelPo
  | createPrDraft
  | submitPr
  | cancelPr
  | createPiDraft
  | submitPi
  | cancelPi
  | createPaymentEntryDraft
  | submitPaymentEntry
  | cancelPaymentEntry
  deriving DecidableEq

namespace ActionType

def name : ActionType → String
  | createMrDraft => "CREATE_MR_DRAFT"
  | createPoDraft => "CREATE_PO_DRAFT"
  | submitPo => "SUBMIT_PO"
  | cancelPo => "CANCEL_PO"
  | createPrDraft => "CREATE_PR_DRAFT"
  | submitPr => "SUBMIT_PR"
  | cancelPr => "CANCEL_PR"
  | createPiDraft => "CREATE_PI_DRAFT"
  | submitPi => "SUBMIT_PI"
  | cancelPi => "CANCEL_PI"
  | createPaymentEntryDraft => "CREATE_PAYMENT_ENTRY_DRAFT"
  | submitPaymentEntry => "SUBMIT_PAYMENT_ENTRY"
  | cancelPaymentEntry => "CANCEL_PAYMENT_ENTRY"

def all : List ActionType :=
  [createMrDraft, createPoDraft, submitPo, cancelPo, createPrDraft, submitPr, cancelPr,
    createPiDraft, submitPi, cancelPi, createPaymentEntryDraft, submitPaymentEntry,
    cancelPaymentEntry]

theorem name_injective : Function.Injective name := by
  intro a b h
  cases a <;> cases b <;> first | rfl | simp [name] at h

/-- `P2P_ACTION_TYPES`. -/
def isP2p : ActionType → Bool
  | createMrDraft | createPoDraft => false
  | _ => true

/-- `TARGET_DOCTYPES`. -/
def targetDoctype : ActionType → String
  | createMrDraft => "Material Request"
  | createPoDraft | submitPo | cancelPo => "Purchase Order"
  | createPrDraft | submitPr | cancelPr => "Purchase Receipt"
  | createPiDraft | submitPi | cancelPi => "Purchase Invoice"
  | createPaymentEntryDraft | submitPaymentEntry | cancelPaymentEntry => "Payment Entry"

/-- The action type of a name. -/
def ofText? (t : Text) : Option ActionType := all.find? fun a => Text.ofString a.name = t

theorem ofText?_eq_some {t : Text} {a : ActionType} :
    ofText? t = some a ↔ t = Text.ofString a.name := by
  constructor
  · intro h
    have hname := List.find?_some h
    exact (of_decide_eq_true hname).symm
  · rintro rfl
    cases a <;> decide

end ActionType

/-! ## Enumerated texts -/

/-- The texts of `material_request_type`. -/
def materialRequestTypes : List String :=
  ["Purchase", "Manufacture", "Material Transfer", "Material Issue", "Subcontracting"]

/-- The texts of `payment_type`. -/
def paymentTypes : List String := ["Pay", "Receive", "Internal Transfer"]

/-- A text out of a fixed list. -/
@[ext] structure OneOf (choices : List String) where
  name : String
  mem : name ∈ choices

def OneOf.value {choices : List String} (x : OneOf choices) : Value := .str x.name

/-- The choice a text is. -/
def OneOf.ofText? (choices : List String) (t : Text) : Option (OneOf choices) :=
  match h : choices.find? fun name => Text.ofString name = t with
  | some name => some ⟨name, List.mem_of_find?_eq_some h⟩
  | none => none

theorem OneOf.ofText?_eq_some {choices : List String} {t : Text} {x : OneOf choices} :
    OneOf.ofText? choices t = some x ↔ t = Text.ofString x.name := by
  unfold OneOf.ofText?
  split
  case h_1 name hname =>
    have hfound := List.find?_some hname
    simp only [decide_eq_true_eq] at hfound
    subst hfound
    simp [OneOf.ext_iff]
  case h_2 hnone =>
    constructor
    · intro h
      cases h
    · rintro rfl
      have hx := List.find?_eq_none.mp hnone x.name x.mem
      simp at hx

/-- `_required_text`, and the test for membership after it. -/
def oneOf (choices : List String) (value : Value) (label : String) (maximum : ℕ) :
    Result (OneOf choices) := do
  let text ← requiredText value label maximum
  match OneOf.ofText? choices text.text with
  | some x => .ok x
  | none => .error (invalid s!"{label} is invalid")

theorem oneOf_eq_ok {choices : List String} {value : Value} {label : String} {maximum : ℕ}
    {x : OneOf choices} (h : oneOf choices value label maximum = .ok x) : value = x.value := by
  rw [oneOf, bind_eq_ok] at h
  obtain ⟨t, ht, h⟩ := h
  split at h
  case h_1 y hy =>
    obtain rfl := Except.ok.inj h
    rw [requiredText_eq_ok.mp ht]
    exact congrArg Value.str (OneOf.ofText?_eq_some.mp hy)
  case h_2 => cases h

theorem oneOf_value {choices : List String} {maximum : ℕ} (x : OneOf choices) (label : String)
    (hvalid : ∀ name ∈ choices,
      (Text.ofString name).length ≤ maximum ∧ Text.isBlank (Text.ofString name) = false) :
    oneOf choices x.value label maximum = .ok x := by
  have htext : requiredText x.value label maximum =
      .ok ⟨x.name, (hvalid x.name x.mem).1, (hvalid x.name x.mem).2⟩ :=
    requiredText_value ⟨x.name, (hvalid x.name x.mem).1, (hvalid x.name x.mem).2⟩ label
  rw [oneOf, htext, ok_bind, OneOf.ofText?_eq_some.mpr rfl]

/-- `value == text`. -/
def isText (text : String) : Value → Bool
  | .str t => t == Text.ofString text
  | _ => false

@[simp] theorem isText_ofString (text : String) : isText text (Value.ofString text) = true := by
  simp [isText, Value.ofString]

theorem eq_ofString_of_isText {text : String} {value : Value} (h : isText text value = true) :
    value = Value.ofString text := by
  cases value with
  | str t => exact congrArg Value.str (by simpa [isText] using h)
  | _ => cases h

section Payloads

variable (I : Interpreter)

/-! ## Material requests and purchase orders -/

/-- An item of a material request. -/
@[ext] structure MaterialRequestItem where
  description : Option (RequiredText 2000)
  itemCode : RequiredText 140
  qty : Amount
  scheduleDate : DateText I
  uom : Option (RequiredText 140)
  warehouse : RequiredText 140

/-- An item of a purchase order. -/
@[ext] structure PurchaseOrderItem where
  description : Option (RequiredText 2000)
  itemCode : RequiredText 140
  materialRequest : Option (RequiredText 140)
  qty : Amount
  rate : Amount
  scheduleDate : DateText I
  uom : Option (RequiredText 140)
  warehouse : RequiredText 140

/-- `_parse_item` for `CREATE_MR_DRAFT`. -/
def parseMaterialRequestItem (index : ℕ) (value : Value) : Result (MaterialRequestItem I) := do
  let raw ← object value
    ["item_code", "qty", "uom", "schedule_date", "warehouse", "description"]
    ["item_code", "qty", "schedule_date", "warehouse"] s!"payload.items[{index}]"
  let itemCode ← requiredText (item raw "item_code") "item_code" 140
  let qty ← decimal I (item raw "qty") "qty"
  let scheduleDate ← date I (item raw "schedule_date") "schedule_date"
  let warehouse ← requiredText (item raw "warehouse") "warehouse" 140
  let uom ← optionally (item raw "uom") (requiredText · "uom" 140)
  let description ← optionally (item raw "description") (requiredText · "description" 2000)
  .ok ⟨description, itemCode, qty, scheduleDate, uom, warehouse⟩

/-- `_parse_item` for `CREATE_PO_DRAFT`. -/
def parsePurchaseOrderItem (index : ℕ) (value : Value) : Result (PurchaseOrderItem I) := do
  let raw ← object value
    ["item_code", "qty", "uom", "rate", "schedule_date", "warehouse", "description",
      "material_request"]
    ["item_code", "qty", "uom", "rate", "schedule_date", "warehouse"] s!"payload.items[{index}]"
  let itemCode ← requiredText (item raw "item_code") "item_code" 140
  let qty ← decimal I (item raw "qty") "qty"
  let scheduleDate ← date I (item raw "schedule_date") "schedule_date"
  let warehouse ← requiredText (item raw "warehouse") "warehouse" 140
  let uom ← optionally (item raw "uom") (requiredText · "uom" 140)
  let description ← optionally (item raw "description") (requiredText · "description" 2000)
  let materialRequest ← optionally (item raw "material_request")
    (requiredText · "material_request" 140)
  let rate ← decimal I (item raw "rate") "rate"
  .ok ⟨description, itemCode, materialRequest, qty, rate, scheduleDate, uom, warehouse⟩

namespace MaterialRequestItem

variable {I}

def fields (x : MaterialRequestItem I) : List (String × Option Value) :=
  [("description", x.description.map RequiredText.value), ("item_code", x.itemCode.value),
    ("qty", x.qty.value), ("schedule_date", x.scheduleDate.value),
    ("uom", x.uom.map RequiredText.value), ("warehouse", x.warehouse.value)]

def value (x : MaterialRequestItem I) : Value := .dict (record x.fields)

theorem parse_value (x : MaterialRequestItem I) (index : ℕ) :
    parseMaterialRequestItem I index x.value = .ok x := by
  rw [parseMaterialRequestItem, value, object_record_eq_ok (by simp [fields]) (by simp [fields])]
  simp [fields, item_record_cons]

end MaterialRequestItem

namespace PurchaseOrderItem

variable {I}

def fields (x : PurchaseOrderItem I) : List (String × Option Value) :=
  [("description", x.description.map RequiredText.value), ("item_code", x.itemCode.value),
    ("material_request", x.materialRequest.map RequiredText.value), ("qty", x.qty.value),
    ("rate", x.rate.value), ("schedule_date", x.scheduleDate.value),
    ("uom", x.uom.map RequiredText.value), ("warehouse", x.warehouse.value)]

def value (x : PurchaseOrderItem I) : Value := .dict (record x.fields)

/-- The parser requires the key `uom` but accepts `None` under it, and stores nothing
then. -/
theorem parse_value (x : PurchaseOrderItem I) (huom : x.uom.isSome = true) (index : ℕ) :
    parsePurchaseOrderItem I index x.value = .ok x := by
  rw [parsePurchaseOrderItem, value,
    object_record_eq_ok (by simp [fields]) (by simpa [fields] using huom)]
  simp [fields, item_record_cons]

theorem uom_of_parse_value {x y : PurchaseOrderItem I} {index : ℕ}
    (h : parsePurchaseOrderItem I index x.value = .ok y) : x.uom.isSome = true := by
  rw [parsePurchaseOrderItem, bind_eq_ok] at h
  obtain ⟨raw, hraw, -⟩ := h
  have hrequired := (object_record (by simp [fields])).mp ⟨raw, hraw⟩
  simpa [fields] using hrequired "uom" (by simp)

end PurchaseOrderItem

/-- The payload of `CREATE_MR_DRAFT`. -/
@[ext] structure MaterialRequestPayload where
  company : RequiredText 140
  items : BoundedList (MaterialRequestItem I) 100
  materialRequestType : OneOf materialRequestTypes
  transactionDate : DateText I

/-- The payload of `CREATE_PO_DRAFT`. -/
@[ext] structure PurchaseOrderPayload where
  buyingPriceList : RequiredText 140
  company : RequiredText 140
  currency : Currency I
  items : BoundedList (PurchaseOrderItem I) 100
  scheduleDate : DateText I
  supplier : RequiredText 140
  transactionDate : DateText I

/-- `_parse_payload` for `CREATE_MR_DRAFT`. -/
def parseMaterialRequestPayload (value : Value) : Result (MaterialRequestPayload I) := do
  let fields := ["company", "transaction_date", "material_request_type", "items"]
  let raw ← object value fields fields "payload"
  let company ← requiredText (item raw "company") "company" 140
  let transactionDate ← date I (item raw "transaction_date") "transaction_date"
  let rawItems ← list (item raw "items") "items" 100
  let items ← rawItems.parse (parseMaterialRequestItem I)
  let materialRequestType ←
    oneOf materialRequestTypes (item raw "material_request_type") "material_request_type" 40
  .ok ⟨company, items, materialRequestType, transactionDate⟩

/-- `_parse_payload` for `CREATE_PO_DRAFT`. -/
def parsePurchaseOrderPayload (value : Value) : Result (PurchaseOrderPayload I) := do
  let fields := ["company", "supplier", "transaction_date", "schedule_date", "currency",
    "buying_price_list", "items"]
  let raw ← object value fields fields "payload"
  let company ← requiredText (item raw "company") "company" 140
  let transactionDate ← date I (item raw "transaction_date") "transaction_date"
  let rawItems ← list (item raw "items") "items" 100
  let items ← rawItems.parse (parsePurchaseOrderItem I)
  let supplier ← requiredText (item raw "supplier") "supplier" 140
  let scheduleDate ← date I (item raw "schedule_date") "schedule_date"
  let currency ← currency I (item raw "currency") "currency"
  let buyingPriceList ← requiredText (item raw "buying_price_list") "buying_price_list" 140
  .ok ⟨buyingPriceList, company, currency, items, scheduleDate, supplier, transactionDate⟩

namespace MaterialRequestPayload

variable {I}

def fields (p : MaterialRequestPayload I) : List (String × Option Value) :=
  [("company", p.company.value),
    ("items", Value.list (p.items.map MaterialRequestItem.value).items),
    ("material_request_type", p.materialRequestType.value),
    ("transaction_date", p.transactionDate.value)]

def value (p : MaterialRequestPayload I) : Value := .dict (record p.fields)

theorem parse_value (p : MaterialRequestPayload I) :
    parseMaterialRequestPayload I p.value = .ok p := by
  have hitems : (p.items.map MaterialRequestItem.value).parse (parseMaterialRequestItem I) =
      .ok p.items :=
    BoundedList.parse_map fun x _ i => x.parse_value i
  have htype : oneOf materialRequestTypes p.materialRequestType.value "material_request_type" 40 =
      .ok p.materialRequestType := oneOf_value p.materialRequestType "material_request_type"
    (by decide)
  simp only [parseMaterialRequestPayload, value]
  rw [object_record_eq_ok (by simp [fields]) (by simp [fields])]
  simp [fields, item_record_cons, -BoundedList.items_map, hitems, htype]

end MaterialRequestPayload

namespace PurchaseOrderPayload

variable {I}

def fields (p : PurchaseOrderPayload I) : List (String × Option Value) :=
  [("buying_price_list", p.buyingPriceList.value), ("company", p.company.value),
    ("currency", p.currency.value),
    ("items", Value.list (p.items.map PurchaseOrderItem.value).items),
    ("schedule_date", p.scheduleDate.value), ("supplier", p.supplier.value),
    ("transaction_date", p.transactionDate.value)]

def value (p : PurchaseOrderPayload I) : Value := .dict (record p.fields)

/-- What the parser asks of a stored purchase order besides its form. -/
structure Reloadable (p : PurchaseOrderPayload I) : Prop where
  currency : p.currency.text.length ≤ 3
  uom : ∀ x ∈ p.items.items, x.uom.isSome = true

theorem parse_value {p : PurchaseOrderPayload I} (h : p.Reloadable) :
    parsePurchaseOrderPayload I p.value = .ok p := by
  have hitems : (p.items.map PurchaseOrderItem.value).parse (parsePurchaseOrderItem I) =
      .ok p.items :=
    BoundedList.parse_map fun x hx i => x.parse_value (h.uom x hx) i
  have hcurrency : Governance.currency I p.currency.value "currency" = .ok p.currency :=
    (currency_value_eq_ok I p.currency _).mpr ⟨h.currency, rfl⟩
  simp only [parsePurchaseOrderPayload, value]
  rw [object_record_eq_ok (by simp [fields]) (by simp [fields])]
  simp [fields, item_record_cons, -BoundedList.items_map, hitems, hcurrency]

theorem reloadable_of_parse_value {p q : PurchaseOrderPayload I}
    (h : parsePurchaseOrderPayload I p.value = .ok q) : p.Reloadable := by
  simp only [parsePurchaseOrderPayload, value] at h
  rw [object_record_eq_ok (by simp [fields]) (by simp [fields])] at h
  simp [fields, item_record_cons, -BoundedList.items_map, bind_eq_ok] at h
  obtain ⟨items, hitems, c, hcurrency, -⟩ := h
  refine ⟨((currency_value_eq_ok I _ _).mp hcurrency).1, fun x hx => ?_⟩
  obtain ⟨i, y, hy⟩ := BoundedList.exists_of_parse_map hitems hx
  exact PurchaseOrderItem.uom_of_parse_value hy

end PurchaseOrderPayload

/-! ## Actions on one document -/

/-- The payload of a submit or a cancel action; its `source_doctype` is the target
doctype of the action. -/
@[ext] structure SourcePayload where
  company : RequiredText 140
  reason : Option (RequiredText 2000)
  sourceName : RequiredText 140

/-- `_required_text`, and the comparison with the one text that is valid. -/
def exactText (expected : String) (value : Value) (label : String) (maximum : ℕ) :
    Result Unit := do
  let text ← requiredText value label maximum
  if text.text = Text.ofString expected then .ok ()
  else .error (invalid s!"{label} is invalid")

theorem exactText_ofString {expected : String} {maximum : ℕ} (label : String)
    (hlength : (Text.ofString expected).length ≤ maximum)
    (hvisible : Text.isBlank (Text.ofString expected) = false) :
    exactText expected (Value.ofString expected) label maximum = .ok () := by
  have htext : requiredText (Value.ofString expected) label maximum =
      .ok ⟨Text.ofString expected, hlength, hvisible⟩ :=
    requiredText_value ⟨Text.ofString expected, hlength, hvisible⟩ label
  rw [exactText, htext, ok_bind]
  exact if_pos rfl

theorem exactText_eq_ok {expected : String} {value : Value} {label : String} {maximum : ℕ}
    (h : exactText expected value label maximum = .ok ()) : value = Value.ofString expected := by
  rw [exactText, bind_eq_ok] at h
  obtain ⟨t, ht, h⟩ := h
  split_ifs at h with htext
  rw [requiredText_eq_ok.mp ht, RequiredText.value, htext]
  rfl

/-- `_parse_source_payload`. -/
def parseSourcePayload (actionType : ActionType) (value : Value) : Result SourcePayload := do
  let raw ← object value ["company", "source_doctype", "source_name", "reason"]
    ["company", "source_doctype", "source_name"] "payload"
  exactText actionType.targetDoctype (item raw "source_doctype") "source_doctype" 80
  let company ← requiredText (item raw "company") "company" 140
  let sourceName ← requiredText (item raw "source_name") "source_name" 140
  let reason ← optionally (item raw "reason") (requiredText · "reason" 2000)
  .ok ⟨company, reason, sourceName⟩

namespace SourcePayload

def fields (p : SourcePayload) (actionType : ActionType) : List (String × Option Value) :=
  [("company", p.company.value), ("reason", p.reason.map RequiredText.value),
    ("source_doctype", Value.ofString actionType.targetDoctype),
    ("source_name", p.sourceName.value)]

def value (p : SourcePayload) (actionType : ActionType) : Value :=
  .dict (record (p.fields actionType))

theorem parse_value (p : SourcePayload) (actionType : ActionType) :
    parseSourcePayload actionType (p.value actionType) = .ok p := by
  have hdoctype : exactText actionType.targetDoctype
      (Value.ofString actionType.targetDoctype) "source_doctype" 80 = .ok () :=
    exactText_ofString _ (by cases actionType <;> decide) (by cases actionType <;> decide)
  rw [parseSourcePayload, value, object_record_eq_ok (by simp [fields]) (by simp [fields])]
  simp [fields, item_record_cons, hdoctype]

end SourcePayload

/-! ## Receipt and invoice drafts -/

/-- A line of a receipt or an invoice draft; only invoice lines have a rate. -/
@[ext] structure LineItem (priced : Bool) where
  description : Option (RequiredText 2000)
  itemCode : RequiredText 140
  qty : Amount
  rate : Option Amount
  rate_isSome : rate.isSome = priced
  sourceRow : RequiredText 140
  uom : Option (RequiredText 140)
  warehouse : Option (RequiredText 140)

/-- The fields of a line past its source row. -/
def parseLineFields (priced : Bool) (raw : Dict) (sourceRow : RequiredText 140) :
    Result (LineItem priced) := do
  let itemCode ← requiredText (item raw "item_code") "item_code" 140
  let qty ← decimal I (item raw "qty") "qty"
  let uom ← optionally (item raw "uom") (requiredText · "uom" 140)
  let warehouse ← optionally (item raw "warehouse") (requiredText · "warehouse" 140)
  let description ← optionally (item raw "description") (requiredText · "description" 2000)
  if hpriced : priced = true then do
    let rate ← decimal I (item raw "rate") "rate"
    .ok ⟨description, itemCode, qty, some rate, hpriced.symm, sourceRow, uom, warehouse⟩
  else
    .ok ⟨description, itemCode, qty, none, by simpa using hpriced, sourceRow, uom, warehouse⟩

/-- The keys a line must have. -/
def requiredLineKeys (priced : Bool) : List String :=
  ["source_row", "item_code", "qty", "uom", "warehouse"] ++ if priced then ["rate"] else []

/-- `_parse_line_items` for `CREATE_PR_DRAFT` and, priced, for `CREATE_PI_DRAFT`; `seen`
are the source rows of the lines before. -/
def parseLineItems (priced : Bool) : ℕ → List Text → List Value → Result (List (LineItem priced))
  | _, _, [] => .ok []
  | index, seen, x :: xs => do
      let raw ← object x
        ["source_row", "item_code", "qty", "uom", "warehouse", "rate", "description"]
        (requiredLineKeys priced) s!"payload.items[{index}]"
      let sourceRow ← requiredText (item raw "source_row") "source_row" 140
      if seen.contains sourceRow.text then .error (invalid "source_row must be unique")
      else do
        let line ← parseLineFields I priced raw sourceRow
        let lines ← parseLineItems priced (index + 1) (sourceRow.text :: seen) xs
        .ok (line :: lines)

/-- The source row of a line. -/
def LineItem.row {priced : Bool} (x : LineItem priced) : Text := x.sourceRow.text

theorem parseLineFields_sourceRow {priced : Bool} {raw : Dict} {sourceRow : RequiredText 140}
    {line : LineItem priced} (h : parseLineFields I priced raw sourceRow = .ok line) :
    line.sourceRow = sourceRow := by
  simp only [parseLineFields, bind_eq_ok] at h
  obtain ⟨itemCode, -, qty, -, uom, -, warehouse, -, description, -, h⟩ := h
  split_ifs at h
  · rw [bind_eq_ok] at h
    obtain ⟨rate, -, h⟩ := h
    rw [← Except.ok.inj h]
  · rw [← Except.ok.inj h]

/-- Accepted lines have pairwise different source rows. -/
theorem nodup_of_parseLineItems {priced : Bool} {index : ℕ} {seen : List Text} {xs : List Value}
    {lines : List (LineItem priced)} (h : parseLineItems I priced index seen xs = .ok lines) :
    (lines.map LineItem.row).Nodup ∧ ∀ line ∈ lines, line.row ∉ seen := by
  induction xs generalizing index seen lines with
  | nil =>
      rw [parseLineItems] at h
      rw [← Except.ok.inj h]
      simp
  | cons x xs ih =>
      simp only [parseLineItems, bind_eq_ok] at h
      obtain ⟨raw, -, sourceRow, -, h⟩ := h
      split_ifs at h with hseen
      simp only [bind_eq_ok] at h
      obtain ⟨line, hline, rest, hrest, h⟩ := h
      obtain ⟨hnodup, hnot⟩ := ih hrest
      have hrow : line.row = sourceRow.text := by
        rw [LineItem.row, parseLineFields_sourceRow I hline]
      rw [← Except.ok.inj h, List.map_cons, List.nodup_cons]
      refine ⟨⟨?_, hnodup⟩, ?_⟩
      · intro hmem
        obtain ⟨other, hother, heq⟩ := List.mem_map.mp hmem
        apply hnot other hother
        rw [heq, hrow]
        exact List.mem_cons_self
      · intro other hother
        rcases List.mem_cons.mp hother with rfl | hother
        · rw [hrow]
          simpa using hseen
        · exact fun hmem => hnot other hother (List.mem_cons_of_mem _ hmem)

theorem length_of_parseLineItems {priced : Bool} {index : ℕ} {seen : List Text} {xs : List Value}
    {lines : List (LineItem priced)} (h : parseLineItems I priced index seen xs = .ok lines) :
    lines.length = xs.length := by
  induction xs generalizing index seen lines with
  | nil =>
      rw [parseLineItems] at h
      rw [← Except.ok.inj h, List.length_nil, List.length_nil]
  | cons x xs ih =>
      simp only [parseLineItems, bind_eq_ok] at h
      obtain ⟨raw, -, sourceRow, -, h⟩ := h
      split_ifs at h
      simp only [bind_eq_ok] at h
      obtain ⟨line, -, rest, hrest, h⟩ := h
      rw [← Except.ok.inj h, List.length_cons, List.length_cons, ih hrest]

namespace LineItem

variable {priced : Bool}

def fields (x : LineItem priced) : List (String × Option Value) :=
  [("description", x.description.map RequiredText.value), ("item_code", x.itemCode.value),
    ("qty", x.qty.value), ("rate", x.rate.map Amount.value), ("source_row", x.sourceRow.value),
    ("uom", x.uom.map RequiredText.value), ("warehouse", x.warehouse.map RequiredText.value)]

def value (x : LineItem priced) : Value := .dict (record x.fields)

/-- A line keeps its unit and its warehouse: both keys are required, and nothing is
stored for `None`. -/
def Reloadable (x : LineItem priced) : Prop := x.uom.isSome = true ∧ x.warehouse.isSome = true

theorem parseLineFields_fields (x : LineItem priced) :
    parseLineFields I priced (record x.fields) x.sourceRow = .ok x := by
  obtain ⟨description, itemCode, qty, rate, hrate, sourceRow, uom, warehouse⟩ := x
  subst hrate
  cases rate with
  | none => simp [parseLineFields, fields, item_record_cons]
  | some rate => simp [parseLineFields, fields, item_record_cons]

theorem object_value (x : LineItem priced) (label : String) :
    (∃ d, object x.value ["source_row", "item_code", "qty", "uom", "warehouse", "rate",
        "description"] (requiredLineKeys priced) label = .ok d) ↔ x.Reloadable := by
  rw [value, object_record (by simp [fields])]
  have hrate := x.rate_isSome
  cases priced <;> simp [requiredLineKeys, fields, Reloadable, hrate]

theorem object_value_eq_ok {x : LineItem priced} (h : x.Reloadable) (label : String) :
    object x.value ["source_row", "item_code", "qty", "uom", "warehouse", "rate",
        "description"] (requiredLineKeys priced) label = .ok (record x.fields) := by
  obtain ⟨d, hd⟩ := (x.object_value label).mpr h
  rw [hd, ← Value.dict.inj (object_eq_ok.mp hd).1]

theorem parseLineItems_map {lines : List (LineItem priced)} (h : ∀ x ∈ lines, x.Reloadable)
    (hnodup : (lines.map row).Nodup) (index : ℕ) (seen : List Text)
    (hseen : ∀ x ∈ lines, x.row ∉ seen) :
    parseLineItems I priced index seen (lines.map value) = .ok lines := by
  induction lines generalizing index seen with
  | nil => rfl
  | cons x lines ih =>
      rw [List.map_cons, List.nodup_cons] at hnodup
      have hrow : item (record x.fields) "source_row" = x.sourceRow.value := by
        simp [fields, item_record_cons]
      have hnot : seen.contains x.sourceRow.text = false := by
        simpa [row] using hseen x List.mem_cons_self
      have htail : ∀ y ∈ lines, y.row ∉ x.sourceRow.text :: seen := by
        intro y hy hmem
        rcases List.mem_cons.mp hmem with heq | hmem
        · exact hnodup.1 (List.mem_map.mpr ⟨y, hy, heq⟩)
        · exact hseen y (List.mem_cons_of_mem _ hy) hmem
      have hlines := ih (fun y hy => h y (List.mem_cons_of_mem _ hy)) hnodup.2 (index + 1)
        (x.sourceRow.text :: seen) htail
      simp only [List.map_cons, parseLineItems, object_value_eq_ok (h x List.mem_cons_self),
        ok_bind, hrow, requiredText_value, hnot, Bool.false_eq_true, if_false,
        parseLineFields_fields, hlines]

theorem reloadable_of_parseLineItems {lines others : List (LineItem priced)} {index : ℕ}
    {seen : List Text} (h : parseLineItems I priced index seen (lines.map value) = .ok others) :
    ∀ x ∈ lines, x.Reloadable := by
  induction lines generalizing index seen others with
  | nil => simp
  | cons x lines ih =>
      simp only [List.map_cons, parseLineItems, bind_eq_ok] at h
      obtain ⟨raw, hraw, sourceRow, -, h⟩ := h
      split_ifs at h
      simp only [bind_eq_ok] at h
      obtain ⟨line, -, rest, hrest, -⟩ := h
      intro y hy
      rcases List.mem_cons.mp hy with rfl | hy
      · exact (y.object_value _).mp ⟨raw, hraw⟩
      · exact ih hrest y hy

end LineItem

/-- The payload of `CREATE_PR_DRAFT` and, priced, of `CREATE_PI_DRAFT`. -/
@[ext] structure DraftPayload (priced : Bool) where
  company : RequiredText 140
  items : BoundedList (LineItem priced) 100
  rows_nodup : (items.items.map LineItem.row).Nodup
  reason : Option (RequiredText 2000)
  sourceName : RequiredText 140
  transactionDate : DateText I

/-- The source doctype of a draft: orders are received, receipts are invoiced. -/
def draftSource (priced : Bool) : String := if priced then "Purchase Receipt" else "Purchase Order"

/-- `_parse_draft_payload`. The source doctype is tested for membership first and for
the action type second, with one message. -/
def parseDraftPayload (priced : Bool) (value : Value) : Result (DraftPayload I priced) := do
  let raw ← object value
    ["company", "source_doctype", "source_name", "transaction_date", "items", "reason"]
    ["company", "source_doctype", "source_name", "transaction_date", "items"] "payload"
  exactText (draftSource priced) (item raw "source_doctype") "source_doctype" 80
  let company ← requiredText (item raw "company") "company" 140
  let sourceName ← requiredText (item raw "source_name") "source_name" 140
  let transactionDate ← date I (item raw "transaction_date") "transaction_date"
  let rawItems ← list (item raw "items") "items" 100
  match hlines : parseLineItems I priced 0 [] rawItems.items with
  | .error e => .error e
  | .ok lines => do
      let reason ← optionally (item raw "reason") (requiredText · "reason" 2000)
      .ok ⟨company, rawItems.withItems lines (length_of_parseLineItems I hlines),
        (nodup_of_parseLineItems I hlines).1, reason, sourceName, transactionDate⟩

namespace DraftPayload

variable {I} {priced : Bool}

def fields (p : DraftPayload I priced) : List (String × Option Value) :=
  [("company", p.company.value), ("items", Value.list (p.items.map LineItem.value).items),
    ("reason", p.reason.map RequiredText.value),
    ("source_doctype", Value.ofString (draftSource priced)), ("source_name", p.sourceName.value),
    ("transaction_date", p.transactionDate.value)]

def value (p : DraftPayload I priced) : Value := .dict (record p.fields)

/-- What the parser asks of a stored draft besides its form. -/
def Reloadable (p : DraftPayload I priced) : Prop := ∀ x ∈ p.items.items, x.Reloadable

theorem parse_eq_ok {value : Value} {p : DraftPayload I priced} :
    parseDraftPayload I priced value = .ok p ↔
      ∃ raw, object value
          ["company", "source_doctype", "source_name", "transaction_date", "items", "reason"]
          ["company", "source_doctype", "source_name", "transaction_date", "items"] "payload" =
            .ok raw ∧
        exactText (draftSource priced) (item raw "source_doctype") "source_doctype" 80 = .ok () ∧
        requiredText (item raw "company") "company" 140 = .ok p.company ∧
        requiredText (item raw "source_name") "source_name" 140 = .ok p.sourceName ∧
        date I (item raw "transaction_date") "transaction_date" = .ok p.transactionDate ∧
        (∃ rawItems : BoundedList Value 100, item raw "items" = .list rawItems.items ∧
          parseLineItems I priced 0 [] rawItems.items = .ok p.items.items) ∧
        optionally (item raw "reason") (requiredText · "reason" 2000) = .ok p.reason := by
  simp only [parseDraftPayload, bind_eq_ok]
  constructor
  · rintro ⟨raw, hraw, ⟨⟩, hdoctype, company, hcompany, name, hname, date, hdate, items, hitems, h⟩
    split at h
    case h_1 => cases h
    case h_2 lines hlines =>
      rw [bind_eq_ok] at h
      obtain ⟨reason, hreason, h⟩ := h
      rw [← Except.ok.inj h]
      exact ⟨raw, hraw, hdoctype, hcompany, hname, hdate, ⟨items, list_eq_ok.mp hitems, hlines⟩,
        hreason⟩
  · rintro ⟨raw, hraw, hdoctype, hcompany, hname, hdate, ⟨items, hitems, hlines⟩, hreason⟩
    refine ⟨raw, hraw, (), hdoctype, _, hcompany, _, hname, _, hdate, items,
      list_eq_ok.mpr hitems, ?_⟩
    split
    case h_1 e he => simp [hlines] at he
    case h_2 lines hlines' =>
      rw [bind_eq_ok]
      refine ⟨_, hreason, congrArg Except.ok ?_⟩
      have heq : lines = p.items.items := Except.ok.inj (hlines'.symm.trans hlines)
      exact DraftPayload.ext rfl (BoundedList.ext heq) rfl rfl rfl

theorem item_fields (p : DraftPayload I priced) :
    item (record p.fields) "company" = p.company.value ∧
      item (record p.fields) "items" = .list (p.items.map LineItem.value).items ∧
      item (record p.fields) "reason" = (p.reason.map RequiredText.value).getD .none ∧
      item (record p.fields) "source_doctype" = Value.ofString (draftSource priced) ∧
      item (record p.fields) "source_name" = p.sourceName.value ∧
      item (record p.fields) "transaction_date" = p.transactionDate.value := by
  simp [fields, item_record_cons]

theorem parse_value {p : DraftPayload I priced} (h : p.Reloadable) :
    parseDraftPayload I priced p.value = .ok p := by
  obtain ⟨hcompany, hitems, hreason, hdoctype, hname, hdate⟩ := p.item_fields
  have hexact : exactText (draftSource priced) (Value.ofString (draftSource priced))
      "source_doctype" 80 = .ok () :=
    exactText_ofString _ (by cases priced <;> decide) (by cases priced <;> decide)
  refine parse_eq_ok.mpr ⟨record p.fields,
    object_record_eq_ok (by simp [fields]) (by simp [fields]), ?_⟩
  rw [hcompany, hitems, hreason, hdoctype, hname, hdate]
  refine ⟨hexact, requiredText_value _ _, requiredText_value _ _, date_value I _ _,
    ⟨_, rfl, ?_⟩, optionally_requiredText _ _⟩
  exact LineItem.parseLineItems_map I h p.rows_nodup 0 [] fun x _ => List.not_mem_nil

theorem reloadable_of_parse_value {p q : DraftPayload I priced}
    (h : parseDraftPayload I priced p.value = .ok q) : p.Reloadable := by
  obtain ⟨raw, hraw, -, -, -, -, ⟨items, hitems, hlines⟩, -⟩ := parse_eq_ok.mp h
  obtain rfl := Value.dict.inj (object_eq_ok.mp hraw).1
  rw [p.item_fields.2.1] at hitems
  rw [← Value.list.inj hitems] at hlines
  exact LineItem.reloadable_of_parseLineItems I hlines

end DraftPayload

/-! ## Payments -/

/-- A reference of a payment; its `reference_doctype` is `Purchase Invoice`. -/
@[ext] structure PaymentReference where
  allocatedAmount : Amount
  referenceName : RequiredText 140

/-- One item of `payload.references`. -/
def parsePaymentReference (index : ℕ) (value : Value) : Result PaymentReference := do
  let fields := ["reference_doctype", "reference_name", "allocated_amount"]
  let raw ← object value fields fields s!"payload.references[{index}]"
  if isText "Purchase Invoice" (item raw "reference_doctype") then do
    let referenceName ← requiredText (item raw "reference_name") "reference_name" 140
    let allocatedAmount ← decimal I (item raw "allocated_amount") "allocated_amount"
    .ok ⟨allocatedAmount, referenceName⟩
  else .error (invalid "reference_doctype is invalid")

/-- The payload of `CREATE_PAYMENT_ENTRY_DRAFT`; its `source_doctype` is
`Purchase Invoice`. -/
@[ext] structure PaymentPayload where
  company : RequiredText 140
  paidAmount : Amount
  paidFrom : RequiredText 140
  paidTo : RequiredText 140
  party : RequiredText 140
  partyType : RequiredText 40
  paymentType : OneOf paymentTypes
  postingDate : DateText I
  reason : Option (RequiredText 2000)
  receivedAmount : Amount
  references : BoundedList PaymentReference 100
  sourceCurrency : Option (Currency I)
  sourceName : RequiredText 140
  targetCurrency : Option (Currency I)

/-- `_parse_payment_payload`. -/
def parsePaymentPayload (value : Value) : Result (PaymentPayload I) := do
  let required := ["company", "source_doctype", "source_name", "party_type", "party",
    "payment_type", "posting_date", "paid_from", "paid_to", "paid_amount", "received_amount",
    "references"]
  let raw ← object value (required ++ ["source_currency", "target_currency", "reason"]) required
    "payload"
  exactText "Purchase Invoice" (item raw "source_doctype") "source_doctype" 80
  let paymentType ← oneOf paymentTypes (item raw "payment_type") "payment_type" 40
  let rawReferences ← list (item raw "references") "references" 100
  let references ← rawReferences.parse (parsePaymentReference I)
  let company ← requiredText (item raw "company") "company" 140
  let sourceName ← requiredText (item raw "source_name") "source_name" 140
  let partyType ← requiredText (item raw "party_type") "party_type" 40
  let party ← requiredText (item raw "party") "party" 140
  let postingDate ← date I (item raw "posting_date") "posting_date"
  let paidFrom ← requiredText (item raw "paid_from") "paid_from" 140
  let paidTo ← requiredText (item raw "paid_to") "paid_to" 140
  let paidAmount ← decimal I (item raw "paid_amount") "paid_amount"
  let receivedAmount ← decimal I (item raw "received_amount") "received_amount"
  let sourceCurrency ← optionally (item raw "source_currency") (currency I · "source_currency")
  let targetCurrency ← optionally (item raw "target_currency") (currency I · "target_currency")
  let reason ← optionally (item raw "reason") (requiredText · "reason" 2000)
  .ok
    { company := company
      paidAmount := paidAmount
      paidFrom := paidFrom
      paidTo := paidTo
      party := party
      partyType := partyType
      paymentType := paymentType
      postingDate := postingDate
      reason := reason
      receivedAmount := receivedAmount
      references := references
      sourceCurrency := sourceCurrency
      sourceName := sourceName
      targetCurrency := targetCurrency }

namespace PaymentReference

def fields (x : PaymentReference) : List (String × Option Value) :=
  [("allocated_amount", x.allocatedAmount.value),
    ("reference_doctype", Value.ofString "Purchase Invoice"),
    ("reference_name", x.referenceName.value)]

def value (x : PaymentReference) : Value := .dict (record x.fields)

theorem parse_value (x : PaymentReference) (index : ℕ) :
    parsePaymentReference I index x.value = .ok x := by
  simp only [parsePaymentReference, value]
  rw [object_record_eq_ok (by simp [fields]) (by simp [fields])]
  simp [fields, item_record_cons]

end PaymentReference

namespace PaymentPayload

variable {I}

def fields (p : PaymentPayload I) : List (String × Option Value) :=
  [("company", p.company.value), ("paid_amount", p.paidAmount.value),
    ("paid_from", p.paidFrom.value), ("paid_to", p.paidTo.value), ("party", p.party.value),
    ("party_type", p.partyType.value), ("payment_type", p.paymentType.value),
    ("posting_date", p.postingDate.value), ("reason", p.reason.map RequiredText.value),
    ("received_amount", p.receivedAmount.value),
    ("references", Value.list (p.references.map PaymentReference.value).items),
    ("source_currency", p.sourceCurrency.map Currency.value),
    ("source_doctype", Value.ofString "Purchase Invoice"), ("source_name", p.sourceName.value),
    ("target_currency", p.targetCurrency.map Currency.value)]

def value (p : PaymentPayload I) : Value := .dict (record p.fields)

/-- What the parser asks of a stored payment besides its form. -/
structure Reloadable (p : PaymentPayload I) : Prop where
  source : ∀ c ∈ p.sourceCurrency, c.text.length ≤ 3
  target : ∀ c ∈ p.targetCurrency, c.text.length ≤ 3

theorem optionally_currency {c : Option (Currency I)} (label : String)
    (h : ∀ e ∈ c, e.text.length ≤ 3) :
    optionally ((c.map Currency.value).getD .none) (currency I · label) = .ok c := by
  cases c with
  | none => rfl
  | some c =>
      have hc := (currency_value_eq_ok I c label).mpr ⟨h c rfl, rfl⟩
      simp only [Option.map_some, Option.getD_some, optionally, Currency.value, isNone,
        Bool.false_eq_true, if_false]
      rw [show Value.str c.text = c.value from rfl, hc]
      rfl

theorem length_of_optionally_currency {c d : Option (Currency I)} {label : String}
    (h : optionally ((c.map Currency.value).getD .none) (currency I · label) = .ok d) :
    ∀ e ∈ c, e.text.length ≤ 3 := by
  rintro c rfl
  rcases optionally_eq_ok.mp h with ⟨hnone, -⟩ | ⟨-, e, he, -⟩
  · simp [Currency.value, isNone] at hnone
  · exact ((currency_value_eq_ok I c label).mp he).1

theorem parse_value {p : PaymentPayload I} (h : p.Reloadable) :
    parsePaymentPayload I p.value = .ok p := by
  have hreferences : (p.references.map PaymentReference.value).parse (parsePaymentReference I) =
      .ok p.references :=
    BoundedList.parse_map fun x _ i => x.parse_value I i
  have htype : oneOf paymentTypes p.paymentType.value "payment_type" 40 = .ok p.paymentType :=
    oneOf_value p.paymentType "payment_type" (by decide)
  have hdoctype : exactText "Purchase Invoice" (Value.ofString "Purchase Invoice")
      "source_doctype" 80 = .ok () := exactText_ofString _ (by decide) (by decide)
  have hsource := optionally_currency "source_currency" h.source
  have htarget := optionally_currency "target_currency" h.target
  simp only [parsePaymentPayload, value]
  rw [object_record_eq_ok (by simp [fields]) (by simp [fields])]
  simp [fields, item_record_cons, -BoundedList.items_map, hreferences, htype, hdoctype, hsource,
    htarget]

theorem reloadable_of_parse_value {p q : PaymentPayload I}
    (h : parsePaymentPayload I p.value = .ok q) : p.Reloadable := by
  simp only [parsePaymentPayload, value] at h
  rw [object_record_eq_ok (by simp [fields]) (by simp [fields])] at h
  simp [fields, item_record_cons, -BoundedList.items_map, bind_eq_ok] at h
  obtain ⟨-, -, -, -, -, source, hsource, target, htarget, -⟩ := h
  exact ⟨length_of_optionally_currency hsource, length_of_optionally_currency htarget⟩

end PaymentPayload

/-! ## The payload of an action -/

/-- The payload an action type has. -/
def PayloadFor : ActionType → Type
  | .createMrDraft => MaterialRequestPayload I
  | .createPoDraft => PurchaseOrderPayload I
  | .createPrDraft => DraftPayload I false
  | .createPiDraft => DraftPayload I true
  | .createPaymentEntryDraft => PaymentPayload I
  | .submitPo | .cancelPo | .submitPr | .cancelPr | .submitPi | .cancelPi
  | .submitPaymentEntry | .cancelPaymentEntry => SourcePayload

/-- `_parse_payload`. -/
def parsePayload : (t : ActionType) → Value → Result (PayloadFor I t)
  | .createMrDraft => parseMaterialRequestPayload I
  | .createPoDraft => parsePurchaseOrderPayload I
  | .createPrDraft => parseDraftPayload I false
  | .createPiDraft => parseDraftPayload I true
  | .createPaymentEntryDraft => parsePaymentPayload I
  | .submitPo => parseSourcePayload .submitPo
  | .cancelPo => parseSourcePayload .cancelPo
  | .submitPr => parseSourcePayload .submitPr
  | .cancelPr => parseSourcePayload .cancelPr
  | .submitPi => parseSourcePayload .submitPi
  | .cancelPi => parseSourcePayload .cancelPi
  | .submitPaymentEntry => parseSourcePayload .submitPaymentEntry
  | .cancelPaymentEntry => parseSourcePayload .cancelPaymentEntry

variable {I}

/-- A payload as it is stored. -/
def payloadValue : {t : ActionType} → PayloadFor I t → Value
  | .createMrDraft, p => MaterialRequestPayload.value p
  | .createPoDraft, p => PurchaseOrderPayload.value p
  | .createPrDraft, p => DraftPayload.value p
  | .createPiDraft, p => DraftPayload.value p
  | .createPaymentEntryDraft, p => PaymentPayload.value p
  | .submitPo, p => SourcePayload.value p .submitPo
  | .cancelPo, p => SourcePayload.value p .cancelPo
  | .submitPr, p => SourcePayload.value p .submitPr
  | .cancelPr, p => SourcePayload.value p .cancelPr
  | .submitPi, p => SourcePayload.value p .submitPi
  | .cancelPi, p => SourcePayload.value p .cancelPi
  | .submitPaymentEntry, p => SourcePayload.value p .submitPaymentEntry
  | .cancelPaymentEntry, p => SourcePayload.value p .cancelPaymentEntry

/-- What the parser asks of a stored payload besides its form. -/
def PayloadReloadable : {t : ActionType} → PayloadFor I t → Prop
  | .createPoDraft, p => PurchaseOrderPayload.Reloadable p
  | .createPrDraft, p => DraftPayload.Reloadable p
  | .createPiDraft, p => DraftPayload.Reloadable p
  | .createPaymentEntryDraft, p => PaymentPayload.Reloadable p
  | _, _ => True

theorem parsePayload_payloadValue {t : ActionType} {p : PayloadFor I t}
    (h : PayloadReloadable p) : parsePayload I t (payloadValue p) = .ok p := by
  cases t with
  | createMrDraft => exact MaterialRequestPayload.parse_value p
  | createPoDraft => exact PurchaseOrderPayload.parse_value h
  | createPrDraft => exact DraftPayload.parse_value h
  | createPiDraft => exact DraftPayload.parse_value h
  | createPaymentEntryDraft => exact PaymentPayload.parse_value h
  | submitPo => exact SourcePayload.parse_value p _
  | cancelPo => exact SourcePayload.parse_value p _
  | submitPr => exact SourcePayload.parse_value p _
  | cancelPr => exact SourcePayload.parse_value p _
  | submitPi => exact SourcePayload.parse_value p _
  | cancelPi => exact SourcePayload.parse_value p _
  | submitPaymentEntry => exact SourcePayload.parse_value p _
  | cancelPaymentEntry => exact SourcePayload.parse_value p _

theorem payloadReloadable_of_parsePayload {t s : ActionType} {p : PayloadFor I t}
    {q : PayloadFor I s} (hst : s = t) (h : parsePayload I s (payloadValue p) = .ok q) :
    PayloadReloadable p := by
  subst hst
  cases s with
  | createPoDraft => exact PurchaseOrderPayload.reloadable_of_parse_value h
  | createPrDraft => exact DraftPayload.reloadable_of_parse_value h
  | createPiDraft => exact DraftPayload.reloadable_of_parse_value h
  | createPaymentEntryDraft => exact PaymentPayload.reloadable_of_parse_value h
  | _ => trivial

end Payloads

end Governance
