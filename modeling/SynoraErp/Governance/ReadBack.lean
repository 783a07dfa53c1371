import SynoraErp.Governance.Document
import Std.Data.String.ToNat

/-!
# Read-back of a governed write

The verifiers that compare an ERP document with the approved payload and return
the evidence a receipt records: `verify_material_request_read_back`,
`verify_purchase_order_read_back` and `p2p_read_back`. `material_request_values`
and `purchase_order_values` copy the payload, so the verifiers read it directly.
-/

namespace Governance

open Python

/-- The verified fields of a document, a `dict` of texts and integers. -/
abbrev Evidence := Dict

/-- The name of a field of a row, in keys and in messages. -/
def itemField (index : ℕ) (field : String) : String := s!"item_{index}.{field}"

namespace ActionType

/-- `action_type.startswith("CREATE_")`. -/
def isCreate : ActionType → Bool
  | createMrDraft | createPoDraft | createPrDraft | createPiDraft | createPaymentEntryDraft => true
  | _ => false

/-- `action_type.startswith("CANCEL_")`. -/
def isCancel : ActionType → Bool
  | cancelPo | cancelPr | cancelPi | cancelPaymentEntry => true
  | _ => false

/-- `action_type.startswith("SUBMIT_")`. -/
def isSubmit : ActionType → Bool
  | submitPo | submitPr | submitPi | submitPaymentEntry => true
  | _ => false

/-- The status an action leaves its target in. -/
def expectedDocstatus (t : ActionType) : ℤ := if t.isSubmit then 1 else if t.isCancel then 2 else 0

end ActionType

namespace ReadBack

variable (I : Interpreter)

/-- `verified[f"item_{index}.{field}"] = text`. -/
def entry (index : ℕ) (field : String) (text : Text) : Text × Value :=
  (itemField index field, .str text)

/-- The evidence of each row, with the number of the row. -/
def eachRow {α : Type} (verify : ℕ → Row → α → Result Evidence) :
    ℕ → List Row → List α → Result Evidence
  | index, actual :: rows, expected :: items => do
      let evidence ← verify index actual expected
      let rest ← eachRow verify (index + 1) rows items
      .ok (evidence ++ rest)
  | _, _, _ => .ok []

/-! ## Material requests -/

/-- One row of a material request. -/
def materialRequestRow (index : ℕ) (actual : Row) (expected : MaterialRequestItem I) :
    Result Evidence := do
  let field := itemField index
  sameText I (actual.value "item_code") expected.itemCode.text (field "item_code")
  sameText I (actual.value "warehouse") expected.warehouse.text (field "warehouse")
  sameText I (actual.value "schedule_date") expected.scheduleDate.text (field "schedule_date")
  let qty ← sameNumber I (actual.value "qty") expected.qty.text (field "qty")
    (field "qty" ++ " does not match approved payload")
  let qtyText ← plainNumber qty
  let uom := (actual.value "uom").strOrEmpty I
  sameOptional I (.text uom) expected.uom (field "uom")
  sameOptional I (actual.value "description") expected.description (field "description")
  .ok [entry index "item_code" ((actual.value "item_code").str I),
    entry index "warehouse" ((actual.value "warehouse").str I),
    entry index "schedule_date" ((actual.value "schedule_date").str I),
    entry index "qty" qtyText, entry index "uom" uom]

/-- `verify_material_request_read_back`, past the test of the action type. -/
def materialRequest (p : MaterialRequestPayload I) (doc : Document) : Result Evidence := do
  if !(doc.value "docstatus").eqInt 0 then .error (mismatch "Material Request is not a Draft")
  else do
    sameText I (doc.value "company") p.company.text "company"
    sameText I (doc.value "material_request_type") p.materialRequestType.name
      "material_request_type"
    sameText I (doc.value "transaction_date") p.transactionDate.text "transaction_date"
    let rows := doc.rows "items"
    if rows.length ≠ p.items.items.length then
      .error (mismatch "item count does not match approved payload")
    else do
      let items ← eachRow (materialRequestRow I) 0 rows p.items.items
      .ok ([(Text.ofString "docstatus", .int 0),
        (Text.ofString "company", .str ((doc.value "company").str I)),
        (Text.ofString "material_request_type",
          .str ((doc.value "material_request_type").str I)),
        (Text.ofString "transaction_date", .str ((doc.value "transaction_date").str I)),
        (Text.ofString "items_count", .int rows.length)] ++ items)

/-! ## Purchase orders -/

/-- The material request of a row, which must be the approved one or none. -/
def sameMaterialRequest (actual : Text) (expected : Option (RequiredText 140)) (field : String) :
    Result Unit :=
  match expected with
  | some name => sameText I (.text actual) name.text field
  | none =>
      if actual = [] then .ok ()
      else .error (mismatch s!"{field} was added outside the approved payload")

/-- One row of a purchase order. -/
def purchaseOrderRow (index : ℕ) (actual : Row) (expected : PurchaseOrderItem I) :
    Result Evidence := do
  let field := itemField index
  sameText I (actual.value "item_code") expected.itemCode.text (field "item_code")
  sameText I (actual.value "warehouse") expected.warehouse.text (field "warehouse")
  sameText I (actual.value "schedule_date") expected.scheduleDate.text (field "schedule_date")
  sameOptional I (actual.value "uom") expected.uom (field "uom")
  let conversion ← sameNumber I (actual.value "conversion_factor") "1" (field "conversion_factor")
    (field "conversion_factor" ++ " does not match approved payload")
  let conversionText ← plainNumber conversion
  let qty ← sameNumber I (actual.value "qty") expected.qty.text (field "qty")
    (field "qty" ++ " does not match approved payload")
  let qtyText ← plainNumber qty
  let rate ← sameNumber I (actual.value "rate") expected.rate.text (field "rate")
    (field "rate" ++ " does not match approved payload")
  let rateText ← plainNumber rate
  let amount ← sameProduct I (actual.value "amount") qty rate (field "amount")
    (field "amount" ++ " does not match qty multiplied by rate")
  let amountText ← plainNumber amount
  let materialRequest := (actual.value "material_request").strOrEmpty I
  sameMaterialRequest I materialRequest expected.materialRequest (field "material_request")
  sameOptional I (actual.value "description") expected.description (field "description")
  .ok [entry index "item_code" ((actual.value "item_code").str I),
    entry index "warehouse" ((actual.value "warehouse").str I),
    entry index "schedule_date" ((actual.value "schedule_date").str I),
    entry index "uom" ((actual.value "uom").str I),
    entry index "conversion_factor" conversionText, entry index "qty" qtyText,
    entry index "rate" rateText, entry index "amount" amountText,
    entry index "material_request" materialRequest]

/-- `verify_purchase_order_read_back`, past the test of the action type.
`purchase_order_values` reads the unit of every item, which an item submitted with
`None` does not have. -/
def purchaseOrder (p : PurchaseOrderPayload I) (doc : Document) : Result Evidence := do
  if p.items.items.any (fun x => x.uom.isNone) then .error .lookupError
  else if !(doc.value "docstatus").eqInt 0 then
    .error (mismatch "Purchase Order is not a Draft")
  else do
    sameText I (doc.value "supplier") p.supplier.text "supplier"
    sameText I (doc.value "company") p.company.text "company"
    sameText I (doc.value "currency") p.currency.text "currency"
    sameText I (doc.value "buying_price_list") p.buyingPriceList.text "buying_price_list"
    sameText I (doc.value "transaction_date") p.transactionDate.text "transaction_date"
    let conversion ← sameNumber I (doc.value "conversion_rate") "1" "conversion_rate"
      "conversion_rate does not match approved payload"
    sameText I (doc.value "schedule_date") p.scheduleDate.text "schedule_date"
    let rows := doc.rows "items"
    if rows.length ≠ p.items.items.length then
      .error (mismatch "item count does not match approved payload")
    else do
      let conversionText ← plainNumber conversion
      let items ← eachRow (purchaseOrderRow I) 0 rows p.items.items
      .ok ([(Text.ofString "docstatus", .int 0),
        (Text.ofString "supplier", .str ((doc.value "supplier").str I)),
        (Text.ofString "company", .str ((doc.value "company").str I)),
        (Text.ofString "currency", .str ((doc.value "currency").str I)),
        (Text.ofString "buying_price_list", .str ((doc.value "buying_price_list").str I)),
        (Text.ofString "transaction_date", .str ((doc.value "transaction_date").str I)),
        (Text.ofString "conversion_rate", .str conversionText),
        (Text.ofString "schedule_date", .str ((doc.value "schedule_date").str I)),
        (Text.ofString "items_count", .int rows.length)] ++ items)

/-! ## P2P actions -/

/-- The field of a row that names the source row, and the one that names its document. -/
def sourceLink (priced : Bool) : String := if priced then "pr_detail" else "purchase_order_item"

def parentLink (priced : Bool) : String := if priced then "purchase_receipt" else "purchase_order"

/-- The price of an invoice row; a receipt row has none. -/
def linePrice {priced : Bool} (index : ℕ) (actual : Row) (qty : Dec) (expected : LineItem priced) :
    Result Evidence :=
  match expected.rate with
  | none => .ok []
  | some expectedRate => do
      let field := itemField index
      let rate ← sameNumber I (actual.value "rate") expectedRate.text (field "rate")
        (field "rate" ++ " does not match")
      let amount ← sameProduct I (actual.value "amount") qty rate (field "amount")
        (field "amount" ++ " does not match qty multiplied by rate")
      let rateText ← plainNumber rate
      let amountText ← plainNumber amount
      .ok [entry index "rate" rateText, entry index "amount" amountText]

/-- One row of a receipt or an invoice draft, against the line of its source row. -/
def draftRow {priced : Bool} (sourceName : Text) (index : ℕ) (actual : Row)
    (expected : LineItem priced) : Result Evidence := do
  let field := itemField index
  let itemCode := (actual.value "item_code").strOrEmpty I
  if itemCode ≠ expected.itemCode.text then
    .error (mismatch (field "item_code" ++ " does not match"))
  else do
    sameText I (.text ((actual.value (sourceLink priced)).strOrEmpty I)) expected.sourceRow.text
      (field (sourceLink priced))
    sameText I (actual.value (parentLink priced)) sourceName (field (parentLink priced))
    sameOptional I (actual.value "warehouse") expected.warehouse (field "warehouse")
    sameOptional I (actual.value "uom") expected.uom (field "uom")
    let qty ← sameNumber I (actual.value "qty") expected.qty.text (field "qty")
      (field "qty" ++ " does not match")
    let qtyText ← plainNumber qty
    let price ← linePrice I index actual qty expected
    .ok ([entry index "item_code" itemCode, entry index "qty" qtyText,
      entry index (sourceLink priced) ((actual.value (sourceLink priced)).str I),
      entry index (parentLink priced) ((actual.value (parentLink priced)).str I),
      entry index "warehouse" ((actual.value "warehouse").strOrEmpty I),
      entry index "uom" ((actual.value "uom").strOrEmpty I)] ++ price)

/-- The rows of a draft, each against the approved line of its source row; `seen` are
the source rows of the rows before. -/
def draftRows {priced : Bool} (sourceName : Text) (lines : List (LineItem priced)) :
    ℕ → List Text → List Row → Result (List Text × Evidence)
  | _, seen, [] => .ok (seen, [])
  | index, seen, actual :: rows => do
      let sourceRow := (actual.value (sourceLink priced)).strOrEmpty I
      match lines.find? fun line => line.row = sourceRow with
      | none => .error (mismatch "P2P draft source rows do not match")
      | some expected =>
          if seen.contains sourceRow then
            .error (mismatch "P2P draft source rows do not match")
          else do
            let evidence ← draftRow I sourceName index actual expected
            let (seen, rest) ← draftRows sourceName lines (index + 1) (sourceRow :: seen) rows
            .ok (seen, evidence ++ rest)

/-- The part of `p2p_read_back` for `CREATE_PR_DRAFT` and, priced, `CREATE_PI_DRAFT`. -/
def draft {priced : Bool} (p : DraftPayload I priced) (doc : Document) : Result Evidence := do
  let rows := doc.rows "items"
  if rows.length ≠ p.items.items.length then
    .error (mismatch "P2P draft item count does not match")
  else do
    sameText I (doc.value "posting_date") p.transactionDate.text "posting_date"
    let (seen, items) ← draftRows I p.sourceName.text p.items.items 0 [] rows
    if p.items.items.all (fun line => seen.contains line.row) then
      .ok ([(Text.ofString "source_name", .str p.sourceName.text),
        (Text.ofString "posting_date", .str ((doc.value "posting_date").str I)),
        (Text.ofString "items_count", .int rows.length)] ++ items)
    else .error (mismatch "P2P draft source rows do not match")

/-- The references of a payment, each against the approved one of its name. -/
def paymentReferences (expected : List PaymentReference) :
    ℕ → List Text → List Row → Result (List Text)
  | _, seen, [] => .ok seen
  | index, seen, reference :: rows => do
      let name := (reference.value "reference_name").strOrEmpty I
      -- A name that is approved twice stands for its last reference.
      match expected.reverse.find? fun x => x.referenceName.text = name with
      | none => .error (mismatch "payment references do not match")
      | some approved =>
          if seen.contains name then .error (mismatch "payment references do not match")
          else do
            let field := s!"reference_{index}"
            sameText I (reference.value "reference_doctype") "Purchase Invoice"
              s!"{field}.reference_doctype"
            let _ ← sameNumber I (reference.value "allocated_amount") approved.allocatedAmount.text
              s!"{field}.allocated_amount" s!"{field}.allocated_amount does not match"
            paymentReferences expected (index + 1) (name :: seen) rows

/-- The part of `p2p_read_back` for `CREATE_PAYMENT_ENTRY_DRAFT`. -/
def payment (p : PaymentPayload I) (doc : Document) : Result Evidence := do
  sameText I (doc.value "party_type") p.partyType.text "party_type"
  sameText I (doc.value "party") p.party.text "party"
  sameText I (doc.value "payment_type") p.paymentType.name "payment_type"
  sameText I (doc.value "paid_from") p.paidFrom.text "paid_from"
  sameText I (doc.value "paid_to") p.paidTo.text "paid_to"
  let paid ← sameNumber I (doc.value "paid_amount") p.paidAmount.text "paid_amount"
    "paid_amount does not match"
  let received ← sameNumber I (doc.value "received_amount") p.receivedAmount.text
    "received_amount" "received_amount does not match"
  let allocated ← decimal I (doc.value "total_allocated_amount") "total_allocated_amount"
  if allocated.value ≠ paid.value then
    .error (mismatch "total_allocated_amount does not match paid_amount")
  else do
    let unallocated ← decimal I (doc.value "unallocated_amount") "unallocated_amount"
    if unallocated.value ≠ 0 then .error (mismatch "unallocated_amount must be zero")
    else do
      let references := doc.rows "references"
      if references.length ≠ p.references.items.length then
        .error (mismatch "payment reference count does not match")
      else do
        let seen ← paymentReferences I p.references.items 0 [] references
        if !p.references.items.all (fun x => seen.contains x.referenceName.text) then
          .error (mismatch "payment references do not match")
        else
          match references with
          | [] => .error .lookupError
          | first :: _ => do
              let paidText ← plainNumber paid
              let receivedText ← plainNumber received
              let allocatedText ← plainNumber allocated
              let unallocatedText ← plainNumber unallocated
              let reference ← decimal I (first.value "allocated_amount")
                "reference_allocated_amount"
              let referenceText ← plainNumber reference
              .ok [(Text.ofString "party_type", .str ((doc.value "party_type").str I)),
                (Text.ofString "party", .str ((doc.value "party").str I)),
                (Text.ofString "payment_type", .str ((doc.value "payment_type").str I)),
                (Text.ofString "paid_from", .str ((doc.value "paid_from").str I)),
                (Text.ofString "paid_to", .str ((doc.value "paid_to").str I)),
                (Text.ofString "paid_amount", .str paidText),
                (Text.ofString "received_amount", .str receivedText),
                (Text.ofString "total_allocated_amount", .str allocatedText),
                (Text.ofString "unallocated_amount", .str unallocatedText),
                (Text.ofString "reference_name", .str ((first.value "reference_name").str I)),
                (Text.ofString "reference_allocated_amount", .str referenceText),
                (Text.ofString "references_count", .int p.references.items.length)]

/-! ## The verifiers -/

/-- `payload["company"]`. -/
def company : {t : ActionType} → PayloadFor I t → Text
  | .createMrDraft, p => MaterialRequestPayload.company p |>.text
  | .createPoDraft, p => PurchaseOrderPayload.company p |>.text
  | .createPrDraft, p => DraftPayload.company p |>.text
  | .createPiDraft, p => DraftPayload.company p |>.text
  | .createPaymentEntryDraft, p => PaymentPayload.company p |>.text
  | .submitPo, p | .cancelPo, p | .submitPr, p | .cancelPr, p | .submitPi, p | .cancelPi, p
  | .submitPaymentEntry, p | .cancelPaymentEntry, p => SourcePayload.company p |>.text

/-- `payload.get("source_name") or ""`; a draft outside P2P has no source. -/
def sourceName : {t : ActionType} → PayloadFor I t → Text
  | .createMrDraft, _ | .createPoDraft, _ => []
  | .createPrDraft, p => DraftPayload.sourceName p |>.text
  | .createPiDraft, p => DraftPayload.sourceName p |>.text
  | .createPaymentEntryDraft, p => PaymentPayload.sourceName p |>.text
  | .submitPo, p | .cancelPo, p | .submitPr, p | .cancelPr, p | .submitPi, p | .cancelPi, p
  | .submitPaymentEntry, p | .cancelPaymentEntry, p => SourcePayload.sourceName p |>.text

/-- The part of `p2p_read_back` that depends on the action type. -/
def body : {t : ActionType} → PayloadFor I t → Document → Result Evidence
  | .createMrDraft, _, _ | .createPoDraft, _, _ => .ok []
  | .createPrDraft, p, doc => draft I p doc
  | .createPiDraft, p, doc => draft I p doc
  | .createPaymentEntryDraft, p, doc => payment I p doc
  | .submitPo, p, _ | .cancelPo, p, _ | .submitPr, p, _ | .cancelPr, p, _ | .submitPi, p, _
  | .cancelPi, p, _ | .submitPaymentEntry, p, _ | .cancelPaymentEntry, p, _ =>
      .ok [(Text.ofString "source_name", .str (SourcePayload.sourceName p).text)]

/-- `p2p_read_back`, for a payload of the action type. -/
def p2p {t : ActionType} (p : PayloadFor I t) (doc : Document) (allowLaterDocstatus : Bool) :
    Result Evidence := do
  let doctype := (doc.value "doctype").strOrEmpty I
  if doctype ≠ [] ∧ doctype ≠ t.targetDoctype then
    .error (mismatch "target DocType does not match action")
  else do
    let docstatus := doc.value "docstatus"
    let later := allowLaterDocstatus && t.expectedDocstatus == 0 &&
      (docstatus.eqInt 1 || docstatus.eqInt 2)
    if !docstatus.eqInt t.expectedDocstatus && !later then
      .error (mismatch "target status does not match action")
    else do
      sameText I (doc.value "company") (company I p) "company"
      let name := (doc.value "name").strOrEmpty I
      if name ≠ [] ∧ (t.isSubmit || t.isCancel) = true ∧ name ≠ sourceName I p then
        .error (mismatch "target name does not match source document")
      else do
        let fields ← body I p doc
        .ok ([(Text.ofString "doctype", Value.ofString t.targetDoctype),
          (Text.ofString "docstatus", .int t.expectedDocstatus),
          (Text.ofString "company", .str ((doc.value "company").str I))] ++ fields)

end ReadBack

section Verifiers

variable {I : Interpreter}

/-- `verify_material_request_read_back`. -/
def verifyMaterialRequestReadBack (a : Proposal I) (doc : Document) : Result Evidence :=
  match a.actionType, a.payload with
  | .createMrDraft, p => ReadBack.materialRequest I p doc
  | _, _ => .error (invalid "only CREATE_MR_DRAFT is supported")

/-- `verify_purchase_order_read_back`. -/
def verifyPurchaseOrderReadBack (a : Proposal I) (doc : Document) : Result Evidence :=
  match a.actionType, a.payload with
  | .createPoDraft, p => ReadBack.purchaseOrder I p doc
  | _, _ => .error (invalid "only CREATE_PO_DRAFT is supported")

/-- `p2p_read_back`. -/
def p2pReadBack (a : Proposal I) (doc : Document) (allowLaterDocstatus : Bool) :
    Result Evidence :=
  ReadBack.p2p I a.payload doc allowLaterDocstatus

/-- The verifier an executor calls on the document it has written. -/
def verifyReadBack (a : Proposal I) (doc : Document) : Result Evidence :=
  match a.actionType with
  | .createMrDraft => verifyMaterialRequestReadBack a doc
  | .createPoDraft => verifyPurchaseOrderReadBack a doc
  | _ => p2pReadBack a doc false

end Verifiers

end Governance
