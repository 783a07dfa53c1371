import SynoraErp.Governance.GoalCompletion

/-!
# The next candidate of a run

The one intent that an investigation of a run returns: a pending draft to submit, the
order, what is still to be received, invoiced or paid, or nothing.
-/

namespace Governance

open Python Erp

variable {I : Interpreter}

/-- An item of an intent. -/
structure CandidateItem where
  sourceRow : Text
  itemCode : Text
  qty : ℚ
  uom : Text
  warehouse : Text
  rate : Option ℚ
  deriving DecidableEq

/-- The payment of an intent. -/
structure CandidatePayment where
  partyType : Text
  party : Text
  paymentType : Text
  postingDate : Text
  paidFrom : Text
  paidTo : Text
  paidAmount : ℚ
  receivedAmount : ℚ
  sourceCurrency : Text
  targetCurrency : Text
  referenceName : Text
  allocatedAmount : ℚ
  deriving DecidableEq

/-- `P2PCandidateIntent`. -/
structure CandidateIntent where
  runId : Text
  goalVersion : ℕ
  runVersion : ℕ
  actionType : ActionType
  sourceDoctype : Text
  sourceName : Text
  items : List CandidateItem
  payment : Option CandidatePayment
  reason : Text
  deriving DecidableEq

/-- `_candidate_intent`. -/
def candidateIntent (run : P2pRun) (record : GoalRecord) (actionType : ActionType)
    (sourceDoctype sourceName : Text) (items : List CandidateItem)
    (payment : Option CandidatePayment) (reason : Text) : CandidateIntent where
  runId := run.name
  goalVersion := record.version
  runVersion := run.stateVersion
  actionType := actionType
  sourceDoctype := sourceDoctype
  sourceName := sourceName
  items := items
  payment := payment
  reason := reason

/-- An intent, or the reasons to wait. -/
abbrev Planned := Option CandidateIntent × List Text

/-! ## Pending drafts -/

/-- The documents a run drafts before it submits them. -/
inductive DraftStage where
  | receipt
  | invoice
  | payment
  deriving DecidableEq

namespace DraftStage

def draftActionType : DraftStage → ActionType
  | receipt => .createPrDraft
  | invoice => .createPiDraft
  | payment => .createPaymentEntryDraft

def submitActionType : DraftStage → ActionType
  | receipt => .submitPr
  | invoice => .submitPi
  | payment => .submitPaymentEntry

def targetDoctype : DraftStage → String
  | receipt => "Purchase Receipt"
  | invoice => "Purchase Invoice"
  | payment => "Payment Entry"

/-- The `docstatus` of a document of the stage. -/
def docstatus? (t : Tables) (name : Text) : DraftStage → Option ℕ
  | receipt => (t.receipts.find? fun doc => doc.name = name).map PurchaseReceipt.docstatus
  | invoice => (t.invoice? name).map PurchaseInvoice.docstatus
  | payment => (t.paymentEntries.find? fun doc => doc.name = name).map PaymentEntry.docstatus

end DraftStage

/-- `str(receipt.target_name or "")`. -/
def Entry.targetName (e : Entry I) : Option Text :=
  (e.receipt.bind fun r => recordedRef r.target).map Prod.snd

/-- The draft of an entry that is still to be submitted. -/
def pendingDraft (t : Tables) (entries : List (Entry I)) (stage : DraftStage) (e : Entry I) :
    Option Text :=
  if e.actionType = stage.draftActionType ∧ e.receiptIn ReceiptState.isSuccess = true then
    e.targetName.filter fun name =>
      decide (stage.docstatus? t name = some 0) &&
        !entries.any fun other => decide (other.actionType = stage.submitActionType) &&
          decide (payloadText (payloadDict other.action.toProposal) "source_name" = name) &&
          other.receiptIn ReceiptState.isSuccess
  else none

/-- `_pending_draft_intent`. -/
def pendingDraftIntent (t : Tables) (entries : List (Entry I)) (run : P2pRun)
    (record : GoalRecord) (stage : DraftStage) : Option CandidateIntent :=
  (entries.findSome? (pendingDraft t entries stage)).map fun name =>
    candidateIntent run record stage.submitActionType stage.targetDoctype name [] none
      (Text.ofString "submit the existing " ++ Text.ofString stage.targetDoctype ++
        Text.ofString " draft before continuing")

/-- The stages, in the order in which their drafts are looked for. -/
def draftStages : List DraftStage := [.receipt, .invoice, .payment]

/-- The first pending draft of the run. -/
def pendingIntent (t : Tables) (entries : List (Entry I)) (run : P2pRun) (record : GoalRecord) :
    Option CandidateIntent :=
  draftStages.findSome? (pendingDraftIntent t entries run record)

/-! ## Receiving -/

/-- `receipt_items`: what the target rows still lack. -/
def receiptItems (rows : List RowFact) : List CandidateItem :=
  (rows.filter fun row => row.receivedQty < row.targetQty).map fun row =>
    { sourceRow := row.sourceRow
      itemCode := row.itemCode
      qty := max (row.targetQty - row.receivedQty) 0
      uom := row.uom
      warehouse := row.warehouse
      rate := none }

/-! ## Invoicing -/

/-- The target quantity of a source row. -/
def targetQtyOf (progress : Progress) (poRow : Text) : ℚ :=
  ((progress.rows.find? fun row => row.sourceRow = poRow).map RowFact.targetQty).getD 0

/-- The receipt rows of the target rows, at most a page of them. -/
def readReceiptItems (t : Tables) (progress : Progress) : List PurchaseReceiptItem :=
  (t.receiptItems.filter fun row =>
    row.purchaseOrderItem ∈ progress.rows.map RowFact.sourceRow).take 200

/-- `submitted_names`: the submitted receipts of the company, at most a page of them. -/
def submittedReceiptNames (t : Tables) (run : P2pRun) (rows : List PurchaseReceiptItem) :
    List Text :=
  ((SortedByKey.sortBy (fun receipt : PurchaseReceipt =>
      toLex (receipt.postingDate, receipt.name))
    (t.receipts.filter fun receipt =>
      receipt.name ∈ rows.map PurchaseReceiptItem.parent ∧ receipt.name ≠ [] ∧
        receipt.docstatus = 1 ∧ receipt.company = run.companyScope)).take 200).map
    PurchaseReceipt.name

/-- `pr_rows`: the receipt rows of submitted receipts. -/
def submittedReceiptItems (t : Tables) (run : P2pRun) (progress : Progress) :
    List PurchaseReceiptItem :=
  (readReceiptItems t progress).filter fun row =>
    row.parent ∈ submittedReceiptNames t run (readReceiptItems t progress)

/-- `invoice_rows`: the invoice rows of the receipt rows, at most a page of them. -/
def readInvoiceItems (t : Tables) (rows : List PurchaseReceiptItem) : List PurchaseInvoiceItem :=
  (t.invoiceItems.filter fun item => item.prDetail ∈ rows.map PurchaseReceiptItem.name).take 500

/-- `submitted_invoice_names`, at most a page of them. -/
def submittedInvoiceNames (t : Tables) (items : List PurchaseInvoiceItem) : List Text :=
  ((t.invoices.filter fun invoice =>
    invoice.name ∈ items.map PurchaseInvoiceItem.parent ∧ invoice.name ≠ [] ∧
      invoice.docstatus = 1).take 500).map PurchaseInvoice.name

/-- `str(row.pr_detail)` of a receipt row. The receipt rows are read without the field, so
that it is `None` in each of them. -/
def prDetailKey (_ : PurchaseReceiptItem) : Text := "None"

/-- `billed_by_pr`: what submitted invoices bill, under the `pr_detail` of the receipt rows. -/
def billedByPr (t : Tables) (rows : List PurchaseReceiptItem) (key : Text) : Option ℚ :=
  if key ∈ rows.map prDetailKey then
    some (((readInvoiceItems t rows).filter fun item => item.prDetail = key ∧
      item.parent ∈ submittedInvoiceNames t (readInvoiceItems t rows)).map
      PurchaseInvoiceItem.qty).sum
  else none

/-- `billed_by_pr.get(str(row.name), Decimal("0"))`. -/
def billedByPrOf (t : Tables) (rows : List PurchaseReceiptItem) (row : PurchaseReceiptItem) : ℚ :=
  (billedByPr t rows row.name).getD 0

/-- `billed_by_po`. -/
def billedByPo (t : Tables) (rows : List PurchaseReceiptItem) (poRow : Text) : ℚ :=
  ((rows.filter fun row => row.purchaseOrderItem = poRow).map (billedByPrOf t rows)).sum

/-- `remaining_by_po`; a receipt row of no target row has nothing remaining. -/
def remainingByPo (t : Tables) (progress : Progress) (rows : List PurchaseReceiptItem)
    (poRow : Text) : ℚ :=
  if poRow ∈ progress.rows.map RowFact.sourceRow then
    max (targetQtyOf progress poRow - billedByPo t rows poRow) 0
  else 0

/-- The quantity of a receipt row that is open for an invoice. -/
def openQty (t : Tables) (rows : List PurchaseReceiptItem) (row : PurchaseReceiptItem) : ℚ :=
  row.qty - billedByPrOf t rows row

/-- The rows of a receipt, by name. -/
def parentRows (rows : List PurchaseReceiptItem) (parent : Text) : List PurchaseReceiptItem :=
  SortedByKey.sortBy PurchaseReceiptItem.name (rows.filter fun row => row.parent = parent)

/-- `candidate_items`, before they are written out: the rows of a receipt, each with the
quantity to invoice. -/
def candidateRows (t : Tables) (progress : Progress) (rows : List PurchaseReceiptItem)
    (parent : Text) : List (PurchaseReceiptItem × ℚ) :=
  Capped.serve PurchaseReceiptItem.purchaseOrderItem (openQty t rows)
    (remainingByPo t progress rows) (parentRows rows parent)

/-- An item to invoice. -/
def invoiceItem (given : PurchaseReceiptItem × ℚ) : CandidateItem where
  sourceRow := given.1.name
  itemCode := given.1.itemCode
  qty := given.2
  uom := given.1.uom
  warehouse := given.1.warehouse
  rate := some given.1.rate

/-- The receipts of the rows, by name. -/
def parentNames (rows : List PurchaseReceiptItem) : List Text :=
  SortedByKey.sortBy id (rows.map PurchaseReceiptItem.parent).dedup

/-- The first receipt with something to invoice. -/
def invoiceableParent (t : Tables) (progress : Progress) (rows : List PurchaseReceiptItem) :
    Option Text :=
  (parentNames rows).find? fun parent => !(candidateRows t progress rows parent).isEmpty

/-- `_invoiceable_receipt_intent`. -/
def invoiceableReceiptIntent (t : Tables) (run : P2pRun) (record : GoalRecord)
    (progress : Progress) : Planned :=
  if progress.rows = [] then
    (none, ["target Purchase Order rows are unavailable for invoice planning"])
  else if readReceiptItems t progress = [] then
    (none, ["no submitted Purchase Receipt is available for the remaining target"])
  else
    let rows := submittedReceiptItems t run progress
    if rows = [] then (none, ["target Purchase Receipt facts are not submitted"])
    else
      match invoiceableParent t progress rows with
      | some parent =>
          (some (candidateIntent run record .createPiDraft "Purchase Receipt" parent
            ((candidateRows t progress rows parent).map invoiceItem) none
            "invoice the submitted receipt quantity still missing from the target"), [])
      | none => (none, ["submitted receipts have no invoiceable quantity for the target"])

/-! ## Paying -/

/-- The payment of what is outstanding on an invoice. -/
def candidatePayment (t : Tables) (paidFrom : Text) (invoice : PurchaseInvoice) (name : Text)
    (outstanding : ℚ) : CandidatePayment where
  partyType := "Supplier"
  party := invoice.supplier
  paymentType := "Pay"
  postingDate := t.today
  paidFrom := paidFrom
  paidTo := invoice.creditTo
  paidAmount := outstanding
  receivedAmount := outstanding
  sourceCurrency := invoice.currency
  targetCurrency := invoice.currency
  referenceName := name
  allocatedAmount := outstanding

/-- The loop of `_payment_intent`; `none` where a number raises. -/
def paymentOfInvoices (t : Tables) (run : P2pRun) (record : GoalRecord) (paidFrom : Text) :
    List Text → Option Planned
  | [] => some (none, ["target invoices have no current outstanding amount to settle"])
  | name :: names =>
      match (t.invoice? name).filter fun invoice => invoice.docstatus = 1 with
      | none => paymentOfInvoices t run record paidFrom names
      | some invoice =>
          match invoice.outstandingAmount with
          | none => none
          | some outstanding =>
              if outstanding ≤ 0 then paymentOfInvoices t run record paidFrom names
              else if invoice.creditTo = [] then
                some (none, [Text.ofString "Purchase Invoice " ++ name ++
                  Text.ofString " has no payable account"])
              else
                some (some (candidateIntent run record .createPaymentEntryDraft
                  "Purchase Invoice" name []
                  (some (candidatePayment t paidFrom invoice name outstanding))
                  "settle the current outstanding amount on the target invoice"), [])

/-- `default_bank_account or default_cash_account` of the company. -/
def defaultAccount (t : Tables) (run : P2pRun) : Text :=
  match t.companies.find? fun company => company.name = run.companyScope with
  | none => []
  | some company =>
      if company.defaultBankAccount ≠ [] then company.defaultBankAccount
      else company.defaultCashAccount

/-- `_payment_intent`. -/
def paymentIntent (t : Tables) (run : P2pRun) (record : GoalRecord) (progress : Progress) :
    Option Planned :=
  if defaultAccount t run = [] then
    some (none, ["company has no default bank or cash account for settlement"])
  else
    paymentOfInvoices t run record (defaultAccount t run)
      (progress.invoices.map InvoiceFact.name)

/-! ## The next intent -/

/-- `source.get("name") or goal["source_name"]`. -/
def sourceNameOf (progress : Progress) (goal : P2pGoal) : Text :=
  match progress.source with
  | some source => if source.name ≠ [] then source.name else goal.sourceName
  | none => goal.sourceName

/-- What is planned once there is no draft to submit. -/
def plannedFacts (t : Tables) (run : P2pRun) (record : GoalRecord) (progress : Progress)
    (goal : P2pGoal) : Option Planned :=
  if (progress.source.map SourceFact.docstatus).getD 0 ≠ 1 then
    some (some (candidateIntent run record .submitPo "Purchase Order" (sourceNameOf progress goal)
      [] none "submit the confirmed source Purchase Order before downstream work"), [])
  else if receiptItems progress.rows ≠ [] then
    some (some (candidateIntent run record .createPrDraft "Purchase Order"
      (sourceNameOf progress goal) (receiptItems progress.rows) none
      "receive the remaining quantity in the confirmed target rows"), [])
  else if progress.billedAmount < progress.targetAmount then
    some (invoiceableReceiptIntent t run record progress)
  else if 0 < progress.outstandingAmount then paymentIntent t run record progress
  else if progress.complete = true then some (none, [])
  else some (none, ["current ERP facts do not yet prove the confirmed settlement target"])

/-- `_next_candidate_intent`; `none` where a number raises. -/
def nextCandidateIntent (t : Tables) (run : P2pRun) (record : GoalRecord) (progress : Progress)
    (entries : List (Entry I)) : Option Planned :=
  match record.state, record.goal with
  | .confirmed, some goal =>
      if progress.goalState ≠ .confirmed then some (none, progress.blockedReasons)
      else
        match pendingIntent t entries run record with
        | some pending => some (some pending, [])
        | none => plannedFacts t run record progress goal
  | _, _ => some (none, ["P2P business goal requires initiator confirmation"])

end Governance
