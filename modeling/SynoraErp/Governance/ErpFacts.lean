import Mathlib.Algebra.Order.Ring.Rat
import Mathlib.Data.List.Dedup
import SynoraErp.Governance.Orchestration

/-!
# ERP facts of a goal

The tables that the planning of a run reads, the target a run is confirmed for, and the
facts about its order and its invoices.
-/

namespace Governance

open Python

namespace Erp

/-- A numeric column as `Decimal(str(value or 0))` reads it, exactly; `none` where that
raises. -/
abbrev Number := Option ℚ

structure PurchaseOrder where
  name : Text
  company : Text
  docstatus : ℕ
  perReceived : Text
  perBilled : Text
  status : Text

structure PurchaseOrderItem where
  name : Text
  parent : Text
  itemCode : Text
  uom : Text
  warehouse : Text
  qty : Number
  receivedQty : Number
  billedAmt : Number
  rate : Number

structure PurchaseReceipt where
  name : Text
  company : Text
  docstatus : ℕ
  postingDate : Text

/-- The quantity and the rate are decimal columns, in which an absent value reads as zero. -/
structure PurchaseReceiptItem where
  name : Text
  parent : Text
  purchaseOrder : Text
  purchaseOrderItem : Text
  itemCode : Text
  uom : Text
  warehouse : Text
  qty : ℚ
  rate : ℚ

structure PurchaseInvoice where
  name : Text
  company : Text
  supplier : Text
  currency : Text
  creditTo : Text
  status : Text
  docstatus : ℕ
  grandTotal : Number
  outstandingAmount : Number

structure PurchaseInvoiceItem where
  name : Text
  parent : Text
  purchaseOrder : Text
  poDetail : Text
  purchaseReceipt : Text
  prDetail : Text
  qty : ℚ

structure PaymentEntry where
  name : Text
  docstatus : ℕ

structure Company where
  name : Text
  defaultBankAccount : Text
  defaultCashAccount : Text

/-- The tables, each in the order in which a read returns its rows, and what the session
may read. Names are primary keys. -/
structure Tables where
  orders : List PurchaseOrder
  orderItems : List PurchaseOrderItem
  receipts : List PurchaseReceipt
  receiptItems : List PurchaseReceiptItem
  invoices : List PurchaseInvoice
  invoiceItems : List PurchaseInvoiceItem
  paymentEntries : List PaymentEntry
  companies : List Company
  orderItems_nodup : (orderItems.map PurchaseOrderItem.name).Nodup
  receiptItems_nodup : (receiptItems.map PurchaseReceiptItem.name).Nodup
  invoices_nodup : (invoices.map PurchaseInvoice.name).Nodup
  /-- `frappe.has_permission("Purchase Order", "read", doc=name)`. -/
  readable : Text → Bool
  /-- The reads of the linked invoice rows do not raise. -/
  linksAvailable : Bool
  /-- `today()`. -/
  today : Text

end Erp

open Erp

/-! ## The confirmed goal -/

/-- A row of `source_rows`. -/
structure TargetRow where
  sourceRow : Text
  itemCode : Text
  targetQty : ℚ
  targetQty_pos : 0 < targetQty

/-- A goal that `normalize_p2p_goal` returns. -/
structure P2pGoal where
  sourceName : Text
  sourceRows : List TargetRow
  sourceRows_ne_nil : sourceRows ≠ []
  sourceRows_le : sourceRows.length ≤ 100
  sourceRows_nodup : (sourceRows.map TargetRow.sourceRow).Nodup

/-- What `_stored_p2p_goal` returns. -/
structure GoalRecord where
  state : GoalState
  version : ℕ
  digest : Option Text
  goal : Option P2pGoal

/-- The fields of a run that the planning reads. -/
structure P2pRun where
  name : Text
  companyScope : Text
  stateVersion : ℕ

def P2pGoal.rowNames (goal : P2pGoal) : List Text := goal.sourceRows.map TargetRow.sourceRow

/-! ## The order -/

/-- A row of `facts["rows"]`. -/
structure RowFact where
  sourceRow : Text
  itemCode : Text
  targetQty : ℚ
  orderedQty : ℚ
  receivedQty : ℚ
  billedAmount : ℚ
  billedQty : ℚ
  targetAmount : ℚ
  uom : Text
  warehouse : Text
  rate : ℚ

/-- `facts["source"]`. -/
structure SourceFact where
  name : Text
  company : Text
  docstatus : ℕ
  perReceived : Text
  perBilled : Text
  status : Text

/-- A reason about a source row. -/
def rowReason (target : TargetRow) (what : String) : Text :=
  Text.ofString "source row " ++ target.sourceRow ++ Text.ofString what

/-- The rows of the order that the goal names. -/
def readOrderItems (t : Tables) (goal : P2pGoal) : List Erp.PurchaseOrderItem :=
  (t.orderItems.filter fun row =>
    row.parent = goal.sourceName ∧ row.name ∈ goal.rowNames).take 100

/-- The facts of a target row, and the reasons against it. -/
def rowFact (rows : List Erp.PurchaseOrderItem) (target : TargetRow) :
    Option RowFact × List Text :=
  match rows.find? fun row => row.name = target.sourceRow with
  | none => (none, [rowReason target " is unavailable"])
  | some row =>
      if row.itemCode ≠ target.itemCode then (none, [rowReason target " item changed"])
      else
        match row.qty, row.receivedQty, row.billedAmt, row.rate with
        | some ordered, some received, some billed, some rate =>
            (some
              { sourceRow := row.name
                itemCode := row.itemCode
                targetQty := target.targetQty
                orderedQty := ordered
                receivedQty := received
                billedAmount := billed
                billedQty := if 0 < rate then billed / rate else 0
                targetAmount := target.targetQty * rate
                uom := row.uom
                warehouse := row.warehouse
                rate := rate },
              if ordered < target.targetQty then
                [rowReason target " target exceeds ordered quantity"]
              else [])
        | _, _, _, _ => (none, [rowReason target " has non-numeric ERP facts"])

/-- `_source_goal_facts`. -/
def sourceGoalFacts (t : Tables) (run : P2pRun) (goal : P2pGoal) :
    Option (SourceFact × List RowFact) × List Text :=
  if t.readable goal.sourceName = false then
    (none, ["current Purchase Order read permission is unavailable"])
  else
    match t.orders.find? fun order => order.name = goal.sourceName with
    | none => (none, ["source Purchase Order is unavailable"])
    | some source =>
        if source.company ≠ run.companyScope then
          (none, ["source Purchase Order is outside the Run company scope"])
        else
          let found := goal.sourceRows.map (rowFact (readOrderItems t goal))
          (some
            ({ name := goal.sourceName
               company := source.company
               docstatus := source.docstatus
               perReceived := source.perReceived
               perBilled := source.perBilled
               status := source.status },
              found.filterMap Prod.fst),
            found.flatMap Prod.snd)

/-! ## The linked invoices -/

/-- A row of `invoices`. -/
structure InvoiceFact where
  name : Text
  status : Text
  grandTotal : ℚ
  outstandingAmount : ℚ
  currency : Text

/-- The receipt rows of the target rows, at most a page of them. -/
def readGoalReceiptItems (t : Tables) (goal : P2pGoal) : List PurchaseReceiptItem :=
  (t.receiptItems.filter fun row =>
    row.purchaseOrder = goal.sourceName ∧ row.purchaseOrderItem ∈ goal.rowNames).take 200

/-- The invoice rows of the order, at most a page of them. -/
def readOrderLinks (t : Tables) (goal : P2pGoal) : List PurchaseInvoiceItem :=
  (t.invoiceItems.filter fun row => row.purchaseOrder = goal.sourceName).take 200

/-- The invoice rows of the receipts, at most a page of them. -/
def readReceiptLinks (t : Tables) (goal : P2pGoal) : List PurchaseInvoiceItem :=
  (t.invoiceItems.filter fun row =>
    row.purchaseReceipt ≠ [] ∧
      row.purchaseReceipt ∈ (readGoalReceiptItems t goal).map PurchaseReceiptItem.parent).take 200

/-- The invoice rows that are linked to the target rows, directly or through a receipt. -/
def readLinks (t : Tables) (goal : P2pGoal) : List PurchaseInvoiceItem :=
  ((readOrderLinks t goal).filter fun row => row.poDetail ∈ goal.rowNames) ++
    ((readReceiptLinks t goal).filter fun row =>
      row.prDetail ≠ [] ∧ row.prDetail ∈ (readGoalReceiptItems t goal).map PurchaseReceiptItem.name)

/-- `invoice_names`. -/
def linkedInvoiceNames (t : Tables) (goal : P2pGoal) : List Text :=
  SortedByKey.sortBy id
    (((readLinks t goal).map PurchaseInvoiceItem.parent).filter fun name => name ≠ []).dedup

/-- A reason about a linked invoice. -/
def invoiceReason (name : Text) (what : String) : Text :=
  Text.ofString "linked Purchase Invoice " ++ name ++ Text.ofString what

/-- The invoice of a name. -/
def Erp.Tables.invoice? (t : Tables) (name : Text) : Option PurchaseInvoice :=
  t.invoices.find? fun invoice => invoice.name = name

/-- The facts of a linked invoice, and the reasons against it. -/
def invoiceFact (t : Tables) (ignoredDraftNames : List Text) (name : Text) :
    Option InvoiceFact × List Text :=
  match (t.invoice? name).filter fun invoice => invoice.docstatus = 1 with
  | none =>
      (none, if name ∈ ignoredDraftNames then [] else [invoiceReason name " is not submitted"])
  | some invoice =>
      match invoice.grandTotal, invoice.outstandingAmount with
      | some grandTotal, some outstanding =>
          (some
            { name := name
              status := invoice.status
              grandTotal := grandTotal
              outstandingAmount := outstanding
              currency := invoice.currency },
            if outstanding < 0 ∨ grandTotal < outstanding then
              [invoiceReason name " outstanding is invalid"]
            else [])
      | _, _ => (none, [invoiceReason name " has non-numeric accounting facts"])

/-- `_linked_invoice_facts`. -/
def linkedInvoiceFacts (t : Tables) (goal : P2pGoal) (ignoredDraftNames : List Text) :
    List InvoiceFact × List Text :=
  if t.linksAvailable = false then ([], ["linked Purchase Invoice facts are unavailable"])
  else
    let found := (linkedInvoiceNames t goal).map (invoiceFact t ignoredDraftNames)
    (found.filterMap Prod.fst, found.flatMap Prod.snd)

/-! ## Rules for the facts -/

/-- A row without a reason against it has facts. -/
theorem rowFact_of_no_reasons {rows : List Erp.PurchaseOrderItem} {target : TargetRow}
    (h : (rowFact rows target).2 = []) : ∃ fact, (rowFact rows target).1 = some fact := by
  unfold rowFact at h ⊢
  split at h
  · cases h
  · split_ifs at h with hitem
    · split at h
      · exact ⟨_, by rw [if_neg hitem]⟩
      · cases h

/-- What the facts of a row are read from. -/
theorem rowFact_eq_some {rows : List Erp.PurchaseOrderItem} {target : TargetRow} {fact : RowFact}
    (h : (rowFact rows target).1 = some fact) :
    ∃ row, rows.find? (fun row => row.name = target.sourceRow) = some row ∧
      fact.sourceRow = target.sourceRow ∧ fact.targetQty = target.targetQty ∧
      row.receivedQty = some fact.receivedQty ∧ row.billedAmt = some fact.billedAmount ∧
      row.rate = some fact.rate ∧ fact.targetAmount = target.targetQty * fact.rate := by
  unfold rowFact at h
  split at h
  · cases h
  · rename_i row hfind
    have hname : row.name = target.sourceRow := by simpa using List.find?_some hfind
    split_ifs at h
    · split at h
      · rename_i hreceived hbilled hrate
        obtain rfl := Option.some.inj h
        exact ⟨row, hfind, hname, rfl, hreceived, hbilled, hrate, rfl⟩
      · cases h

theorem invoiceFact_eq_some {t : Tables} {ignored : List Text} {name : Text} {fact : InvoiceFact}
    (h : (invoiceFact t ignored name).1 = some fact) :
    ∃ invoice, t.invoice? name = some invoice ∧ invoice.docstatus = 1 ∧
      invoice.outstandingAmount = some fact.outstandingAmount := by
  unfold invoiceFact at h
  split at h
  · cases h
  · rename_i invoice hfind
    obtain ⟨hfind, hsubmitted⟩ := Option.filter_eq_some_iff.mp hfind
    split at h
    · rename_i houtstanding
      obtain rfl := Option.some.inj h
      exact ⟨invoice, hfind, by simpa using hsubmitted, houtstanding⟩
    · cases h

theorem filter_submitted_eq_some {t : Tables} {name : Text} {invoice : PurchaseInvoice}
    (hfind : t.invoice? name = some invoice) (hsubmitted : invoice.docstatus = 1) :
    (t.invoice? name).filter (fun invoice => invoice.docstatus = 1) = some invoice :=
  Option.filter_eq_some_iff.mpr ⟨hfind, by simpa using hsubmitted⟩

/-- A submitted invoice without a reason against it has facts, and nothing negative is
outstanding on it. -/
theorem invoiceFact_of_no_reasons {t : Tables} {ignored : List Text} {name : Text}
    {invoice : PurchaseInvoice} (hfind : t.invoice? name = some invoice)
    (hsubmitted : invoice.docstatus = 1) (h : (invoiceFact t ignored name).2 = []) :
    ∃ fact, (invoiceFact t ignored name).1 = some fact ∧
      invoice.outstandingAmount = some fact.outstandingAmount ∧ 0 ≤ fact.outstandingAmount := by
  unfold invoiceFact at h ⊢
  rw [filter_submitted_eq_some hfind hsubmitted] at h ⊢
  simp only at h ⊢
  split at h
  · rename_i grandTotal outstanding _ houtstanding
    simp only at h
    split_ifs at h with hinvalid
    exact ⟨_, rfl, houtstanding, le_of_not_gt fun hneg => hinvalid (Or.inl hneg)⟩
  · cases h

end Governance
