import SynoraErp.Governance.NextCandidate
import SynoraErp.Governance.PlanProjection

/-!
# Row-exact completion

Completion of a goal in terms of the tables themselves, and what is planned for a goal
that is complete.
-/

namespace Governance

open Python Erp

variable {I : Interpreter}

/-! ## Linked invoice rows -/

/-- A receipt row of a target row. -/
def GoalReceiptItem (goal : P2pGoal) (row : PurchaseReceiptItem) : Prop :=
  row.purchaseOrder = goal.sourceName ∧ row.purchaseOrderItem ∈ goal.rowNames

/-- An invoice row is linked to a target row, directly or through a receipt row of it. -/
def Linked (t : Tables) (goal : P2pGoal) (item : PurchaseInvoiceItem) : Prop :=
  item.parent ≠ [] ∧
    ((item.purchaseOrder = goal.sourceName ∧ item.poDetail ∈ goal.rowNames) ∨
      (item.purchaseReceipt ≠ [] ∧ item.prDetail ≠ [] ∧
        (∃ row ∈ t.receiptItems, GoalReceiptItem goal row ∧ row.parent = item.purchaseReceipt) ∧
        ∃ row ∈ t.receiptItems, GoalReceiptItem goal row ∧ row.name = item.prDetail))

/-- The reads of the linked rows return everything there is. -/
structure FitsPages (t : Tables) (goal : P2pGoal) : Prop where
  receiptItems : (t.receiptItems.filter fun row =>
    row.purchaseOrder = goal.sourceName ∧ row.purchaseOrderItem ∈ goal.rowNames).length ≤ 200
  orderLinks : (t.invoiceItems.filter fun item =>
    item.purchaseOrder = goal.sourceName).length ≤ 200
  receiptLinks : (t.invoiceItems.filter fun item =>
    item.purchaseReceipt ≠ [] ∧ item.purchaseReceipt ∈
      (readGoalReceiptItems t goal).map PurchaseReceiptItem.parent).length ≤ 200

theorem mem_linkedInvoiceNames {t : Tables} {goal : P2pGoal} {name : Text} :
    name ∈ linkedInvoiceNames t goal ↔
      ∃ item ∈ readLinks t goal, item.parent = name ∧ name ≠ [] := by
  rw [linkedInvoiceNames, SortedByKey.mem_sortBy, List.mem_dedup, List.mem_filter, List.mem_map]
  constructor
  · intro ⟨⟨item, hitem, hname⟩, hne⟩
    exact ⟨item, hitem, hname, of_decide_eq_true hne⟩
  · intro ⟨item, hitem, hname, hne⟩
    exact ⟨⟨item, hitem, hname⟩, decide_eq_true hne⟩

/-- What is read as linked is linked. -/
theorem linked_of_mem_readLinks {t : Tables} {goal : P2pGoal} {item : PurchaseInvoiceItem}
    (h : item ∈ readLinks t goal) (hparent : item.parent ≠ []) :
    item ∈ t.invoiceItems ∧ Linked t goal item := by
  have hread : ∀ row ∈ readGoalReceiptItems t goal, row ∈ t.receiptItems ∧
      GoalReceiptItem goal row := by
    intro row hrow
    obtain ⟨hmem, hgoal⟩ := List.mem_filter.mp (List.mem_of_mem_take hrow)
    have hgoal := of_decide_eq_true hgoal
    exact ⟨hmem, hgoal⟩
  rcases List.mem_append.mp h with h | h
  · obtain ⟨hitem, hdetail⟩ := List.mem_filter.mp h
    obtain ⟨hmem, hsource⟩ := List.mem_filter.mp (List.mem_of_mem_take hitem)
    exact ⟨hmem, hparent, Or.inl ⟨of_decide_eq_true hsource, of_decide_eq_true hdetail⟩⟩
  · obtain ⟨hitem, hdetail⟩ := List.mem_filter.mp h
    obtain ⟨hmem, hreceipt⟩ := List.mem_filter.mp (List.mem_of_mem_take hitem)
    obtain ⟨hne, hparents⟩ := of_decide_eq_true hreceipt
    obtain ⟨row, hrow, hrowparent⟩ := List.mem_map.mp hparents
    obtain ⟨hdetailed, hdetails⟩ := of_decide_eq_true hdetail
    obtain ⟨row', hrow', hrowname⟩ := List.mem_map.mp hdetails
    exact ⟨hmem, hparent, Or.inr ⟨hne, hdetailed,
      ⟨row, (hread row hrow).1, (hread row hrow).2, hrowparent⟩,
      ⟨row', (hread row' hrow').1, (hread row' hrow').2, hrowname⟩⟩⟩

/-- Where the pages suffice, what is linked is read. -/
theorem FitsPages.mem_readLinks {t : Tables} {goal : P2pGoal} (hfits : FitsPages t goal)
    {item : PurchaseInvoiceItem} (hitem : item ∈ t.invoiceItems) (h : Linked t goal item) :
    item ∈ readLinks t goal := by
  have hread : ∀ row ∈ t.receiptItems, GoalReceiptItem goal row →
      row ∈ readGoalReceiptItems t goal := by
    intro row hrow hgoal
    rw [readGoalReceiptItems, List.take_of_length_le hfits.receiptItems]
    exact List.mem_filter.mpr ⟨hrow, decide_eq_true hgoal⟩
  obtain ⟨-, ⟨hsource, hdetail⟩ |
    ⟨hne, hdetailed, ⟨row, hrow, hgoal, hparent⟩, row', hrow', hgoal', hname⟩⟩ := h
  · apply List.mem_append_left
    rw [readOrderLinks, List.take_of_length_le hfits.orderLinks]
    exact List.mem_filter.mpr
      ⟨List.mem_filter.mpr ⟨hitem, decide_eq_true hsource⟩, decide_eq_true hdetail⟩
  · apply List.mem_append_right
    rw [readReceiptLinks, List.take_of_length_le hfits.receiptLinks]
    have hparents : item.purchaseReceipt ∈
        (readGoalReceiptItems t goal).map PurchaseReceiptItem.parent :=
      List.mem_map.mpr ⟨row, hread row hrow hgoal, hparent⟩
    have hdetails : item.prDetail ∈
        (readGoalReceiptItems t goal).map PurchaseReceiptItem.name :=
      List.mem_map.mpr ⟨row', hread row' hrow' hgoal', hname⟩
    exact List.mem_filter.mpr
      ⟨List.mem_filter.mpr ⟨hitem, decide_eq_true ⟨hne, hparents⟩⟩,
        decide_eq_true ⟨hdetailed, hdetails⟩⟩

/-- Where the pages suffice, every linked submitted invoice is looked at. -/
theorem FitsPages.settled_iff {t : Tables} {goal : P2pGoal} (hfits : FitsPages t goal) :
    (∀ name ∈ linkedInvoiceNames t goal, Settled t name) ↔
      ∀ item ∈ t.invoiceItems, Linked t goal item → Settled t item.parent := by
  constructor
  · intro h item hitem hlinked
    exact h _ (mem_linkedInvoiceNames.mpr
      ⟨item, hfits.mem_readLinks hitem hlinked, rfl, hlinked.1⟩)
  · intro h name hname
    obtain ⟨item, hitem, rfl, hne⟩ := mem_linkedInvoiceNames.mp hname
    obtain ⟨hmem, hlinked⟩ := linked_of_mem_readLinks hitem hne
    exact h item hmem hlinked

/-! ## Completion as far as the pages show -/

/-- The invoice of a name is submitted, and nothing is outstanding on it. -/
def PaidInvoice (t : Tables) (name : Text) : Prop :=
  ∃ invoice total, t.invoice? name = some invoice ∧ invoice.docstatus = 1 ∧
    invoice.grandTotal = some total ∧ 0 ≤ total ∧ invoice.outstandingAmount = some 0

/-- No invoice of the name is submitted, and an action of the run drafted it. -/
def GovernedDraft (t : Tables) (entries : List (Entry I)) (name : Text) : Prop :=
  (∀ invoice, t.invoice? name = some invoice → invoice.docstatus ≠ 1) ∧
    name ∈ governedDraftNames entries

/-- The target rows are received and billed in full, and every invoice whose rows are on
the pages of the reads is paid. -/
structure CompleteAsRead (t : Tables) (run : P2pRun) (entries : List (Entry I))
    (goal : P2pGoal) : Prop where
  readable : t.readable goal.sourceName = true
  order : ∃ order, t.orders.find? (fun order => order.name = goal.sourceName) = some order ∧
    order.company = run.companyScope
  rows : ∀ target ∈ goal.sourceRows, ∃ row, RowComplete t goal target row ∧
    row.itemCode = target.itemCode ∧ ∃ ordered, row.qty = some ordered ∧
      target.targetQty ≤ ordered
  linksAvailable : t.linksAvailable = true
  invoices : ∀ name ∈ linkedInvoiceNames t goal,
    PaidInvoice t name ∨ GovernedDraft t entries name
  paid : ∃ name ∈ linkedInvoiceNames t goal, PaidInvoice t name

theorem rowFact_reasons_eq_nil {rows : List Erp.PurchaseOrderItem} {target : TargetRow} :
    (rowFact rows target).2 = [] ↔
      ∃ row, rows.find? (fun row => row.name = target.sourceRow) = some row ∧
        row.itemCode = target.itemCode ∧ ∃ ordered received billed rate,
          row.qty = some ordered ∧ row.receivedQty = some received ∧
          row.billedAmt = some billed ∧ row.rate = some rate ∧ target.targetQty ≤ ordered := by
  unfold rowFact
  constructor
  · intro h
    split at h
    · cases h
    · rename_i row hfind
      split_ifs at h with hitem
      split at h
      · rename_i ordered received billed rate hqty hreceived hbilled hrate
        refine ⟨row, hfind, not_not.mp hitem, ordered, received, billed, rate, hqty, hreceived,
          hbilled, hrate, ?_⟩
        by_contra hlt
        rw [if_pos (not_le.mp hlt)] at h
        cases h
      · cases h
  · intro ⟨row, hfind, hitem, ordered, received, billed, rate, hqty, hreceived, hbilled, hrate,
      hle⟩
    simp only [hfind, hitem, hqty, hreceived, hbilled, hrate, ne_eq, not_true_eq_false, if_false,
      if_neg (not_lt.mpr hle)]

theorem sourceGoalFacts_reasons_eq_nil {t : Tables} {run : P2pRun} {goal : P2pGoal} :
    (sourceGoalFacts t run goal).2 = [] ↔
      t.readable goal.sourceName = true ∧
        (∃ order, t.orders.find? (fun order => order.name = goal.sourceName) = some order ∧
          order.company = run.companyScope) ∧
        ∀ target ∈ goal.sourceRows, (rowFact (readOrderItems t goal) target).2 = [] := by
  constructor
  · intro h
    refine ⟨?_, ?_, (sourceGoalFacts_of_no_reasons h).2.1⟩
    · by_contra hreadable
      rw [sourceGoalFacts, if_pos (Bool.not_eq_true _ ▸ hreadable)] at h
      cases h
    · obtain ⟨order, hfind⟩ := (sourceGoalFacts_of_no_reasons h).2.2
      refine ⟨order, hfind, ?_⟩
      by_contra hcompany
      unfold sourceGoalFacts at h
      split_ifs at h
      simp only [hfind, ne_eq, hcompany, not_false_eq_true, if_true] at h
      cases h
  · intro ⟨hreadable, ⟨order, hfind, hcompany⟩, hrows⟩
    rw [sourceGoalFacts, if_neg (by simp [hreadable]), hfind]
    simp only [hcompany, ne_eq, not_true_eq_false, if_false]
    rw [List.flatMap_eq_nil_iff]
    intro found hfound
    obtain ⟨target, htarget, rfl⟩ := List.mem_map.mp hfound
    exact hrows target htarget

/-- The facts of an invoice that is paid are read, without a reason against it. -/
theorem PaidInvoice.invoiceFact {t : Tables} {ignored : List Text} {name : Text}
    (h : PaidInvoice t name) : ∃ fact, invoiceFact t ignored name = (some fact, []) := by
  obtain ⟨invoice, total, hfind, hsubmitted, htotal, hnonneg, hzero⟩ := h
  unfold Governance.invoiceFact
  rw [filter_submitted_eq_some hfind hsubmitted]
  simp only [htotal, hzero]
  rw [if_neg (by simpa using hnonneg)]
  exact ⟨_, rfl⟩

/-- A settled invoice gives no reason when it is paid, or a draft of the run. -/
theorem invoiceFact_settled_iff {t : Tables} {entries : List (Entry I)} {name : Text} :
    ((invoiceFact t (governedDraftNames entries) name).2 = [] ∧ Settled t name) ↔
      PaidInvoice t name ∨ GovernedDraft t entries name := by
  have hfilter : (∀ invoice, t.invoice? name = some invoice → invoice.docstatus ≠ 1) →
      (t.invoice? name).filter (fun invoice => invoice.docstatus = 1) = none :=
    fun hnone => Option.filter_eq_none_iff.mpr fun invoice hfind => by simpa using hnone invoice hfind
  constructor
  · intro ⟨hreasons, hsettled⟩
    by_cases hsubmitted : ∃ invoice, t.invoice? name = some invoice ∧ invoice.docstatus = 1
    · left
      obtain ⟨invoice, hfind, hstatus⟩ := hsubmitted
      have hzero := hsettled invoice hfind hstatus
      unfold invoiceFact at hreasons
      rw [filter_submitted_eq_some hfind hstatus] at hreasons
      simp only [hzero] at hreasons
      cases htotal : invoice.grandTotal with
      | none =>
          simp only [htotal] at hreasons
          cases hreasons
      | some total =>
          simp only [htotal] at hreasons
          split_ifs at hreasons with hinvalid
          exact ⟨invoice, total, hfind, hstatus, htotal,
            le_of_not_gt fun hneg => hinvalid (Or.inr hneg), hzero⟩
    · right
      have hnone : ∀ invoice, t.invoice? name = some invoice → invoice.docstatus ≠ 1 :=
        fun invoice hfind hstatus => hsubmitted ⟨invoice, hfind, hstatus⟩
      unfold invoiceFact at hreasons
      rw [hfilter hnone] at hreasons
      simp only at hreasons
      split_ifs at hreasons with hdraft
      exact ⟨hnone, hdraft⟩
  · rintro (hpaid | ⟨hnone, hdraft⟩)
    · obtain ⟨fact, hfact⟩ := @PaidInvoice.invoiceFact t (governedDraftNames entries) name hpaid
      obtain ⟨invoice, total, hfind, -, -, -, hzero⟩ := hpaid
      refine ⟨by rw [hfact], fun other hother _ => ?_⟩
      rw [hfind, Option.some.injEq] at hother
      exact hother ▸ hzero
    · refine ⟨?_, fun invoice hfind hstatus => absurd hstatus (hnone invoice hfind)⟩
      unfold invoiceFact
      rw [hfilter hnone]
      exact if_pos hdraft

theorem linkedInvoiceFacts_reasons_eq_nil {t : Tables} {goal : P2pGoal} {ignored : List Text} :
    (linkedInvoiceFacts t goal ignored).2 = [] ↔
      t.linksAvailable = true ∧
        ∀ name ∈ linkedInvoiceNames t goal, (invoiceFact t ignored name).2 = [] := by
  unfold linkedInvoiceFacts
  cases havailable : t.linksAvailable with
  | false => simp
  | true => simp [List.flatMap_eq_nil_iff]

theorem linkedInvoiceFacts_ne_nil {t : Tables} {goal : P2pGoal} {ignored : List Text} :
    (linkedInvoiceFacts t goal ignored).1 ≠ [] ↔
      t.linksAvailable = true ∧
        ∃ name ∈ linkedInvoiceNames t goal, ∃ fact, (invoiceFact t ignored name).1 = some fact := by
  unfold linkedInvoiceFacts
  cases havailable : t.linksAvailable with
  | false => simp
  | true => simp [List.filterMap_eq_nil_iff, Option.ne_none_iff_exists']

theorem CompleteAsRead.goalReasons {t : Tables} {run : P2pRun} {entries : List (Entry I)}
    {goal : P2pGoal} (h : CompleteAsRead t run entries goal) :
    goalReasons t run entries goal = [] := by
  have hrow : ∀ target ∈ goal.sourceRows, (rowFact (readOrderItems t goal) target).2 = [] := by
    intro target htarget
    obtain ⟨row, hcomplete, hitem, ordered, hqty, hle⟩ := h.rows target htarget
    obtain ⟨received, hreceived, -⟩ := hcomplete.received
    obtain ⟨billed, rate, hbilled, hrate, -⟩ := hcomplete.billed
    exact rowFact_reasons_eq_nil.mpr ⟨row,
      (readOrderItems_eq htarget).mpr ⟨hcomplete.mem, hcomplete.parent, hcomplete.name⟩, hitem,
      ordered, received, billed, rate, hqty, hreceived, hbilled, hrate, hle⟩
  have hlinked : (linkedInvoiceFacts t goal (governedDraftNames entries)).2 = [] :=
    linkedInvoiceFacts_reasons_eq_nil.mpr ⟨h.linksAvailable, fun name hname =>
      (invoiceFact_settled_iff.mpr (h.invoices name hname)).1⟩
  have hinvoices : (linkedInvoiceFacts t goal (governedDraftNames entries)).1 ≠ [] := by
    obtain ⟨name, hname, hpaid⟩ := h.paid
    obtain ⟨fact, hfact⟩ := @PaidInvoice.invoiceFact t (governedDraftNames entries) name hpaid
    exact linkedInvoiceFacts_ne_nil.mpr
      ⟨h.linksAvailable, name, hname, fact, congrArg Prod.fst hfact⟩
  rw [Governance.goalReasons,
    sourceGoalFacts_reasons_eq_nil.mpr ⟨h.readable, h.order, hrow⟩, hlinked, missingInvoice,
    if_neg fun hmissing => hinvoices hmissing.2]
  rfl

/-- A confirmed goal is complete exactly when the pages of the reads show it complete. -/
theorem confirmedProgress_complete_iff_read {t : Tables} {run : P2pRun}
    {entries : List (Entry I)} {record : GoalRecord} {goal : P2pGoal} :
    (confirmedProgress t run entries record goal).complete = true ↔
      CompleteAsRead t run entries goal := by
  constructor
  · intro hcomplete
    obtain ⟨hblocked, hrows, hsettled⟩ := confirmedProgress_complete.mp hcomplete
    have hreasons := blockedReasons_eq_nil.mp hblocked
    obtain ⟨hfirst, hmissing⟩ := List.append_eq_nil_iff.mp hreasons
    obtain ⟨hsource, hlinked⟩ := List.append_eq_nil_iff.mp hfirst
    obtain ⟨hreadable, horder, hrow⟩ := sourceGoalFacts_reasons_eq_nil.mp hsource
    obtain ⟨havailable, hinvoice⟩ := linkedInvoiceFacts_reasons_eq_nil.mp hlinked
    have hread : ∀ name ∈ linkedInvoiceNames t goal,
        PaidInvoice t name ∨ GovernedDraft t entries name := fun name hname =>
      invoiceFact_settled_iff.mp ⟨hinvoice name hname, hsettled name hname⟩
    refine ⟨hreadable, horder, ?_, havailable, hread, ?_⟩
    · intro target htarget
      obtain ⟨row, hfind, hitem, ordered, -, -, -, hqty, -, -, -, hle⟩ :=
        rowFact_reasons_eq_nil.mp (hrow target htarget)
      obtain ⟨row', hcomplete'⟩ := hrows target htarget
      have hsame : row' = row := Option.some.inj <|
        ((readOrderItems_eq htarget).mpr
          ⟨hcomplete'.mem, hcomplete'.parent, hcomplete'.name⟩).symm.trans hfind
      exact ⟨row, hsame ▸ hcomplete', hitem, ordered, hqty, hle⟩
    · -- The billed amounts reach the target, so that a missing invoice would be a reason.
      have hfacts := hcomplete
      simp only [confirmedProgress, decide_eq_true_eq] at hfacts
      obtain ⟨-, -, -, hbilled, -⟩ := hfacts
      have hne : (linkedInvoiceFacts t goal (governedDraftNames entries)).1 ≠ [] := by
        intro hnil
        rw [missingInvoice, if_pos ⟨hbilled, hnil⟩] at hmissing
        cases hmissing
      obtain ⟨-, name, hname, fact, hfact⟩ := linkedInvoiceFacts_ne_nil.mp hne
      obtain ⟨invoice, hfind, hstatus, -⟩ := invoiceFact_eq_some hfact
      exact ⟨name, hname,
        (hread name hname).resolve_right fun hdraft => hdraft.1 invoice hfind hstatus⟩
  · intro h
    refine confirmedProgress_complete.mpr ⟨blockedReasons_eq_nil.mpr h.goalReasons, ?_, ?_⟩
    · intro target htarget
      obtain ⟨row, hcomplete, -⟩ := h.rows target htarget
      exact ⟨row, hcomplete⟩
    · exact fun name hname => (invoiceFact_settled_iff.mpr (h.invoices name hname)).2

/-! ## What is planned for a complete goal -/

theorem receiptItems_eq_nil {rows : List RowFact} :
    receiptItems rows = [] ↔ ∀ row ∈ rows, row.targetQty ≤ row.receivedQty := by
  rw [receiptItems, List.map_eq_nil_iff, List.filter_eq_nil_iff]
  simp only [decide_eq_true_eq, not_lt]

/-- The order of a goal is submitted. -/
def OrderSubmitted (t : Tables) (goal : P2pGoal) : Prop :=
  ∃ order, t.orders.find? (fun order => order.name = goal.sourceName) = some order ∧
    order.docstatus = 1

/-- The order of a goal without a reason against it is there. -/
theorem source_of_no_reasons {t : Tables} {run : P2pRun} {goal : P2pGoal}
    (h : (sourceGoalFacts t run goal).2 = []) :
    ∃ source, (sourceGoalFacts t run goal).1.map Prod.fst = some source ∧
      source.name = goal.sourceName ∧ (source.docstatus = 1 ↔ OrderSubmitted t goal) := by
  unfold sourceGoalFacts at h ⊢
  split_ifs at h ⊢
  split at h
  · cases h
  · rename_i order hfind
    split_ifs at h with hcompany
    rw [if_neg hcompany]
    refine ⟨_, rfl, rfl, fun hsubmitted => ⟨order, hfind, hsubmitted⟩, ?_⟩
    intro ⟨order', hfind', hsubmitted⟩
    rw [hfind, Option.some.injEq] at hfind'
    exact hfind' ▸ hsubmitted

/-- The submission of the order. -/
def submitOrder (run : P2pRun) (record : GoalRecord) (goal : P2pGoal) : CandidateIntent :=
  candidateIntent run record .submitPo "Purchase Order" goal.sourceName [] none
    "submit the confirmed source Purchase Order before downstream work"

/-- For a goal that is complete nothing is planned but the submission of its order. -/
theorem plannedFacts_of_complete {t : Tables} {run : P2pRun} {entries : List (Entry I)}
    {record : GoalRecord} {goal : P2pGoal}
    (hcomplete : (confirmedProgress t run entries record goal).complete = true) :
    (OrderSubmitted t goal →
      plannedFacts t run record (confirmedProgress t run entries record goal) goal =
        some (none, [])) ∧
    (¬OrderSubmitted t goal →
      plannedFacts t run record (confirmedProgress t run entries record goal) goal =
        some (some (submitOrder run record goal), [])) := by
  have hfacts := hcomplete
  simp only [confirmedProgress, decide_eq_true_eq] at hfacts
  obtain ⟨hreasons, -, hreceived, hbilled, houtstanding⟩ := hfacts
  obtain ⟨hfirst, -⟩ := List.append_eq_nil_iff.mp hreasons
  obtain ⟨source, hsource, hname, hsubmitted⟩ :=
    source_of_no_reasons (List.append_eq_nil_iff.mp hfirst).1
  have hprogress : (confirmedProgress t run entries record goal).source = some source := hsource
  have hreceipts :
      receiptItems (confirmedProgress t run entries record goal).rows = [] :=
    receiptItems_eq_nil.mpr
      ((Capped.sum_le_sum_map_min_iff RowFact.targetQty RowFact.receivedQty _).mp hreceived)
  have hdocstatus : ((confirmedProgress t run entries record goal).source.map
      SourceFact.docstatus).getD 0 = source.docstatus := by
    rw [hprogress]
    rfl
  have hamounts : ¬(confirmedProgress t run entries record goal).billedAmount <
      (confirmedProgress t run entries record goal).targetAmount := not_lt.mpr hbilled
  have hunpaid : ¬0 < (confirmedProgress t run entries record goal).outstandingAmount :=
    not_lt.mpr houtstanding.le
  constructor
  · intro horder
    rw [plannedFacts, hdocstatus, if_neg (not_not.mpr (hsubmitted.mpr horder)),
      if_neg (not_not.mpr hreceipts), if_neg hamounts, if_neg hunpaid, if_pos hcomplete]
  · intro horder
    have hsourceName : sourceNameOf (confirmedProgress t run entries record goal) goal =
        goal.sourceName := by
      rw [sourceNameOf, hprogress]
      simp only [hname, ite_self]
    rw [plannedFacts, hdocstatus, if_pos (fun h => horder (hsubmitted.mp h)), hsourceName]
    rfl

/-- Of a complete goal, the next intent is that of a pending draft, then that of the order. -/
theorem nextCandidateIntent_of_complete {t : Tables} {run : P2pRun} {entries : List (Entry I)}
    {record : GoalRecord} {goal : P2pGoal} (hstate : record.state = .confirmed)
    (hgoal : record.goal = some goal)
    (hcomplete : (confirmedProgress t run entries record goal).complete = true) :
    nextCandidateIntent t run record (confirmedProgress t run entries record goal) entries =
      (pendingIntent t entries run record).elim
        (plannedFacts t run record (confirmedProgress t run entries record goal) goal)
        fun pending => some (some pending, []) := by
  have hreasons : goalReasons t run entries goal = [] :=
    blockedReasons_eq_nil.mp (confirmedProgress_complete.mp hcomplete).1
  have hconfirmed : (confirmedProgress t run entries record goal).goalState = .confirmed := by
    simp only [confirmedProgress, hreasons, if_true, hstate]
  rw [nextCandidateIntent, hstate, hgoal]
  simp only [hconfirmed, ne_eq, not_true_eq_false, if_false]
  cases pendingIntent t entries run record with
  | none => rfl
  | some pending => rfl

/-- What the completion of a confirmed goal says. -/
structure RowExact (t : Tables) (run : P2pRun) (entries : List (Entry I)) (record : GoalRecord)
    (goal : P2pGoal) : Prop where
  /-- Completion in terms of the invoices whose rows were read. -/
  complete : (p2pGoalProgress t run entries record).complete = true ↔
    (p2pGoalProgress t run entries record).blockedReasons = [] ∧
      (∀ target ∈ goal.sourceRows, ∃ row, RowComplete t goal target row) ∧
      ∀ item ∈ readLinks t goal, item.parent ≠ [] → Settled t item.parent
  /-- Only linked invoice rows are read. -/
  linked : ∀ item ∈ readLinks t goal, item.parent ≠ [] → Linked t goal item
  /-- Where they fit the pages, the invoices are all that are linked. -/
  fits : FitsPages t goal → ((p2pGoalProgress t run entries record).complete = true ↔
    (p2pGoalProgress t run entries record).blockedReasons = [] ∧
      (∀ target ∈ goal.sourceRows, ∃ row, RowComplete t goal target row) ∧
      ∀ item ∈ t.invoiceItems, Linked t goal item → Settled t item.parent)
  /-- A pending draft of the run is submitted first. -/
  pending : (p2pGoalProgress t run entries record).complete = true →
    ∀ intent, pendingIntent t entries run record = some intent →
      nextCandidateIntent t run record (p2pGoalProgress t run entries record) entries =
        some (some intent, [])
  /-- Then the order, if it is not submitted. -/
  order : (p2pGoalProgress t run entries record).complete = true →
    pendingIntent t entries run record = none → ¬OrderSubmitted t goal →
      nextCandidateIntent t run record (p2pGoalProgress t run entries record) entries =
        some (some (submitOrder run record goal), [])
  /-- Then there is no intent and nothing to wait for. -/
  nothing : (p2pGoalProgress t run entries record).complete = true →
    pendingIntent t entries run record = none → OrderSubmitted t goal →
      nextCandidateIntent t run record (p2pGoalProgress t run entries record) entries =
        some (none, [])

/-- The completion of every confirmed goal is row-exact. -/
theorem rowExact (t : Tables) (run : P2pRun) (entries : List (Entry I)) (record : GoalRecord)
    (goal : P2pGoal) (hstate : record.state = .confirmed) (hgoal : record.goal = some goal) :
    RowExact t run entries record goal := by
  have hprogress := p2pGoalProgress_confirmed t run entries hstate hgoal
  have hread : (∀ name ∈ linkedInvoiceNames t goal, Settled t name) ↔
      ∀ item ∈ readLinks t goal, item.parent ≠ [] → Settled t item.parent := by
    constructor
    · intro h item hitem hne
      exact h _ (mem_linkedInvoiceNames.mpr ⟨item, hitem, rfl, hne⟩)
    · intro h name hname
      obtain ⟨item, hitem, rfl, hne⟩ := mem_linkedInvoiceNames.mp hname
      exact h item hitem hne
  constructor
  · rw [hprogress, confirmedProgress_complete, hread]
  · exact fun item hitem hne => (linked_of_mem_readLinks hitem hne).2
  · intro hfits
    rw [hprogress, confirmedProgress_complete, hfits.settled_iff]
  · intro hcomplete intent hintent
    rw [hprogress] at hcomplete ⊢
    rw [nextCandidateIntent_of_complete hstate hgoal hcomplete, hintent]
    rfl
  · intro hcomplete hnone horder
    rw [hprogress] at hcomplete ⊢
    rw [nextCandidateIntent_of_complete hstate hgoal hcomplete, hnone]
    exact (plannedFacts_of_complete hcomplete).2 horder
  · intro hcomplete hnone horder
    rw [hprogress] at hcomplete ⊢
    rw [nextCandidateIntent_of_complete hstate hgoal hcomplete, hnone]
    exact (plannedFacts_of_complete hcomplete).1 horder

/-- The draft of an action of the run is still to be submitted. -/
structure DraftPending (t : Tables) (entries : List (Entry I)) (stage : DraftStage)
    (e : Entry I) (name : Text) : Prop where
  actionType : e.actionType = stage.draftActionType
  success : e.receiptIn ReceiptState.isSuccess = true
  target : e.targetName = some name
  draft : stage.docstatus? t name = some 0
  unsubmitted : ∀ other ∈ entries, other.actionType = stage.submitActionType →
    payloadText (payloadDict other.action.toProposal) "source_name" = name →
      other.receiptIn ReceiptState.isSuccess ≠ true

/-- No draft of the run is still to be submitted. -/
def NothingPending (t : Tables) (entries : List (Entry I)) : Prop :=
  ∀ stage, ∀ e ∈ entries, ∀ name, ¬DraftPending t entries stage e name

theorem pendingDraft_eq_some {t : Tables} {entries : List (Entry I)} {stage : DraftStage}
    {e : Entry I} {name : Text} :
    pendingDraft t entries stage e = some name ↔ DraftPending t entries stage e name := by
  unfold pendingDraft
  constructor
  · intro h
    split_ifs at h with hdrafted
    obtain ⟨htarget, hfilter⟩ := Option.filter_eq_some_iff.mp h
    simp only [Bool.and_eq_true, decide_eq_true_eq, Bool.not_eq_true', List.any_eq_false] at hfilter
    exact ⟨hdrafted.1, hdrafted.2, htarget, hfilter.1,
      fun other hother htype hname hsuccess => hfilter.2 other hother ⟨⟨htype, hname⟩, hsuccess⟩⟩
  · intro h
    rw [if_pos ⟨h.actionType, h.success⟩]
    refine Option.filter_eq_some_iff.mpr ⟨h.target, ?_⟩
    simp only [Bool.and_eq_true, decide_eq_true_eq, Bool.not_eq_true', List.any_eq_false]
    exact ⟨h.draft, fun other hother hsubmitted =>
      h.unsubmitted other hother hsubmitted.1.1 hsubmitted.1.2 hsubmitted.2⟩

theorem pendingIntent_eq_none_iff {t : Tables} {entries : List (Entry I)} {run : P2pRun}
    {record : GoalRecord} :
    pendingIntent t entries run record = none ↔ NothingPending t entries := by
  have hall : ∀ stage, stage ∈ draftStages := by
    intro stage
    cases stage <;> decide
  rw [pendingIntent, List.findSome?_eq_none_iff]
  simp only [pendingDraftIntent, Option.map_eq_none_iff, List.findSome?_eq_none_iff]
  constructor
  · intro h stage e he name hpending
    have hnone := h stage (hall stage) e he
    rw [pendingDraft_eq_some.mpr hpending] at hnone
    cases hnone
  · intro h stage _ e he
    cases hdraft : pendingDraft t entries stage e with
    | none => rfl
    | some name => exact absurd (pendingDraft_eq_some.mp hdraft) (h stage e he name)

/-! ## When completion is exact -/

/-- Every linked submitted invoice is settled. -/
def LinkedSettled (t : Tables) (goal : P2pGoal) : Prop :=
  ∀ item ∈ t.invoiceItems, Linked t goal item → Settled t item.parent

/-- A confirmed goal is complete exactly when nothing blocks it, its rows are received and
billed in full and all linked invoices are settled, and for a complete goal there is
nothing to plan and nothing to wait for. -/
structure CompletionExact (t : Tables) (run : P2pRun) (entries : List (Entry I))
    (record : GoalRecord) (goal : P2pGoal) : Prop where
  complete : (p2pGoalProgress t run entries record).complete = true ↔
    (p2pGoalProgress t run entries record).blockedReasons = [] ∧
      (∀ target ∈ goal.sourceRows, ∃ row, RowComplete t goal target row) ∧ LinkedSettled t goal
  nothing : (p2pGoalProgress t run entries record).complete = true →
    nextCandidateIntent t run record (p2pGoalProgress t run entries record) entries =
      some (none, [])

/-- Every linked submitted invoice that none of the pages shows is settled. -/
def CutOffSettled (t : Tables) (goal : P2pGoal) : Prop :=
  ∀ item ∈ t.invoiceItems, Linked t goal item → item.parent ∉ linkedInvoiceNames t goal →
    Settled t item.parent

/-- Where the pages suffice, nothing is cut off. -/
theorem FitsPages.cutOffSettled {t : Tables} {goal : P2pGoal} (hfits : FitsPages t goal) :
    CutOffSettled t goal := by
  intro item hitem hlinked hhidden
  have hshown : item.parent ∈ linkedInvoiceNames t goal :=
    mem_linkedInvoiceNames.mpr ⟨item, hfits.mem_readLinks hitem hlinked, rfl, hlinked.1⟩
  exact absurd hshown hhidden

/-- Every linked submitted invoice is settled when those on the pages are, and those behind them. -/
theorem linkedSettled_iff {t : Tables} {goal : P2pGoal} :
    LinkedSettled t goal ↔
      (∀ item ∈ readLinks t goal, item.parent ≠ [] → Settled t item.parent) ∧
        CutOffSettled t goal := by
  constructor
  · intro h
    refine ⟨?_, fun item hitem hlinked _ => h item hitem hlinked⟩
    intro item hitem hne
    obtain ⟨hmem, hlinked⟩ := linked_of_mem_readLinks hitem hne
    exact h item hmem hlinked
  · intro ⟨hshown, hhidden⟩ item hitem hlinked
    by_cases hname : item.parent ∈ linkedInvoiceNames t goal
    · obtain ⟨shown, hread, hparent, hne⟩ := mem_linkedInvoiceNames.mp hname
      rw [← hparent] at hne ⊢
      exact hshown shown hread hne
    · exact hhidden item hitem hlinked hname

/-- For a complete goal there is nothing to plan and nothing to wait for, unless a draft of the
run is still to be submitted, or the order. -/
theorem RowExact.nothing_iff {t : Tables} {run : P2pRun} {entries : List (Entry I)}
    {record : GoalRecord} {goal : P2pGoal} (h : RowExact t run entries record goal)
    (hcomplete : (p2pGoalProgress t run entries record).complete = true) :
    nextCandidateIntent t run record (p2pGoalProgress t run entries record) entries =
        some (none, []) ↔
      NothingPending t entries ∧ OrderSubmitted t goal := by
  rw [← @pendingIntent_eq_none_iff I t entries run record]
  constructor
  · intro hnext
    have hnone : pendingIntent t entries run record = none := by
      cases hpending : pendingIntent t entries run record with
      | none => rfl
      | some intent =>
          rw [h.pending hcomplete intent hpending] at hnext
          cases hnext
    refine ⟨hnone, ?_⟩
    by_contra horder
    rw [h.order hcomplete hnone horder] at hnext
    cases hnext
  · intro ⟨hnone, horder⟩
    exact h.nothing hcomplete hnone horder

/-- Completion is exact as long as nothing of a goal that is complete on the pages is left to
settle behind them, to promote or to submit. -/
theorem completionExact_iff (t : Tables) (run : P2pRun) (entries : List (Entry I))
    (record : GoalRecord) (goal : P2pGoal) (hstate : record.state = .confirmed)
    (hgoal : record.goal = some goal) :
    CompletionExact t run entries record goal ↔
      (CompleteAsRead t run entries goal →
        CutOffSettled t goal ∧ NothingPending t entries ∧ OrderSubmitted t goal) := by
  have hexact := rowExact t run entries record goal hstate hgoal
  have hread : (p2pGoalProgress t run entries record).complete = true ↔
      CompleteAsRead t run entries goal := by
    rw [p2pGoalProgress_confirmed t run entries hstate hgoal,
      confirmedProgress_complete_iff_read]
  constructor
  · intro h hcompleteAsRead
    have hcomplete := hread.mpr hcompleteAsRead
    obtain ⟨-, -, hsettled⟩ := h.complete.mp hcomplete
    exact ⟨(linkedSettled_iff.mp hsettled).2,
      (hexact.nothing_iff hcomplete).mp (h.nothing hcomplete)⟩
  · intro h
    constructor
    · constructor
      · intro hcomplete
        obtain ⟨hblocked, hrows, hshown⟩ := hexact.complete.mp hcomplete
        have hhidden := (h (hread.mp hcomplete)).1
        exact ⟨hblocked, hrows, linkedSettled_iff.mpr ⟨hshown, hhidden⟩⟩
      · intro ⟨hblocked, hrows, hsettled⟩
        exact hexact.complete.mpr ⟨hblocked, hrows, (linkedSettled_iff.mp hsettled).1⟩
    · intro hcomplete
      exact (hexact.nothing_iff hcomplete).mpr (h (hread.mp hcomplete)).2

/-! ## A goal of one row -/

/-- The order row of the examples, received and billed in full. -/
def settledRow : Erp.PurchaseOrderItem where
  name := "row-1"
  parent := "PUR-ORD-0001"
  itemCode := "ITEM-1"
  uom := "Nos"
  warehouse := "Stores"
  qty := some 10
  receivedQty := some 10
  billedAmt := some 100
  rate := some 10

/-- An invoice for the order. -/
def exampleInvoice (name : Text) (docstatus : ℕ) (outstanding : ℚ) : PurchaseInvoice where
  name := name
  company := "Example"
  supplier := "Supplier"
  currency := "EUR"
  creditTo := "Creditors"
  status := []
  docstatus := docstatus
  grandTotal := some 100
  outstandingAmount := some outstanding

/-- An invoice row for the order row. -/
def exampleInvoiceItem (name parent : Text) : PurchaseInvoiceItem where
  name := name
  parent := parent
  purchaseOrder := "PUR-ORD-0001"
  poDetail := "row-1"
  purchaseReceipt := []
  prDetail := []
  qty := 1

/-- The tables of the examples: a paid invoice, one that is not paid, and a receipt. -/
def exampleTables (invoiceItems : List PurchaseInvoiceItem) : Tables where
  orders := [⟨"PUR-ORD-0001", "Example", 1, "100", "100", "Completed"⟩]
  orderItems := [settledRow]
  receipts := [⟨"PREC-0001", "Example", 0, "2026-07-19"⟩]
  receiptItems := []
  invoices := [exampleInvoice "PINV-0001" 1 0, exampleInvoice "PINV-0002" 1 100]
  invoiceItems := invoiceItems
  paymentEntries := []
  companies := []
  orderItems_nodup := by decide
  receiptItems_nodup := List.nodup_nil
  invoices_nodup := by decide
  readable := fun _ => true
  linksAvailable := true
  today := "2026-07-19"

/-- The goal of the examples: one row of one order. -/
def rowGoal : P2pGoal where
  sourceName := "PUR-ORD-0001"
  sourceRows := [⟨"row-1", "ITEM-1", 10, by norm_num⟩]
  sourceRows_ne_nil := by simp
  sourceRows_le := by simp
  sourceRows_nodup := by simp

def rowRecord : GoalRecord := ⟨.confirmed, 1, none, some rowGoal⟩

def rowRun : P2pRun := ⟨"run-1", "Example", 1⟩

/-- A page of rows of the paid invoice, then one of the invoice that is not paid. -/
def hiddenItems : List PurchaseInvoiceItem :=
  (List.range 200).map (fun n => exampleInvoiceItem (Text.ofString (toString n)) "PINV-0001") ++
    [exampleInvoiceItem "200" "PINV-0002"]

/-- A goal counts as complete although an invoice behind the first page is not paid. -/
theorem complete_with_hidden_invoice :
    ∃ (t : Tables) (run : P2pRun) (record : GoalRecord) (goal : P2pGoal),
      record.state = .confirmed ∧ record.goal = some goal ∧
      (p2pGoalProgress t run ([] : List (Entry Interpreter.ascii)) record).complete = true ∧
      ∃ item ∈ t.invoiceItems, Linked t goal item ∧ ¬Settled t item.parent := by
  refine ⟨exampleTables hiddenItems, rowRun, rowRecord, rowGoal, rfl, rfl,
    by decide +kernel, exampleInvoiceItem "200" "PINV-0002", ?_, ?_, ?_⟩
  · exact List.mem_append_right _ (List.mem_singleton_self _)
  · exact ⟨by decide, Or.inl ⟨rfl, by decide⟩⟩
  · intro hsettled
    have hzero := hsettled (exampleInvoice "PINV-0002" 1 100) (by rfl) rfl
    norm_num [exampleInvoice] at hzero

section Example

variable {c : ProposedAction Interpreter.ascii}

/-- The receipt draft, executed; its document is still a draft. -/
def draftedEntry (hc : c.toProposal = orderReceiptDraft draftId) : Entry Interpreter.ascii :=
  { draftEntry hc with
    state := .executed
    receipt := some
      { orderReceipt c.digest with
        target := some (⟨"Purchase Receipt", by decide⟩, ⟨"PREC-0001", by decide, by decide⟩)
        success := fun _ => ⟨rfl, by simp [orderReceipt], rfl, rfl⟩ } }

variable (hc : c.toProposal = orderReceiptDraft draftId)

theorem actionType_draftedEntry : (draftedEntry hc).actionType = .createPrDraft := by
  change c.toProposal.actionType = .createPrDraft
  rw [hc]
  rfl

/-- A drafted receipt has no part in the progress of the goal. -/
theorem governedDraftNames_draftedEntry : governedDraftNames [draftedEntry hc] = [] := by
  simp [governedDraftNames, actionType_draftedEntry]

theorem pendingIntent_draftedEntry (record : GoalRecord) (items : List PurchaseInvoiceItem) :
    (pendingIntent (exampleTables items) [draftedEntry hc] rowRun record).isSome = true := by
  have htype : (draftedEntry hc).actionType = .createPrDraft := actionType_draftedEntry hc
  have hname : (draftedEntry hc).targetName = some (Text.ofString "PREC-0001") := rfl
  have hsuccess : (draftedEntry hc).receiptIn ReceiptState.isSuccess = true := rfl
  have hdraft : pendingDraft (exampleTables items) [draftedEntry hc] .receipt
      (draftedEntry hc) = some (Text.ofString "PREC-0001") := by
    rw [pendingDraft, if_pos ⟨htype, hsuccess⟩, hname]
    simp [Option.filter, htype, DraftStage.submitActionType]
    rfl
  rw [pendingIntent, draftStages, List.findSome?_cons, pendingDraftIntent,
    List.findSome?_cons, hdraft]
  rfl

end Example

/-- The progress does not depend on a drafted receipt. -/
theorem confirmedProgress_draftedEntry {c : ProposedAction Interpreter.ascii}
    (hc : c.toProposal = orderReceiptDraft draftId) (t : Tables) (run : P2pRun)
    (record : GoalRecord) (goal : P2pGoal) :
    confirmedProgress t run [draftedEntry hc] record goal =
      confirmedProgress t run ([] : List (Entry Interpreter.ascii)) record goal := by
  simp only [confirmedProgress, goalReasons, governedDraftNames_draftedEntry hc]
  rfl

/-- A goal counts as complete although an invoice behind the first page is not paid, and
what is planned for a complete goal can be the submission of a draft. -/
theorem completion_not_exact :
    (∃ (t : Tables) (run : P2pRun) (record : GoalRecord) (goal : P2pGoal),
      record.state = .confirmed ∧ record.goal = some goal ∧
      (p2pGoalProgress t run ([] : List (Entry Interpreter.ascii)) record).complete = true ∧
      ∃ item ∈ t.invoiceItems, Linked t goal item ∧ ¬Settled t item.parent) ∧
    ∃ (t : Tables) (run : P2pRun) (record : GoalRecord) (entries : List (Entry Interpreter.ascii)),
      record.state = .confirmed ∧ (p2pGoalProgress t run entries record).complete = true ∧
      nextCandidateIntent t run record (p2pGoalProgress t run entries record) entries ≠
        some (none, []) := by
  refine ⟨complete_with_hidden_invoice, ?_⟩
  obtain ⟨c, hc⟩ := exists_draft
  have hprogress : p2pGoalProgress (exampleTables [exampleInvoiceItem "0" "PINV-0001"])
      rowRun [draftedEntry hc] rowRecord =
        confirmedProgress (exampleTables [exampleInvoiceItem "0" "PINV-0001"])
          rowRun [draftedEntry hc] rowRecord rowGoal := rfl
  have hcomplete : (confirmedProgress (exampleTables [exampleInvoiceItem "0" "PINV-0001"])
      rowRun [draftedEntry hc] rowRecord rowGoal).complete = true := by
    rw [confirmedProgress_draftedEntry hc]
    decide +kernel
  refine ⟨exampleTables [exampleInvoiceItem "0" "PINV-0001"], rowRun, rowRecord,
    [draftedEntry hc], rfl, ?_, ?_⟩
  · rw [hprogress]
    exact hcomplete
  · obtain ⟨intent, hintent⟩ := Option.isSome_iff_exists.mp
      (pendingIntent_draftedEntry hc rowRecord [exampleInvoiceItem "0" "PINV-0001"])
    rw [hprogress, nextCandidateIntent_of_complete rfl rfl hcomplete, hintent]
    simp

/-- The goal of the examples, with one invoice that is paid: completion is exact. -/
theorem completionExact_of_paid_invoice :
    CompletionExact (exampleTables [exampleInvoiceItem "0" "PINV-0001"]) rowRun
      ([] : List (Entry Interpreter.ascii)) rowRecord rowGoal := by
  have hfits : FitsPages (exampleTables [exampleInvoiceItem "0" "PINV-0001"]) rowGoal :=
    ⟨by decide, by decide, by decide⟩
  refine (completionExact_iff _ _ _ rowRecord rowGoal rfl rfl).mpr fun _ =>
    ⟨hfits.cutOffSettled, ?_, ?_⟩
  · exact fun _ e he => absurd he List.not_mem_nil
  · exact ⟨_, rfl, rfl⟩

end Governance
