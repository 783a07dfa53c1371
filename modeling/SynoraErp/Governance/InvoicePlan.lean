import SynoraErp.Governance.RowExact

/-!
# Invoice planning

What the planned invoice of a receipt adds to the quantities that are billed already,
compared with the target of the goal.
-/

namespace Governance

open Python Erp

/-! ## Billed quantities -/

/-- The invoice of a name is submitted. -/
def SubmittedInvoice (t : Tables) (name : Text) : Prop :=
  ∃ invoice ∈ t.invoices, invoice.name = name ∧ invoice.docstatus = 1

instance (t : Tables) (name : Text) : Decidable (SubmittedInvoice t name) :=
  inferInstanceAs (Decidable (∃ invoice ∈ t.invoices, _))

/-- What submitted invoices bill on a receipt row. -/
def billedOnReceiptItem (t : Tables) (row : PurchaseReceiptItem) : ℚ :=
  ((t.invoiceItems.filter fun item =>
    item.prDetail = row.name ∧ SubmittedInvoice t item.parent).map PurchaseInvoiceItem.qty).sum

/-- An invoice row bills an order row, directly or through a receipt row. -/
def BillsOrderItem (t : Tables) (poRow : Text) (item : PurchaseInvoiceItem) : Prop :=
  item.poDetail = poRow ∨
    ∃ row ∈ t.receiptItems, row.purchaseOrderItem = poRow ∧ row.name = item.prDetail

instance (t : Tables) (poRow : Text) (item : PurchaseInvoiceItem) :
    Decidable (BillsOrderItem t poRow item) :=
  inferInstanceAs (Decidable (_ ∨ ∃ row ∈ t.receiptItems, _))

/-- What submitted invoices bill on an order row. -/
def billedOnOrderItem (t : Tables) (poRow : Text) : ℚ :=
  ((t.invoiceItems.filter fun item =>
    BillsOrderItem t poRow item ∧ SubmittedInvoice t item.parent).map PurchaseInvoiceItem.qty).sum

/-! ## An intent within the goal -/

/-- The order row of an item of an intent. -/
def orderRowOf (t : Tables) (item : CandidateItem) : Option Text :=
  (t.receiptItems.find? fun row => row.name = item.sourceRow).map
    PurchaseReceiptItem.purchaseOrderItem

/-- What an intent plans to bill on an order row. -/
def plannedQty (t : Tables) (intent : CandidateIntent) (poRow : Text) : ℚ :=
  ((intent.items.filter fun item => orderRowOf t item = some poRow).map CandidateItem.qty).sum

/-- An intent bills no more of a receipt row than is open on it, and no more of an order
row than its target. -/
structure WithinGoal (t : Tables) (progress : Progress) (intent : CandidateIntent) : Prop where
  items : ∀ item ∈ intent.items, ∃ row ∈ t.receiptItems, row.name = item.sourceRow ∧
    0 < item.qty ∧ item.qty ≤ row.qty - billedOnReceiptItem t row
  rows : ∀ target ∈ progress.rows,
    plannedQty t intent target.sourceRow + billedOnOrderItem t target.sourceRow ≤ target.targetQty

/-! ## The receipt that is planned for -/

section Planned

variable (t : Tables) (progress : Progress) (rows : List PurchaseReceiptItem)

/-- A receipt has a row that is open, of an order row with something remaining, both as far
as `billed_by_pr` tells. -/
def Invoiceable (parent : Text) : Prop :=
  ∃ row ∈ rows, row.parent = parent ∧ 0 < openQty t rows row ∧
    0 < remainingByPo t progress rows row.purchaseOrderItem

/-- The first receipt by name that is invoiceable. -/
structure FirstInvoiceable (parent : Text) : Prop where
  invoiceable : Invoiceable t progress rows parent
  first : ∀ row ∈ rows, row.parent < parent → ¬Invoiceable t progress rows row.parent

/-- What the rows of a receipt that stand in front of another, by name, leave of its order
row, cut by what is open on it. -/
def givenQty (front : List PurchaseReceiptItem) (row : PurchaseReceiptItem) : ℚ :=
  Capped.portion PurchaseReceiptItem.purchaseOrderItem (openQty t rows)
    (remainingByPo t progress rows) front row

/-- What is open of an order row in a receipt. -/
def openOfOrderItem (parent poRow : Text) : ℚ :=
  ((rows.filter fun row => row.parent = parent ∧ row.purchaseOrderItem = poRow).map
    fun row => max (openQty t rows row) 0).sum

variable {t progress rows}

/-- `billed_by_pr` has no entry for a receipt row, unless the row is named as `None` reads. -/
theorem billedByPrOf_eq_zero {row : PurchaseReceiptItem} (h : row.name ≠ "None") :
    billedByPrOf t rows row = 0 := by
  have hkey : row.name ∉ rows.map prDetailKey := by
    intro hmem
    obtain ⟨other, -, hother⟩ := List.mem_map.mp hmem
    exact h hother.symm
  rw [billedByPrOf, billedByPr, if_neg hkey, Option.getD_none]

theorem billedByPo_eq_zero (h : ∀ row ∈ rows, row.name ≠ "None") (poRow : Text) :
    billedByPo t rows poRow = 0 := by
  apply List.sum_eq_zero
  intro billed hbilled
  obtain ⟨row, hrow, rfl⟩ := List.mem_map.mp hbilled
  exact billedByPrOf_eq_zero (h row (List.mem_of_mem_filter hrow))

theorem remainingByPo_nonneg (poRow : Text) : 0 ≤ remainingByPo t progress rows poRow := by
  unfold remainingByPo
  split_ifs
  · exact le_max_right _ _
  · exact le_refl _

theorem mem_parentRows {parent : Text} {row : PurchaseReceiptItem} :
    row ∈ parentRows rows parent ↔ row ∈ rows ∧ row.parent = parent := by
  rw [parentRows, SortedByKey.mem_sortBy, List.mem_filter, decide_eq_true_eq]

theorem candidateRows_ne_nil_iff {parent : Text} :
    candidateRows t progress rows parent ≠ [] ↔ Invoiceable t progress rows parent := by
  rw [candidateRows, Ne, Capped.serve_eq_nil_iff]
  push Not
  constructor
  · intro ⟨row, hrow, hshare⟩
    obtain ⟨hmem, hparent⟩ := mem_parentRows.mp hrow
    obtain ⟨hopen, hremaining⟩ := lt_min_iff.mp hshare
    exact ⟨row, hmem, hparent, (lt_max_iff.mp hopen).resolve_right (lt_irrefl _), hremaining⟩
  · intro ⟨row, hmem, hparent, hopen, hremaining⟩
    exact ⟨row, mem_parentRows.mpr ⟨hmem, hparent⟩,
      lt_min (lt_max_of_lt_left hopen) hremaining⟩

theorem invoiceableParent_eq_some {parent : Text} :
    invoiceableParent t progress rows = some parent ↔
      FirstInvoiceable t progress rows parent := by
  have hnonempty : ∀ name, (!(candidateRows t progress rows name).isEmpty) = true ↔
      Invoiceable t progress rows name := fun name => by
    rw [← candidateRows_ne_nil_iff, Bool.not_eq_true', ← Bool.not_eq_true, List.isEmpty_iff]
  have hsorted : (parentNames rows).Pairwise fun a b => id a < id b :=
    SortedByKey.pairwise_sortBy id (by simpa using List.nodup_dedup _)
  have hmem : ∀ name, name ∈ parentNames rows ↔ ∃ row ∈ rows, row.parent = name := fun name => by
    rw [parentNames, SortedByKey.mem_sortBy, List.mem_dedup, List.mem_map]
  rw [invoiceableParent, List.find?_eq_some_iff_append]
  constructor
  · intro ⟨hparent, front, back, hsplit, hfront⟩
    rw [hsplit] at hsorted
    refine ⟨(hnonempty parent).mp hparent, fun row hrow hlt hinvoiceable => ?_⟩
    have hbefore : row.parent ∈ front := (SortedByKey.mem_front_iff id hsorted).mpr
      ⟨hsplit ▸ (hmem _).mpr ⟨row, hrow, rfl⟩, hlt⟩
    have hnot := hfront _ hbefore
    rw [(hnonempty _).mpr hinvoiceable] at hnot
    cases hnot
  · intro h
    obtain ⟨row, hrow, hparent, -⟩ := h.invoiceable
    obtain ⟨front, back, hsplit⟩ := List.append_of_mem ((hmem parent).mpr ⟨row, hrow, hparent⟩)
    refine ⟨(hnonempty parent).mpr h.invoiceable, front, back, hsplit, fun name hname => ?_⟩
    rw [hsplit] at hsorted
    obtain ⟨hlisted, hlt⟩ := (SortedByKey.mem_front_iff id hsorted).mp hname
    rw [← hsplit] at hlisted
    obtain ⟨other, hother, rfl⟩ := (hmem name).mp hlisted
    rw [Bool.not_eq_true', ← Bool.not_eq_true, hnonempty]
    exact h.first other hother hlt

/-- The items of a receipt are its rows with a positive portion. -/
theorem mem_candidateRows {parent : Text} {given : PurchaseReceiptItem × ℚ} :
    given ∈ candidateRows t progress rows parent ↔
      ∃ front row back, parentRows rows parent = front ++ row :: back ∧
        0 < givenQty t progress rows front row ∧
        given = (row, givenQty t progress rows front row) :=
  Capped.mem_serve_iff _ _ remainingByPo_nonneg

/-- What the items of a receipt bill of an order row. -/
theorem served_candidateRows (parent poRow : Text) :
    Capped.served PurchaseReceiptItem.purchaseOrderItem poRow
        (candidateRows t progress rows parent) =
      min (openOfOrderItem t rows parent poRow) (remainingByPo t progress rows poRow) := by
  rw [candidateRows, Capped.served_serve _ _ remainingByPo_nonneg]
  congr 1
  rw [Capped.wanted, openOfOrderItem, parentRows]
  have hperm := SortedByKey.perm_sortBy PurchaseReceiptItem.name
    (rows.filter fun row => row.parent = parent)
  rw [((hperm.filter _).map _).sum_eq, List.filter_filter]
  simp only [Bool.decide_and, Bool.and_comm]

end Planned

/-! ## The intent -/

theorem mem_receiptItems_of_submitted {t : Tables} {run : P2pRun} {progress : Progress}
    {row : PurchaseReceiptItem} (h : row ∈ submittedReceiptItems t run progress) :
    row ∈ t.receiptItems ∧ row.purchaseOrderItem ∈ progress.rows.map RowFact.sourceRow := by
  obtain ⟨hread, -⟩ := List.mem_filter.mp h
  obtain ⟨hmem, hrow⟩ := List.mem_filter.mp (List.mem_of_mem_take hread)
  exact ⟨hmem, of_decide_eq_true hrow⟩

/-- The planned invoice of a receipt. -/
def invoiceIntent (t : Tables) (run : P2pRun) (record : GoalRecord) (progress : Progress)
    (parent : Text) : CandidateIntent :=
  candidateIntent run record .createPiDraft "Purchase Receipt" parent
    ((candidateRows t progress (submittedReceiptItems t run progress) parent).map invoiceItem)
    none "invoice the submitted receipt quantity still missing from the target"

/-- An invoice is planned for the first receipt that is invoiceable. -/
theorem invoiceableReceiptIntent_eq_some {t : Tables} {run : P2pRun} {record : GoalRecord}
    {progress : Progress} {intent : CandidateIntent} :
    (invoiceableReceiptIntent t run record progress).1 = some intent ↔
      ∃ parent, FirstInvoiceable t progress (submittedReceiptItems t run progress) parent ∧
        intent = invoiceIntent t run record progress parent := by
  have hrows : ∀ parent,
      FirstInvoiceable t progress (submittedReceiptItems t run progress) parent →
        progress.rows ≠ [] ∧ readReceiptItems t progress ≠ [] ∧
          submittedReceiptItems t run progress ≠ [] := by
    intro parent h
    obtain ⟨row, hrow, -⟩ := h.invoiceable
    have hread := (List.mem_filter.mp hrow).1
    obtain ⟨target, htarget, -⟩ := List.mem_map.mp (mem_receiptItems_of_submitted hrow).2
    exact ⟨List.ne_nil_of_mem htarget, List.ne_nil_of_mem hread, List.ne_nil_of_mem hrow⟩
  unfold invoiceableReceiptIntent
  dsimp only
  constructor
  · intro h
    split_ifs at h
    split at h
    · rename_i parent hparent
      exact ⟨parent, invoiceableParent_eq_some.mp hparent, (Option.some.inj h).symm⟩
    · cases h
  · rintro ⟨parent, hfirst, hintent⟩
    obtain ⟨hprogress, hread, hsubmitted⟩ := hrows parent hfirst
    rw [if_neg hprogress, if_neg hread]
    simp only [if_neg hsubmitted, invoiceableParent_eq_some.mpr hfirst, hintent, invoiceIntent]

/-- What a planned invoice bills of an order row. -/
theorem plannedQty_invoiceIntent {t : Tables} {run : P2pRun} {record : GoalRecord}
    {progress : Progress} (parent poRow : Text) :
    plannedQty t (invoiceIntent t run record progress parent) poRow =
      min (openOfOrderItem t (submittedReceiptItems t run progress) parent poRow)
        (remainingByPo t progress (submittedReceiptItems t run progress) poRow) := by
  rw [← served_candidateRows, plannedQty, Capped.served]
  have hitems : (invoiceIntent t run record progress parent).items =
      (candidateRows t progress (submittedReceiptItems t run progress) parent).map
        invoiceItem := rfl
  rw [hitems, List.filter_map, List.map_map]
  have hrow : ∀ given ∈ candidateRows t progress (submittedReceiptItems t run progress) parent,
      orderRowOf t (invoiceItem given) = some given.1.purchaseOrderItem := by
    intro given hgiven
    obtain ⟨front, row, back, hsplit, -, rfl⟩ := mem_candidateRows.mp hgiven
    have hparentRow : row ∈ parentRows (submittedReceiptItems t run progress) parent := by
      rw [hsplit]
      exact List.mem_append_right _ List.mem_cons_self
    have hmem := (mem_receiptItems_of_submitted (mem_parentRows.mp hparentRow).1).1
    rw [orderRowOf, invoiceItem]
    cases hfind : t.receiptItems.find? fun other => other.name = row.name with
    | none =>
        have := List.find?_eq_none.mp hfind row hmem
        simp at this
    | some other =>
        have hname : other.name = row.name := by simpa using List.find?_some hfind
        rw [List.inj_on_of_nodup_map t.receiptItems_nodup (List.mem_of_find?_eq_some hfind) hmem
          hname]
        rfl
  congr 1
  apply congrArg (List.map Prod.snd)
  apply List.filter_congr
  intro given hgiven
  simp [hrow given hgiven]

theorem targetQtyOf_eq {progress : Progress} {target : RowFact} (h : target ∈ progress.rows) :
    targetQtyOf progress target.sourceRow = target.targetQty := by
  rw [targetQtyOf]
  cases hfind : progress.rows.find? fun row => row.sourceRow = target.sourceRow with
  | none =>
      have := List.find?_eq_none.mp hfind target h
      simp at this
  | some row =>
      have hname : row.sourceRow = target.sourceRow := by simpa using List.find?_some hfind
      rw [List.inj_on_of_nodup_map progress.rows_nodup (List.mem_of_find?_eq_some hfind) h hname]
      rfl

/-! ## When the plan stays within the goal -/

/-- What is open in the first invoiceable receipt fits what all submitted invoices leave. -/
structure Fits (t : Tables) (run : P2pRun) (progress : Progress) (parent : Text) : Prop where
  /-- Of each row of the receipt, what it is given is not billed yet. -/
  items : ∀ front row back,
    parentRows (submittedReceiptItems t run progress) parent = front ++ row :: back →
      0 < givenQty t progress (submittedReceiptItems t run progress) front row →
        givenQty t progress (submittedReceiptItems t run progress) front row ≤
          row.qty - billedOnReceiptItem t row
  /-- Of each target row, what is open in the receipt, cut at what `billed_by_po` leaves of the
  target, fits the target together with all that is billed. -/
  rows : ∀ target ∈ progress.rows,
    min (openOfOrderItem t (submittedReceiptItems t run progress) parent target.sourceRow)
        (max (target.targetQty -
          billedByPo t (submittedReceiptItems t run progress) target.sourceRow) 0) +
      billedOnOrderItem t target.sourceRow ≤ target.targetQty

theorem withinGoal_invoiceIntent {t : Tables} {run : P2pRun} {record : GoalRecord}
    {progress : Progress} {parent : Text} :
    WithinGoal t progress (invoiceIntent t run record progress parent) ↔
      Fits t run progress parent := by
  have hmem : ∀ front row back,
      parentRows (submittedReceiptItems t run progress) parent = front ++ row :: back →
        row ∈ t.receiptItems := by
    intro front row back hsplit
    have hrow : row ∈ parentRows (submittedReceiptItems t run progress) parent := by
      rw [hsplit]
      exact List.mem_append_right _ List.mem_cons_self
    exact (mem_receiptItems_of_submitted (mem_parentRows.mp hrow).1).1
  have hplanned : ∀ target ∈ progress.rows,
      plannedQty t (invoiceIntent t run record progress parent) target.sourceRow =
        min (openOfOrderItem t (submittedReceiptItems t run progress) parent target.sourceRow)
          (max (target.targetQty -
            billedByPo t (submittedReceiptItems t run progress) target.sourceRow) 0) := by
    intro target htarget
    rw [plannedQty_invoiceIntent, remainingByPo, if_pos (List.mem_map_of_mem htarget),
      targetQtyOf_eq htarget]
  constructor
  · intro h
    constructor
    · intro front row back hsplit hpos
      obtain ⟨row', hrow', hname, -, hle⟩ := h.items
        (invoiceItem (row, givenQty t progress (submittedReceiptItems t run progress) front row))
        (List.mem_map_of_mem (mem_candidateRows.mpr ⟨front, row, back, hsplit, hpos, rfl⟩))
      have hsame : row' = row := List.inj_on_of_nodup_map t.receiptItems_nodup hrow'
        (hmem front row back hsplit) hname
      exact hsame ▸ hle
    · intro target htarget
      rw [← hplanned target htarget]
      exact h.rows target htarget
  · intro h
    constructor
    · intro item hitem
      obtain ⟨given, hgiven, rfl⟩ := List.mem_map.mp hitem
      obtain ⟨front, row, back, hsplit, hpos, rfl⟩ := mem_candidateRows.mp hgiven
      exact ⟨row, hmem front row back hsplit, rfl, hpos, h.items front row back hsplit hpos⟩
    · intro target htarget
      rw [hplanned target htarget]
      exact h.rows target htarget

/-- Every planned invoice is within the goal exactly when the first invoiceable receipt, if
there is one, fits what all submitted invoices leave. -/
theorem invoicePlan_withinGoal_iff (t : Tables) (run : P2pRun) (record : GoalRecord)
    (progress : Progress) :
    (∀ intent, (invoiceableReceiptIntent t run record progress).1 = some intent →
        WithinGoal t progress intent) ↔
      ∀ parent, FirstInvoiceable t progress (submittedReceiptItems t run progress) parent →
        Fits t run progress parent := by
  constructor
  · intro h parent hfirst
    apply (@withinGoal_invoiceIntent t run record progress parent).mp
    exact h _ (invoiceableReceiptIntent_eq_some.mpr ⟨parent, hfirst, rfl⟩)
  · intro h intent hintent
    obtain ⟨parent, hfirst, rfl⟩ := invoiceableReceiptIntent_eq_some.mp hintent
    exact withinGoal_invoiceIntent.mpr (h parent hfirst)

/-- A receipt of an order fits as long as nothing of the order is billed. -/
theorem fits_of_unbilled {t : Tables} {run : P2pRun} {progress : Progress}
    (hnames : ∀ row ∈ submittedReceiptItems t run progress, row.name ≠ "None")
    (hitems : ∀ row ∈ submittedReceiptItems t run progress, billedOnReceiptItem t row = 0)
    (hrows : ∀ target ∈ progress.rows,
      0 ≤ target.targetQty ∧ billedOnOrderItem t target.sourceRow = 0) (parent : Text) :
    Fits t run progress parent := by
  constructor
  · intro front row back hsplit hpos
    have hrow : row ∈ parentRows (submittedReceiptItems t run progress) parent := by
      rw [hsplit]
      exact List.mem_append_right _ List.mem_cons_self
    have hmem := (mem_parentRows.mp hrow).1
    have hopen : openQty t (submittedReceiptItems t run progress) row = row.qty := by
      rw [openQty, billedByPrOf_eq_zero (hnames row hmem), sub_zero]
    have hgiven : givenQty t progress (submittedReceiptItems t run progress) front row ≤
        max row.qty 0 := hopen ▸ min_le_left _ _
    have hqty : 0 < row.qty := (lt_max_iff.mp (hpos.trans_le hgiven)).resolve_right (lt_irrefl _)
    rw [hitems row hmem, sub_zero]
    exact hgiven.trans (max_eq_left hqty.le).le
  · intro target htarget
    obtain ⟨hnonneg, hbilled⟩ := hrows target htarget
    rw [billedByPo_eq_zero hnames, hbilled, sub_zero, add_zero, max_eq_left hnonneg]
    exact min_le_right _ _

/-! ## A receipt that is billed in part -/

/-- An order row that was received in full, with a submitted invoice for half of the receipt
row. -/
def billedTables : Tables where
  orders := [⟨"PUR-ORD-0001", "Example", 1, "100", "50", "To Bill"⟩]
  orderItems := [⟨"row-1", "PUR-ORD-0001", "ITEM-1", "Nos", "Stores", some 10, some 10, some 50,
    some 10⟩]
  receipts := [⟨"PREC-0001", "Example", 1, "2026-07-19"⟩]
  receiptItems := [⟨"receipt-row-1", "PREC-0001", "PUR-ORD-0001", "row-1", "ITEM-1", "Nos",
    "Stores", 10, 10⟩]
  invoices := [⟨"PINV-0001", "Example", "Supplier", "EUR", "Creditors", "Unpaid", 1, some 50,
    some 50⟩]
  invoiceItems := [⟨"invoice-row-1", "PINV-0001", "PUR-ORD-0001", "row-1", "PREC-0001",
    "receipt-row-1", 5⟩]
  paymentEntries := []
  companies := []
  orderItems_nodup := by decide
  receiptItems_nodup := by decide
  invoices_nodup := by decide
  readable := fun _ => true
  linksAvailable := true
  today := "2026-07-19"

def billedProgress : Progress :=
  p2pGoalProgress billedTables rowRun ([] : List (Entry Interpreter.ascii)) rowRecord

/-- The invoice that is planned for the receipt. -/
def billedIntent : CandidateIntent :=
  invoiceIntent billedTables rowRun rowRecord billedProgress "PREC-0001"

/-- The next candidate of a run bills all ten units of a receipt row of which five are
billed. -/
theorem plan_beyond_goal :
    nextCandidateIntent billedTables rowRun rowRecord billedProgress
        ([] : List (Entry Interpreter.ascii)) = some (some billedIntent, []) ∧
      (invoiceableReceiptIntent billedTables rowRun rowRecord billedProgress).1 =
        some billedIntent ∧
      plannedQty billedTables billedIntent "row-1" = 10 ∧
      billedTables.receiptItems.map (billedOnReceiptItem billedTables) = [5] ∧
      billedOnOrderItem billedTables "row-1" = 5 ∧
      ¬WithinGoal billedTables billedProgress billedIntent := by
  have hplanned : plannedQty billedTables billedIntent "row-1" = 10 := by decide +kernel
  have hbilled : billedOnOrderItem billedTables "row-1" = 5 := by decide +kernel
  refine ⟨by decide +kernel, by decide +kernel, hplanned, by decide +kernel, hbilled,
    fun h => ?_⟩
  have hrows : billedProgress.rows.map (fun row => (row.sourceRow, row.targetQty)) =
      [(Text.ofString "row-1", 10)] := by
    decide +kernel
  obtain ⟨target, htarget, hpair⟩ := List.mem_map.mp
    (hrows.symm ▸ List.mem_singleton_self _ :
      (Text.ofString "row-1", (10 : ℚ)) ∈
        billedProgress.rows.map fun row => (row.sourceRow, row.targetQty))
  obtain ⟨hrow, hqty⟩ := Prod.ext_iff.mp hpair
  have hle := h.rows target htarget
  simp only at hrow hqty
  rw [hrow, hqty, hplanned, hbilled] at hle
  norm_num at hle

end Governance
