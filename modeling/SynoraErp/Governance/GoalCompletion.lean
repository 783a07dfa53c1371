import Mathlib.Algebra.Order.BigOperators.Group.List
import SynoraErp.Governance.ErpFacts
import SynoraErp.Order.Capped

/-!
# Completion of a goal

The progress of a confirmed goal, and what a progress that is complete says of every
target row and of every linked invoice.
-/

namespace Governance

open Python Erp

variable {I : Interpreter}

/-- What `p2p_goal_progress` returns. The rows are of distinct source rows. -/
structure Progress where
  goalState : GoalState
  goalVersion : ℕ
  goalDigest : Option Text
  complete : Bool
  targetQty : ℚ
  receivedQty : ℚ
  remainingQty : ℚ
  targetAmount : ℚ
  billedAmount : ℚ
  remainingAmount : ℚ
  outstandingAmount : ℚ
  source : Option SourceFact
  rows : List RowFact
  invoices : List InvoiceFact
  blockedReasons : List Text
  rows_nodup : (rows.map RowFact.sourceRow).Nodup

/-- The progress of a goal that is not confirmed. -/
def baseProgress (record : GoalRecord) : Progress where
  goalState := record.state
  goalVersion := record.version
  goalDigest := record.digest
  complete := false
  targetQty := 0
  receivedQty := 0
  remainingQty := 0
  targetAmount := 0
  billedAmount := 0
  remainingAmount := 0
  outstandingAmount := 0
  source := none
  rows := []
  invoices := []
  blockedReasons := ["P2P business goal requires initiator confirmation"]
  rows_nodup := List.nodup_nil

/-- `governed_draft_names`: the invoices that actions of the run drafted. -/
def governedDraftNames (entries : List (Entry I)) : List Text :=
  entries.filterMap fun e =>
    if e.actionType = .createPiDraft ∧ e.receiptIn ReceiptState.isSuccess = true then
      (e.receipt.bind fun r => recordedRef r.target).map Prod.snd
    else none

/-- The rows of `facts`. -/
def factRows (facts : Option (SourceFact × List RowFact)) : List RowFact :=
  (facts.map Prod.snd).getD []

/-- What is wrong with a goal whose billed amount is reached without an invoice. -/
def missingInvoice (rows : List RowFact) (invoices : List InvoiceFact) : List Text :=
  if (rows.map RowFact.targetAmount).sum ≤
      (rows.map fun row => min row.billedAmount row.targetAmount).sum ∧ invoices = [] then
    ["no submitted Purchase Invoice is linked to the target rows"]
  else []

/-- The reasons against a confirmed goal. -/
def goalReasons (t : Tables) (run : P2pRun) (entries : List (Entry I)) (goal : P2pGoal) :
    List Text :=
  (sourceGoalFacts t run goal).2 ++
    (linkedInvoiceFacts t goal (governedDraftNames entries)).2 ++
    missingInvoice (factRows (sourceGoalFacts t run goal).1)
      (linkedInvoiceFacts t goal (governedDraftNames entries)).1

/-- The facts of the target rows are of distinct rows. -/
theorem nodup_factRows (t : Tables) (run : P2pRun) (goal : P2pGoal) :
    ((factRows (sourceGoalFacts t run goal).1).map RowFact.sourceRow).Nodup := by
  have hsub : ((goal.sourceRows.map (rowFact (readOrderItems t goal))).filterMap Prod.fst).map
      RowFact.sourceRow |>.Sublist goal.rowNames := by
    rw [P2pGoal.rowNames]
    induction goal.sourceRows with
    | nil => exact List.nil_sublist _
    | cons target rows ih =>
        rw [List.map_cons, List.map_cons]
        cases hfact : (rowFact (readOrderItems t goal) target).1 with
        | none =>
            rw [List.filterMap_cons_none hfact]
            exact ih.cons _
        | some fact =>
            obtain ⟨row, -, hname, -⟩ := rowFact_eq_some hfact
            rw [List.filterMap_cons_some hfact, List.map_cons, hname]
            exact ih.cons_cons _
  unfold sourceGoalFacts
  split_ifs
  · exact List.nodup_nil
  · split
    · exact List.nodup_nil
    · split_ifs
      · exact List.nodup_nil
      · exact goal.sourceRows_nodup.sublist hsub

/-- `p2p_goal_progress` of a confirmed goal. -/
def confirmedProgress (t : Tables) (run : P2pRun) (entries : List (Entry I))
    (record : GoalRecord) (goal : P2pGoal) : Progress :=
  let facts := (sourceGoalFacts t run goal).1
  let rows := factRows facts
  let invoices := (linkedInvoiceFacts t goal (governedDraftNames entries)).1
  let reasons := goalReasons t run entries goal
  let targetQty := (rows.map RowFact.targetQty).sum
  let receivedQty := (rows.map fun row => min row.receivedQty row.targetQty).sum
  let targetAmount := (rows.map RowFact.targetAmount).sum
  let billedAmount := (rows.map fun row => min row.billedAmount row.targetAmount).sum
  let outstanding := (invoices.map InvoiceFact.outstandingAmount).sum
  { goalState := if reasons = [] then record.state else .stale
    goalVersion := record.version
    goalDigest := record.digest
    complete := decide (reasons = [] ∧ rows.length = goal.sourceRows.length ∧
      targetQty ≤ receivedQty ∧ targetAmount ≤ billedAmount ∧ outstanding = 0)
    targetQty := targetQty
    receivedQty := receivedQty
    remainingQty := max (targetQty - receivedQty) 0
    targetAmount := targetAmount
    billedAmount := billedAmount
    remainingAmount := max (targetAmount - billedAmount) 0
    outstandingAmount := outstanding
    source := facts.map Prod.fst
    rows := rows
    invoices := invoices
    blockedReasons := SortedByKey.sortBy id reasons.dedup
    rows_nodup := nodup_factRows t run goal }

/-- `p2p_goal_progress`. -/
def p2pGoalProgress (t : Tables) (run : P2pRun) (entries : List (Entry I))
    (record : GoalRecord) : Progress :=
  match record.state, record.goal with
  | .confirmed, some goal => confirmedProgress t run entries record goal
  | _, _ => baseProgress record

theorem p2pGoalProgress_confirmed (t : Tables) (run : P2pRun) (entries : List (Entry I))
    {record : GoalRecord} {goal : P2pGoal} (hstate : record.state = .confirmed)
    (hgoal : record.goal = some goal) :
    p2pGoalProgress t run entries record = confirmedProgress t run entries record goal := by
  unfold p2pGoalProgress
  rw [hstate, hgoal]

/-! ## Completion, row by row -/

/-- A target row of the order is received and billed in full. -/
structure RowComplete (t : Tables) (goal : P2pGoal) (target : TargetRow)
    (row : Erp.PurchaseOrderItem) : Prop where
  mem : row ∈ t.orderItems
  parent : row.parent = goal.sourceName
  name : row.name = target.sourceRow
  received : ∃ received, row.receivedQty = some received ∧ target.targetQty ≤ received
  billed : ∃ billed rate, row.billedAmt = some billed ∧ row.rate = some rate ∧
    target.targetQty * rate ≤ billed

/-- The submitted invoice of a name is settled. -/
def Settled (t : Tables) (name : Text) : Prop :=
  ∀ invoice, t.invoice? name = some invoice → invoice.docstatus = 1 →
    invoice.outstandingAmount = some 0

theorem blockedReasons_eq_nil {t : Tables} {run : P2pRun} {entries : List (Entry I)}
    {record : GoalRecord} {goal : P2pGoal} :
    (confirmedProgress t run entries record goal).blockedReasons = [] ↔
      goalReasons t run entries goal = [] := by
  rw [confirmedProgress, SortedByKey.sortBy_eq_nil, List.dedup_eq_nil]

/-- Names of rows are primary keys, so the row of a target row is the one that is read. -/
theorem readOrderItems_eq {t : Tables} {goal : P2pGoal} {target : TargetRow}
    (htarget : target ∈ goal.sourceRows) {row : Erp.PurchaseOrderItem} :
    (readOrderItems t goal).find? (fun row => row.name = target.sourceRow) = some row ↔
      row ∈ t.orderItems ∧ row.parent = goal.sourceName ∧ row.name = target.sourceRow := by
  have hnames : target.sourceRow ∈ goal.rowNames := List.mem_map_of_mem htarget
  have hsub : ((t.orderItems.filter fun row =>
      row.parent = goal.sourceName ∧ row.name ∈ goal.rowNames).map
        Erp.PurchaseOrderItem.name).Nodup :=
    t.orderItems_nodup.sublist (List.filter_sublist.map _)
  have hread : readOrderItems t goal = t.orderItems.filter fun row =>
      row.parent = goal.sourceName ∧ row.name ∈ goal.rowNames := by
    apply List.take_of_length_le
    have hle : ((t.orderItems.filter fun row =>
        row.parent = goal.sourceName ∧ row.name ∈ goal.rowNames).map
          Erp.PurchaseOrderItem.name).length ≤ goal.rowNames.length := by
      apply List.Subperm.length_le
      apply hsub.subperm
      intro name hname
      obtain ⟨row, hrow, rfl⟩ := List.mem_map.mp hname
      exact (of_decide_eq_true (List.mem_filter.mp hrow).2).2
    rw [List.length_map, P2pGoal.rowNames, List.length_map] at hle
    exact hle.trans goal.sourceRows_le
  rw [hread]
  constructor
  · intro h
    have hmem := List.mem_filter.mp (List.mem_of_find?_eq_some h)
    have hname := List.find?_some h
    exact ⟨hmem.1, (of_decide_eq_true hmem.2).1, of_decide_eq_true hname⟩
  · intro ⟨hmem, hparent, hname⟩
    have hrow : row ∈ t.orderItems.filter fun row =>
        row.parent = goal.sourceName ∧ row.name ∈ goal.rowNames :=
      List.mem_filter.mpr ⟨hmem, decide_eq_true ⟨hparent, hname ▸ hnames⟩⟩
    cases hfind : (t.orderItems.filter fun row =>
        row.parent = goal.sourceName ∧ row.name ∈ goal.rowNames).find?
          (fun row => row.name = target.sourceRow) with
    | none =>
        have := List.find?_eq_none.mp hfind row hrow
        exact absurd (decide_eq_true hname) this
    | some found =>
        have hfound : found.name = target.sourceRow := by simpa using List.find?_some hfind
        rw [List.inj_on_of_nodup_map hsub (List.mem_of_find?_eq_some hfind) hrow
          (hfound.trans hname.symm)]

/-- The facts of the rows, when there is no reason against the order. -/
theorem sourceGoalFacts_of_no_reasons {t : Tables} {run : P2pRun} {goal : P2pGoal}
    (h : (sourceGoalFacts t run goal).2 = []) :
    factRows (sourceGoalFacts t run goal).1 =
        (goal.sourceRows.map (rowFact (readOrderItems t goal))).filterMap Prod.fst ∧
      (∀ target ∈ goal.sourceRows, (rowFact (readOrderItems t goal) target).2 = []) ∧
      ∃ order, t.orders.find? (fun order => order.name = goal.sourceName) = some order := by
  unfold sourceGoalFacts at h ⊢
  split_ifs at h ⊢
  split at h
  · cases h
  · rename_i order hfind
    split_ifs at h with hcompany
    rw [List.flatMap_eq_nil_iff] at h
    refine ⟨?_, fun target htarget => h _ (List.mem_map_of_mem htarget), order, hfind⟩
    rw [if_neg hcompany]
    rfl

/-- A property of all rows, in terms of the facts that were read. -/
theorem forall_factRows_iff {t : Tables} {run : P2pRun} {goal : P2pGoal}
    (h : (sourceGoalFacts t run goal).2 = []) :
    (∀ fact ∈ factRows (sourceGoalFacts t run goal).1,
        fact.targetQty ≤ fact.receivedQty ∧ fact.targetAmount ≤ fact.billedAmount) ↔
      ∀ target ∈ goal.sourceRows, ∃ row, RowComplete t goal target row := by
  obtain ⟨hrows, hnone, -⟩ := sourceGoalFacts_of_no_reasons h
  rw [hrows]
  constructor
  · intro hall target htarget
    obtain ⟨fact, hfact⟩ := rowFact_of_no_reasons (hnone target htarget)
    obtain ⟨row, hfind, -, hqty, hreceived, hbilled, hrate, hamount⟩ := rowFact_eq_some hfact
    obtain ⟨hmem, hparent, hname⟩ := (readOrderItems_eq htarget).mp hfind
    obtain ⟨hle, hle'⟩ := hall fact
      (List.mem_filterMap.mpr ⟨_, List.mem_map_of_mem htarget, hfact⟩)
    rw [hqty] at hle
    rw [hamount] at hle'
    exact ⟨row, hmem, hparent, hname, ⟨_, hreceived, hle⟩, ⟨_, _, hbilled, hrate, hle'⟩⟩
  · intro hall fact hfact
    obtain ⟨found, hfound, hfact⟩ := List.mem_filterMap.mp hfact
    obtain ⟨target, htarget, rfl⟩ := List.mem_map.mp hfound
    obtain ⟨row, hfind, -, hqty, hreceived, hbilled, hrate, hamount⟩ := rowFact_eq_some hfact
    obtain ⟨row', hrow⟩ := hall target htarget
    have hsame : row' = row := Option.some.inj <|
      ((readOrderItems_eq htarget).mpr ⟨hrow.mem, hrow.parent, hrow.name⟩).symm.trans hfind
    subst hsame
    obtain ⟨received, hreceived', hle⟩ := hrow.received
    obtain ⟨billed, rate, hbilled', hrate', hle'⟩ := hrow.billed
    obtain rfl := Option.some.inj (hreceived.symm.trans hreceived')
    obtain rfl := Option.some.inj (hbilled.symm.trans hbilled')
    obtain rfl := Option.some.inj (hrate.symm.trans hrate')
    rw [hqty, hamount]
    exact ⟨hle, hle'⟩

/-- As many facts as target rows, when there is no reason against the order. -/
theorem length_factRows {t : Tables} {run : P2pRun} {goal : P2pGoal}
    (h : (sourceGoalFacts t run goal).2 = []) :
    (factRows (sourceGoalFacts t run goal).1).length = goal.sourceRows.length := by
  obtain ⟨hrows, hnone, -⟩ := sourceGoalFacts_of_no_reasons h
  rw [hrows]
  generalize goal.sourceRows = targets at hnone
  induction targets with
  | nil => rfl
  | cons target targets ih =>
      obtain ⟨fact, hfact⟩ := rowFact_of_no_reasons (hnone target List.mem_cons_self)
      rw [List.map_cons, List.filterMap_cons_some hfact, List.length_cons, List.length_cons,
        ih fun target htarget => hnone target (List.mem_cons_of_mem _ htarget)]

/-- Nothing is outstanding in total exactly when every submitted invoice that was read is
settled, if there is no reason against an invoice. -/
theorem sum_outstanding_eq_zero_iff {t : Tables} {goal : P2pGoal} {ignored : List Text}
    (h : (linkedInvoiceFacts t goal ignored).2 = []) :
    ((linkedInvoiceFacts t goal ignored).1.map InvoiceFact.outstandingAmount).sum = 0 ↔
      ∀ name ∈ linkedInvoiceNames t goal, Settled t name := by
  unfold linkedInvoiceFacts at h ⊢
  split_ifs at h with havailable
  rw [if_neg havailable]
  have hnone : ∀ name ∈ linkedInvoiceNames t goal, (invoiceFact t ignored name).2 = [] :=
    fun name hname => List.flatMap_eq_nil_iff.mp h _ (List.mem_map_of_mem hname)
  have hnonneg : ∀ amount ∈ (((linkedInvoiceNames t goal).map (invoiceFact t ignored)).filterMap
      Prod.fst).map InvoiceFact.outstandingAmount, 0 ≤ amount := by
    intro amount hamount
    obtain ⟨fact, hfact, rfl⟩ := List.mem_map.mp hamount
    obtain ⟨found, hfound, hfact⟩ := List.mem_filterMap.mp hfact
    obtain ⟨name, hname, rfl⟩ := List.mem_map.mp hfound
    obtain ⟨invoice, hfind, hsubmitted, houtstanding⟩ := invoiceFact_eq_some hfact
    obtain ⟨fact', hfact', -, hle⟩ := invoiceFact_of_no_reasons hfind hsubmitted (hnone name hname)
    rw [hfact, Option.some.injEq] at hfact'
    exact hfact' ▸ hle
  constructor
  · intro hsum name hname invoice hfind hsubmitted
    obtain ⟨fact, hfact, houtstanding, -⟩ :=
      invoiceFact_of_no_reasons hfind hsubmitted (hnone name hname)
    have hmem : fact.outstandingAmount ∈ (((linkedInvoiceNames t goal).map
        (invoiceFact t ignored)).filterMap Prod.fst).map InvoiceFact.outstandingAmount :=
      List.mem_map_of_mem (List.mem_filterMap.mpr ⟨_, List.mem_map_of_mem hname, hfact⟩)
    rw [houtstanding, List.all_zero_of_le_zero_le_of_sum_eq_zero hnonneg hsum hmem]
  · intro hsettled
    apply List.sum_eq_zero
    intro amount hamount
    obtain ⟨fact, hfact, rfl⟩ := List.mem_map.mp hamount
    obtain ⟨found, hfound, hfact⟩ := List.mem_filterMap.mp hfact
    obtain ⟨name, hname, rfl⟩ := List.mem_map.mp hfound
    obtain ⟨invoice, hfind, hsubmitted, houtstanding⟩ := invoiceFact_eq_some hfact
    have hzero := hsettled name hname invoice hfind hsubmitted
    rw [houtstanding, Option.some.injEq] at hzero
    exact hzero

/-- A confirmed goal is complete exactly when there is no reason against it, each target
row is received and billed in full, and each linked submitted invoice that was read is
settled. -/
theorem confirmedProgress_complete {t : Tables} {run : P2pRun} {entries : List (Entry I)}
    {record : GoalRecord} {goal : P2pGoal} :
    (confirmedProgress t run entries record goal).complete = true ↔
      (confirmedProgress t run entries record goal).blockedReasons = [] ∧
        (∀ target ∈ goal.sourceRows, ∃ row, RowComplete t goal target row) ∧
        ∀ name ∈ linkedInvoiceNames t goal, Settled t name := by
  rw [blockedReasons_eq_nil]
  simp only [confirmedProgress, decide_eq_true_eq]
  refine and_congr_right fun hreasons => ?_
  obtain ⟨hfirst, -⟩ := List.append_eq_nil_iff.mp hreasons
  obtain ⟨hsource, hinvoices⟩ := List.append_eq_nil_iff.mp hfirst
  rw [Capped.sum_le_sum_map_min_iff RowFact.targetQty RowFact.receivedQty,
    Capped.sum_le_sum_map_min_iff RowFact.targetAmount RowFact.billedAmount,
    sum_outstanding_eq_zero_iff hinvoices, ← forall_factRows_iff hsource]
  constructor
  · intro ⟨_, hreceived, hbilled, hsettled⟩
    exact ⟨fun fact hfact => ⟨hreceived fact hfact, hbilled fact hfact⟩, hsettled⟩
  · intro ⟨hrows, hsettled⟩
    exact ⟨length_factRows hsource, fun fact hfact => (hrows fact hfact).1,
      fun fact hfact => (hrows fact hfact).2, hsettled⟩

end Governance
