import SynoraErp.Governance.Gate

/-!
# The cancellation gate

Before a document is cancelled, a gate looks for submitted documents downstream of it. It
reads the child rows that reference the document, and then the parents of these rows; each
read returns at most fifty rows. The gate blocks exactly when a submitted parent stands
among the first fifty rows, so drafts and cancelled documents in front of it hide it.
-/

namespace Governance

open Python

/-- The name of a document, a key of at most 140 characters. -/
structure DocumentName where
  text : Text
  text_ne_nil : text ≠ []
  text_le : text.length ≤ 140
  deriving DecidableEq

theorem DocumentName.text_injective : Function.Injective DocumentName.text := by
  intro a b h
  cases a
  cases b
  cases h
  rfl

/-- A child row: the document it belongs to, and its links. -/
structure LinkRow where
  parent : Option DocumentName
  fields : List (String × Text)

structure DownstreamDocument where
  name : DocumentName
  docstatus : ℕ

/-- What the actor reads of the documents downstream, each table in the order in which a
listing returns its rows. -/
structure Downstream where
  receipts : List DownstreamDocument
  receiptItems : List LinkRow
  invoices : List DownstreamDocument
  invoiceItems : List LinkRow
  payments : List DownstreamDocument
  paymentReferences : List LinkRow

namespace CancelGate

/-- The row has the value of each filter. -/
def passes (filters : List (String × Text)) (row : LinkRow) : Bool :=
  filters.all fun filter => row.fields.lookup filter.1 == some filter.2

/-- `frappe.get_list(..., limit_page_length=limit)`. -/
def getList {α : Type} (limit : ℕ) (p : α → Bool) (rows : List α) : List α :=
  (rows.filter p).take limit

/-- The child rows a search reads. -/
def listed (rows : List LinkRow) (filters : List (String × Text)) : List LinkRow :=
  getList 50 (passes filters) rows

/-- `submitted_parents`. -/
def submittedParents (rows : List LinkRow) (filters : List (String × Text))
    (documents : List DownstreamDocument) : List Text :=
  let parents := sortedSet ((listed rows filters).filterMap fun row =>
    row.parent.map DocumentName.text)
  if parents = [] then []
  else
    let found := getList 50 (fun document =>
      parents.contains document.name.text && document.docstatus == 1) documents
    sortedSet (found.map fun document => document.name.text)

/-- `f"{doctype} {name}"`, for each name. -/
def labelled (doctype : String) (names : List Text) : List Text :=
  names.map fun name => Text.ofString doctype ++ Text.ofString " " ++ name

/-- The filters of the payment references to an invoice. -/
def paymentFilters (sourceName : Text) : List (String × Text) :=
  [("reference_name", sourceName), ("reference_doctype", "Purchase Invoice")]

/-- `blockers`. -/
def blockers (erp : Downstream) (sourceName : Text) : ActionType → List Text
  | .cancelPo =>
      labelled "Purchase Receipt" (submittedParents erp.receiptItems
          [("purchase_order", sourceName)] erp.receipts) ++
        labelled "Purchase Invoice" (submittedParents erp.invoiceItems
          [("purchase_order", sourceName)] erp.invoices)
  | .cancelPr =>
      labelled "Purchase Invoice" (submittedParents erp.invoiceItems
        [("purchase_receipt", sourceName)] erp.invoices)
  | .cancelPi =>
      labelled "Payment Entry" (submittedParents erp.paymentReferences
        (paymentFilters sourceName) erp.payments)
  | _ => []

/-- The first eight blockers, and the number of the others. -/
def shown (blockers : List Text) : Text :=
  List.intercalate (Text.ofString ", ") (blockers.take 8) ++
    if 8 < blockers.length then
      Text.ofString ", and " ++ natText (blockers.length - 8) ++ Text.ofString " more"
    else []

/-- `_p2p_cancel_dependency_gate`. -/
def cancelDependencyGate (erp : Downstream) (actionType : ActionType) (sourceName : Text) :
    Result (Option GateResult) :=
  let blockers := blockers erp sourceName actionType
  if blockers = [] then .ok none
  else do
    let result ← GateResult.build .fail
      (Text.ofString "submitted downstream documents block cancellation: " ++ shown blockers)
    .ok (some result)

/-! ## What the gate looks for -/

/-- One of the rows belongs to a submitted document. -/
def SubmittedAmong (rows : List LinkRow) (documents : List DownstreamDocument) : Prop :=
  ∃ row ∈ rows, ∃ document ∈ documents, document.docstatus = 1 ∧ row.parent = some document.name

/-- The rows that reference the source of a cancellation, with the documents they belong
to. -/
def references (erp : Downstream) (sourceName : Text) :
    ActionType → List (List LinkRow × List (String × Text) × List DownstreamDocument)
  | .cancelPo =>
      [(erp.receiptItems, [("purchase_order", sourceName)], erp.receipts),
        (erp.invoiceItems, [("purchase_order", sourceName)], erp.invoices)]
  | .cancelPr => [(erp.invoiceItems, [("purchase_receipt", sourceName)], erp.invoices)]
  | .cancelPi => [(erp.paymentReferences, paymentFilters sourceName, erp.payments)]
  | _ => []

/-- A submitted document downstream references the source. -/
def HasSubmittedDownstream (erp : Downstream) (sourceName : Text) (actionType : ActionType) :
    Prop :=
  ∃ r ∈ references erp sourceName actionType, SubmittedAmong (r.1.filter (passes r.2.1)) r.2.2

/-- One of the first fifty rows that reference the source, in one of the tables, belongs to
a submitted document. -/
def SubmittedInFirstRows (erp : Downstream) (sourceName : Text) (actionType : ActionType) :
    Prop :=
  ∃ r ∈ references erp sourceName actionType,
    SubmittedAmong ((r.1.filter (passes r.2.1)).take 50) r.2.2

theorem SubmittedInFirstRows.hasSubmittedDownstream {erp : Downstream} {sourceName : Text}
    {actionType : ActionType} (h : SubmittedInFirstRows erp sourceName actionType) :
    HasSubmittedDownstream erp sourceName actionType := by
  obtain ⟨r, hr, row, hrow, hdocument⟩ := h
  exact ⟨r, hr, row, List.mem_of_mem_take hrow, hdocument⟩

/-! ## The searches -/

theorem sortedSet_eq_nil {texts : List Text} : sortedSet texts = [] ↔ texts = [] := by
  rw [sortedSet, ← List.length_eq_zero_iff, List.length_insertionSort, List.length_eq_zero_iff,
    List.dedup_eq_nil]

theorem length_sortedSet_le (texts : List Text) : (sortedSet texts).length ≤ texts.length := by
  rw [sortedSet, List.length_insertionSort]
  exact (List.dedup_sublist texts).length_le

/-- A search finds a name exactly when a row that it reads belongs to a submitted document:
the second read has room for every parent. -/
theorem submittedParents_ne_nil {rows : List LinkRow} {filters : List (String × Text)}
    {documents : List DownstreamDocument} :
    submittedParents rows filters documents ≠ [] ↔
      SubmittedAmong (listed rows filters) documents := by
  have hmem : ∀ name : Text, name ∈ sortedSet ((listed rows filters).filterMap fun row =>
      row.parent.map DocumentName.text) ↔
        ∃ row ∈ listed rows filters, row.parent.map DocumentName.text = some name := by
    intro name
    rw [mem_sortedSet, List.mem_filterMap]
  rw [submittedParents]
  split_ifs with hparents
  · constructor
    · intro h
      exact absurd rfl h
    · rintro ⟨row, hrow, document, -, -, hparent⟩
      have : document.name.text ∈ ([] : List Text) := by
        rw [← hparents, hmem]
        exact ⟨row, hrow, by rw [hparent, Option.map_some]⟩
      cases this
  · rw [Ne, sortedSet_eq_nil, List.map_eq_nil_iff, getList, List.take_eq_nil_iff]
    simp only [OfNat.ofNat_ne_zero, false_or, List.filter_eq_nil_iff, not_forall, not_not,
      Bool.and_eq_true, List.contains_iff_mem, hmem, beq_iff_eq]
    constructor
    · rintro ⟨document, hdocument, ⟨row, hrow, hname⟩, hstatus⟩
      obtain ⟨parent, hparent, heq⟩ := Option.map_eq_some_iff.mp hname
      rw [DocumentName.text_injective heq] at hparent
      exact ⟨row, hrow, document, hdocument, hstatus, hparent⟩
    · rintro ⟨row, hrow, document, hdocument, hstatus, hparent⟩
      exact ⟨document, hdocument, ⟨row, hrow, by rw [hparent, Option.map_some]⟩, hstatus⟩

theorem length_submittedParents_le (rows : List LinkRow) (filters : List (String × Text))
    (documents : List DownstreamDocument) :
    (submittedParents rows filters documents).length ≤ 50 := by
  rw [submittedParents]
  split_ifs
  · exact Nat.zero_le _
  · apply (length_sortedSet_le _).trans
    rw [List.length_map]
    exact List.length_take_le _ _

theorem length_of_mem_submittedParents {rows : List LinkRow} {filters : List (String × Text)}
    {documents : List DownstreamDocument} {name : Text}
    (h : name ∈ submittedParents rows filters documents) : name.length ≤ 140 := by
  rw [submittedParents] at h
  split_ifs at h
  · cases h
  · obtain ⟨document, -, rfl⟩ := List.mem_map.mp (mem_sortedSet.mp h)
    exact document.name.text_le

/-! ## The reason of a refusal -/

theorem length_blockers_le (erp : Downstream) (sourceName : Text) (actionType : ActionType) :
    (blockers erp sourceName actionType).length ≤ 100 := by
  cases actionType with
  | cancelPo =>
      have hreceipts := length_submittedParents_le erp.receiptItems
        [("purchase_order", sourceName)] erp.receipts
      have hinvoices := length_submittedParents_le erp.invoiceItems
        [("purchase_order", sourceName)] erp.invoices
      simp only [blockers, labelled, List.length_append, List.length_map]
      omega
  | cancelPr =>
      rw [blockers, labelled, List.length_map]
      exact (length_submittedParents_le _ _ _).trans (by decide)
  | cancelPi =>
      rw [blockers, labelled, List.length_map]
      exact (length_submittedParents_le _ _ _).trans (by decide)
  | _ => exact Nat.zero_le _

theorem length_of_mem_labelled {doctype : String} (hdoctype : doctype.toList.length ≤ 16)
    {rows : List LinkRow} {filters : List (String × Text)}
    {documents : List DownstreamDocument} {blocker : Text}
    (h : blocker ∈ labelled doctype (submittedParents rows filters documents)) :
    blocker.length ≤ 157 := by
  obtain ⟨name, hname, rfl⟩ := List.mem_map.mp h
  have hle := length_of_mem_submittedParents hname
  have hspace : (Text.ofString " ").length = 1 := by decide
  rw [List.length_append, List.length_append, hspace, Text.ofString_eq, List.length_map]
  omega

/-- A blocker is a doctype and a name. -/
theorem length_of_mem_blockers {erp : Downstream} {sourceName : Text} {actionType : ActionType}
    {blocker : Text} (h : blocker ∈ blockers erp sourceName actionType) :
    blocker.length ≤ 157 := by
  cases actionType with
  | cancelPo =>
      cases List.mem_append.mp h with
      | inl hreceipt => exact length_of_mem_labelled (by decide) hreceipt
      | inr hinvoice => exact length_of_mem_labelled (by decide) hinvoice
  | cancelPr => exact length_of_mem_labelled (by decide) h
  | cancelPi => exact length_of_mem_labelled (by decide) h
  | _ => cases h

/-- Texts joined by a separator are as long as the texts and a separator after each. -/
theorem length_intercalate_le (separator : Text) {bound : ℕ} {texts : List Text}
    (h : ∀ text ∈ texts, text.length ≤ bound) :
    (List.intercalate separator texts).length ≤ texts.length * (bound + separator.length) := by
  induction texts with
  | nil => exact Nat.zero_le _
  | cons text texts ih =>
      have hhead := h text List.mem_cons_self
      have htail := ih fun t ht => h t (List.mem_cons_of_mem _ ht)
      cases texts with
      | nil => simp [List.intercalate]; omega
      | cons next rest =>
          rw [List.intercalate_cons_cons, List.length_append, List.length_append,
            List.length_cons, Nat.succ_mul]
          omega

theorem length_natText_le {n : ℕ} (h : n < 100) : (natText n).length ≤ 2 := by
  rw [natText, digitsText, List.length_map, length_natDigits]
  exact Nat.log_lt_of_lt_pow' (by decide) h

theorem length_shown_le {blockers : List Text} (hlength : blockers.length ≤ 100)
    (hblockers : ∀ blocker ∈ blockers, blocker.length ≤ 157) : (shown blockers).length ≤ 1300 := by
  have hfirst : ∀ blocker ∈ blockers.take 8, blocker.length ≤ 157 :=
    fun blocker h => hblockers blocker (List.mem_of_mem_take h)
  have hjoined := length_intercalate_le (Text.ofString ", ") hfirst
  have hseparator : (Text.ofString ", ").length = 2 := by decide
  have htake : (blockers.take 8).length ≤ 8 := List.length_take_le _ _
  have hcount := length_natText_le (show blockers.length - 8 < 100 by omega)
  have hand : (Text.ofString ", and ").length = 6 := by decide
  have hmore : (Text.ofString " more").length = 5 := by decide
  rw [hseparator] at hjoined
  have hjoined' : (List.intercalate (Text.ofString ", ") (blockers.take 8)).length ≤ 8 * 159 :=
    hjoined.trans (Nat.mul_le_mul_right _ htake)
  rw [shown, List.length_append]
  split_ifs
  · rw [List.length_append, List.length_append, hand, hmore]
    omega
  · rw [List.length_nil]
    omega

/-- The gate raises nothing: it passes without blockers, and fails with them. -/
theorem cancelDependencyGate_spec (erp : Downstream) (actionType : ActionType)
    (sourceName : Text) :
    (blockers erp sourceName actionType = [] ∧
        cancelDependencyGate erp actionType sourceName = .ok none) ∨
      (blockers erp sourceName actionType ≠ [] ∧ ∃ result,
        cancelDependencyGate erp actionType sourceName = .ok (some result) ∧
          result.status = .fail) := by
  by_cases hblockers : blockers erp sourceName actionType = []
  · left
    exact ⟨hblockers, by rw [cancelDependencyGate, if_pos hblockers]⟩
  · right
    have hshown := length_shown_le (length_blockers_le erp sourceName actionType)
      fun blocker => length_of_mem_blockers
    have hprefix : (Text.ofString
        "submitted downstream documents block cancellation: ").length = 51 := by decide
    have hlength : (Text.ofString "submitted downstream documents block cancellation: " ++
        shown (blockers erp sourceName actionType)).length =
          51 + (shown (blockers erp sourceName actionType)).length := by
      rw [List.length_append, hprefix]
    obtain ⟨result, hbuild, hstatus, -⟩ := GateResult.exists_build .fail
      (List.ne_nil_of_length_pos (by rw [hlength]; omega)) (hlength.le.trans (by omega))
    refine ⟨hblockers, result, ?_, hstatus⟩
    rw [cancelDependencyGate, if_neg hblockers, hbuild]
    rfl

/-! ## When the gate is right -/

theorem labelled_ne_nil {doctype : String} {names : List Text} :
    labelled doctype names ≠ [] ↔ names ≠ [] := by
  rw [labelled, Ne, List.map_eq_nil_iff]

theorem blockers_ne_nil (erp : Downstream) (sourceName : Text) (actionType : ActionType) :
    blockers erp sourceName actionType ≠ [] ↔
      SubmittedInFirstRows erp sourceName actionType := by
  cases actionType with
  | cancelPo =>
      rw [blockers, Ne, List.append_eq_nil_iff, not_and_or, ← Ne, ← Ne, labelled_ne_nil,
        labelled_ne_nil, submittedParents_ne_nil, submittedParents_ne_nil]
      simp [SubmittedInFirstRows, references, listed, getList]
  | cancelPr =>
      rw [blockers, labelled_ne_nil, submittedParents_ne_nil]
      simp [SubmittedInFirstRows, references, listed, getList]
  | cancelPi =>
      rw [blockers, labelled_ne_nil, submittedParents_ne_nil]
      simp [SubmittedInFirstRows, references, listed, getList]
  | _ => simp [blockers, SubmittedInFirstRows, references]

theorem blocks_iff (erp : Downstream) (sourceName : Text) (actionType : ActionType) :
    (∃ result, cancelDependencyGate erp actionType sourceName = .ok (some result) ∧
        result.status ≠ .pass) ↔
      SubmittedInFirstRows erp sourceName actionType := by
  rw [← blockers_ne_nil]
  cases cancelDependencyGate_spec erp actionType sourceName with
  | inl h => simp [h.1, h.2]
  | inr h =>
      obtain ⟨hblockers, result, hgate, hstatus⟩ := h
      simp [hblockers, hgate, hstatus]

/-- The gate blocks exactly the cancellations it should, when a submitted document that
references the source is met among the first fifty rows of a table, or there is none. -/
theorem cancelDependencyGate_complete_iff (erp : Downstream) (sourceName : Text)
    (actionType : ActionType) :
    ((∃ result, cancelDependencyGate erp actionType sourceName = .ok (some result) ∧
        result.status ≠ .pass) ↔ HasSubmittedDownstream erp sourceName actionType) ↔
      (HasSubmittedDownstream erp sourceName actionType →
        SubmittedInFirstRows erp sourceName actionType) := by
  rw [blocks_iff]
  constructor
  · intro h
    exact h.mpr
  · intro h
    exact ⟨SubmittedInFirstRows.hasSubmittedDownstream, h⟩

/-! ## A submitted receipt behind a draft of fifty lines -/

def draftReceipt : DocumentName := ⟨"MAT-PRE-00041", by decide, by decide⟩

def submittedReceipt : DocumentName := ⟨"MAT-PRE-00042", by decide, by decide⟩

/-- The receipts of an order: a draft of fifty lines, and a submitted one of one line. -/
def hiddenReceipt : Downstream where
  receipts := [⟨draftReceipt, 0⟩, ⟨submittedReceipt, 1⟩]
  receiptItems :=
    List.replicate 50 ⟨some draftReceipt, [("purchase_order", "PUR-ORD-00007")]⟩ ++
      [⟨some submittedReceipt, [("purchase_order", "PUR-ORD-00007")]⟩]
  invoices := []
  invoiceItems := []
  payments := []
  paymentReferences := []

/-- The order can be cancelled, although it has a submitted receipt. -/
theorem cancelDependencyGate_hiddenReceipt :
    ¬((∃ result, cancelDependencyGate hiddenReceipt .cancelPo "PUR-ORD-00007" =
        .ok (some result) ∧ result.status ≠ .pass) ↔
      HasSubmittedDownstream hiddenReceipt "PUR-ORD-00007" .cancelPo) := by
  have hgate : cancelDependencyGate hiddenReceipt .cancelPo "PUR-ORD-00007" = .ok none := by
    have hblockers : blockers hiddenReceipt "PUR-ORD-00007" .cancelPo = [] := by decide +kernel
    rw [cancelDependencyGate, if_pos hblockers]
  have hsubmitted : HasSubmittedDownstream hiddenReceipt "PUR-ORD-00007" .cancelPo := by
    refine ⟨_, List.mem_cons_self, ⟨some submittedReceipt, [("purchase_order", "PUR-ORD-00007")]⟩,
      ?_, ⟨submittedReceipt, 1⟩, by simp [hiddenReceipt], rfl, rfl⟩
    apply List.mem_filter.mpr
    exact ⟨List.mem_append_right _ List.mem_cons_self, by decide⟩
  intro h
  obtain ⟨result, hresult, -⟩ := h.mpr hsubmitted
  rw [hgate] at hresult
  cases hresult

end CancelGate

end Governance
