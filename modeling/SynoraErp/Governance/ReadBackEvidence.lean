import SynoraErp.Governance.ReadBack
import SynoraErp.Governance.Receipt

/-!
# The shape of the evidence

The keys of the evidence a verifier returns depend on the action type and on the
number of approved lines only, and its values are texts and integers.
-/

namespace Governance

open Python

/-- Evidence with the given keys, and scalars under them. -/
structure IsEvidence (keys : List Text) (e : Evidence) : Prop where
  keys_eq : Dict.keys e = keys
  scalar : ∀ p ∈ e, IsScalar p.2

theorem IsEvidence.nil : IsEvidence [] [] := ⟨rfl, by simp⟩

theorem IsEvidence.append {keys keys' : List Text} {e e' : Evidence} (h : IsEvidence keys e)
    (h' : IsEvidence keys' e') : IsEvidence (keys ++ keys') (e ++ e') where
  keys_eq := by rw [Dict.keys_append, h.keys_eq, h'.keys_eq]
  scalar p hp := by
    rcases List.mem_append.mp hp with hp | hp
    · exact h.scalar p hp
    · exact h'.scalar p hp

theorem IsEvidence.length_eq {keys : List Text} {e : Evidence} (h : IsEvidence keys e) :
    e.length = keys.length := by
  rw [← h.keys_eq, Dict.keys, List.length_map]

/-- The keys of the rows from a number on. -/
def rowKeys (fields : List String) : ℕ → ℕ → List Text
  | _, 0 => []
  | index, n + 1 =>
      fields.map (fun field => Text.ofString (itemField index field)) ++
        rowKeys fields (index + 1) n

theorem length_rowKeys (fields : List String) (index n : ℕ) :
    (rowKeys fields index n).length = fields.length * n := by
  induction n generalizing index with
  | zero => rfl
  | succ n ih =>
      rw [rowKeys, List.length_append, List.length_map, ih]
      ring

theorem mem_rowKeys {fields : List String} {index n : ℕ} {key : Text}
    (h : key ∈ rowKeys fields index n) :
    ∃ i field, (index ≤ i ∧ i < index + n) ∧ field ∈ fields ∧
      key = Text.ofString (itemField i field) := by
  induction n generalizing index with
  | zero => simp [rowKeys] at h
  | succ n ih =>
      rw [rowKeys, List.mem_append, List.mem_map] at h
      rcases h with ⟨field, hfield, rfl⟩ | h
      · exact ⟨index, field, by omega, hfield, rfl⟩
      · obtain ⟨i, field, hi, hfield, hkey⟩ := ih h
        exact ⟨i, field, by omega, hfield, hkey⟩

theorem toList_itemField (i : ℕ) (field : String) :
    (itemField i field).toList = "item_".toList ++ (i.repr.toList ++ '.' :: field.toList) := by
  simp [itemField, toString, String.toList_append]

/-- The keys of the evidence past its head, row by row. -/
def rowFields : ActionType → List String
  | .createMrDraft => ["item_code", "warehouse", "schedule_date", "qty", "uom"]
  | .createPoDraft =>
      ["item_code", "warehouse", "schedule_date", "uom", "conversion_factor", "qty", "rate",
        "amount", "material_request"]
  | .createPrDraft =>
      ["item_code", "qty", "purchase_order_item", "purchase_order", "warehouse", "uom"]
  | .createPiDraft =>
      ["item_code", "qty", "pr_detail", "purchase_receipt", "warehouse", "uom", "rate", "amount"]
  | _ => []

/-- The keys of the evidence that do not name a row. -/
def headFields : ActionType → List String
  | .createMrDraft =>
      ["docstatus", "company", "material_request_type", "transaction_date", "items_count"]
  | .createPoDraft =>
      ["docstatus", "supplier", "company", "currency", "buying_price_list", "transaction_date",
        "conversion_rate", "schedule_date", "items_count"]
  | .createPrDraft | .createPiDraft =>
      ["doctype", "docstatus", "company", "source_name", "posting_date", "items_count"]
  | .createPaymentEntryDraft =>
      ["doctype", "docstatus", "company", "party_type", "party", "payment_type", "paid_from",
        "paid_to", "paid_amount", "received_amount", "total_allocated_amount",
        "unallocated_amount", "reference_name", "reference_allocated_amount", "references_count"]
  | _ => ["doctype", "docstatus", "company", "source_name"]

/-- The keys of the evidence for a number of approved lines. -/
def evidenceKeys (t : ActionType) (n : ℕ) : List Text :=
  (headFields t).map Text.ofString ++ rowKeys (rowFields t) 0 n

section Shape

variable {I : Interpreter}

/-- The number of approved lines; an action without lines has none. -/
def lineCount : {t : ActionType} → PayloadFor I t → ℕ
  | .createMrDraft, p => (MaterialRequestPayload.items p).items.length
  | .createPoDraft, p => (PurchaseOrderPayload.items p).items.length
  | .createPrDraft, p => (DraftPayload.items p).items.length
  | .createPiDraft, p => (DraftPayload.items p).items.length
  | _, _ => 0

/-- No action has more lines than the contracts accept. -/
theorem lineCount_le {t : ActionType} (p : PayloadFor I t) : lineCount p ≤ 100 := by
  cases t with
  | createMrDraft => exact (MaterialRequestPayload.items p).length_le
  | createPoDraft => exact (PurchaseOrderPayload.items p).length_le
  | createPrDraft => exact (DraftPayload.items p).length_le
  | createPiDraft => exact (DraftPayload.items p).length_le
  | _ => exact Nat.zero_le _

namespace ReadBack

theorem isEvidence_eachRow {α : Type} {verify : ℕ → Row → α → Result Evidence}
    {fields : List String}
    (hrow : ∀ index actual expected e, verify index actual expected = .ok e →
      IsEvidence (fields.map fun field => Text.ofString (itemField index field)) e)
    {index : ℕ} {rows : List Row} {items : List α} {e : Evidence}
    (hlength : rows.length = items.length) (h : eachRow verify index rows items = .ok e) :
    IsEvidence (rowKeys fields index items.length) e := by
  induction rows generalizing index items e with
  | nil =>
      obtain rfl := List.length_eq_zero_iff.mp hlength.symm
      simp only [eachRow] at h
      rw [← Except.ok.inj h]
      exact IsEvidence.nil
  | cons actual rows ih =>
      obtain ⟨expected, items, rfl⟩ := List.exists_cons_of_length_pos
        (show 0 < items.length by rw [← hlength]; exact Nat.succ_pos _)
      simp only [eachRow, bind_eq_ok] at h
      obtain ⟨first, hfirst, rest, hrest, h⟩ := h
      rw [← Except.ok.inj h]
      exact (hrow _ _ _ _ hfirst).append (ih (by simpa using hlength) hrest)

theorem isEvidence_materialRequestRow {index : ℕ} {actual : Row}
    {expected : MaterialRequestItem I} {e : Evidence}
    (h : materialRequestRow I index actual expected = .ok e) :
    IsEvidence ((rowFields .createMrDraft).map fun field =>
      Text.ofString (itemField index field)) e := by
  simp only [materialRequestRow, bind_eq_ok] at h
  obtain ⟨-, -, -, -, -, -, qty, -, qtyText, -, -, -, -, -, h⟩ := h
  rw [← Except.ok.inj h]
  exact ⟨rfl, by simp [entry, IsScalar]⟩

theorem isEvidence_materialRequest {p : MaterialRequestPayload I} {doc : Document} {e : Evidence}
    (h : materialRequest I p doc = .ok e) :
    IsEvidence (evidenceKeys .createMrDraft p.items.items.length) e := by
  simp only [materialRequest, ite_error_eq_ok, bind_eq_ok] at h
  obtain ⟨-, -, -, -, -, -, -, hlength, items, hitems, h⟩ := h
  rw [← Except.ok.inj h]
  have hrows := isEvidence_eachRow (fun _ _ _ _ => isEvidence_materialRequestRow)
    (not_not.mp hlength) hitems
  exact IsEvidence.append ⟨rfl, by simp [IsScalar]⟩ hrows

theorem isEvidence_purchaseOrderRow {index : ℕ} {actual : Row} {expected : PurchaseOrderItem I}
    {e : Evidence} (h : purchaseOrderRow I index actual expected = .ok e) :
    IsEvidence ((rowFields .createPoDraft).map fun field =>
      Text.ofString (itemField index field)) e := by
  simp only [purchaseOrderRow, bind_eq_ok] at h
  obtain ⟨-, -, -, -, -, -, -, -, conversion, -, conversionText, -, qty, -, qtyText, -, rate, -,
    rateText, -, amount, -, amountText, -, -, -, -, -, h⟩ := h
  rw [← Except.ok.inj h]
  exact ⟨rfl, by simp [entry, IsScalar]⟩

theorem isEvidence_purchaseOrder {p : PurchaseOrderPayload I} {doc : Document} {e : Evidence}
    (h : purchaseOrder I p doc = .ok e) :
    IsEvidence (evidenceKeys .createPoDraft p.items.items.length) e := by
  simp only [purchaseOrder, ite_error_eq_ok, bind_eq_ok] at h
  obtain ⟨-, -, -, -, -, -, -, -, -, -, -, -, conversion, -, -, -, hlength, conversionText, -,
    items, hitems, h⟩ := h
  rw [← Except.ok.inj h]
  have hrows := isEvidence_eachRow (fun _ _ _ _ => isEvidence_purchaseOrderRow)
    (not_not.mp hlength) hitems
  exact IsEvidence.append ⟨rfl, by simp [IsScalar]⟩ hrows

/-- The keys of a row of a receipt or an invoice draft. -/
def draftFields (priced : Bool) : List String :=
  ["item_code", "qty", sourceLink priced, parentLink priced, "warehouse", "uom"] ++
    if priced then ["rate", "amount"] else []

theorem isEvidence_linePrice {priced : Bool} {index : ℕ} {actual : Row} {qty : Dec}
    {expected : LineItem priced} {e : Evidence} (h : linePrice I index actual qty expected = .ok e) :
    IsEvidence ((if priced then ["rate", "amount"] else []).map fun field =>
      Text.ofString (itemField index field)) e := by
  have hrate := expected.rate_isSome
  cases hexpected : expected.rate with
  | none =>
      rw [linePrice, hexpected] at h
      rw [hexpected] at hrate
      rw [← Except.ok.inj h, ← hrate]
      exact IsEvidence.nil
  | some rate =>
      simp only [linePrice, hexpected, bind_eq_ok] at h
      obtain ⟨rate, -, amount, -, rateText, -, amountText, -, h⟩ := h
      rw [hexpected] at hrate
      rw [← Except.ok.inj h, ← hrate]
      exact ⟨rfl, by simp [entry, IsScalar]⟩

theorem isEvidence_draftRow {priced : Bool} {sourceName : Text} {index : ℕ} {actual : Row}
    {expected : LineItem priced} {e : Evidence}
    (h : draftRow I sourceName index actual expected = .ok e) :
    IsEvidence ((draftFields priced).map fun field => Text.ofString (itemField index field)) e := by
  simp only [draftRow, ite_error_eq_ok, bind_eq_ok] at h
  obtain ⟨-, -, -, -, -, -, -, -, -, qty, -, qtyText, -, price, hprice, h⟩ := h
  rw [← Except.ok.inj h, draftFields, List.map_append]
  exact IsEvidence.append ⟨rfl, by simp [entry, IsScalar]⟩ (isEvidence_linePrice hprice)

theorem isEvidence_draftRows {priced : Bool} {sourceName : Text}
    {lines : List (LineItem priced)} {index : ℕ} {seen found : List Text} {rows : List Row}
    {e : Evidence} (h : draftRows I sourceName lines index seen rows = .ok (found, e)) :
    IsEvidence (rowKeys (draftFields priced) index rows.length) e := by
  induction rows generalizing index seen e with
  | nil =>
      simp only [draftRows, Except.ok.injEq, Prod.mk.injEq] at h
      rw [← h.2]
      exact IsEvidence.nil
  | cons actual rows ih =>
      simp only [draftRows] at h
      split at h
      case h_1 => cases h
      case h_2 expected hexpected =>
        simp only [ite_error_eq_ok, bind_eq_ok, Prod.exists, Except.ok.injEq, Prod.mk.injEq] at h
        obtain ⟨-, first, hfirst, seen', rest, hrest, rfl, rfl⟩ := h
        exact (isEvidence_draftRow hfirst).append (ih hrest)

theorem isEvidence_draft {priced : Bool} {p : DraftPayload I priced} {doc : Document}
    {e : Evidence} (h : draft I p doc = .ok e) :
    IsEvidence (["source_name", "posting_date", "items_count"].map Text.ofString ++
      rowKeys (draftFields priced) 0 p.items.items.length) e := by
  simp only [draft, ite_error_eq_ok, bind_eq_ok, Prod.exists] at h
  obtain ⟨hlength, -, -, found, items, hitems, h⟩ := h
  split_ifs at h
  rw [← Except.ok.inj h, ← not_not.mp hlength]
  exact IsEvidence.append ⟨rfl, by simp [IsScalar]⟩ (isEvidence_draftRows hitems)

theorem isEvidence_payment {p : PaymentPayload I} {doc : Document} {e : Evidence}
    (h : payment I p doc = .ok e) :
    IsEvidence (["party_type", "party", "payment_type", "paid_from", "paid_to", "paid_amount",
      "received_amount", "total_allocated_amount", "unallocated_amount", "reference_name",
      "reference_allocated_amount", "references_count"].map Text.ofString) e := by
  simp only [payment, ite_error_eq_ok, bind_eq_ok] at h
  obtain ⟨-, -, -, -, -, -, -, -, -, -, paid, -, received, -, allocated, -, -, unallocated, -, -,
    -, seen, -, -, h⟩ := h
  split at h
  case h_1 => cases h
  case h_2 first _ _ =>
    simp only [bind_eq_ok] at h
    obtain ⟨paidText, -, receivedText, -, allocatedText, -, unallocatedText, -, reference, -,
      referenceText, -, h⟩ := h
    rw [← Except.ok.inj h]
    exact ⟨rfl, by simp [IsScalar]⟩

end ReadBack

theorem isEvidence_p2p {t : ActionType} {p : PayloadFor I t} {doc : Document} {later : Bool}
    {e : Evidence} (ht : t.isP2p = true) (h : ReadBack.p2p I p doc later = .ok e) :
    IsEvidence (evidenceKeys t (lineCount p)) e := by
  simp only [ReadBack.p2p, ite_error_eq_ok, bind_eq_ok] at h
  obtain ⟨-, -, -, -, -, fields, hfields, h⟩ := h
  rw [← Except.ok.inj h]
  have hhead : ∀ {keys : List Text}, IsEvidence keys fields →
      IsEvidence (["doctype", "docstatus", "company"].map Text.ofString ++ keys)
        ([(Text.ofString "doctype", Value.ofString t.targetDoctype),
          (Text.ofString "docstatus", .int t.expectedDocstatus),
          (Text.ofString "company", .str ((doc.value "company").str I))] ++ fields) := fun hkeys =>
    IsEvidence.append ⟨rfl, by simp [IsScalar, Value.ofString]⟩ hkeys
  cases t with
  | createMrDraft => cases ht
  | createPoDraft => cases ht
  | createPrDraft => exact hhead (ReadBack.isEvidence_draft hfields)
  | createPiDraft => exact hhead (ReadBack.isEvidence_draft hfields)
  | createPaymentEntryDraft => exact hhead (ReadBack.isEvidence_payment hfields)
  | _ =>
      rw [← Except.ok.inj hfields] at hhead ⊢
      exact @hhead [Text.ofString "source_name"] ⟨rfl, by simp [IsScalar]⟩

/-- What a verifier returns has the keys of the action type, row by row. -/
theorem isEvidence_verifyReadBack {a : Proposal I} {doc : Document} {e : Evidence}
    (h : verifyReadBack a doc = .ok e) :
    IsEvidence (evidenceKeys a.actionType (lineCount a.payload)) e := by
  obtain ⟨t, run, action, initiator, payload, evidence, calculation, risk, snapshot, key, expires,
    summary, correlation⟩ := a
  cases t with
  | createMrDraft => exact ReadBack.isEvidence_materialRequest h
  | createPoDraft => exact ReadBack.isEvidence_purchaseOrder h
  | _ => exact isEvidence_p2p rfl h

end Shape

end Governance
