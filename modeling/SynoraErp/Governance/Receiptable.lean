import SynoraErp.Governance.ReadBackEvidence
import SynoraErp.Governance.RoundTrip

/-!
# Writes that can be receipted

The evidence of a faithful write grows with the lines of the action, while a receipt
takes at most 64 verified fields. An action is receipted exactly when it has few
enough lines.
-/

namespace Governance

open Python

/-! ## The keys of the evidence are safe -/

theorem safeKey_headFields (t : ActionType) :
    ∀ key ∈ (headFields t).map Text.ofString, SafeKey key := by
  cases t <;> decide +kernel

/-- The fields of the rows of every action type. -/
def allRowFields : List String :=
  ["item_code", "warehouse", "schedule_date", "qty", "uom", "conversion_factor", "rate", "amount",
    "material_request", "purchase_order_item", "purchase_order", "pr_detail", "purchase_receipt"]

theorem rowFields_subset (t : ActionType) : rowFields t ⊆ allRowFields := by
  cases t <;> decide

theorem isSeparator_digit {c : Char} (hc : c.isDigit = true) : IsSeparator (codePoint c) := by
  have hval : 48 ≤ c.toNat ∧ c.toNat ≤ 57 := by
    simpa [Char.isDigit, UInt32.le_iff_toNat_le] using hc
  have hpoint : codePoint c = digitPoint ⟨c.toNat - 48, by omega⟩ :=
    Fin.ext (show c.toNat = 48 + (c.toNat - 48) by omega)
  have hdigits : ∀ d, IsSeparator (digitPoint d) := by decide
  rw [hpoint]
  exact hdigits _

/-- A digit, a point and an underscore are in no sensitive word, so the name of a field
of a row is as safe as the field. -/
theorem isSensitive_itemField (i : ℕ) (field : String) :
    isSensitive (Text.ofString (itemField i field)) = isSensitive (Text.ofString field) := by
  have htext : Text.ofString (itemField i field) =
      Text.ofString "item" ++ codePoint '_' ::
        (i.repr.toList.map codePoint ++ codePoint '.' :: Text.ofString field) := by
    rw [Text.ofString_eq, toList_itemField]
    simp [Text.ofString_eq]
  have hdigits : ∀ c ∈ i.repr.toList.map codePoint, IsSeparator c := by
    intro c hc
    obtain ⟨d, hd, rfl⟩ := List.mem_map.mp hc
    exact isSeparator_digit (Nat.isDigit_of_mem_toDigits (by decide) (by decide)
      (Nat.toList_repr ▸ hd))
  have hpoint := isSensitive_append_cons (s := []) (t := Text.ofString field)
    (c := codePoint '.') (by decide)
  rw [htext, isSensitive_append_cons (by decide), isSensitive_append_of_separators hdigits]
  rw [List.nil_append] at hpoint
  rw [hpoint, show isSensitive (Text.ofString "item") = false by decide,
    show isSensitive [] = false by decide, Bool.false_or, Bool.false_or]

/-- Every field of a row has a safe name in each of the accepted rows. -/
theorem safeKey_itemField {field : String} (hfield : field ∈ allRowFields) {i : ℕ} (hi : i < 100) :
    SafeKey (Text.ofString (itemField i field)) := by
  have hsafe : ∀ field ∈ allRowFields, (Text.ofString field).length ≤ 72 ∧
      isSensitive (Text.ofString field) = false := by decide +kernel
  obtain ⟨hlength, hsensitive⟩ := hsafe field hfield
  have hdigits : i.repr.length ≤ 2 := (Nat.length_repr_le_iff (by decide)).mpr hi
  refine ⟨?_, ?_, (isSensitive_itemField i field).trans hsensitive⟩
  · rw [Text.ofString_eq, List.length_map] at hlength ⊢
    rw [← String.length_toList] at hdigits
    have hitem : "item_".toList.length = 5 := rfl
    rw [toList_itemField, List.length_append, List.length_append, List.length_cons]
    omega
  · refine isBlank_of_mem (c := codePoint 'i') ?_ (by decide)
    rw [Text.ofString_eq, toList_itemField]
    simp

theorem safeKey_evidenceKeys (t : ActionType) {n : ℕ} (hn : n ≤ 100) :
    ∀ key ∈ evidenceKeys t n, SafeKey key := by
  intro key hkey
  rcases List.mem_append.mp hkey with hkey | hkey
  · exact safeKey_headFields t key hkey
  · obtain ⟨i, field, hi, hfield, rfl⟩ := mem_rowKeys hkey
    exact safeKey_itemField (rowFields_subset t hfield) (by omega)

theorem evidenceKeys_ne_nil (t : ActionType) (n : ℕ) : evidenceKeys t n ≠ [] := by
  cases t <;> simp [evidenceKeys, headFields]

/-! ## The limit -/

/-- The largest number of lines whose evidence a receipt takes. -/
def maxReceiptLines : ActionType → ℕ
  | .createMrDraft => 11
  | .createPoDraft => 6
  | .createPrDraft => 9
  | .createPiDraft => 7
  | _ => 100

theorem length_evidenceKeys_le_iff (t : ActionType) {n : ℕ} (hn : n ≤ 100) :
    (evidenceKeys t n).length ≤ 64 ↔ n ≤ maxReceiptLines t := by
  rw [evidenceKeys, List.length_append, List.length_map, length_rowKeys]
  cases t <;> simp only [headFields, rowFields, maxReceiptLines, List.length_cons,
    List.length_nil] <;> omega

section Receiptable

variable {I : Interpreter}

/-- The outcome of a write that was read back. -/
def successOutcome (targetName : RequiredText 140) (verified : Evidence) : Outcome where
  finalState := .succeeded
  responseCategory := erpSuccess
  failureCategory := none
  targetName := some targetName
  verifiedFields := verified
  reconciliationEvidence := none

theorem safeFields_evidence {keys : List Text} {e : Evidence} (he : IsEvidence keys e)
    (hkeys : ∀ key ∈ keys, SafeKey key) (hne : keys ≠ []) (label : String) (required : Bool) :
    (∃ fields, safeFields (.dict e) label required = .ok fields) ↔ keys.length ≤ 64 := by
  have hsafe : ∀ entry ∈ e, SafeKey entry.1 := by
    intro entry hentry
    apply hkeys
    rw [← he.keys_eq]
    exact List.mem_map_of_mem hentry
  have hnil : e ≠ [] := by
    rintro rfl
    exact hne he.keys_eq.symm
  rw [safeFields_of_isScalar label hnil hsafe he.scalar, he.length_eq]
  split_ifs with h
  · simp [h]
  · simpa using h

theorem exists_receipt_iff_length {a : ProposedAction I} {doc : Document} {e : Evidence}
    (h : verifyReadBack a.toProposal doc = .ok e) (ctx : ReceiptContext)
    (targetName : RequiredText 140) :
    (∃ r, createExecutionReceipt I
        (.dict (record (receiptInput ctx a (successOutcome targetName e)))) = .ok r) ↔
      (evidenceKeys a.actionType (lineCount a.payload)).length ≤ 64 := by
  have hevidence := safeFields_evidence (isEvidence_verifyReadBack h)
    (safeKey_evidenceKeys a.actionType (lineCount_le a.payload)) (evidenceKeys_ne_nil _ _)
    "verified_fields" true
  rw [exists_createExecutionReceipt_iff, ← hevidence]
  simp [successOutcome, erpSuccess, ReceiptState.isSuccess, optionally, isNone]

/-- A write that reads back as approved is receipted exactly when the action has few
enough lines. -/
theorem receipt_accepts_readBack_iff {a : ProposedAction I} {doc : Document} {e : Evidence}
    (h : verifyReadBack a.toProposal doc = .ok e) (ctx : ReceiptContext)
    (targetName : RequiredText 140) :
    (∃ r, createExecutionReceipt I
        (.dict (record (receiptInput ctx a (successOutcome targetName e)))) = .ok r) ↔
      lineCount a.payload ≤ maxReceiptLines a.actionType := by
  rw [exists_receipt_iff_length h ctx targetName]
  exact length_evidenceKeys_le_iff _ (lineCount_le a.payload)

/-! ## Material requests that read back as approved -/

/-- A row of a material request, as the ERP shows the approved item. -/
def materialRequestRowOf (x : MaterialRequestItem I) : Row :=
  [("item_code", .text x.itemCode.text), ("qty", .text x.qty.text),
    ("warehouse", .text x.warehouse.text), ("schedule_date", .text x.scheduleDate.text),
    ("uom", .text ((x.uom.map RequiredText.text).getD "Nos")),
    ("description", .text ((x.description.map RequiredText.text).getD "None"))]

/-- The draft of an approved material request. -/
def materialRequestDocument (p : MaterialRequestPayload I) : Document where
  fields :=
    [("docstatus", .int 0), ("company", .text p.company.text),
      ("material_request_type", .text p.materialRequestType.name),
      ("transaction_date", .text p.transactionDate.text)]
  tables := [("items", p.items.items.map materialRequestRowOf)]

theorem sameText_text (t : Text) (field : String) :
    ReadBack.sameText I (.text t) t field = .ok () := by
  simp [ReadBack.sameText]

theorem sameOptional_text {maximum : ℕ} (t : Option (RequiredText maximum)) (other : Text)
    (field : String) :
    ReadBack.sameOptional I (.text ((t.map RequiredText.text).getD other)) t field = .ok () := by
  cases t with
  | none => rfl
  | some t => exact sameText_text t.text field

/-- An approved amount reads back as itself. -/
theorem exists_sameNumber_text (a : Amount) (field message : String) :
    ∃ d, ReadBack.sameNumber I (.text a.text) a.text field message = .ok d ∧
      ReadBack.plainNumber d = .ok a.text := by
  obtain ⟨d, hd, -, hnormal⟩ := a.canonical.ofText_formatFixed I
  have hread : ReadBack.decimal I (.text a.text) field = .ok d := by
    rw [ReadBack.decimal, Cell.str_text, Amount.text, hd]
  refine ⟨d, ?_, ?_⟩
  · simp [ReadBack.sameNumber, hread]
  · rw [ReadBack.plainNumber, hnormal]
    rfl

theorem exists_materialRequestRow (index : ℕ) (x : MaterialRequestItem I) :
    ∃ e, ReadBack.materialRequestRow I index (materialRequestRowOf x) x = .ok e := by
  obtain ⟨qty, hqty, hplain⟩ := exists_sameNumber_text (I := I) x.qty (itemField index "qty")
    (itemField index "qty" ++ " does not match approved payload")
  simp [ReadBack.materialRequestRow, materialRequestRowOf, sameText_text, sameOptional_text, hqty,
    hplain]

/-- The draft of an approved material request reads back as approved. -/
theorem exists_verify_materialRequestDocument (p : MaterialRequestPayload I) :
    ∃ e, ReadBack.materialRequest I p (materialRequestDocument p) = .ok e := by
  have hrows : ∀ (items : List (MaterialRequestItem I)) (index : ℕ), ∃ e,
      ReadBack.eachRow (ReadBack.materialRequestRow I) index (items.map materialRequestRowOf)
        items = .ok e := by
    intro items
    induction items with
    | nil => exact fun index => ⟨[], rfl⟩
    | cons x items ih =>
        intro index
        obtain ⟨first, hfirst⟩ := exists_materialRequestRow index x
        obtain ⟨rest, hrest⟩ := ih (index + 1)
        exact ⟨first ++ rest, by
          rw [List.map_cons, ReadBack.eachRow, hfirst, ok_bind, hrest, ok_bind]⟩
  obtain ⟨items, hitems⟩ := hrows p.items.items 0
  simp [ReadBack.materialRequest, materialRequestDocument, Document.value, Document.rows, Cell.eqInt,
    sameText_text, hitems]

end Receiptable

/-! ## A request of many lines -/

/-- Two and a half units of one item. -/
def replenishmentLine : MaterialRequestItem Interpreter.ascii where
  description := none
  itemCode := exampleItemCode
  qty := exampleQty
  scheduleDate := ⟨"2026-07-26", by decide +kernel⟩
  uom := none
  warehouse := ⟨"Stores", by decide, by decide⟩

/-- A material request of `n + 1` lines. -/
def replenishmentPayload (n : ℕ) (hn : n < 100) : MaterialRequestPayload Interpreter.ascii where
  company := exampleCompany
  items := ⟨List.replicate (n + 1) replenishmentLine, by simp, by simpa using hn⟩
  materialRequestType := ⟨"Purchase", by decide⟩
  transactionDate := exampleDate

def replenishment (n : ℕ) (hn : n < 100) : Proposal Interpreter.ascii where
  actionType := .createMrDraft
  runId := exampleRunId
  actionId := ⟨"00000000-0000-4000-8000-000000000002", by decide +kernel⟩
  initiator := buyer
  payload := replenishmentPayload n hn
  evidenceRefs := exampleEvidence
  calculationRefs := exampleCalculation
  riskClass := ⟨"LOW", by decide⟩
  snapshotRef := exampleSnapshot
  idempotencyKey := ⟨"request-0001", by decide⟩
  expiresAt := noon
  summary := some ⟨"Replenish", by decide, by decide⟩
  correlationId := exampleCorrelationId

theorem one_line : 0 < 100 := by decide

/-- A request that can be encoded is an action, and the parser accepts it. -/
theorem exists_replenishment {n : ℕ} (hn : n < 100)
    (h : succeeds (canonicalProposalBytes (replenishment n hn)) = true) :
    ∃ a : ProposedAction Interpreter.ascii, a.toProposal = replenishment n hn ∧
      buildProposedAction Interpreter.ascii (.dict a.toDict) = .ok a := by
  obtain ⟨⟨_, digest, hdigest⟩, rfl⟩ := exists_action h
  exact ⟨⟨_, digest, hdigest⟩, rfl, (ProposedAction.build_toDict _ _).mpr ⟨⟨rfl, trivial⟩, rfl⟩⟩

theorem exists_verify_replenishment {n : ℕ} (hn : n < 100) :
    ∃ e, verifyReadBack (replenishment n hn)
      (materialRequestDocument (replenishmentPayload n hn)) = .ok e :=
  exists_verify_materialRequestDocument (replenishmentPayload n hn)

/-- The receipt of an execution of the request. -/
def replenishmentContext : ReceiptContext where
  receiptId := exampleReceiptId
  approver := some buyer
  executor := buyer
  startedAt := exampleStart
  completedAt := (DateTime.ofFields? 2026 7 19 11 0 1).get (by decide)
  correlationId := exampleCorrelationId

/-- The name the ERP gives the draft. -/
def replenishmentName : RequiredText 140 := ⟨"MAT-MR-2026-00001", by decide, by decide⟩

/-- Eleven lines are receipted. -/
theorem receipt_accepts_eleven_lines :
    ∃ (a : ProposedAction Interpreter.ascii) (e : Evidence),
      verifyReadBack a.toProposal (materialRequestDocument (replenishmentPayload 10 (by decide))) =
        .ok e ∧
      ∃ r, createExecutionReceipt Interpreter.ascii (.dict (record
        (receiptInput replenishmentContext a (successOutcome replenishmentName e)))) = .ok r := by
  obtain ⟨⟨p, digest, hdigest⟩, rfl, -⟩ := exists_replenishment (n := 10) (by decide)
    (by decide +kernel)
  obtain ⟨e, he⟩ := exists_verify_replenishment (n := 10) (by decide)
  refine ⟨⟨_, digest, hdigest⟩, e, he, ?_⟩
  exact (receipt_accepts_readBack_iff (a := ⟨_, digest, hdigest⟩) he replenishmentContext
    replenishmentName).mpr (show (List.replicate 11 replenishmentLine).length ≤ 11 by simp)

/-- Twelve lines read back as approved are refused by the receipt. -/
theorem receipt_rejects_twelve_lines :
    ∃ (a : ProposedAction Interpreter.ascii) (doc : Document) (e : Evidence),
      buildProposedAction Interpreter.ascii (.dict a.toDict) = .ok a ∧
      verifyMaterialRequestReadBack a.toProposal doc = .ok e ∧
      ¬∃ r, createExecutionReceipt Interpreter.ascii (.dict (record
        (receiptInput replenishmentContext a (successOutcome replenishmentName e)))) = .ok r := by
  obtain ⟨⟨p, digest, hdigest⟩, rfl, hbuild⟩ := exists_replenishment (n := 11) (by decide)
    (by decide +kernel)
  obtain ⟨e, he⟩ := exists_verify_replenishment (n := 11) (by decide)
  refine ⟨⟨_, digest, hdigest⟩, _, e, hbuild, he, ?_⟩
  rw [exists_receipt_iff_length (a := ⟨_, digest, hdigest⟩) he replenishmentContext
    replenishmentName]
  show ¬(evidenceKeys .createMrDraft (List.replicate 12 replenishmentLine).length).length ≤ 64
  simp [evidenceKeys, length_rowKeys, headFields, rowFields]

end Governance
