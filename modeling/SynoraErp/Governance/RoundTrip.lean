import SynoraErp.Governance.ProposedAction

/-!
# The persistence round trip

A proposed action is persisted with its payload and references as canonical JSON
and parsed again on every load. The stored row always has the content of
`to_dict`; whether the parser accepts it again depends on the proposal.
-/

namespace Governance

open Python

/-! ## Stored values are plain -/

@[simp] theorem plain_str (t : Text) : Json.Plain (.str t) := trivial

@[simp] theorem RequiredText.plain_value {maximum : ℕ} (t : RequiredText maximum) :
    Json.Plain t.value := trivial

@[simp] theorem Amount.plain_value (a : Amount) : Json.Plain a.value := trivial

@[simp] theorem DateText.plain_value {I : Interpreter} (d : DateText I) : Json.Plain d.value :=
  trivial

@[simp] theorem Currency.plain_value {I : Interpreter} (c : Currency I) : Json.Plain c.value :=
  trivial

@[simp] theorem OneOf.plain_value {choices : List String} (x : OneOf choices) :
    Json.Plain x.value := trivial

@[simp] theorem plain_ofString (s : String) : Json.Plain (Value.ofString s) := trivial

@[simp] theorem plain_list {α : Type} {render : α → Value} {xs : List α} :
    Json.Plain (.list (xs.map render)) ↔ ∀ x ∈ xs, Json.Plain (render x) := by
  rw [Json.Plain]
  induction xs with
  | nil => simp [Json.PlainItems]
  | cons x xs ih => simp [Json.PlainItems, ih]

theorem RefList.plain_value (r : RefList) : Json.Plain r.value := by
  simp [RefList.value]

section RoundTrip

variable {I : Interpreter}

@[simp] theorem MaterialRequestItem.plain_value (x : MaterialRequestItem I) :
    Json.Plain x.value := by
  apply plain_record
  · simp only [fields, List.map_cons, List.map_nil]
    decide
  · simp [fields]

@[simp] theorem PurchaseOrderItem.plain_value (x : PurchaseOrderItem I) : Json.Plain x.value := by
  apply plain_record
  · simp only [fields, List.map_cons, List.map_nil]
    decide
  · simp [fields]

@[simp] theorem LineItem.plain_value {priced : Bool} (x : LineItem priced) :
    Json.Plain x.value := by
  apply plain_record
  · simp only [fields, List.map_cons, List.map_nil]
    decide
  · simp [fields]

@[simp] theorem PaymentReference.plain_value (x : PaymentReference) : Json.Plain x.value := by
  apply plain_record
  · simp only [fields, List.map_cons, List.map_nil]
    decide
  · simp [fields]

theorem MaterialRequestPayload.plain_value (p : MaterialRequestPayload I) :
    Json.Plain p.value := by
  apply plain_record
  · simp only [fields, List.map_cons, List.map_nil]
    decide
  · simp [fields]

theorem PurchaseOrderPayload.plain_value (p : PurchaseOrderPayload I) : Json.Plain p.value := by
  apply plain_record
  · simp only [fields, List.map_cons, List.map_nil]
    decide
  · simp [fields]

theorem DraftPayload.plain_value {priced : Bool} (p : DraftPayload I priced) :
    Json.Plain p.value := by
  apply plain_record
  · simp only [fields, List.map_cons, List.map_nil]
    decide
  · simp [fields]

theorem PaymentPayload.plain_value (p : PaymentPayload I) : Json.Plain p.value := by
  apply plain_record
  · simp only [fields, List.map_cons, List.map_nil]
    decide
  · simp [fields]

theorem SourcePayload.plain_value (p : SourcePayload) (actionType : ActionType) :
    Json.Plain (p.value actionType) := by
  apply plain_record
  · simp only [fields, List.map_cons, List.map_nil]
    decide
  · simp [fields]

/-- Payloads are stored without loss. -/
theorem plain_payloadValue : {t : ActionType} → (p : PayloadFor I t) → Json.Plain (payloadValue p)
  | .createMrDraft, p => MaterialRequestPayload.plain_value p
  | .createPoDraft, p => PurchaseOrderPayload.plain_value p
  | .createPrDraft, p => DraftPayload.plain_value p
  | .createPiDraft, p => DraftPayload.plain_value p
  | .createPaymentEntryDraft, p => PaymentPayload.plain_value p
  | .submitPo, p => SourcePayload.plain_value p _
  | .cancelPo, p => SourcePayload.plain_value p _
  | .submitPr, p => SourcePayload.plain_value p _
  | .cancelPr, p => SourcePayload.plain_value p _
  | .submitPi, p => SourcePayload.plain_value p _
  | .cancelPi, p => SourcePayload.plain_value p _
  | .submitPaymentEntry, p => SourcePayload.plain_value p _
  | .cancelPaymentEntry, p => SourcePayload.plain_value p _

/-! ## The row -/

/-- The columns of `Synora Proposed Action` that a load reads; the state columns are
not part of the typed content. -/
structure ActionRow where
  schemaVersion : Text
  actionType : Text
  run : Text
  actionId : Text
  initiator : Text
  payloadJson : Text
  evidenceRefsJson : Text
  calculationRefsJson : Text
  riskClass : Text
  approvalClass : Text
  snapshotRef : Text
  idempotencyKey : Text
  expiresAt : Text
  revalidationRule : Text
  proposalDigest : Text
  summary : Text
  correlationId : Text

/-- `_action_values`; `none` is a `ValueError` of `json.dumps`. -/
def actionValues (a : ProposedAction I) : Option ActionRow := do
  let payloadJson ← Json.dumps I (payloadValue a.payload)
  let evidenceRefsJson ← Json.dumps I a.evidenceRefs.value
  let calculationRefsJson ← Json.dumps I a.calculationRefs.value
  some
    { schemaVersion := a.actionType.schemaVersion
      actionType := a.actionType.name
      run := a.runId.text
      actionId := a.actionId.text
      initiator := a.initiator.text
      payloadJson := payloadJson
      evidenceRefsJson := evidenceRefsJson
      calculationRefsJson := calculationRefsJson
      riskClass := a.riskClass.name
      approvalClass := a.actionType.approvalClass
      snapshotRef := a.snapshotRef.text
      idempotencyKey := a.idempotencyKey.text
      expiresAt := timestampText a.expiresAt
      revalidationRule := a.actionType.revalidationRule
      proposalDigest := a.digest.text
      summary := a.summaryText
      correlationId := a.correlationId.text }

variable (I) in
/-- `_action_dict`; `none` is a `ValueError` of `json.loads`. The summary is
`doc.summary or ""`, so it is a text whatever was stored. -/
def actionDict (row : ActionRow) : Option Dict := do
  let payload ← Json.loads I Json.Hooks.default row.payloadJson
  let evidenceRefs ← Json.loads I Json.Hooks.default row.evidenceRefsJson
  let calculationRefs ← Json.loads I Json.Hooks.default row.calculationRefsJson
  some (record
    [("action_id", Value.str row.actionId), ("action_type", Value.str row.actionType),
      ("approval_class", Value.str row.approvalClass), ("calculation_refs", calculationRefs),
      ("correlation_id", Value.str row.correlationId), ("evidence_refs", evidenceRefs),
      ("expires_at", Value.str row.expiresAt), ("idempotency_key", Value.str row.idempotencyKey),
      ("initiator", Value.str row.initiator), ("payload", payload),
      ("proposal_digest", Value.str row.proposalDigest),
      ("revalidation_rule", Value.str row.revalidationRule),
      ("risk_class", Value.str row.riskClass), ("run_id", Value.str row.run),
      ("schema_version", Value.str row.schemaVersion),
      ("snapshot_ref", Value.str row.snapshotRef), ("summary", Value.str row.summary)])

/-- `_action_values`, and `_load_action` after it, which maps every exception to one
conflict. -/
def reload (a : ProposedAction I) : Result (ProposedAction I) :=
  match (actionValues a).bind (actionDict I) with
  | none => .error (conflict "governed action record is invalid")
  | some d =>
      match buildProposedAction I (.dict d) with
      | .error _ => .error (conflict "governed action record is invalid")
      | .ok b => .ok b

/-- The row keeps the content of the action. -/
theorem actionDict_actionValues (a : ProposedAction I) :
    (actionValues a).bind (actionDict I) = some a.toDict := by
  have hloads : ∀ {v : Value}, Json.Plain v →
      Json.loads I Json.Hooks.default (Json.render I v) = some v :=
    fun hv => Json.loads_render I Json.Hooks.keepDistinct_default hv
  have hpayload := plain_payloadValue a.payload
  simp only [actionValues, Json.dumps_of_plain I hpayload,
    Json.dumps_of_plain I a.evidenceRefs.plain_value,
    Json.dumps_of_plain I a.calculationRefs.plain_value, Option.bind_eq_bind, Option.bind_some,
    actionDict, hloads hpayload, hloads a.evidenceRefs.plain_value,
    hloads a.calculationRefs.plain_value]
  rfl

theorem reload_eq_ok {a b : ProposedAction I} :
    reload a = .ok b ↔ buildProposedAction I (.dict a.toDict) = .ok b := by
  simp only [reload, actionDict_actionValues]
  cases buildProposedAction I (.dict a.toDict) <;> simp

/-! ## The stored form is parsed again -/

/-- What the parser asks of a stored action besides its form. -/
structure Reloadable (p : Proposal I) : Prop where
  summary : p.summary.isSome = true
  payload : PayloadReloadable p.payload

namespace ProposedAction

theorem item_toDict (a : ProposedAction I) :
    item a.toDict "action_type" = Value.ofString a.actionType.name ∧
      item a.toDict "schema_version" = Value.ofString a.actionType.schemaVersion ∧
      item a.toDict "proposal_digest" = a.digest.value ∧
      item a.toDict "summary" = Value.str a.summaryText ∧
      item a.toDict "payload" = payloadValue a.payload := by
  simp [toDict, fields, item_record_cons]

/-- A summary that was left out is stored as the empty text, which the parser takes for
a summary and refuses. -/
theorem summary_toDict (a : ProposedAction I) {s : Option (RequiredText 2000)} :
    optionally (item a.toDict "summary") (requiredText · "summary" 2000) = .ok s ↔
      a.summary.isSome = true ∧ s = a.summary := by
  rw [a.item_toDict.2.2.2.1, Proposal.summaryText]
  cases hsummary : a.summary with
  | none =>
      have hempty : ∀ t : RequiredText 2000, Value.str [] ≠ t.value := by
        intro t ht
        have hvisible := t.visible
        rw [← Value.str.inj ht] at hvisible
        cases hvisible
      simp [optionally_eq_ok, isNone, requiredText_eq_ok, hempty]
  | some t =>
      have htext := requiredText_value t "summary"
      simp only [RequiredText.value] at htext
      simp [optionally, isNone, htext, Except.map, eq_comm]

theorem object_toDict (a : ProposedAction I) :
    object (.dict a.toDict) actionFields actionRequired "proposed action" = .ok a.toDict :=
  object_record_eq_ok (by simp [fields, actionFields, actionRequired])
    (by simp [fields, actionRequired])

/-- The parser accepts the stored form of a reloadable action, and returns the
action. -/
theorem build_toDict_of_reloadable {a : ProposedAction I} (h : Reloadable a.toProposal) :
    buildProposedAction I (.dict a.toDict) = .ok a := by
  obtain ⟨-, hknown, hrequired⟩ := object_eq_ok.mp a.object_toDict
  obtain ⟨htype, hschema, hdigest, -, hpayload⟩ := a.item_toDict
  refine (buildProposedAction_eq_ok I).mpr ⟨a.toDict, a.object_toDict, hknown, hrequired, htype,
    by simp [hschema], ?_, Or.inr hdigest⟩
  have hparsed : parsePayload I a.actionType (item a.toDict "payload") = .ok a.payload := by
    rw [hpayload]
    exact parsePayload_payloadValue h.payload
  refine .mk (a.summary_toDict.mpr ⟨h.summary, rfl⟩) ?_ ?_ ?_ ?_ hparsed ?_ ?_ ?_ ?_ ?_ ?_ ?_ ?_ <;>
    simp [toDict, fields, item_record_cons, timestamp_timestampText, riskClass?_eq_some]

/-- The stored form of an action is accepted exactly when it is reloadable. -/
theorem build_toDict (a b : ProposedAction I) :
    buildProposedAction I (.dict a.toDict) = .ok b ↔ Reloadable a.toProposal ∧ b = a := by
  constructor
  · intro h
    obtain ⟨raw, hraw, -, -, htype, -, hreads, -⟩ := (buildProposedAction_eq_ok I).mp h
    obtain rfl := Except.ok.inj (a.object_toDict.symm.trans hraw)
    obtain ⟨htype', -, -, -, hpayload⟩ := a.item_toDict
    have hname : b.actionType = a.actionType :=
      ActionType.name_injective (Text.ofString_inj _ _ |>.mp (Value.str.inj (htype.symm.trans htype')))
    have hreload : Reloadable a.toProposal :=
      { summary := (a.summary_toDict.mp hreads.summary).1
        payload := payloadReloadable_of_parsePayload hname (hpayload ▸ hreads.payload) }
    exact ⟨hreload, Except.ok.inj (h.symm.trans (build_toDict_of_reloadable hreload))⟩
  · rintro ⟨hreload, rfl⟩
    exact build_toDict_of_reloadable hreload

end ProposedAction

/-! ## The condition on the submitted proposal -/

/-- The entries of an object. -/
def entriesOf : Value → Dict
  | .dict d => d
  | _ => []

/-- The items of a list. -/
def elementsOf : Value → List Value
  | .list xs => xs
  | _ => []

variable (I) in
/-- A submitted currency code whose upper case still is at most three code points
long. -/
def UpperFits : Value → Prop
  | .str t => (I.upperText t).length ≤ 3
  | _ => True

variable (I) in
/-- The submitted payload, for each action type: currency codes that do not grow in
upper case, and no `None` under a key that its item must have. -/
def PayloadKept (t : ActionType) (payload : Dict) : Prop :=
  match t with
  | .createPoDraft =>
      UpperFits I (item payload "currency") ∧
        ∀ x ∈ elementsOf (item payload "items"), isNone (item (entriesOf x) "uom") = false
  | .createPrDraft | .createPiDraft =>
      ∀ x ∈ elementsOf (item payload "items"),
        isNone (item (entriesOf x) "uom") = false ∧ isNone (item (entriesOf x) "warehouse") = false
  | .createPaymentEntryDraft =>
      UpperFits I (item payload "source_currency") ∧ UpperFits I (item payload "target_currency")
  | _ => True

variable (I) in
/-- The proposals that survive their own storage: a summary was submitted, and the
payload is kept. -/
def Kept (raw : Dict) : Prop :=
  isNone (item raw "summary") = false ∧
    ∀ t, item raw "action_type" = Value.ofString (ActionType.name t) →
      PayloadKept I t (entriesOf (item raw "payload"))

theorem upperFits_of_currency {value : Value} {label : String} {c : Currency I}
    (h : currency I value label = .ok c) : UpperFits I value ↔ c.text.length ≤ 3 := by
  obtain ⟨t, rfl, htext⟩ := (currency_eq_ok I).mp h
  rw [← htext]
  rfl

theorem upperFits_of_optionally {value : Value} {label : String} {c : Option (Currency I)}
    (h : optionally value (currency I · label) = .ok c) :
    UpperFits I value ↔ ∀ e ∈ c, e.text.length ≤ 3 := by
  rcases optionally_eq_ok.mp h with ⟨hnone, rfl⟩ | ⟨-, e, he, rfl⟩
  · cases value <;> simp_all [UpperFits, isNone]
  · rw [upperFits_of_currency he]
    simp

theorem uom_of_parsePurchaseOrderItem {value : Value} {index : ℕ} {x : PurchaseOrderItem I}
    (h : parsePurchaseOrderItem I index value = .ok x) :
    isNone (item (entriesOf value) "uom") = false ↔ x.uom.isSome = true := by
  simp only [parsePurchaseOrderItem, bind_eq_ok] at h
  obtain ⟨raw, hraw, _, -, _, -, _, -, _, -, uom, huom, _, -, _, -, _, -, h⟩ := h
  obtain ⟨rfl, -⟩ := object_eq_ok.mp hraw
  rw [← Except.ok.inj h, isSome_of_optionally huom]
  simp [entriesOf]

/-- A property of the submitted items is one of the parsed items, when it is item by
item. -/
theorem forall_iff_of_forall₂ {α β : Type} {r : α → β → Prop} {p : α → Prop} {q : β → Prop}
    {xs : List α} {ys : List β} (h : List.Forall₂ r xs ys) (hr : ∀ x y, r x y → (p x ↔ q y)) :
    (∀ x ∈ xs, p x) ↔ ∀ y ∈ ys, q y := by
  induction h with
  | nil => simp
  | cons hxy _ ih => simp [hr _ _ hxy, ih]

theorem PurchaseOrderPayload.kept_iff {value : Value} {p : PurchaseOrderPayload I}
    (h : parsePurchaseOrderPayload I value = .ok p) :
    PayloadKept I .createPoDraft (entriesOf value) ↔ p.Reloadable := by
  simp only [parsePurchaseOrderPayload, bind_eq_ok] at h
  obtain ⟨raw, hraw, _, -, _, -, rawItems, hraws, items, hitems, _, -, _, -, c, hc, _, -, h⟩ := h
  obtain ⟨rfl, -⟩ := object_eq_ok.mp hraw
  have hall := forall_iff_of_forall₂ (parseItems_eq_ok (BoundedList.parse_eq_ok.mp hitems))
    (p := fun x => isNone (item (entriesOf x) "uom") = false)
    (q := fun y => y.uom.isSome = true) fun x y hxy =>
      uom_of_parsePurchaseOrderItem hxy.choose_spec
  rw [← Except.ok.inj h]
  simp only [PayloadKept, entriesOf, upperFits_of_currency hc, list_eq_ok.mp hraws, elementsOf]
  constructor
  · rintro ⟨hcurrency, huom⟩
    exact ⟨hcurrency, hall.mp huom⟩
  · rintro ⟨hcurrency, huom⟩
    exact ⟨hcurrency, hall.mpr huom⟩

theorem LineItem.kept_iff {priced : Bool} {index : ℕ} {seen : List Text} {xs : List Value}
    {lines : List (LineItem priced)} (h : parseLineItems I priced index seen xs = .ok lines) :
    (∀ x ∈ xs, isNone (item (entriesOf x) "uom") = false ∧
        isNone (item (entriesOf x) "warehouse") = false) ↔ ∀ y ∈ lines, y.Reloadable := by
  induction xs generalizing index seen lines with
  | nil =>
      rw [parseLineItems] at h
      rw [← Except.ok.inj h]
      simp
  | cons x xs ih =>
      simp only [parseLineItems, bind_eq_ok] at h
      obtain ⟨raw, hraw, sourceRow, -, h⟩ := h
      split_ifs at h
      simp only [bind_eq_ok] at h
      obtain ⟨line, hline, rest, hrest, h⟩ := h
      obtain ⟨rfl, -⟩ := object_eq_ok.mp hraw
      have hhead : (isNone (item raw "uom") = false ∧ isNone (item raw "warehouse") = false) ↔
          line.Reloadable := by
        simp only [parseLineFields, bind_eq_ok] at hline
        obtain ⟨_, -, _, -, uom, huom, warehouse, hwarehouse, _, -, hline⟩ := hline
        have hmade : line.uom = uom ∧ line.warehouse = warehouse := by
          split_ifs at hline
          · rw [bind_eq_ok] at hline
            obtain ⟨rate, -, hline⟩ := hline
            rw [← Except.ok.inj hline]
            exact ⟨rfl, rfl⟩
          · rw [← Except.ok.inj hline]
            exact ⟨rfl, rfl⟩
        rw [Reloadable, hmade.1, hmade.2, isSome_of_optionally huom,
          isSome_of_optionally hwarehouse]
        simp
      rw [← Except.ok.inj h, List.forall_mem_cons, List.forall_mem_cons, ih hrest]
      exact and_congr_left' hhead

theorem DraftPayload.kept_iff {priced : Bool} {value : Value} {p : DraftPayload I priced}
    (h : parseDraftPayload I priced value = .ok p) :
    (∀ x ∈ elementsOf (item (entriesOf value) "items"),
        isNone (item (entriesOf x) "uom") = false ∧
          isNone (item (entriesOf x) "warehouse") = false) ↔ p.Reloadable := by
  obtain ⟨raw, hraw, -, -, -, -, ⟨items, hitems, hlines⟩, -⟩ := DraftPayload.parse_eq_ok.mp h
  obtain ⟨rfl, -⟩ := object_eq_ok.mp hraw
  simp only [entriesOf, hitems, elementsOf]
  exact LineItem.kept_iff hlines

theorem PaymentPayload.kept_iff {value : Value} {p : PaymentPayload I}
    (h : parsePaymentPayload I value = .ok p) :
    PayloadKept I .createPaymentEntryDraft (entriesOf value) ↔ p.Reloadable := by
  simp only [parsePaymentPayload, bind_eq_ok] at h
  obtain ⟨raw, hraw, _, -, _, -, _, -, _, -, _, -, _, -, _, -, _, -, _, -, _, -, _, -, _, -, _, -,
    source, hsource, target, htarget, _, -, h⟩ := h
  obtain ⟨rfl, -⟩ := object_eq_ok.mp hraw
  rw [← Except.ok.inj h]
  simp only [PayloadKept, entriesOf, upperFits_of_optionally hsource,
    upperFits_of_optionally htarget]
  constructor
  · rintro ⟨h1, h2⟩
    exact ⟨h1, h2⟩
  · rintro ⟨h1, h2⟩
    exact ⟨h1, h2⟩

/-- What a payload must be to survive is decided on what was submitted. -/
theorem payloadKept_iff {t : ActionType} {value : Value} {p : PayloadFor I t}
    (h : parsePayload I t value = .ok p) :
    PayloadKept I t (entriesOf value) ↔ PayloadReloadable p := by
  cases t with
  | createPoDraft => exact PurchaseOrderPayload.kept_iff h
  | createPrDraft => exact DraftPayload.kept_iff h
  | createPiDraft => exact DraftPayload.kept_iff h
  | createPaymentEntryDraft => exact PaymentPayload.kept_iff h
  | _ => exact Iff.rfl

theorem kept_iff {raw : Dict} {p : Proposal I}
    (htype : item raw "action_type" = Value.ofString p.actionType.name)
    (hreads : Reads I raw p) : Kept I raw ↔ Reloadable p := by
  have hsummary : isNone (item raw "summary") = false ↔ p.summary.isSome = true := by
    rw [isSome_of_optionally hreads.summary]
    simp
  rw [Kept, hsummary]
  constructor
  · rintro ⟨hs, hp⟩
    exact ⟨hs, (payloadKept_iff hreads.payload).mp (hp _ htype)⟩
  · rintro ⟨hs, hp⟩
    refine ⟨hs, fun t ht => ?_⟩
    obtain rfl : p.actionType = t :=
      ActionType.name_injective (Text.ofString_inj _ _ |>.mp (Value.str.inj (htype.symm.trans ht)))
    exact (payloadKept_iff hreads.payload).mpr hp

/-- An accepted proposal survives its own storage exactly when it was submitted with a
summary and with a payload whose normal form is valid again. -/
theorem reload_iff_kept (I : Interpreter) {value : Value} {raw : Dict} {a : ProposedAction I}
    (hraw : submittedObject I value = .ok raw) (h : buildProposedAction I value = .ok a) :
    (reload a = .ok a ↔ Kept I raw) ∧
      (buildProposedAction I (.dict a.toDict) = .ok a ↔ Kept I raw) := by
  obtain ⟨raw', hraw', -, -, htype, -, hreads, -⟩ := (buildProposedAction_eq_ok I).mp h
  obtain rfl := Except.ok.inj (hraw.symm.trans hraw')
  have hbuild : buildProposedAction I (.dict a.toDict) = .ok a ↔ Kept I raw := by
    rw [ProposedAction.build_toDict, kept_iff htype hreads]
    simp
  exact ⟨reload_eq_ok.trans hbuild, hbuild⟩

/-! ## A material request with and without a summary -/

/-- The item of a material request, as it is submitted. -/
def materialRequestLine (qty : String) : List (String × Option Value) :=
  [("item_code", Value.ofString "ITEM-1"), ("qty", Value.ofString qty),
    ("schedule_date", Value.ofString "2026-07-26"), ("warehouse", Value.ofString "Stores")]

/-- The payload of a material request for one item. -/
def materialRequestBody (qty : String) : List (String × Option Value) :=
  [("company", Value.ofString "Synora"), ("transaction_date", Value.ofString "2026-07-19"),
    ("material_request_type", Value.ofString "Purchase"),
    ("items", Value.list [.dict (record (materialRequestLine qty))])]

/-- The required fields of a material request for one item. -/
def materialRequestFields (qty : String) : List (String × Option Value) :=
  [("schema_version", Value.ofString "1"), ("action_type", Value.ofString "CREATE_MR_DRAFT"),
    ("run_id", Value.ofString "00000000-0000-4000-8000-000000000001"),
    ("action_id", Value.ofString "00000000-0000-4000-8000-000000000002"),
    ("initiator", Value.ofString "buyer@example.test"),
    ("payload", Value.dict (record (materialRequestBody qty))),
    ("evidence_refs", Value.list [Value.ofString "evidence-1"]),
    ("calculation_refs", Value.list [Value.ofString "calculation-1"]),
    ("risk_class", Value.ofString "LOW"),
    ("approval_class", Value.ofString "INITIATOR_CONFIRMATION"),
    ("snapshot_ref", Value.ofString "snapshot-1"),
    ("idempotency_key", Value.ofString "request-0001"),
    ("expires_at", Value.ofString "2026-07-19T12:00:00+00:00"),
    ("revalidation_rule", Value.ofString "FULL_PRE_EXECUTE_RECHECK_V1"),
    ("correlation_id", Value.ofString "00000000-0000-4000-8000-000000000003")]

/-- A proposal for a quantity of one item, with its optional fields. -/
def materialRequestProposal (qty : String) (extra : List (String × Option Value)) : Dict :=
  record (materialRequestFields qty ++ extra)

theorem submittedObject_materialRequestProposal (qty : String)
    (extra : List (String × Option Value)) (hextra : ∀ p ∈ extra, p.1 ∈ actionFields) :
    submittedObject I (.dict (materialRequestProposal qty extra)) =
      .ok (materialRequestProposal qty extra) := by
  have hfields : ∀ p ∈ materialRequestFields qty, p.1 ∈ actionFields := by
    simp [materialRequestFields, actionFields, actionRequired]
  have hrequired : ∀ key ∈ actionRequired,
      ∃ p ∈ materialRequestFields qty, p.2.isSome = true ∧ p.1 = key := by
    simp [materialRequestFields, actionRequired]
  refine object_record_eq_ok ?_ ?_
  · intro p hp
    rcases List.mem_append.mp hp with hp | hp
    · exact hfields p hp
    · exact hextra p hp
  · intro key hkey
    obtain ⟨p, hp, h⟩ := hrequired key hkey
    exact ⟨p, List.mem_append_left _ hp, h⟩

/-- Whether a computation succeeds. -/
def succeeds {α : Type} : Result α → Bool
  | .ok _ => true
  | .error _ => false

theorem exists_of_succeeds {α : Type} {x : Result α} (h : succeeds x = true) :
    ∃ a, x = .ok a := by
  cases x with
  | ok a => exact ⟨a, rfl⟩
  | error e => cases h

/-- A proposal as an action. -/
theorem exists_action {p : Proposal I} (h : succeeds (canonicalProposalBytes p) = true) :
    ∃ a : ProposedAction I, a.toProposal = p := by
  obtain ⟨bytes, hbytes⟩ := exists_of_succeeds h
  exact ⟨⟨p, sha256 bytes, by rw [proposalDigest, hbytes]; rfl⟩, rfl⟩

theorem kept_materialRequestProposal_iff (qty : String) (extra : List (String × Option Value)) :
    Kept I (materialRequestProposal qty extra) ↔
      isNone (item (materialRequestProposal qty extra) "summary") = false := by
  have htype : item (materialRequestProposal qty extra) "action_type" =
      Value.ofString ActionType.createMrDraft.name := by
    simp [materialRequestProposal, materialRequestFields, item_record_cons, ActionType.name]
  rw [Kept, and_iff_left_iff_imp]
  intro _ t ht
  obtain rfl : ActionType.createMrDraft = t :=
    ActionType.name_injective (Text.ofString_inj _ _ |>.mp (Value.str.inj (htype.symm.trans ht)))
  trivial

/-- With a summary the action survives its own storage. -/
theorem reload_with_summary :
    ∃ a, buildProposedAction Interpreter.ascii
        (.dict (materialRequestProposal "2.50" [("summary", Value.ofString "Replenish")])) = .ok a ∧
      reload a = .ok a ∧ buildProposedAction Interpreter.ascii (.dict a.toDict) = .ok a := by
  obtain ⟨a, ha⟩ := exists_of_succeeds (x := buildProposedAction Interpreter.ascii
    (.dict (materialRequestProposal "2.50" [("summary", Value.ofString "Replenish")])))
    (by decide +kernel)
  have hraw := submittedObject_materialRequestProposal (I := Interpreter.ascii)
    "2.50" [("summary", Value.ofString "Replenish")] (by simp [actionFields])
  have hkept : Kept Interpreter.ascii
      (materialRequestProposal "2.50" [("summary", Value.ofString "Replenish")]) :=
    (kept_materialRequestProposal_iff _ _).mpr
      (by simp [materialRequestProposal, materialRequestFields, item_record_cons, Value.ofString,
        isNone])
  have h := reload_iff_kept Interpreter.ascii hraw ha
  exact ⟨a, ha, h.1.mpr hkept, h.2.mpr hkept⟩

/-- A request without a summary is accepted. -/
theorem exists_build_materialRequestProposal :
    ∃ a, buildProposedAction Interpreter.ascii (.dict (materialRequestProposal "2.50" [])) = .ok a :=
  exists_of_succeeds (by decide +kernel)

/-- Without one it is accepted, and refused in the form it is stored in. -/
theorem reload_without_summary :
    ∃ a, buildProposedAction Interpreter.ascii (.dict (materialRequestProposal "2.50" [])) = .ok a ∧
      reload a ≠ .ok a ∧ buildProposedAction Interpreter.ascii (.dict a.toDict) ≠ .ok a := by
  obtain ⟨a, ha⟩ := exists_build_materialRequestProposal
  obtain ⟨raw, hraw, -, -, htype, -, hreads, -⟩ := (buildProposedAction_eq_ok _).mp ha
  have hsubmitted := submittedObject_materialRequestProposal (I := Interpreter.ascii) "2.50"
    [] (by simp)
  obtain rfl := Except.ok.inj (hsubmitted.symm.trans hraw)
  have hbuild : buildProposedAction Interpreter.ascii (.dict a.toDict) ≠ .ok a := by
    rw [Ne, ProposedAction.build_toDict, ← kept_iff htype hreads,
      kept_materialRequestProposal_iff]
    simp [materialRequestProposal, materialRequestFields, item_record_cons, isNone]
  exact ⟨a, ha, fun h => hbuild (reload_eq_ok.mp h), hbuild⟩

end RoundTrip

/-! ## Data of the examples -/

def exampleRunId : Uuid := ⟨"00000000-0000-4000-8000-000000000001", by decide +kernel⟩

def exampleCorrelationId : Uuid := ⟨"00000000-0000-4000-8000-000000000003", by decide +kernel⟩

def exampleReceiptId : Uuid := ⟨"00000000-0000-4000-8000-000000000004", by decide +kernel⟩

def buyer : RequiredText 140 := ⟨"buyer@example.test", by decide, by decide⟩

def exampleCompany : RequiredText 140 := ⟨"Synora", by decide, by decide⟩

def exampleItemCode : RequiredText 140 := ⟨"ITEM-1", by decide, by decide⟩

/-- 2.5. -/
def exampleQty : Amount :=
  ⟨⟨false, 25, -1⟩, rfl, by decide, by decide +kernel, by decide +kernel, by decide +kernel⟩

def exampleDate : DateText Interpreter.ascii := ⟨"2026-07-19", by decide +kernel⟩

def exampleEvidence : RefList := ⟨["evidence-1"], by decide, by decide, by decide, by decide⟩

def exampleCalculation : RefList :=
  ⟨["calculation-1"], by decide, by decide, by decide, by decide⟩

def exampleSnapshot : RequiredText 256 := ⟨"snapshot-1", by decide, by decide⟩

def noon : DateTime := (DateTime.ofFields? 2026 7 19 12 0 0).get (by decide)

/-- An hour ahead of noon. -/
def exampleStart : DateTime := (DateTime.ofFields? 2026 7 19 11 0 0).get (by decide)

end Governance
