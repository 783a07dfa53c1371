import SynoraErp.Governance.Receipt
import SynoraErp.Governance.RoundTrip
import SynoraErp.Python.Encodes
import SynoraErp.Python.Except

/-!
# Parsers that fail closed

Which submitted values `build_proposed_action` and `create_execution_receipt` answer with
something else than a result or a `GatewayFault`: the numbers, time stamps, texts and
memberships whose check raises an exception of the interpreter, where the parser reaches
them.
-/

namespace Governance

open Python Python.Except

/-- A `GatewayFault`. -/
def IsFault (e : Exn) : Prop := ∃ fault, e = .gatewayFault fault

/-- A computation that ends with a result or a `GatewayFault`. -/
abbrev FailsClosed {α : Type} (x : Result α) : Prop := RaisesOnly IsFault x

@[simp] theorem isFault_invalid (message : String) : IsFault (invalid message) := ⟨_, rfl⟩

@[simp] theorem isFault_conflict (message : String) : IsFault (conflict message) := ⟨_, rfl⟩

@[simp] theorem not_isFault_typeError : ¬IsFault .typeError := by
  rintro ⟨fault, h⟩
  cases h

@[simp] theorem not_isFault_unicodeEncodeError : ¬IsFault .unicodeEncodeError := by
  rintro ⟨fault, h⟩
  cases h

@[simp] theorem not_isFault_overflowError : ¬IsFault .overflowError := by
  rintro ⟨fault, h⟩
  cases h

@[simp] theorem not_isFault_decimalOverflow : ¬IsFault .decimalOverflow := by
  rintro ⟨fault, h⟩
  cases h

/-! ## The values that raise -/

/-- A value that has a hash. -/
def Hashable : Value → Prop
  | .list _ | .dict _ => False
  | _ => True

section Leaves

variable (I : Interpreter)

/-- A value that, where it spells an amount, spells one the context of 28 digits does not
overflow on. -/
def InContext (value : Value) : Prop := ∀ d, decimalNumber I value = some d → d.fix ≠ none

/-- A value that, where it is a time stamp with its time zone, stays in the calendar in
UTC. -/
def InCalendar (value : Value) : Prop :=
  ∀ t : RequiredText 64, value = t.value → ∀ parsed, I.fromisoformat (replaceZulu t.text) = some parsed →
    ∀ offset, parsed.utcoffset = some offset → parsed.astimezoneUtc offset ≠ none

end Leaves

/-! ## Fields -/

section Fields

variable {I : Interpreter} {value : Value} {label : String} {maximum : ℕ}

@[simp] theorem failsClosed_requiredText : FailsClosed (requiredText value label maximum) := by
  unfold requiredText
  split
  · split_ifs <;> simp
  · simp

@[simp] theorem failsClosed_uuid : FailsClosed (uuid value label) := by
  rw [uuid]
  refine failsClosed_requiredText.bind fun t _ => ?_
  split_ifs <;> simp

@[simp] theorem failsClosed_digest : FailsClosed (digest value label) := by
  rw [digest]
  refine failsClosed_requiredText.bind fun t _ => ?_
  split_ifs <;> simp

@[simp] theorem failsClosed_idempotencyKey : FailsClosed (idempotencyKey value) := by
  rw [idempotencyKey]
  refine failsClosed_requiredText.bind fun t _ => ?_
  split_ifs <;> simp

@[simp] theorem failsClosed_date : FailsClosed (date I value label) := by
  rw [date]
  refine failsClosed_requiredText.bind fun t _ => ?_
  split_ifs <;> simp

@[simp] theorem failsClosed_currency : FailsClosed (currency I value label) := by
  rw [currency]
  exact failsClosed_requiredText.bind fun t _ => raisesOnly_ok _

@[simp] theorem failsClosed_list : FailsClosed (list value label maximum) := by
  unfold list
  split
  · split_ifs <;> simp
  · simp

@[simp] theorem failsClosed_object {fields required : List String} :
    FailsClosed (object value fields required label) := by
  unfold object
  split
  · split_ifs <;> simp
  · simp

@[simp] theorem failsClosed_exactText {expected : String} :
    FailsClosed (exactText expected value label maximum) := by
  rw [exactText]
  refine failsClosed_requiredText.bind fun t _ => ?_
  split_ifs <;> simp

@[simp] theorem failsClosed_oneOf {choices : List String} :
    FailsClosed (oneOf choices value label maximum) := by
  rw [oneOf]
  refine failsClosed_requiredText.bind fun t _ => ?_
  split <;> simp

theorem failsClosed_optionally {α : Type} {parse : Value → Result α} :
    FailsClosed (optionally value parse) ↔ (isNone value = false → FailsClosed (parse value)) := by
  rw [optionally]
  split_ifs with h
  · simp [h]
  · rw [Bool.not_eq_true] at h
    simp [h, FailsClosed, raisesOnly_map]

@[simp] theorem failsClosed_optionally_requiredText :
    FailsClosed (optionally value (requiredText · label maximum)) :=
  failsClosed_optionally.mpr fun _ => failsClosed_requiredText

@[simp] theorem failsClosed_optionally_currency :
    FailsClosed (optionally value (currency I · label)) :=
  failsClosed_optionally.mpr fun _ => failsClosed_currency

/-- A number that overflows the context is not reported as a fault. -/
theorem failsClosed_decimal : FailsClosed (decimal I value label) ↔ InContext I value := by
  have hnormal : ∀ d, decimalNumber I value = some d → (d.normalize = none ↔ d.fix = none) := by
    intro d hd
    have hpos : 0 < d.value := lt_of_lt_of_le (by rw [minimum]; positivity)
      (minimum_le_of_decimalNumber I hd)
    rw [Dec.normalize, if_neg (Dec.coeff_ne_zero_of_value_pos hpos), Option.map_eq_none_iff]
  unfold decimal
  split
  case h_1 hnone => simp [InContext, hnone]
  case h_2 d hd =>
    split
    case h_1 hover =>
      simp only [FailsClosed, raisesOnly_error, not_isFault_decimalOverflow, false_iff]
      exact fun h => h d hd ((hnormal d hd).mp hover)
    case h_2 n hn =>
      simp only [FailsClosed, raisesOnly_ok, true_iff]
      intro e he hover
      obtain rfl : d = e := Option.some.inj (hd.symm.trans he)
      rw [(hnormal d hd).mpr hover] at hn
      cases hn

/-- A time stamp that leaves the calendar is not reported as a fault. -/
theorem failsClosed_timestamp : FailsClosed (timestamp I value label) ↔ InCalendar I value := by
  rw [timestamp, FailsClosed, raisesOnly_bind]
  constructor
  · rintro ⟨-, h⟩ t rfl parsed hparsed offset hoffset hnone
    have ht := h t (requiredText_value t label)
    simp [hparsed, normalizedTimestamp, hoffset, hnone] at ht
  · intro h
    refine ⟨failsClosed_requiredText, ?_⟩
    intro t ht
    have hvalue := requiredText_eq_ok.mp ht
    cases hparsed : I.fromisoformat (replaceZulu t.text) with
    | none => simp
    | some parsed =>
        cases hoffset : parsed.utcoffset with
        | none => simp [normalizedTimestamp, hoffset]
        | some offset =>
            obtain ⟨d, hd⟩ := Option.ne_none_iff_exists'.mp (h t hvalue parsed hparsed offset hoffset)
            simp [normalizedTimestamp, hoffset, hd]

/-- A test for membership raises on a value without a hash. -/
theorem failsClosed_memberOf {α : Type} {ofText? : Text → Option α} :
    FailsClosed (memberOf ofText? value) ↔ Hashable value := by
  cases value with
  | list xs => simp [memberOf, Hashable]
  | dict d => simp [memberOf, Hashable]
  | _ => simp [memberOf, Hashable]

theorem failsClosed_readActionType : FailsClosed (readActionType value) ↔ Hashable value := by
  cases value with
  | str t =>
      simp only [readActionType, Hashable, iff_true]
      split <;> simp
  | list xs => simp [readActionType, Hashable]
  | dict d => simp [readActionType, Hashable]
  | _ => simp [readActionType, Hashable]

end Fields

/-! ## Lists -/

/-- The items of a list, each reached once those before it are read. -/
def EachItem {α : Type} (parse : ℕ → Value → Result α) (fits : ℕ → Value → Prop) :
    ℕ → List Value → Prop
  | _, [] => True
  | index, x :: xs =>
      fits index x ∧ After (parse index x) fun _ => EachItem parse fits (index + 1) xs

theorem failsClosed_parseItems {α : Type} {parse : ℕ → Value → Result α} {fits : ℕ → Value → Prop}
    (h : ∀ index x, FailsClosed (parse index x) ↔ fits index x) (index : ℕ) (xs : List Value) :
    FailsClosed (parseItems parse index xs) ↔ EachItem parse fits index xs := by
  induction xs generalizing index with
  | nil => simp [parseItems, EachItem]
  | cons x xs ih =>
      simp only [parseItems, EachItem, raisesOnly_bind, h, ih, raisesOnly_ok, after_true, and_true]

theorem failsClosed_parse {α : Type} {maximum : ℕ} {parse : ℕ → Value → Result α}
    {fits : ℕ → Value → Prop} (h : ∀ index x, FailsClosed (parse index x) ↔ fits index x)
    (xs : BoundedList Value maximum) :
    FailsClosed (xs.parse parse) ↔ EachItem parse fits 0 xs.items := by
  rw [← failsClosed_parseItems h]
  unfold BoundedList.parse
  split
  case h_1 e he => simp [he]
  case h_2 ys hys => simp [hys]

theorem eachItem_true {α : Type} (parse : ℕ → Value → Result α) (index : ℕ) (xs : List Value) :
    EachItem parse (fun _ _ => True) index xs := by
  induction xs generalizing index with
  | nil => trivial
  | cons x xs ih => exact ⟨trivial, fun _ _ => ih (index + 1)⟩

@[simp] theorem failsClosed_refList {value : Value} {label : String} :
    FailsClosed (refList value label) := by
  rw [refList]
  refine failsClosed_list.bind fun xs _ => ?_
  have htexts : FailsClosed (xs.parse fun _ x => requiredText x s!"{label} item" 256) :=
    (failsClosed_parse (fun _ _ => iff_true_intro failsClosed_requiredText) xs).mpr
      (eachItem_true _ _ _)
  refine htexts.bind fun texts _ => ?_
  split_ifs <;> simp

/-! ## Payloads -/

section Payloads

variable (I : Interpreter)

/-- An item of a material request, up to its number. -/
def RequestItemFits (index : ℕ) (value : Value) : Prop :=
  After (object value ["item_code", "qty", "uom", "schedule_date", "warehouse", "description"]
    ["item_code", "qty", "schedule_date", "warehouse"] s!"payload.items[{index}]") fun raw =>
  After (requiredText (item raw "item_code") "item_code" 140) fun _ =>
  InContext I (item raw "qty")

/-- An item of a purchase order, up to its second number. -/
def OrderItemFits (index : ℕ) (value : Value) : Prop :=
  After (object value ["item_code", "qty", "uom", "rate", "schedule_date", "warehouse",
      "description", "material_request"]
    ["item_code", "qty", "uom", "rate", "schedule_date", "warehouse"]
    s!"payload.items[{index}]") fun raw =>
  After (requiredText (item raw "item_code") "item_code" 140) fun _ =>
  InContext I (item raw "qty") ∧
  After (decimal I (item raw "qty") "qty") fun _ =>
  After (date I (item raw "schedule_date") "schedule_date") fun _ =>
  After (requiredText (item raw "warehouse") "warehouse" 140) fun _ =>
  After (optionally (item raw "uom") (requiredText · "uom" 140)) fun _ =>
  After (optionally (item raw "description") (requiredText · "description" 2000)) fun _ =>
  After (optionally (item raw "material_request") (requiredText · "material_request" 140)) fun _ =>
  InContext I (item raw "rate")

/-- A material request. -/
def RequestFits (value : Value) : Prop :=
  After (object value ["company", "transaction_date", "material_request_type", "items"]
    ["company", "transaction_date", "material_request_type", "items"] "payload") fun raw =>
  After (requiredText (item raw "company") "company" 140) fun _ =>
  After (date I (item raw "transaction_date") "transaction_date") fun _ =>
  After (list (item raw "items") "items" 100) fun items =>
  EachItem (parseMaterialRequestItem I) (RequestItemFits I) 0 items.items

/-- A purchase order. -/
def OrderFits (value : Value) : Prop :=
  After (object value ["company", "supplier", "transaction_date", "schedule_date", "currency",
      "buying_price_list", "items"]
    ["company", "supplier", "transaction_date", "schedule_date", "currency",
      "buying_price_list", "items"] "payload") fun raw =>
  After (requiredText (item raw "company") "company" 140) fun _ =>
  After (date I (item raw "transaction_date") "transaction_date") fun _ =>
  After (list (item raw "items") "items" 100) fun items =>
  EachItem (parsePurchaseOrderItem I) (OrderItemFits I) 0 items.items

/-- The fields of a line past its source row. -/
def LineFits (priced : Bool) (raw : Dict) : Prop :=
  After (requiredText (item raw "item_code") "item_code" 140) fun _ =>
  InContext I (item raw "qty") ∧
  After (decimal I (item raw "qty") "qty") fun _ =>
  After (optionally (item raw "uom") (requiredText · "uom" 140)) fun _ =>
  After (optionally (item raw "warehouse") (requiredText · "warehouse" 140)) fun _ =>
  After (optionally (item raw "description") (requiredText · "description" 2000)) fun _ =>
  priced = true → InContext I (item raw "rate")

/-- The lines of a receipt or an invoice draft, past the source rows of those before. -/
def LinesFit (priced : Bool) : ℕ → List Text → List Value → Prop
  | _, _, [] => True
  | index, seen, x :: xs =>
      After (object x ["source_row", "item_code", "qty", "uom", "warehouse", "rate", "description"]
        (requiredLineKeys priced) s!"payload.items[{index}]") fun raw =>
      After (requiredText (item raw "source_row") "source_row" 140) fun sourceRow =>
      sourceRow.text ∉ seen → LineFits I priced raw ∧
        After (parseLineFields I priced raw sourceRow) fun _ =>
          LinesFit priced (index + 1) (sourceRow.text :: seen) xs

/-- A receipt or an invoice draft. -/
def DraftFits (priced : Bool) (value : Value) : Prop :=
  After (object value
    ["company", "source_doctype", "source_name", "transaction_date", "items", "reason"]
    ["company", "source_doctype", "source_name", "transaction_date", "items"] "payload") fun raw =>
  After (exactText (draftSource priced) (item raw "source_doctype") "source_doctype" 80) fun _ =>
  After (requiredText (item raw "company") "company" 140) fun _ =>
  After (requiredText (item raw "source_name") "source_name" 140) fun _ =>
  After (date I (item raw "transaction_date") "transaction_date") fun _ =>
  After (list (item raw "items") "items" 100) fun items => LinesFit I priced 0 [] items.items

/-- A reference of a payment. -/
def ReferenceFits (index : ℕ) (value : Value) : Prop :=
  After (object value ["reference_doctype", "reference_name", "allocated_amount"]
    ["reference_doctype", "reference_name", "allocated_amount"]
    s!"payload.references[{index}]") fun raw =>
  isText "Purchase Invoice" (item raw "reference_doctype") = true →
  After (requiredText (item raw "reference_name") "reference_name" 140) fun _ =>
  InContext I (item raw "allocated_amount")

/-- A payment. -/
def PaymentFits (value : Value) : Prop :=
  After (object value
    (["company", "source_doctype", "source_name", "party_type", "party", "payment_type",
      "posting_date", "paid_from", "paid_to", "paid_amount", "received_amount", "references"] ++
      ["source_currency", "target_currency", "reason"])
    ["company", "source_doctype", "source_name", "party_type", "party", "payment_type",
      "posting_date", "paid_from", "paid_to", "paid_amount", "received_amount", "references"]
    "payload") fun raw =>
  After (exactText "Purchase Invoice" (item raw "source_doctype") "source_doctype" 80) fun _ =>
  After (oneOf paymentTypes (item raw "payment_type") "payment_type" 40) fun _ =>
  After (list (item raw "references") "references" 100) fun references =>
  EachItem (parsePaymentReference I) (ReferenceFits I) 0 references.items ∧
  After (references.parse (parsePaymentReference I)) fun _ =>
  After (requiredText (item raw "company") "company" 140) fun _ =>
  After (requiredText (item raw "source_name") "source_name" 140) fun _ =>
  After (requiredText (item raw "party_type") "party_type" 40) fun _ =>
  After (requiredText (item raw "party") "party" 140) fun _ =>
  After (date I (item raw "posting_date") "posting_date") fun _ =>
  After (requiredText (item raw "paid_from") "paid_from" 140) fun _ =>
  After (requiredText (item raw "paid_to") "paid_to" 140) fun _ =>
  InContext I (item raw "paid_amount") ∧
  After (decimal I (item raw "paid_amount") "paid_amount") fun _ =>
  InContext I (item raw "received_amount")

/-- The numbers of a payload that its parser reaches. -/
def PayloadFits : ActionType → Value → Prop
  | .createMrDraft => RequestFits I
  | .createPoDraft => OrderFits I
  | .createPrDraft => DraftFits I false
  | .createPiDraft => DraftFits I true
  | .createPaymentEntryDraft => PaymentFits I
  | _ => fun _ => True

variable {I}

theorem failsClosed_requestItem (index : ℕ) (value : Value) :
    FailsClosed (parseMaterialRequestItem I index value) ↔ RequestItemFits I index value := by
  simp [parseMaterialRequestItem, RequestItemFits, raisesOnly_bind, failsClosed_decimal]

theorem failsClosed_orderItem (index : ℕ) (value : Value) :
    FailsClosed (parsePurchaseOrderItem I index value) ↔ OrderItemFits I index value := by
  simp [parsePurchaseOrderItem, OrderItemFits, raisesOnly_bind, failsClosed_decimal]

theorem failsClosed_request (value : Value) :
    FailsClosed (parseMaterialRequestPayload I value) ↔ RequestFits I value := by
  simp [parseMaterialRequestPayload, RequestFits, raisesOnly_bind,
    failsClosed_parse failsClosed_requestItem]

theorem failsClosed_order (value : Value) :
    FailsClosed (parsePurchaseOrderPayload I value) ↔ OrderFits I value := by
  simp [parsePurchaseOrderPayload, OrderFits, raisesOnly_bind,
    failsClosed_parse failsClosed_orderItem]

theorem failsClosed_lineFields {priced : Bool} {raw : Dict} {sourceRow : RequiredText 140} :
    FailsClosed (parseLineFields I priced raw sourceRow) ↔ LineFits I priced raw := by
  cases priced with
  | false => simp [parseLineFields, LineFits, raisesOnly_bind, failsClosed_decimal]
  | true => simp [parseLineFields, LineFits, raisesOnly_bind, failsClosed_decimal]

theorem failsClosed_lineItems (priced : Bool) (index : ℕ) (seen : List Text) (xs : List Value) :
    FailsClosed (parseLineItems I priced index seen xs) ↔ LinesFit I priced index seen xs := by
  induction xs generalizing index seen with
  | nil => simp [parseLineItems, LinesFit]
  | cons x xs ih =>
      simp only [parseLineItems, LinesFit, raisesOnly_bind, failsClosed_object, true_and,
        failsClosed_requiredText]
      refine after_congr fun raw _ => after_congr fun sourceRow _ => ?_
      by_cases hseen : sourceRow.text ∈ seen
      · simp [hseen]
      · simp [hseen, raisesOnly_bind, failsClosed_lineFields, ih]

theorem failsClosed_draft (priced : Bool) (value : Value) :
    FailsClosed (parseDraftPayload I priced value) ↔ DraftFits I priced value := by
  simp only [parseDraftPayload, DraftFits, raisesOnly_bind, failsClosed_object,
    failsClosed_exactText, failsClosed_requiredText, failsClosed_date, failsClosed_list, true_and]
  refine after_congr fun raw _ => after_congr fun _ _ => after_congr fun _ _ =>
    after_congr fun _ _ => after_congr fun _ _ => after_congr fun items _ => ?_
  rw [← failsClosed_lineItems]
  split
  case h_1 e he => simp [he]
  case h_2 lines hlines => simp [hlines, raisesOnly_bind]

theorem failsClosed_reference (index : ℕ) (value : Value) :
    FailsClosed (parsePaymentReference I index value) ↔ ReferenceFits I index value := by
  simp only [parsePaymentReference, ReferenceFits, raisesOnly_bind, failsClosed_object, true_and]
  refine after_congr fun raw _ => ?_
  by_cases hdoctype : isText "Purchase Invoice" (item raw "reference_doctype") = true
  · simp [hdoctype, raisesOnly_bind, failsClosed_decimal]
  · simp [hdoctype]

theorem failsClosed_payment (value : Value) :
    FailsClosed (parsePaymentPayload I value) ↔ PaymentFits I value := by
  simp [parsePaymentPayload, PaymentFits, raisesOnly_bind, failsClosed_decimal,
    failsClosed_parse failsClosed_reference]

theorem failsClosed_source (t : ActionType) (value : Value) :
    FailsClosed (parseSourcePayload t value) := by
  simp [parseSourcePayload, raisesOnly_bind]

theorem failsClosed_payload (t : ActionType) (value : Value) :
    FailsClosed (parsePayload I t value) ↔ PayloadFits I t value := by
  cases t with
  | createMrDraft => exact failsClosed_request value
  | createPoDraft => exact failsClosed_order value
  | createPrDraft => exact failsClosed_draft false value
  | createPiDraft => exact failsClosed_draft true value
  | createPaymentEntryDraft => exact failsClosed_payment value
  | _ => exact iff_of_true (failsClosed_source _ value) trivial

end Payloads

/-! ## Actions -/

section Actions

variable (I : Interpreter)

/-- The numbers and the deadline of a proposal that are reached. -/
def ProposalFits (raw : Dict) (t : ActionType) : Prop :=
  After (optionally (item raw "summary") (requiredText · "summary" 2000)) fun _ =>
  After (idempotencyKey (item raw "idempotency_key")) fun _ =>
  After (uuid (item raw "run_id") "run_id") fun _ =>
  After (uuid (item raw "action_id") "action_id") fun _ =>
  After (requiredText (item raw "initiator") "initiator" 140) fun _ =>
  PayloadFits I t (item raw "payload") ∧
  After (parsePayload I t (item raw "payload")) fun _ =>
  After (refList (item raw "evidence_refs") "evidence_refs") fun _ =>
  After (refList (item raw "calculation_refs") "calculation_refs") fun _ =>
  After (requiredText (item raw "snapshot_ref") "snapshot_ref" 256) fun _ =>
  InCalendar I (item raw "expires_at")

/-- A value of which `build_proposed_action` reaches nothing that raises. -/
def ActionFits (value : Value) : Prop :=
  (∀ t, value = .str t → Encodes t) ∧
  After (submittedObject I value) fun submitted =>
  After (object (.dict submitted) actionFields actionRequired "proposed action") fun raw =>
  Hashable (item raw "action_type") ∧
  After (readActionType (item raw "action_type")) fun t =>
  isText t.schemaVersion (item raw "schema_version") = true → ProposalFits I raw t

variable {I}

theorem failsClosed_submittedObject (value : Value) :
    FailsClosed (submittedObject I value) ↔ ∀ t, value = .str t → Encodes t := by
  cases value with
  | str t =>
      simp only [submittedObject, parseJsonObject, Value.str.injEq, forall_eq', encodes_iff]
      cases Text.encodeUtf8 t with
      | none => simp
      | some bytes =>
          simp only [ne_eq, reduceCtorEq, not_false_eq_true, iff_true]
          split_ifs
          · simp
          · split <;> simp
  | _ => simp [submittedObject]

theorem failsClosed_canonicalProposalBytes (p : Proposal I) :
    FailsClosed (canonicalProposalBytes p) := by
  unfold canonicalProposalBytes canonicalJson
  split <;> simp

theorem failsClosed_sealProposal (p : Proposal I) (supplied : Value) :
    FailsClosed (sealProposal I p supplied) := by
  have hdigest : FailsClosed (proposalDigest p) :=
    raisesOnly_map.mpr (failsClosed_canonicalProposalBytes p)
  unfold sealProposal
  split
  case h_1 e he =>
    rw [he] at hdigest
    simpa using hdigest
  case h_2 computed hcomputed =>
    split_ifs
    · simp
    · refine failsClosed_digest.bind fun d _ => ?_
      split_ifs <;> simp

theorem failsClosed_readProposal (raw : Dict) (t : ActionType) :
    FailsClosed (readProposal I raw t) ↔ ProposalFits I raw t := by
  simp only [readProposal, ProposalFits, raisesOnly_bind, failsClosed_optionally_requiredText,
    failsClosed_idempotencyKey, failsClosed_uuid, failsClosed_requiredText, failsClosed_refList,
    failsClosed_payload, failsClosed_timestamp, true_and]
  refine after_congr fun _ _ => after_congr fun _ _ => after_congr fun _ _ => after_congr fun _ _ =>
    after_congr fun _ _ => and_congr_right fun _ => after_congr fun _ _ => after_congr fun _ _ =>
    after_congr fun _ _ => after_congr fun _ _ => and_iff_left ?_
  intro expires _ correlation _
  split
  · simp
  · split_ifs <;> simp

theorem failsClosed_buildProposedAction (value : Value) :
    FailsClosed (buildProposedAction I value) ↔ ActionFits I value := by
  simp only [buildProposedAction, ActionFits, raisesOnly_bind, failsClosed_submittedObject]
  refine and_congr_right fun _ => after_congr fun submitted _ => ?_
  cases hraw : object (.dict submitted) actionFields actionRequired "proposed action" with
  | error e => simp
  | ok raw =>
      simp only [after_ok, raisesOnly_bind, failsClosed_readActionType]
      refine and_congr_right fun _ => after_congr fun t _ => ?_
      by_cases hschema : isText t.schemaVersion (item raw "schema_version") = true
      · simp [hschema, raisesOnly_bind, failsClosed_readProposal, failsClosed_sealProposal]
      · simp [hschema]

end Actions

/-! ## Receipts -/

section Receipts

variable (I : Interpreter)

/-- The time stamps of a receipt past its outcome that are reached. -/
def RecordFits (raw : Dict) (finalState : ReceiptState) : Prop :=
  After (receiptFailure raw finalState) fun _ =>
  (isNone (item raw "completed_at") = false → InCalendar I (item raw "completed_at")) ∧
  After (optionally (item raw "completed_at") (timestamp I · "completed_at")) fun _ =>
  After (optionally (item raw "reconciliation_evidence")
    (safeFields · "reconciliation_evidence" false)) fun _ =>
  After (uuid (item raw "receipt_id") "receipt_id") fun _ =>
  After (uuid (item raw "action_id") "action_id") fun _ =>
  After (uuid (item raw "run_id") "run_id") fun _ =>
  After (idempotencyKey (item raw "idempotency_key")) fun _ =>
  After (requiredText (item raw "initiator") "initiator" 140) fun _ =>
  After (optionally (item raw "approver") (requiredText · "approver" 140)) fun _ =>
  After (requiredText (item raw "executor") "executor" 140) fun _ =>
  After (digest (item raw "proposal_digest") "proposal_digest") fun _ =>
  InCalendar I (item raw "started_at")

/-- The outcome of a receipt, past its state and its response category. -/
def OutcomeFits (raw : Dict) (finalState : ReceiptState)
    (responseCategory : OneOf responseCategories) : Prop :=
  (isNone (item raw "target_doctype") = false → Hashable (item raw "target_doctype")) ∧
  After (receiptTarget raw) fun target =>
  After (safeFields (item raw "verified_fields") "verified_fields" finalState.isSuccess)
    fun verified =>
  (finalState.isSuccess = true →
    target.isSome = true ∧ verified ≠ [] ∧ responseCategory.name = "ERP_SUCCESS") →
  RecordFits I raw finalState

/-- A value of which `create_execution_receipt` reaches nothing that raises. -/
def ReceiptFits (value : Value) : Prop :=
  After (object value receiptFields receiptRequired "execution receipt") fun raw =>
  Hashable (item raw "final_state") ∧
  After (memberOf ReceiptState.ofText? (item raw "final_state")) fun state =>
  ∀ finalState ∈ state, Hashable (item raw "response_category") ∧
  After (memberOf (OneOf.ofText? responseCategories) (item raw "response_category")) fun category =>
  ∀ responseCategory ∈ category, OutcomeFits I raw finalState responseCategory

variable {I}

@[simp] theorem failsClosed_safeEntries {label : String} {entries : Dict} :
    FailsClosed (safeEntries label entries) := by
  have hentry : ∀ entry, FailsClosed (safeEntry label entry) := by
    intro entry
    rw [safeEntry]
    refine failsClosed_requiredText.bind fun key _ => ?_
    split_ifs
    · simp
    · split <;> simp
  induction entries with
  | nil => simp [safeEntries]
  | cons entry entries ih =>
      rw [safeEntries]
      exact (hentry entry).bind fun _ _ => ih.bind fun _ _ => raisesOnly_ok _

@[simp] theorem failsClosed_safeFields {value : Value} {label : String} {required : Bool} :
    FailsClosed (safeFields value label required) := by
  unfold safeFields
  split
  · split_ifs <;> simp
  · split_ifs <;> simp
  · simp

theorem failsClosed_receiptTarget (raw : Dict) :
    FailsClosed (receiptTarget raw) ↔
      (isNone (item raw "target_doctype") = false → Hashable (item raw "target_doctype")) := by
  simp only [receiptTarget, raisesOnly_bind]
  refine (and_iff_left ?_).trans (failsClosed_optionally.trans (imp_congr_right fun _ => ?_))
  · intro doctype _
    refine ⟨failsClosed_optionally_requiredText, ?_⟩
    intro name _
    cases doctype <;> cases name <;> simp
  · have hmember : FailsClosed
        (memberOf (OneOf.ofText? targetDoctypes) (item raw "target_doctype")) ↔
          Hashable (item raw "target_doctype") := failsClosed_memberOf
    rw [← hmember]
    simp only [raisesOnly_bind]
    refine and_iff_left ?_
    intro doctype _
    cases doctype <;> simp

theorem failsClosed_receiptFailure (raw : Dict) (finalState : ReceiptState) :
    FailsClosed (receiptFailure raw finalState) := by
  unfold receiptFailure
  split_ifs
  · simp
  · simp
  · exact raisesOnly_map.mpr failsClosed_optionally_requiredText

theorem failsClosed_receiptRecord {raw : Dict} {finalState : ReceiptState}
    {responseCategory : OneOf responseCategories}
    {target : Option (OneOf targetDoctypes × RequiredText 140)} {verified : Dict}
    (hsuccess : finalState.isSuccess = true →
      target.isSome = true ∧ verified ≠ [] ∧ responseCategory.name = "ERP_SUCCESS") :
    FailsClosed (receiptRecord I raw finalState responseCategory target verified hsuccess) ↔
      RecordFits I raw finalState := by
  have hevidence : FailsClosed (optionally (item raw "reconciliation_evidence")
      (safeFields · "reconciliation_evidence" false)) :=
    failsClosed_optionally.mpr fun _ => failsClosed_safeFields
  have hcompleted : FailsClosed (optionally (item raw "completed_at")
      (timestamp I · "completed_at")) ↔
        (isNone (item raw "completed_at") = false → InCalendar I (item raw "completed_at")) :=
    failsClosed_optionally.trans (imp_congr_right fun _ => failsClosed_timestamp)
  simp only [receiptRecord, RecordFits, raisesOnly_bind, failsClosed_receiptFailure, hcompleted,
    hevidence, failsClosed_uuid, failsClosed_idempotencyKey, failsClosed_requiredText,
    failsClosed_optionally_requiredText, failsClosed_digest, failsClosed_timestamp, raisesOnly_ok,
    after_true, true_and, and_true]

theorem failsClosed_receiptOutcome (raw : Dict) (finalState : ReceiptState)
    (responseCategory : OneOf responseCategories) :
    FailsClosed (receiptOutcome I raw finalState responseCategory) ↔
      OutcomeFits I raw finalState responseCategory := by
  simp only [receiptOutcome, OutcomeFits, raisesOnly_bind, failsClosed_receiptTarget,
    failsClosed_safeFields, true_and]
  refine and_congr_right fun _ => after_congr fun target _ => after_congr fun verified _ => ?_
  by_cases hsuccess : finalState.isSuccess = true →
      target.isSome = true ∧ verified ≠ [] ∧ responseCategory.name = "ERP_SUCCESS"
  · rw [dif_pos hsuccess]
    exact (failsClosed_receiptRecord hsuccess).trans ⟨fun h _ => h, fun h => h hsuccess⟩
  · rw [dif_neg hsuccess]
    exact iff_of_true (by simp) fun h => absurd h hsuccess

theorem failsClosed_createExecutionReceipt (value : Value) :
    FailsClosed (createExecutionReceipt I value) ↔ ReceiptFits I value := by
  simp only [createExecutionReceipt, ReceiptFits, raisesOnly_bind, failsClosed_object,
    failsClosed_memberOf, true_and]
  refine after_congr fun raw _ => and_congr_right fun _ => after_congr fun state _ => ?_
  cases state with
  | none => simp
  | some finalState =>
      simp only [Option.mem_def, Option.some.injEq, forall_eq', raisesOnly_bind, failsClosed_memberOf]
      refine and_congr_right fun _ => after_congr fun category _ => ?_
      cases category with
      | none => simp
      | some responseCategory => simp [failsClosed_receiptOutcome]

/-- The two parsers end with a result or a `GatewayFault` exactly for the values of which they
reach no number that overflows the context, no time stamp that leaves the calendar, no member
without a hash and no text without an encoding. -/
theorem failsClosed_iff (value : Value) :
    (FailsClosed (buildProposedAction I value) ↔ ActionFits I value) ∧
      (FailsClosed (createExecutionReceipt I value) ↔ ReceiptFits I value) :=
  ⟨failsClosed_buildProposedAction value, failsClosed_createExecutionReceipt value⟩

end Receipts

/-! ## Values that raise -/

/-- The exception a computation ends with. -/
def raised {α : Type} : Result α → Option Exn
  | .ok _ => none
  | .error e => some e

theorem not_failsClosed_of_raised {α : Type} {x : Result α} {e : Exn} (h : raised x = some e)
    (he : ¬IsFault e) : ¬FailsClosed x := by
  cases x with
  | ok a => cases h
  | error e' =>
      obtain rfl := Option.some.inj h
      simpa using he

/-- A proposal for a quantity of one item, with another value under one key. -/
def submittedWith (qty key : String) (value : Value) : Value :=
  .dict (record ((materialRequestFields qty).map fun p => if p.1 = key then (key, some value) else p))

/-- A receipt with nothing but a state. -/
def receiptWith (finalState : Value) : Value :=
  .dict (record (receiptRequired.map fun key =>
    (key, some (if key = "final_state" then finalState else .none))))

/-- An action type that is a list, a quantity past the exponents of the context, a deadline
before the first year in UTC and a text with a lone surrogate end with exceptions of the
interpreter, and so does a receipt whose state is a list. -/
theorem parsers_do_not_fail_closed :
    (¬FailsClosed (buildProposedAction Interpreter.ascii
      (submittedWith "2.50" "action_type" (.list [])))) ∧
    (¬FailsClosed (buildProposedAction Interpreter.ascii
      (submittedWith "1E+1000000" "schema_version" (Value.ofString "1")))) ∧
    (¬FailsClosed (buildProposedAction Interpreter.ascii
      (submittedWith "2.50" "expires_at" (Value.ofString "0001-01-01T00:00:00+01:00")))) ∧
    (¬FailsClosed (buildProposedAction Interpreter.ascii (.str [0xD800]))) ∧
    ¬FailsClosed (createExecutionReceipt Interpreter.ascii (receiptWith (.list []))) := by
  refine ⟨?_, ?_, ?_, ?_, ?_⟩
  · exact not_failsClosed_of_raised (e := .typeError) (by decide +kernel) not_isFault_typeError
  · exact not_failsClosed_of_raised (e := .decimalOverflow) (by decide +kernel)
      not_isFault_decimalOverflow
  · exact not_failsClosed_of_raised (e := .overflowError) (by decide +kernel)
      not_isFault_overflowError
  · exact not_failsClosed_of_raised (e := .unicodeEncodeError) (by decide +kernel)
      not_isFault_unicodeEncodeError
  · exact not_failsClosed_of_raised (e := .typeError) (by decide +kernel) not_isFault_typeError

end Governance
