import SynoraErp.Governance.RoundTrip

/-!
# What the signed bytes determine

Two accepted proposals with one canonical text agree on every reviewed field as it
was submitted. A UUID is compared up to the case of its letters, a currency code
in upper case, a time stamp as the second in UTC it names, a reference list as a
set, and `None` is the same as a missing key. A number is compared by its exact
value, for numbers of at most 28 significant digits.
-/

namespace Governance

open Python

/-! ## Agreement of submitted values -/

section Agreement

variable (I : Interpreter)

/-- Two values spell one number, as far as the context of `normalize` can tell. -/
def SameNumber (v w : Value) : Prop :=
  ∃ d e, decimalNumber I v = some d ∧ decimalNumber I w = some e ∧
    (d.significantDigits ≤ prec → e.significantDigits ≤ prec → d.value = e.value)

def SameUuid (v w : Value) : Prop :=
  ∃ s t : Text, v = .str s ∧ w = .str t ∧ s.map Text.asciiLower = t.map Text.asciiLower

def SameCurrency (v w : Value) : Prop :=
  (v = .none ∧ w = .none) ∨
    ∃ s t : Text, v = .str s ∧ w = .str t ∧ I.upperText s = I.upperText t

def SameInstant (v w : Value) : Prop :=
  ∃ d, timestamp I v "expires_at" = .ok d ∧ timestamp I w "expires_at" = .ok d

def SameSet (v w : Value) : Prop :=
  ∃ s t : List Text, v = .list (s.map .str) ∧ w = .list (t.map .str) ∧ s.Perm t

def SameItems (same : Value → Value → Prop) (v w : Value) : Prop :=
  ∃ xs ys, v = .list xs ∧ w = .list ys ∧ List.Forall₂ same xs ys

/-- Two objects agree field by field; a missing key reads as `None`. -/
def SameFields (fields : List (String × (Value → Value → Prop))) (v w : Value) : Prop :=
  ∀ p ∈ fields, p.2 (item (entriesOf v) p.1) (item (entriesOf w) p.1)

def materialRequestItemReview : List (String × (Value → Value → Prop)) :=
  [("description", Eq), ("item_code", Eq), ("qty", SameNumber I), ("schedule_date", Eq),
    ("uom", Eq), ("warehouse", Eq)]

def purchaseOrderItemReview : List (String × (Value → Value → Prop)) :=
  [("description", Eq), ("item_code", Eq), ("material_request", Eq), ("qty", SameNumber I),
    ("rate", SameNumber I), ("schedule_date", Eq), ("uom", Eq), ("warehouse", Eq)]

/-- The line of an invoice draft has a rate; a receipt line may be submitted with one,
but it is no part of the action. -/
def lineItemReview (priced : Bool) : List (String × (Value → Value → Prop)) :=
  [("description", Eq), ("item_code", Eq), ("qty", SameNumber I),
    ("rate", if priced then SameNumber I else fun _ _ => True), ("source_row", Eq), ("uom", Eq),
    ("warehouse", Eq)]

def paymentReferenceReview : List (String × (Value → Value → Prop)) :=
  [("allocated_amount", SameNumber I), ("reference_doctype", Eq), ("reference_name", Eq)]

/-- The reviewed fields of a payload. -/
def payloadReview : ActionType → List (String × (Value → Value → Prop))
  | .createMrDraft =>
      [("company", Eq), ("items", SameItems (SameFields (materialRequestItemReview I))),
        ("material_request_type", Eq), ("transaction_date", Eq)]
  | .createPoDraft =>
      [("buying_price_list", Eq), ("company", Eq), ("currency", SameCurrency I),
        ("items", SameItems (SameFields (purchaseOrderItemReview I))), ("schedule_date", Eq),
        ("supplier", Eq), ("transaction_date", Eq)]
  | .createPrDraft =>
      [("company", Eq), ("items", SameItems (SameFields (lineItemReview I false))),
        ("reason", Eq), ("source_doctype", Eq), ("source_name", Eq), ("transaction_date", Eq)]
  | .createPiDraft =>
      [("company", Eq), ("items", SameItems (SameFields (lineItemReview I true))),
        ("reason", Eq), ("source_doctype", Eq), ("source_name", Eq), ("transaction_date", Eq)]
  | .createPaymentEntryDraft =>
      [("company", Eq), ("paid_amount", SameNumber I), ("paid_from", Eq), ("paid_to", Eq),
        ("party", Eq), ("party_type", Eq), ("payment_type", Eq), ("posting_date", Eq),
        ("reason", Eq), ("received_amount", SameNumber I),
        ("references", SameItems (SameFields (paymentReferenceReview I))),
        ("source_currency", SameCurrency I), ("source_doctype", Eq), ("source_name", Eq),
        ("target_currency", SameCurrency I)]
  | _ => [("company", Eq), ("reason", Eq), ("source_doctype", Eq), ("source_name", Eq)]

/-- The reviewed fields of a proposal. -/
def proposalReview (t : ActionType) : List (String × (Value → Value → Prop)) :=
  [("action_id", SameUuid), ("action_type", Eq), ("approval_class", Eq),
    ("calculation_refs", SameSet), ("evidence_refs", SameSet), ("expires_at", SameInstant I),
    ("idempotency_key", Eq), ("initiator", Eq), ("payload", SameFields (payloadReview I t)),
    ("revalidation_rule", Eq), ("risk_class", Eq), ("run_id", SameUuid), ("schema_version", Eq),
    ("snapshot_ref", Eq)]

/-- Two submitted proposals agree on what was reviewed. -/
def SameReview (raw raw' : Dict) : Prop :=
  ∃ t : ActionType, item raw "action_type" = Value.ofString t.name ∧
    SameFields (proposalReview I t) (.dict raw) (.dict raw')

end Agreement

/-! ## Stored values determine typed values -/

@[simp] theorem RequiredText.value_inj {maximum : ℕ} {s t : RequiredText maximum} :
    s.value = t.value ↔ s = t :=
  ⟨fun h => RequiredText.ext (Value.str.inj h), congrArg _⟩

@[simp] theorem RequiredText.map_value_inj {maximum : ℕ} {s t : Option (RequiredText maximum)} :
    s.map RequiredText.value = t.map RequiredText.value ↔ s = t := by
  have h : Function.Injective (RequiredText.value : RequiredText maximum → Value) :=
    fun _ _ => RequiredText.value_inj.mp
  exact (Option.map_injective h).eq_iff

@[simp] theorem Amount.value_inj {a b : Amount} : a.value = b.value ↔ a = b :=
  ⟨fun h => Amount.text_injective (Value.str.inj h), congrArg _⟩

@[simp] theorem Amount.map_value_inj {a b : Option Amount} :
    a.map Amount.value = b.map Amount.value ↔ a = b :=
  (Option.map_injective fun _ _ => Amount.value_inj.mp).eq_iff

@[simp] theorem OneOf.value_inj {choices : List String} {x y : OneOf choices} :
    x.value = y.value ↔ x = y :=
  ⟨fun h => OneOf.ext (Text.ofString_inj _ _ |>.mp (Value.str.inj h)), congrArg _⟩

@[simp] theorem Uuid.value_inj {u v : Uuid} : u.value = v.value ↔ u = v :=
  ⟨fun h => Uuid.ext (Value.str.inj h), congrArg _⟩

@[simp] theorem IdempotencyKey.value_inj {k l : IdempotencyKey} : k.value = l.value ↔ k = l :=
  ⟨fun h => IdempotencyKey.ext (Value.str.inj h), congrArg _⟩

@[simp] theorem RefList.value_inj {r s : RefList} : r.value = s.value ↔ r = s := by
  have hstr : Function.Injective Value.str := fun _ _ => Value.str.inj
  exact ⟨fun h => RefList.ext (hstr.list_map (Value.list.inj h)), congrArg _⟩

@[simp] theorem ofString_inj {s t : String} : Value.ofString s = Value.ofString t ↔ s = t :=
  ⟨fun h => Text.ofString_inj _ _ |>.mp (Value.str.inj h), congrArg _⟩

/-- A time stamp is read back from its text, so the text determines it. -/
theorem timestampText_injective : Function.Injective timestampText := by
  intro d e h
  have hd := timestamp_timestampText Interpreter.ascii d ""
  rw [h, timestamp_timestampText] at hd
  exact (Except.ok.inj hd).symm

@[simp] theorem BoundedList.map_items_inj {α : Type} {maximum : ℕ} {render : α → Value}
    (hrender : ∀ {x y}, render x = render y ↔ x = y) {xs ys : BoundedList α maximum} :
    xs.items.map render = ys.items.map render ↔ xs = ys := by
  have hinj : Function.Injective render := fun _ _ => hrender.mp
  exact ⟨fun h => BoundedList.ext (hinj.list_map h), fun h => by rw [h]⟩

section Agree

variable {I : Interpreter}

@[simp] theorem DateText.value_inj {d e : DateText I} : d.value = e.value ↔ d = e :=
  ⟨fun h => DateText.ext (Value.str.inj h), congrArg _⟩

@[simp] theorem Currency.value_inj {c d : Currency I} : c.value = d.value ↔ c = d :=
  ⟨fun h => Currency.ext (Value.str.inj h), congrArg _⟩

@[simp] theorem Currency.map_value_inj {c d : Option (Currency I)} :
    c.map Currency.value = d.map Currency.value ↔ c = d :=
  (Option.map_injective fun _ _ => Currency.value_inj.mp).eq_iff

@[simp] theorem MaterialRequestItem.value_inj {x y : MaterialRequestItem I} :
    x.value = y.value ↔ x = y := by
  refine ⟨fun h => ?_, congrArg _⟩
  have hfields : x.fields = y.fields := record_inj rfl (by simp [fields]) (Value.dict.inj h)
  simp only [fields, List.cons.injEq, Prod.mk.injEq, true_and, and_true, Option.some.injEq,
    RequiredText.value_inj, RequiredText.map_value_inj, Amount.value_inj,
    DateText.value_inj] at hfields
  exact MaterialRequestItem.ext_iff.mpr hfields

@[simp] theorem PurchaseOrderItem.value_inj {x y : PurchaseOrderItem I} :
    x.value = y.value ↔ x = y := by
  refine ⟨fun h => ?_, congrArg _⟩
  have hfields : x.fields = y.fields := record_inj rfl (by simp [fields]) (Value.dict.inj h)
  simp only [fields, List.cons.injEq, Prod.mk.injEq, true_and, and_true, Option.some.injEq,
    RequiredText.value_inj, RequiredText.map_value_inj, Amount.value_inj,
    DateText.value_inj] at hfields
  exact PurchaseOrderItem.ext_iff.mpr hfields

@[simp] theorem LineItem.value_inj {priced : Bool} {x y : LineItem priced} :
    x.value = y.value ↔ x = y := by
  refine ⟨fun h => ?_, congrArg _⟩
  have hfields : x.fields = y.fields := record_inj rfl (by simp [fields]) (Value.dict.inj h)
  simp only [fields, List.cons.injEq, Prod.mk.injEq, true_and, and_true, Option.some.injEq,
    RequiredText.value_inj, RequiredText.map_value_inj, Amount.value_inj,
    Amount.map_value_inj] at hfields
  exact LineItem.ext_iff.mpr hfields

@[simp] theorem PaymentReference.value_inj {x y : PaymentReference} :
    x.value = y.value ↔ x = y := by
  refine ⟨fun h => ?_, congrArg _⟩
  have hfields : x.fields = y.fields := record_inj rfl (by simp [fields]) (Value.dict.inj h)
  simp only [fields, List.cons.injEq, Prod.mk.injEq, true_and, and_true, Option.some.injEq,
    RequiredText.value_inj, Amount.value_inj] at hfields
  exact PaymentReference.ext_iff.mpr hfields

theorem MaterialRequestPayload.value_inj {p q : MaterialRequestPayload I} :
    p.value = q.value ↔ p = q := by
  refine ⟨fun h => ?_, congrArg _⟩
  have hfields : p.fields = q.fields := record_inj rfl (by simp [fields]) (Value.dict.inj h)
  simp only [fields, List.cons.injEq, Prod.mk.injEq, true_and, and_true, Option.some.injEq,
    RequiredText.value_inj, OneOf.value_inj, DateText.value_inj, Value.list.injEq,
    BoundedList.items_map, BoundedList.map_items_inj MaterialRequestItem.value_inj] at hfields
  exact MaterialRequestPayload.ext_iff.mpr hfields

theorem PurchaseOrderPayload.value_inj {p q : PurchaseOrderPayload I} :
    p.value = q.value ↔ p = q := by
  refine ⟨fun h => ?_, congrArg _⟩
  have hfields : p.fields = q.fields := record_inj rfl (by simp [fields]) (Value.dict.inj h)
  simp only [fields, List.cons.injEq, Prod.mk.injEq, true_and, and_true, Option.some.injEq,
    RequiredText.value_inj, Currency.value_inj, DateText.value_inj, Value.list.injEq,
    BoundedList.items_map, BoundedList.map_items_inj PurchaseOrderItem.value_inj] at hfields
  exact PurchaseOrderPayload.ext_iff.mpr hfields

theorem SourcePayload.value_inj {p q : SourcePayload} {t : ActionType} :
    p.value t = q.value t ↔ p = q := by
  refine ⟨fun h => ?_, fun h => by rw [h]⟩
  have hfields : p.fields t = q.fields t := record_inj rfl (by simp [fields]) (Value.dict.inj h)
  simp only [fields, List.cons.injEq, Prod.mk.injEq, true_and, and_true, Option.some.injEq,
    RequiredText.value_inj, RequiredText.map_value_inj] at hfields
  exact SourcePayload.ext_iff.mpr hfields

theorem DraftPayload.value_inj {priced : Bool} {p q : DraftPayload I priced} :
    p.value = q.value ↔ p = q := by
  refine ⟨fun h => ?_, congrArg _⟩
  have hfields : p.fields = q.fields := record_inj rfl (by simp [fields]) (Value.dict.inj h)
  simp only [fields, List.cons.injEq, Prod.mk.injEq, true_and, and_true, Option.some.injEq,
    RequiredText.value_inj, RequiredText.map_value_inj, DateText.value_inj, Value.list.injEq,
    BoundedList.items_map, BoundedList.map_items_inj LineItem.value_inj] at hfields
  exact DraftPayload.ext_iff.mpr hfields

theorem PaymentPayload.value_inj {p q : PaymentPayload I} : p.value = q.value ↔ p = q := by
  refine ⟨fun h => ?_, congrArg _⟩
  have hfields : p.fields = q.fields := record_inj rfl (by simp [fields]) (Value.dict.inj h)
  simp only [fields, List.cons.injEq, Prod.mk.injEq, true_and, and_true, Option.some.injEq,
    RequiredText.value_inj, RequiredText.map_value_inj, DateText.value_inj, OneOf.value_inj,
    Amount.value_inj, Currency.map_value_inj, Value.list.injEq, BoundedList.items_map,
    BoundedList.map_items_inj PaymentReference.value_inj] at hfields
  exact PaymentPayload.ext_iff.mpr hfields

/-- The stored payload determines the payload. -/
theorem payloadValue_injective {t : ActionType} {p q : PayloadFor I t}
    (h : payloadValue p = payloadValue q) : p = q := by
  cases t with
  | createMrDraft => exact MaterialRequestPayload.value_inj.mp h
  | createPoDraft => exact PurchaseOrderPayload.value_inj.mp h
  | createPrDraft => exact DraftPayload.value_inj.mp h
  | createPiDraft => exact DraftPayload.value_inj.mp h
  | createPaymentEntryDraft => exact PaymentPayload.value_inj.mp h
  | submitPo => exact SourcePayload.value_inj.mp h
  | cancelPo => exact SourcePayload.value_inj.mp h
  | submitPr => exact SourcePayload.value_inj.mp h
  | cancelPr => exact SourcePayload.value_inj.mp h
  | submitPi => exact SourcePayload.value_inj.mp h
  | cancelPi => exact SourcePayload.value_inj.mp h
  | submitPaymentEntry => exact SourcePayload.value_inj.mp h
  | cancelPaymentEntry => exact SourcePayload.value_inj.mp h

/-! ## Submitted values of one typed value agree -/

theorem value_of_optionally {maximum : ℕ} {v : Value} {label : String}
    {r : Option (RequiredText maximum)}
    (h : optionally v (requiredText · label maximum) = .ok r) :
    v = (r.map RequiredText.value).getD .none := by
  rcases optionally_eq_ok.mp h with ⟨hnone, rfl⟩ | ⟨-, t, ht, rfl⟩
  · cases v <;> first | rfl | cases hnone
  · exact requiredText_eq_ok.mp ht

theorem eq_of_optionally {maximum : ℕ} {v w : Value} {label : String}
    {r : Option (RequiredText maximum)}
    (hv : optionally v (requiredText · label maximum) = .ok r)
    (hw : optionally w (requiredText · label maximum) = .ok r) : v = w := by
  rw [value_of_optionally hv, value_of_optionally hw]

theorem eq_of_requiredText {maximum : ℕ} {v w : Value} {label : String}
    {t : RequiredText maximum} (hv : requiredText v label maximum = .ok t)
    (hw : requiredText w label maximum = .ok t) : v = w := by
  rw [requiredText_eq_ok.mp hv, requiredText_eq_ok.mp hw]

theorem eq_of_date {v w : Value} {label : String} {d : DateText I}
    (hv : date I v label = .ok d) (hw : date I w label = .ok d) : v = w := by
  rw [date_eq_ok I hv, date_eq_ok I hw]

theorem eq_of_oneOf {choices : List String} {v w : Value} {label : String} {maximum : ℕ}
    {x : OneOf choices} (hv : oneOf choices v label maximum = .ok x)
    (hw : oneOf choices w label maximum = .ok x) : v = w := by
  rw [oneOf_eq_ok hv, oneOf_eq_ok hw]

theorem sameNumber_of_decimal {v w : Value} {label : String} {a : Amount}
    (hv : decimal I v label = .ok a) (hw : decimal I w label = .ok a) : SameNumber I v w := by
  obtain ⟨d, hd, hdnormal⟩ := (decimal_eq_ok I).mp hv
  obtain ⟨e, he, henormal⟩ := (decimal_eq_ok I).mp hw
  have hpos : ∀ {v d}, decimalNumber I v = some d → 0 < d.value := fun h =>
    lt_of_lt_of_le (by rw [minimum]; positivity) (minimum_le_of_decimalNumber I h)
  refine ⟨d, e, hd, he, fun hddigits hedigits => ?_⟩
  rw [← Dec.normalize_value (hpos hd) hddigits hdnormal,
    Dec.normalize_value (hpos he) hedigits henormal]

theorem sameUuid_of_uuid {v w : Value} {label : String} {u : Uuid}
    (hv : uuid v label = .ok u) (hw : uuid w label = .ok u) : SameUuid v w := by
  obtain ⟨s, rfl, hs⟩ := uuid_eq_ok hv
  obtain ⟨t, rfl, ht⟩ := uuid_eq_ok hw
  exact ⟨s, t, rfl, rfl, hs.trans ht.symm⟩

theorem sameCurrency_of_currency {v w : Value} {label : String} {c : Currency I}
    (hv : currency I v label = .ok c) (hw : currency I w label = .ok c) : SameCurrency I v w := by
  obtain ⟨s, rfl, hs⟩ := (currency_eq_ok I).mp hv
  obtain ⟨t, rfl, ht⟩ := (currency_eq_ok I).mp hw
  exact Or.inr ⟨s.text, t.text, rfl, rfl, hs.trans ht.symm⟩

theorem sameCurrency_of_optionally {v w : Value} {label : String} {c : Option (Currency I)}
    (hv : optionally v (currency I · label) = .ok c)
    (hw : optionally w (currency I · label) = .ok c) : SameCurrency I v w := by
  have hnone : ∀ {u : Value}, isNone u = true → u = .none := by
    intro u hu
    cases u <;> first | rfl | cases hu
  rcases optionally_eq_ok.mp hv with ⟨hvnone, rfl⟩ | ⟨-, a, ha, rfl⟩
  · rcases optionally_eq_ok.mp hw with ⟨hwnone, -⟩ | ⟨-, b, -, hb⟩
    · exact Or.inl ⟨hnone hvnone, hnone hwnone⟩
    · cases hb
  · rcases optionally_eq_ok.mp hw with ⟨-, hb⟩ | ⟨-, b, hb, heq⟩
    · cases hb
    · obtain rfl := Option.some.inj heq
      exact sameCurrency_of_currency ha hb

theorem sameSet_of_refList {v w : Value} {label : String} {r : RefList}
    (hv : refList v label = .ok r) (hw : refList w label = .ok r) : SameSet v w := by
  obtain ⟨s, rfl, hs⟩ := refList_eq_ok hv
  obtain ⟨t, rfl, ht⟩ := refList_eq_ok hw
  exact ⟨s, t, rfl, rfl, hs.trans ht.symm⟩

theorem forall₂_of_common {α β γ : Type} {r : α → γ → Prop} {s : β → γ → Prop}
    {same : α → β → Prop} (hsame : ∀ x y z, r x z → s y z → same x y) {xs : List α}
    {ys : List β} {zs : List γ} (hx : List.Forall₂ r xs zs) (hy : List.Forall₂ s ys zs) :
    List.Forall₂ same xs ys := by
  induction hx generalizing ys with
  | nil =>
      cases hy
      exact List.Forall₂.nil
  | cons hxz _ ih =>
      cases hy with
      | cons hyz hys => exact List.Forall₂.cons (hsame _ _ _ hxz hyz) (ih hys)

/-- Items of one typed list agree, when the items of one typed item do. -/
theorem sameItems_of_parse {α : Type} {maximum : ℕ} {parse : ℕ → Value → Result α}
    (same : Value → Value → Prop)
    (hsame : ∀ i j v w x, parse i v = .ok x → parse j w = .ok x → same v w) {v w : Value}
    {label : String} {xs ys : BoundedList Value maximum} {zs : BoundedList α maximum}
    (hv : list v label maximum = .ok xs) (hxs : xs.parse parse = .ok zs)
    (hw : list w label maximum = .ok ys) (hys : ys.parse parse = .ok zs) : SameItems same v w := by
  refine ⟨xs.items, ys.items, list_eq_ok.mp hv, list_eq_ok.mp hw, ?_⟩
  exact forall₂_of_common (fun x y z hx hy => hsame _ _ x y z hx.choose_spec hy.choose_spec)
    (parseItems_eq_ok (BoundedList.parse_eq_ok.mp hxs))
    (parseItems_eq_ok (BoundedList.parse_eq_ok.mp hys))

theorem MaterialRequestItem.same {i j : ℕ} {v w : Value} {x : MaterialRequestItem I}
    (hv : parseMaterialRequestItem I i v = .ok x) (hw : parseMaterialRequestItem I j w = .ok x) :
    SameFields (materialRequestItemReview I) v w := by
  simp only [parseMaterialRequestItem, bind_eq_ok] at hv hw
  obtain ⟨raw, hraw, code, hcode, qty, hqty, sched, hsched, wh, hwh, uom, huom, descr, hdescr,
    h⟩ := hv
  obtain rfl := Except.ok.inj h
  obtain ⟨raw', hraw', code', hcode', qty', hqty', sched', hsched', wh', hwh', uom', huom',
    descr', hdescr', h'⟩ := hw
  simp only [Except.ok.injEq, MaterialRequestItem.mk.injEq] at h'
  obtain ⟨rfl, rfl, rfl, rfl, rfl, rfl⟩ := h'
  obtain ⟨rfl, -⟩ := object_eq_ok.mp hraw
  obtain ⟨rfl, -⟩ := object_eq_ok.mp hraw'
  simp only [SameFields, materialRequestItemReview, List.forall_mem_cons, entriesOf]
  exact ⟨eq_of_optionally hdescr hdescr', eq_of_requiredText hcode hcode',
    sameNumber_of_decimal hqty hqty', eq_of_date hsched hsched', eq_of_optionally huom huom',
    eq_of_requiredText hwh hwh', fun _ h => absurd h List.not_mem_nil⟩

theorem PurchaseOrderItem.same {i j : ℕ} {v w : Value} {x : PurchaseOrderItem I}
    (hv : parsePurchaseOrderItem I i v = .ok x) (hw : parsePurchaseOrderItem I j w = .ok x) :
    SameFields (purchaseOrderItemReview I) v w := by
  simp only [parsePurchaseOrderItem, bind_eq_ok] at hv hw
  obtain ⟨raw, hraw, code, hcode, qty, hqty, sched, hsched, wh, hwh, uom, huom, descr, hdescr,
    mr, hmr, rate, hrate, h⟩ := hv
  obtain rfl := Except.ok.inj h
  obtain ⟨raw', hraw', code', hcode', qty', hqty', sched', hsched', wh', hwh', uom', huom',
    descr', hdescr', mr', hmr', rate', hrate', h'⟩ := hw
  simp only [Except.ok.injEq, PurchaseOrderItem.mk.injEq] at h'
  obtain ⟨rfl, rfl, rfl, rfl, rfl, rfl, rfl, rfl⟩ := h'
  obtain ⟨rfl, -⟩ := object_eq_ok.mp hraw
  obtain ⟨rfl, -⟩ := object_eq_ok.mp hraw'
  simp only [SameFields, purchaseOrderItemReview, List.forall_mem_cons, entriesOf]
  exact ⟨eq_of_optionally hdescr hdescr', eq_of_requiredText hcode hcode',
    eq_of_optionally hmr hmr', sameNumber_of_decimal hqty hqty',
    sameNumber_of_decimal hrate hrate', eq_of_date hsched hsched', eq_of_optionally huom huom',
    eq_of_requiredText hwh hwh', fun _ h => absurd h List.not_mem_nil⟩

theorem PaymentReference.same {i j : ℕ} {v w : Value} {x : PaymentReference}
    (hv : parsePaymentReference I i v = .ok x) (hw : parsePaymentReference I j w = .ok x) :
    SameFields (paymentReferenceReview I) v w := by
  simp only [parsePaymentReference, bind_eq_ok] at hv hw
  obtain ⟨raw, hraw, hv⟩ := hv
  obtain ⟨raw', hraw', hw⟩ := hw
  split_ifs at hv hw with hdoctype hdoctype'
  simp only [bind_eq_ok] at hv hw
  obtain ⟨name, hname, amount, hamount, h⟩ := hv
  obtain rfl := Except.ok.inj h
  obtain ⟨name', hname', amount', hamount', h'⟩ := hw
  simp only [Except.ok.injEq, PaymentReference.mk.injEq] at h'
  obtain ⟨rfl, rfl⟩ := h'
  obtain ⟨rfl, -⟩ := object_eq_ok.mp hraw
  obtain ⟨rfl, -⟩ := object_eq_ok.mp hraw'
  simp only [SameFields, paymentReferenceReview, List.forall_mem_cons, entriesOf]
  exact ⟨sameNumber_of_decimal hamount hamount',
    (eq_ofString_of_isText hdoctype).trans (eq_ofString_of_isText hdoctype').symm,
    eq_of_requiredText hname hname', fun _ h => absurd h List.not_mem_nil⟩

/-- What the fields of a line past its source row were read from. -/
theorem LineItem.reads {priced : Bool} {raw : Dict} {sourceRow : RequiredText 140}
    {x : LineItem priced} (h : parseLineFields I priced raw sourceRow = .ok x) :
    requiredText (item raw "item_code") "item_code" 140 = .ok x.itemCode ∧
      decimal I (item raw "qty") "qty" = .ok x.qty ∧
      optionally (item raw "uom") (requiredText · "uom" 140) = .ok x.uom ∧
      optionally (item raw "warehouse") (requiredText · "warehouse" 140) = .ok x.warehouse ∧
      optionally (item raw "description") (requiredText · "description" 2000) =
        .ok x.description ∧
      ∀ rate ∈ x.rate, decimal I (item raw "rate") "rate" = .ok rate := by
  simp only [parseLineFields, bind_eq_ok] at h
  obtain ⟨code, hcode, qty, hqty, uom, huom, wh, hwh, descr, hdescr, h⟩ := h
  split_ifs at h
  · rw [bind_eq_ok] at h
    obtain ⟨rate, hrate, h⟩ := h
    obtain rfl := Except.ok.inj h
    refine ⟨hcode, hqty, huom, hwh, hdescr, ?_⟩
    rintro r hr
    obtain rfl := Option.some.inj hr
    exact hrate
  · obtain rfl := Except.ok.inj h
    exact ⟨hcode, hqty, huom, hwh, hdescr, by rintro r ⟨⟩⟩

theorem LineItem.same {priced : Bool} {raw raw' : Dict} {row row' : RequiredText 140}
    {x : LineItem priced} (hv : parseLineFields I priced raw row = .ok x)
    (hw : parseLineFields I priced raw' row' = .ok x)
    (hrow : requiredText (item raw "source_row") "source_row" 140 = .ok row)
    (hrow' : requiredText (item raw' "source_row") "source_row" 140 = .ok row') :
    SameFields (lineItemReview I priced) (.dict raw) (.dict raw') := by
  obtain ⟨hcode, hqty, huom, hwh, hdescr, hrate⟩ := LineItem.reads hv
  obtain ⟨hcode', hqty', huom', hwh', hdescr', hrate'⟩ := LineItem.reads hw
  have hrows : row = row' := by
    rw [← parseLineFields_sourceRow I hv, ← parseLineFields_sourceRow I hw]
  subst hrows
  simp only [SameFields, lineItemReview, List.forall_mem_cons, entriesOf]
  refine ⟨eq_of_optionally hdescr hdescr', eq_of_requiredText hcode hcode',
    sameNumber_of_decimal hqty hqty', ?_, eq_of_requiredText hrow hrow',
    eq_of_optionally huom huom', eq_of_optionally hwh hwh',
    fun _ h => absurd h List.not_mem_nil⟩
  have hsome := x.rate_isSome
  cases priced with
  | false => trivial
  | true =>
      obtain ⟨rate, hx⟩ := Option.isSome_iff_exists.mp hsome
      exact sameNumber_of_decimal (hrate rate hx) (hrate' rate hx)

theorem LineItem.same_items {priced : Bool} {i j : ℕ} {seen seen' : List Text}
    {xs ys : List Value} {lines : List (LineItem priced)}
    (hxs : parseLineItems I priced i seen xs = .ok lines)
    (hys : parseLineItems I priced j seen' ys = .ok lines) :
    List.Forall₂ (SameFields (lineItemReview I priced)) xs ys := by
  induction lines generalizing xs ys i j seen seen' with
  | nil =>
      have hx := (length_of_parseLineItems I hxs).symm
      have hy := (length_of_parseLineItems I hys).symm
      rw [List.length_nil, List.length_eq_zero_iff] at hx hy
      subst hx hy
      exact List.Forall₂.nil
  | cons line lines ih =>
      cases xs with
      | nil => cases hxs
      | cons x xs =>
          cases ys with
          | nil => cases hys
          | cons y ys =>
              simp only [parseLineItems, bind_eq_ok] at hxs hys
              obtain ⟨raw, hraw, row, hrow, hxs⟩ := hxs
              obtain ⟨raw', hraw', row', hrow', hys⟩ := hys
              split_ifs at hxs hys
              simp only [bind_eq_ok] at hxs hys
              obtain ⟨line₁, hline, rest, hrest, h⟩ := hxs
              obtain ⟨line₂, hline', rest', hrest', h'⟩ := hys
              obtain ⟨rfl, rfl⟩ := List.cons.inj (Except.ok.inj h)
              obtain ⟨rfl, rfl⟩ := List.cons.inj (Except.ok.inj h')
              obtain ⟨rfl, -⟩ := object_eq_ok.mp hraw
              obtain ⟨rfl, -⟩ := object_eq_ok.mp hraw'
              exact List.Forall₂.cons (LineItem.same hline hline' hrow hrow') (ih hrest hrest')

theorem MaterialRequestPayload.same {v w : Value} {p : MaterialRequestPayload I}
    (hv : parseMaterialRequestPayload I v = .ok p)
    (hw : parseMaterialRequestPayload I w = .ok p) :
    SameFields (payloadReview I .createMrDraft) v w := by
  simp only [parseMaterialRequestPayload, bind_eq_ok] at hv hw
  obtain ⟨raw, hraw, company, hcompany, day, hday, xs, hxs, items, hitems, type, htype, h⟩ := hv
  obtain rfl := Except.ok.inj h
  obtain ⟨raw', hraw', company', hcompany', day', hday', ys, hys, items', hitems', type',
    htype', h'⟩ := hw
  simp only [Except.ok.injEq, MaterialRequestPayload.mk.injEq] at h'
  obtain ⟨rfl, rfl, rfl, rfl⟩ := h'
  obtain ⟨rfl, -⟩ := object_eq_ok.mp hraw
  obtain ⟨rfl, -⟩ := object_eq_ok.mp hraw'
  simp only [SameFields, payloadReview, List.forall_mem_cons, entriesOf]
  exact ⟨eq_of_requiredText hcompany hcompany',
    sameItems_of_parse (SameFields (materialRequestItemReview I))
      (fun _ _ _ _ _ h h' => MaterialRequestItem.same h h') hxs hitems hys hitems',
    eq_of_oneOf htype htype', eq_of_date hday hday', fun _ h => absurd h List.not_mem_nil⟩

theorem PurchaseOrderPayload.same {v w : Value} {p : PurchaseOrderPayload I}
    (hv : parsePurchaseOrderPayload I v = .ok p) (hw : parsePurchaseOrderPayload I w = .ok p) :
    SameFields (payloadReview I .createPoDraft) v w := by
  simp only [parsePurchaseOrderPayload, bind_eq_ok] at hv hw
  obtain ⟨raw, hraw, company, hcompany, day, hday, xs, hxs, items, hitems, supplier, hsupplier,
    sched, hsched, cur, hcur, list, hlist, h⟩ := hv
  obtain rfl := Except.ok.inj h
  obtain ⟨raw', hraw', company', hcompany', day', hday', ys, hys, items', hitems', supplier',
    hsupplier', sched', hsched', cur', hcur', list', hlist', h'⟩ := hw
  simp only [Except.ok.injEq, PurchaseOrderPayload.mk.injEq] at h'
  obtain ⟨rfl, rfl, rfl, rfl, rfl, rfl, rfl⟩ := h'
  obtain ⟨rfl, -⟩ := object_eq_ok.mp hraw
  obtain ⟨rfl, -⟩ := object_eq_ok.mp hraw'
  simp only [SameFields, payloadReview, List.forall_mem_cons, entriesOf]
  exact ⟨eq_of_requiredText hlist hlist', eq_of_requiredText hcompany hcompany',
    sameCurrency_of_currency hcur hcur',
    sameItems_of_parse (SameFields (purchaseOrderItemReview I))
      (fun _ _ _ _ _ h h' => PurchaseOrderItem.same h h') hxs hitems hys hitems',
    eq_of_date hsched hsched', eq_of_requiredText hsupplier hsupplier', eq_of_date hday hday',
    fun _ h => absurd h List.not_mem_nil⟩

theorem SourcePayload.same {v w : Value} {t : ActionType} {p : SourcePayload}
    (hv : parseSourcePayload t v = .ok p) (hw : parseSourcePayload t w = .ok p) :
    SameFields [("company", Eq), ("reason", Eq), ("source_doctype", Eq), ("source_name", Eq)]
      v w := by
  simp only [parseSourcePayload, bind_eq_ok] at hv hw
  obtain ⟨raw, hraw, ⟨⟩, hdoctype, company, hcompany, name, hname, reason, hreason, h⟩ := hv
  obtain rfl := Except.ok.inj h
  obtain ⟨raw', hraw', ⟨⟩, hdoctype', company', hcompany', name', hname', reason', hreason',
    h'⟩ := hw
  simp only [Except.ok.injEq, SourcePayload.mk.injEq] at h'
  obtain ⟨rfl, rfl, rfl⟩ := h'
  obtain ⟨rfl, -⟩ := object_eq_ok.mp hraw
  obtain ⟨rfl, -⟩ := object_eq_ok.mp hraw'
  simp only [SameFields, List.forall_mem_cons, entriesOf]
  exact ⟨eq_of_requiredText hcompany hcompany', eq_of_optionally hreason hreason',
    (exactText_eq_ok hdoctype).trans (exactText_eq_ok hdoctype').symm,
    eq_of_requiredText hname hname', fun _ h => absurd h List.not_mem_nil⟩

theorem DraftPayload.same {priced : Bool} {v w : Value} {p : DraftPayload I priced}
    (hv : parseDraftPayload I priced v = .ok p) (hw : parseDraftPayload I priced w = .ok p) :
    SameFields
      [("company", Eq), ("items", SameItems (SameFields (lineItemReview I priced))),
        ("reason", Eq), ("source_doctype", Eq), ("source_name", Eq), ("transaction_date", Eq)]
      v w := by
  obtain ⟨raw, hraw, hdoctype, hcompany, hname, hday, ⟨xs, hxs, hlines⟩, hreason⟩ :=
    DraftPayload.parse_eq_ok.mp hv
  obtain ⟨raw', hraw', hdoctype', hcompany', hname', hday', ⟨ys, hys, hlines'⟩, hreason'⟩ :=
    DraftPayload.parse_eq_ok.mp hw
  obtain ⟨rfl, -⟩ := object_eq_ok.mp hraw
  obtain ⟨rfl, -⟩ := object_eq_ok.mp hraw'
  simp only [SameFields, List.forall_mem_cons, entriesOf]
  exact ⟨eq_of_requiredText hcompany hcompany',
    ⟨xs.items, ys.items, hxs, hys, LineItem.same_items hlines hlines'⟩,
    eq_of_optionally hreason hreason',
    (exactText_eq_ok hdoctype).trans (exactText_eq_ok hdoctype').symm,
    eq_of_requiredText hname hname', eq_of_date hday hday',
    fun _ h => absurd h List.not_mem_nil⟩

theorem PaymentPayload.same {v w : Value} {p : PaymentPayload I}
    (hv : parsePaymentPayload I v = .ok p) (hw : parsePaymentPayload I w = .ok p) :
    SameFields (payloadReview I .createPaymentEntryDraft) v w := by
  simp only [parsePaymentPayload, bind_eq_ok] at hv hw
  obtain ⟨raw, hraw, ⟨⟩, hdoctype, type, htype, xs, hxs, refs, hrefs, company, hcompany, name,
    hname, partyType, hpartyType, party, hparty, day, hday, paidFrom, hpaidFrom, paidTo, hpaidTo,
    paid, hpaid, received, hreceived, source, hsource, target, htarget, reason, hreason, h⟩ := hv
  obtain rfl := Except.ok.inj h
  obtain ⟨raw', hraw', ⟨⟩, hdoctype', type', htype', ys, hys, refs', hrefs', company', hcompany',
    name', hname', partyType', hpartyType', party', hparty', day', hday', paidFrom', hpaidFrom',
    paidTo', hpaidTo', paid', hpaid', received', hreceived', source', hsource', target', htarget',
    reason', hreason', h'⟩ := hw
  simp only [Except.ok.injEq, PaymentPayload.mk.injEq] at h'
  obtain ⟨rfl, rfl, rfl, rfl, rfl, rfl, rfl, rfl, rfl, rfl, rfl, rfl, rfl, rfl⟩ := h'
  obtain ⟨rfl, -⟩ := object_eq_ok.mp hraw
  obtain ⟨rfl, -⟩ := object_eq_ok.mp hraw'
  simp only [SameFields, payloadReview, List.forall_mem_cons, entriesOf]
  exact ⟨eq_of_requiredText hcompany hcompany', sameNumber_of_decimal hpaid hpaid',
    eq_of_requiredText hpaidFrom hpaidFrom', eq_of_requiredText hpaidTo hpaidTo',
    eq_of_requiredText hparty hparty', eq_of_requiredText hpartyType hpartyType',
    eq_of_oneOf htype htype', eq_of_date hday hday', eq_of_optionally hreason hreason',
    sameNumber_of_decimal hreceived hreceived',
    sameItems_of_parse (SameFields (paymentReferenceReview I))
      (fun _ _ _ _ _ h h' => PaymentReference.same h h') hxs hrefs hys hrefs',
    sameCurrency_of_optionally hsource hsource',
    (exactText_eq_ok hdoctype).trans (exactText_eq_ok hdoctype').symm,
    eq_of_requiredText hname hname', sameCurrency_of_optionally htarget htarget',
    fun _ h => absurd h List.not_mem_nil⟩

/-- Submitted payloads of one typed payload agree. -/
theorem samePayload_of_parsePayload {t : ActionType} {v w : Value} {p : PayloadFor I t}
    (hv : parsePayload I t v = .ok p) (hw : parsePayload I t w = .ok p) :
    SameFields (payloadReview I t) v w := by
  cases t with
  | createMrDraft => exact MaterialRequestPayload.same hv hw
  | createPoDraft => exact PurchaseOrderPayload.same hv hw
  | createPrDraft => exact DraftPayload.same hv hw
  | createPiDraft => exact DraftPayload.same hv hw
  | createPaymentEntryDraft => exact PaymentPayload.same hv hw
  | submitPo => exact SourcePayload.same hv hw
  | cancelPo => exact SourcePayload.same hv hw
  | submitPr => exact SourcePayload.same hv hw
  | cancelPr => exact SourcePayload.same hv hw
  | submitPi => exact SourcePayload.same hv hw
  | cancelPi => exact SourcePayload.same hv hw
  | submitPaymentEntry => exact SourcePayload.same hv hw
  | cancelPaymentEntry => exact SourcePayload.same hv hw

/-! ## The canonical bytes -/

theorem Proposal.plain_reviewedFields (p : Proposal I) :
    Json.Plain (.dict (record p.reviewedFields)) := by
  apply plain_record
  · simp only [reviewedFields, List.map_cons, List.map_nil]
    decide
  · have hpayload := plain_payloadValue p.payload
    simp [reviewedFields, hpayload, RefList.plain_value, Uuid.value, IdempotencyKey.value]

theorem exists_canonicalProposalBytes (a : ProposedAction I) :
    ∃ bytes, canonicalProposalBytes a.toProposal = .ok bytes ∧
      Text.encodeUtf8 (Json.render I (.dict (record a.reviewedFields))) = some bytes := by
  have hdigest := a.digest_eq
  unfold proposalDigest at hdigest
  cases hbytes : canonicalProposalBytes a.toProposal with
  | error e =>
      rw [hbytes] at hdigest
      cases hdigest
  | ok bytes =>
      refine ⟨bytes, rfl, ?_⟩
      rw [canonicalProposalBytes, canonicalJson,
        Json.dumps_of_plain I (Proposal.plain_reviewedFields a.toProposal),
        Option.bind_some] at hbytes
      split at hbytes
      case h_1 b hb => rw [hb, Except.ok.inj hbytes]
      case h_2 => cases hbytes

/-- Equal canonical bytes come from equal reviewed fields. -/
theorem reviewedFields_eq {a b : ProposedAction I}
    (h : canonicalProposalBytes a.toProposal = canonicalProposalBytes b.toProposal) :
    a.reviewedFields = b.reviewedFields := by
  obtain ⟨bytes, ha, hbytes⟩ := exists_canonicalProposalBytes a
  obtain ⟨bytes', hb, hbytes'⟩ := exists_canonicalProposalBytes b
  obtain rfl := Except.ok.inj (ha.symm.trans (h.trans hb))
  have htext := Text.encodeUtf8_injective hbytes hbytes'
  have hvalue := Json.render_injective I (Proposal.plain_reviewedFields a.toProposal)
    (Proposal.plain_reviewedFields b.toProposal) htext
  exact record_inj rfl (by simp [Proposal.reviewedFields]) (Value.dict.inj hvalue)

/-- Two accepted proposals with the same canonical bytes agree on what was reviewed. -/
theorem sameReview_of_canonicalBytes_eq (I : Interpreter) {v w : Value} {raw raw' : Dict}
    {a b : ProposedAction I} (hraw : submittedObject I v = .ok raw)
    (hraw' : submittedObject I w = .ok raw') (ha : buildProposedAction I v = .ok a)
    (hb : buildProposedAction I w = .ok b)
    (h : canonicalProposalBytes a.toProposal = canonicalProposalBytes b.toProposal) :
    SameReview I raw raw' := by
  obtain ⟨_, hsub, -, -, htype, hschema, hreads, -⟩ := (buildProposedAction_eq_ok I).mp ha
  obtain rfl := Except.ok.inj (hraw.symm.trans hsub)
  obtain ⟨_, hsub', -, -, htype', hschema', hreads', -⟩ := (buildProposedAction_eq_ok I).mp hb
  obtain rfl := Except.ok.inj (hraw'.symm.trans hsub')
  have hfields := reviewedFields_eq h
  obtain ⟨⟨t, run, action, initiator, payload, evidence, calculation, risk, snapshot, key,
    expires, summary, correlation⟩, digest, hdigest⟩ := a
  obtain ⟨⟨t', run', action', initiator', payload', evidence', calculation', risk', snapshot',
    key', expires', summary', correlation'⟩, digest', hdigest'⟩ := b
  simp only [Proposal.reviewedFields, List.cons.injEq, Prod.mk.injEq, true_and, and_true,
    Option.some.injEq, Uuid.value_inj, ofString_inj, RefList.value_inj, Value.str.injEq,
    timestampText_injective.eq_iff, IdempotencyKey.value_inj, RequiredText.value_inj,
    OneOf.value_inj, ActionType.name_injective.eq_iff] at hfields
  obtain ⟨rfl, rfl, -, rfl, rfl, rfl, rfl, rfl, hpayload, -, rfl, rfl, -, rfl⟩ := hfields
  obtain rfl := payloadValue_injective hpayload
  refine ⟨t, htype, ?_⟩
  simp only [SameFields, proposalReview, List.forall_mem_cons, entriesOf]
  exact ⟨sameUuid_of_uuid hreads.actionId hreads'.actionId, htype.trans htype'.symm,
    (eq_ofString_of_isText hreads.approvalClass).trans
      (eq_ofString_of_isText hreads'.approvalClass).symm,
    sameSet_of_refList hreads.calculationRefs hreads'.calculationRefs,
    sameSet_of_refList hreads.evidenceRefs hreads'.evidenceRefs,
    ⟨expires, hreads.expiresAt, hreads'.expiresAt⟩,
    (idempotencyKey_eq_ok hreads.idempotencyKey).trans
      (idempotencyKey_eq_ok hreads'.idempotencyKey).symm,
    eq_of_requiredText hreads.initiator hreads'.initiator,
    samePayload_of_parsePayload hreads.payload hreads'.payload,
    (eq_ofString_of_isText hreads.revalidationRule).trans
      (eq_ofString_of_isText hreads'.revalidationRule).symm,
    (riskClass?_eq_some.mp hreads.riskClass).trans (riskClass?_eq_some.mp hreads'.riskClass).symm,
    sameUuid_of_uuid hreads.runId hreads'.runId,
    (eq_ofString_of_isText hschema).trans (eq_ofString_of_isText hschema').symm,
    eq_of_requiredText hreads.snapshotRef hreads'.snapshotRef,
    fun _ h => absurd h List.not_mem_nil⟩

end Agree

/-! ## Two spellings of one amount -/

section Spellings

variable {I : Interpreter}

theorem parse_materialRequestLine {q q' : String} (i : ℕ)
    (hqty : decimal I (Value.ofString q') "qty" = decimal I (Value.ofString q) "qty") :
    parseMaterialRequestItem I i (.dict (record (materialRequestLine q'))) =
      parseMaterialRequestItem I i (.dict (record (materialRequestLine q))) := by
  have hobject : ∀ q, object (.dict (record (materialRequestLine q)))
      ["item_code", "qty", "uom", "schedule_date", "warehouse", "description"]
      ["item_code", "qty", "schedule_date", "warehouse"] s!"payload.items[{i}]" =
        .ok (record (materialRequestLine q)) := fun q =>
    object_record_eq_ok (by simp [materialRequestLine]) (by simp [materialRequestLine])
  simp only [parseMaterialRequestItem, hobject, ok_bind]
  simp [materialRequestLine, item_record_cons, hqty]

theorem parse_materialRequestBody {q q' : String} {p : MaterialRequestPayload I}
    (hqty : decimal I (Value.ofString q') "qty" = decimal I (Value.ofString q) "qty")
    (h : parseMaterialRequestPayload I (.dict (record (materialRequestBody q))) = .ok p) :
    parseMaterialRequestPayload I (.dict (record (materialRequestBody q'))) = .ok p := by
  have hobject : ∀ q, object (.dict (record (materialRequestBody q)))
      ["company", "transaction_date", "material_request_type", "items"]
      ["company", "transaction_date", "material_request_type", "items"] "payload" =
        .ok (record (materialRequestBody q)) := fun q =>
    object_record_eq_ok (by simp [materialRequestBody]) (by simp [materialRequestBody])
  simp only [parseMaterialRequestPayload, hobject, ok_bind, bind_eq_ok] at h ⊢
  obtain ⟨company, hcompany, day, hday, xs, hxs, items, hitems, type, htype, h⟩ := h
  have hlines : xs.items = [.dict (record (materialRequestLine q))] := by
    simpa [materialRequestBody, item_record_cons] using (list_eq_ok.mp hxs).symm
  refine ⟨company, ?_, day, ?_, xs.withItems [.dict (record (materialRequestLine q'))]
    (by rw [hlines]; rfl), list_eq_ok.mpr ?_, items, ?_, type, ?_, h⟩
  · simpa [materialRequestBody, item_record_cons] using hcompany
  · simpa [materialRequestBody, item_record_cons] using hday
  · simp [materialRequestBody, item_record_cons, BoundedList.withItems]
  · rw [BoundedList.parse_eq_ok] at hitems ⊢
    rw [hlines] at hitems
    simpa [BoundedList.withItems, parseItems, parse_materialRequestLine _ hqty] using hitems
  · simpa [materialRequestBody, item_record_cons] using htype

/-- A proposal is read alike from two objects that differ in the payload only. -/
theorem Reads.of_item_eq {raw raw' : Dict} {p : Proposal I} (h : Reads I raw p)
    (hitem : ∀ key, key ≠ "payload" → item raw' key = item raw key)
    (hpayload : parsePayload I p.actionType (item raw' "payload") = .ok p.payload) :
    Reads I raw' p := by
  obtain ⟨hsummary, hkey, hrun, haction, hinitiator, -, hevidence, hcalculation, hsnapshot,
    hexpires, hcorrelation, hrisk, happroval, hrule⟩ := h
  constructor <;> first | exact hpayload | (rw [hitem _ (by decide)]; assumption)

/-- A quantity that normalises to the same amount gives the same action. -/
theorem build_materialRequestProposal {q q' : String} {a : ProposedAction I}
    (hqty : decimal I (Value.ofString q') "qty" = decimal I (Value.ofString q) "qty")
    (h : buildProposedAction I (.dict (materialRequestProposal q [])) = .ok a) :
    buildProposedAction I (.dict (materialRequestProposal q' [])) = .ok a := by
  obtain ⟨raw, hraw, -, -, htype, hschema, hreads, hdigest⟩ := (buildProposedAction_eq_ok I).mp h
  obtain rfl := Except.ok.inj
    ((submittedObject_materialRequestProposal q [] (by simp)).symm.trans hraw)
  have hraw' := submittedObject_materialRequestProposal (I := I) q' [] (by simp)
  have hobject : object (.dict (materialRequestProposal q' [])) actionFields actionRequired
      "proposed action" = .ok (materialRequestProposal q' []) := hraw'
  obtain ⟨-, hknown, hrequired⟩ := object_eq_ok.mp hobject
  have hitem : ∀ key, key ≠ "payload" → item (materialRequestProposal q' []) key =
      item (materialRequestProposal q []) key := by
    intro key hkey
    simp only [materialRequestProposal, materialRequestFields, List.cons_append, item_record_cons,
      hkey.symm, if_false]
  have hbody : ∀ q, item (materialRequestProposal q []) "payload" =
      .dict (record (materialRequestBody q)) := by
    intro q
    simp [materialRequestProposal, materialRequestFields, item_record_cons]
  refine (buildProposedAction_eq_ok I).mpr ⟨_, hraw', hknown, hrequired,
    (hitem _ (by decide)).trans htype, ?_, hreads.of_item_eq hitem ?_, ?_⟩
  · rwa [hitem _ (by decide)]
  · have hmr : item (materialRequestProposal q []) "action_type" =
        Value.ofString ActionType.createMrDraft.name := by
      simp [materialRequestProposal, materialRequestFields, item_record_cons, ActionType.name]
    have hpayload := hreads.payload
    rw [hbody] at hpayload ⊢
    obtain ⟨⟨t, run, action, initiator, payload, evidence, calculation, risk, snapshot, key,
      expires, summary, correlation⟩, digest, hseal⟩ := a
    obtain rfl : t = .createMrDraft := ActionType.name_injective
      (Text.ofString_inj _ _ |>.mp (Value.str.inj (htype.symm.trans hmr)))
    exact parse_materialRequestBody hqty hpayload
  · rwa [hitem _ (by decide)]

/-- Two numbers of one normal form are kept as the same amount. -/
theorem decimal_eq_of_normalize {v w : Value} {label : String} {d e n : Dec}
    (hv : decimalNumber I v = some d) (hd : d.normalize = some n)
    (hw : decimalNumber I w = some e) (he : e.normalize = some n) :
    decimal I w label = decimal I v label := by
  cases ha : decimal I v label with
  | ok a =>
      obtain ⟨d', hd', hn⟩ := (decimal_eq_ok I).mp ha
      obtain rfl := Option.some.inj (hv.symm.trans hd')
      exact (decimal_eq_ok I).mpr ⟨e, hw, he.trans (hd.symm.trans hn)⟩
  | error err =>
      have hok : decimal I v label =
          .ok ⟨n, Dec.normalize_canonical (minimum_le_of_decimalNumber I hv) hd⟩ :=
        (decimal_eq_ok I).mpr ⟨d, hv, hd⟩
      rw [ha] at hok
      cases hok

theorem decimalNumber_two_and_a_half :
    decimalNumber Interpreter.ascii (Value.ofString "2.50") = some ⟨false, 250, -2⟩ := by
  decide +kernel

/-- Two and a half units, written with two decimals and with one. -/
theorem sameReview_of_two_decimals :
    SameReview Interpreter.ascii (materialRequestProposal "2.50" [])
      (materialRequestProposal "2.5" []) := by
  obtain ⟨a, ha⟩ := exists_build_materialRequestProposal
  have hqty : decimal Interpreter.ascii (Value.ofString "2.5") "qty" =
      decimal Interpreter.ascii (Value.ofString "2.50") "qty" :=
    decimal_eq_of_normalize (d := ⟨false, 250, -2⟩) (e := ⟨false, 25, -1⟩) (n := ⟨false, 25, -1⟩)
      decimalNumber_two_and_a_half (by decide +kernel) (by decide +kernel) (by decide +kernel)
  exact sameReview_of_canonicalBytes_eq Interpreter.ascii
    (submittedObject_materialRequestProposal "2.50" [] (by simp))
    (submittedObject_materialRequestProposal "2.5" [] (by simp)) ha
    (build_materialRequestProposal hqty ha) rfl

/-- A quantity of 29 digits is signed as the quantity of two digits next to it. -/
theorem canonicalBytes_of_unequal_quantities :
    ∃ a b : ProposedAction Interpreter.ascii,
      buildProposedAction Interpreter.ascii (.dict (materialRequestProposal "2.50" [])) = .ok a ∧
      buildProposedAction Interpreter.ascii
        (.dict (materialRequestProposal "2.5000000000000000000000000001" [])) = .ok b ∧
      canonicalProposalBytes a.toProposal = canonicalProposalBytes b.toProposal ∧
      ∃ d e, decimalNumber Interpreter.ascii (Value.ofString "2.50") = some d ∧
        decimalNumber Interpreter.ascii
          (Value.ofString "2.5000000000000000000000000001") = some e ∧
        d.value ≠ e.value := by
  obtain ⟨a, ha⟩ := exists_build_materialRequestProposal
  have hnumber : decimalNumber Interpreter.ascii
      (Value.ofString "2.5000000000000000000000000001") =
        some ⟨false, 25000000000000000000000000001, -28⟩ := by
    decide +kernel
  have hqty : decimal Interpreter.ascii (Value.ofString "2.5000000000000000000000000001") "qty" =
      decimal Interpreter.ascii (Value.ofString "2.50") "qty" :=
    decimal_eq_of_normalize (n := ⟨false, 25, -1⟩) decimalNumber_two_and_a_half
      (by decide +kernel) hnumber (by decide +kernel)
  refine ⟨a, a, ha, build_materialRequestProposal hqty ha, rfl, _, _,
    decimalNumber_two_and_a_half, hnumber, ?_⟩
  norm_num [Dec.value]

end Spellings

end Governance
