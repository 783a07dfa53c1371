import SynoraErp.Governance.Receiptable
import SynoraErp.Order.KeyedMatching
import SynoraErp.Order.SortedByKey
import SynoraErp.Python.Rounding

/-!
# Exact read-back

What a document shows when its verifier returns evidence: the approved header, and rows in
one-to-one correspondence with the approved lines, in their order for a purchase order and
in any order for a receipt or an invoice.
-/

namespace Governance

open Python KeyedMatching

/-! ## What a document shows -/

section Shown

variable (I : Interpreter)

namespace Cell

/-- A cell that reads as a text. -/
def Shows (cell : Cell) (t : Text) : Prop := cell.strOrEmpty I = t

/-- A cell that reads as a text of the payload, where it has one. -/
def ShowsOptional {maximum : ℕ} (cell : Cell) (t : Option (RequiredText maximum)) : Prop :=
  ∀ x ∈ t, cell.Shows I x.text

/-- A cell that reads as a number. -/
def Spells (cell : Cell) (q : ℚ) : Prop :=
  ∃ d, Decimal.ofText I (cell.str I) = some (.finite d) ∧ d.value = q

end Cell

/-- The amount of a line, as the context of 28 digits multiplies; nothing where it
overflows. -/
def lineAmount (qty rate : Amount) : Option ℚ := (qty.dec.mul rate.dec).map Dec.value

/-- A cell that reads as the amount of a line. -/
def Cell.SpellsAmount (cell : Cell) (qty rate : Amount) : Prop :=
  ∃ amount ∈ lineAmount qty rate, cell.Spells I amount

/-- A row of a purchase order that shows an approved item. -/
structure OrderRowMatches (row : Row) (x : PurchaseOrderItem I) : Prop where
  itemCode : (row.value "item_code").Shows I x.itemCode.text
  warehouse : (row.value "warehouse").Shows I x.warehouse.text
  scheduleDate : (row.value "schedule_date").Shows I x.scheduleDate.text
  uom : (row.value "uom").ShowsOptional I x.uom
  conversionFactor : (row.value "conversion_factor").Spells I 1
  qty : (row.value "qty").Spells I x.qty.rat
  rate : (row.value "rate").Spells I x.rate.rat
  amount : (row.value "amount").SpellsAmount I x.qty x.rate
  materialRequest :
    (row.value "material_request").Shows I ((x.materialRequest.map RequiredText.text).getD [])
  description : (row.value "description").ShowsOptional I x.description

/-- A purchase order that shows the approved payload. -/
structure OrderMatches (p : PurchaseOrderPayload I) (doc : Document) : Prop where
  docstatus : (doc.value "docstatus").eqInt 0 = true
  supplier : (doc.value "supplier").Shows I p.supplier.text
  company : (doc.value "company").Shows I p.company.text
  currency : (doc.value "currency").Shows I p.currency.text
  buyingPriceList : (doc.value "buying_price_list").Shows I p.buyingPriceList.text
  transactionDate : (doc.value "transaction_date").Shows I p.transactionDate.text
  conversionRate : (doc.value "conversion_rate").Spells I 1
  scheduleDate : (doc.value "schedule_date").Shows I p.scheduleDate.text
  rows : List.Forall₂ (OrderRowMatches I) (doc.rows "items") p.items.items

/-- A row of a receipt or an invoice that shows an approved line of a source document. -/
structure DraftRowMatches {priced : Bool} (sourceName : Text) (row : Row)
    (line : LineItem priced) : Prop where
  itemCode : (row.value "item_code").Shows I line.itemCode.text
  source : (row.value (ReadBack.sourceLink priced)).Shows I line.row
  parent : (row.value (ReadBack.parentLink priced)).Shows I sourceName
  warehouse : (row.value "warehouse").ShowsOptional I line.warehouse
  uom : (row.value "uom").ShowsOptional I line.uom
  qty : (row.value "qty").Spells I line.qty.rat
  price : ∀ rate ∈ line.rate, (row.value "rate").Spells I rate.rat ∧
    (row.value "amount").SpellsAmount I line.qty rate

/-- A receipt or an invoice that shows the approved payload. -/
structure DraftMatches {priced : Bool} (target : Text) (p : DraftPayload I priced)
    (doc : Document) : Prop where
  doctype : (doc.value "doctype").Shows I [] ∨ (doc.value "doctype").Shows I target
  docstatus : (doc.value "docstatus").eqInt 0 = true
  company : (doc.value "company").Shows I p.company.text
  postingDate : (doc.value "posting_date").Shows I p.transactionDate.text
  rows : Matched (DraftRowMatches I p.sourceName.text) (doc.rows "items") p.items.items

end Shown

namespace ReadBack

variable {I : Interpreter}

/-! ## Texts and numbers -/

theorem sameText_eq_ok {cell : Cell} {t : Text} {field : String} {u : Unit} :
    sameText I cell t field = .ok u ↔ cell.Shows I t := by
  rw [sameText, Cell.Shows]
  split_ifs with h <;> simp [h]

theorem sameOptional_eq_ok {maximum : ℕ} {cell : Cell} {t : Option (RequiredText maximum)}
    {field : String} {u : Unit} :
    sameOptional I cell t field = .ok u ↔ cell.ShowsOptional I t := by
  cases t with
  | none => simp [sameOptional, Cell.ShowsOptional]
  | some t => simp [sameOptional, Cell.ShowsOptional, sameText_eq_ok]

theorem sameMaterialRequest_eq_ok {cell : Cell} {t : Option (RequiredText 140)} {field : String}
    {u : Unit} :
    sameMaterialRequest I (cell.strOrEmpty I) t field = .ok u ↔
      cell.Shows I ((t.map RequiredText.text).getD []) := by
  cases t with
  | none =>
      simp only [sameMaterialRequest, Cell.Shows, Option.map_none, Option.getD_none]
      split_ifs with h <;> simp [h]
  | some t => simp [sameMaterialRequest, sameText_eq_ok, Cell.Shows]

theorem sameText_ok {cell : Cell} {t : Text} (h : cell.Shows I t) (field : String) :
    sameText I cell t field = .ok () := sameText_eq_ok.mpr h

theorem sameOptional_ok {maximum : ℕ} {cell : Cell} {t : Option (RequiredText maximum)}
    (h : cell.ShowsOptional I t) (field : String) : sameOptional I cell t field = .ok () :=
  sameOptional_eq_ok.mpr h

theorem sameMaterialRequest_ok {cell : Cell} {t : Option (RequiredText 140)}
    (h : cell.Shows I ((t.map RequiredText.text).getD [])) (field : String) :
    sameMaterialRequest I (cell.strOrEmpty I) t field = .ok () := sameMaterialRequest_eq_ok.mpr h

theorem decimal_eq_ok {cell : Cell} {field : String} {d : Dec} :
    decimal I cell field = .ok d ↔ Decimal.ofText I (cell.str I) = some (.finite d) := by
  rw [decimal]
  cases Decimal.ofText I (cell.str I) with
  | none => simp
  | some x =>
      cases x with
      | finite e => simp
      | infinity negative => simp
      | nan => simp

theorem sameNumber_eq_ok {cell : Cell} {expected : Text} {field message : String} {d e : Dec}
    (he : Decimal.ofText I expected = some (.finite e)) :
    sameNumber I cell expected field message = .ok d ↔
      Decimal.ofText I (cell.str I) = some (.finite d) ∧ d.value = e.value := by
  have hexpected : decimal I (.text expected) field = .ok e := decimal_eq_ok.mpr he
  rw [sameNumber, bind_eq_ok, hexpected]
  simp only [ok_bind, decimal_eq_ok]
  constructor
  · rintro ⟨d', hd', h⟩
    split_ifs at h with hvalue
    obtain rfl := Except.ok.inj h
    exact ⟨hd', hvalue⟩
  · rintro ⟨hd, hvalue⟩
    exact ⟨d, hd, if_pos hvalue⟩

/-- The text of an approved amount spells it. -/
theorem exists_ofText (a : Amount) :
    ∃ e, Decimal.ofText I a.text = some (.finite e) ∧ e.value = a.rat := by
  obtain ⟨e, he, hvalue, -⟩ := a.canonical.ofText_formatFixed I
  exact ⟨e, he, hvalue⟩

theorem value_of_sameNumber {cell : Cell} {a : Amount} {field message : String} {d : Dec}
    (h : sameNumber I cell a.text field message = .ok d) :
    Decimal.ofText I (cell.str I) = some (.finite d) ∧ d.value = a.rat := by
  obtain ⟨e, he, hvalue⟩ := exists_ofText (I := I) a
  rw [sameNumber_eq_ok he, hvalue] at h
  exact h

/-- A cell that spells an approved amount passes, and has a plain text. -/
theorem exists_sameNumber {cell : Cell} {a : Amount} (h : cell.Spells I a.rat)
    (field message : String) :
    ∃ d t, sameNumber I cell a.text field message = .ok d ∧ d.value = a.rat ∧
      plainNumber d = .ok t := by
  obtain ⟨d, hd, hvalue⟩ := h
  obtain ⟨e, he, hevalue⟩ := exists_ofText (I := I) a
  obtain ⟨n, hn⟩ := Dec.exists_normalize
    (Dec.value_pos a.canonical.nonneg a.canonical.coeff_ne_zero) a.canonical.digits_le
    a.canonical.adjusted_le hvalue
  refine ⟨d, n.formatFixed, (sameNumber_eq_ok he).mpr ⟨hd, hvalue.trans hevalue.symm⟩, hvalue, ?_⟩
  rw [plainNumber, hn]

theorem ofText_one : Decimal.ofText I "1" = some (.finite ⟨false, 1, 0⟩) :=
  Decimal.ofText_spelled I (by decide : [(1 : Fin 10)] ≠ []) [] (by decide)

/-- The factor one, which every payload has. -/
theorem exists_sameOne {cell : Cell} (h : cell.Spells I 1) (field message : String) :
    ∃ d t, sameNumber I cell "1" field message = .ok d ∧ plainNumber d = .ok t := by
  obtain ⟨d, hd, hvalue⟩ := h
  have hone : d.value = Dec.value ⟨false, 1, 0⟩ := by
    rw [hvalue]
    norm_num [Dec.value]
  obtain ⟨n, hn⟩ := Dec.exists_normalize (r := ⟨false, 1, 0⟩) (Dec.value_pos rfl one_ne_zero)
    (by decide) (by decide) hone
  refine ⟨d, n.formatFixed, (sameNumber_eq_ok ofText_one).mpr ⟨hd, hone⟩, ?_⟩
  rw [plainNumber, hn]

theorem spells_one_of_sameNumber {cell : Cell} {field message : String} {d : Dec}
    (h : sameNumber I cell "1" field message = .ok d) : cell.Spells I 1 := by
  obtain ⟨hd, hvalue⟩ := (sameNumber_eq_ok ofText_one).mp h
  refine ⟨d, hd, ?_⟩
  rw [hvalue]
  norm_num [Dec.value]

/-! ## Amounts -/

theorem amount_pos (a : Amount) : 0 < a.rat :=
  Dec.value_pos a.canonical.nonneg a.canonical.coeff_ne_zero

/-- The product of the numbers of a document is the approved amount of the line. -/
theorem map_value_mul {qty rate : Amount} {d e : Dec} (hd : d.value = qty.rat)
    (he : e.value = rate.rat) : (d.mul e).map Dec.value = lineAmount qty rate :=
  Dec.mul_value_congr (hd ▸ amount_pos qty) (he ▸ amount_pos rate) hd he

theorem spellsAmount_of_sameProduct {cell : Cell} {qty rate : Amount} {d e amount : Dec}
    {field message : String} (hd : d.value = qty.rat) (he : e.value = rate.rat)
    (h : sameProduct I cell d e field message = .ok amount) : cell.SpellsAmount I qty rate := by
  rw [sameProduct, bind_eq_ok] at h
  obtain ⟨actual, hactual, h⟩ := h
  have hmap := map_value_mul hd he
  cases hmul : d.mul e with
  | none => simp [hmul] at h
  | some product =>
      simp only [hmul] at h hmap
      split_ifs at h with hvalue
      exact ⟨product.value, hmap.symm, actual, decimal_eq_ok.mp hactual, hvalue⟩

/-- A cell that spells the amount of a line passes, and has a plain text. -/
theorem exists_sameProduct {cell : Cell} {qty rate : Amount} {d e : Dec} (hd : d.value = qty.rat)
    (he : e.value = rate.rat) (h : cell.SpellsAmount I qty rate) (field message : String) :
    ∃ amount t, sameProduct I cell d e field message = .ok amount ∧ plainNumber amount = .ok t := by
  obtain ⟨value, hline, actual, hactual, rfl⟩ := h
  have hmap := (map_value_mul hd he).trans hline
  rw [Option.map_eq_some_iff] at hmap
  obtain ⟨product, hmul, hvalue⟩ := hmap
  have hpos : 0 < (Dec.exactProduct d e).value := by
    rw [Dec.value_exactProduct, hd, he]
    exact mul_pos (amount_pos qty) (amount_pos rate)
  obtain ⟨hproduct, hdigits, hmax⟩ := Dec.fix_spec hpos hmul
  obtain ⟨n, hn⟩ := Dec.exists_normalize hproduct hdigits hmax hvalue.symm
  refine ⟨actual, n.formatFixed, ?_, by rw [plainNumber, hn]⟩
  have hdecimal : decimal I cell field = .ok actual := decimal_eq_ok.mpr hactual
  rw [sameProduct, hdecimal]
  simp [hmul, hvalue]

/-! ## Rows -/

theorem purchaseOrderRow_eq_ok (index : ℕ) {row : Row} {x : PurchaseOrderItem I} :
    (∃ e, purchaseOrderRow I index row x = .ok e) ↔ OrderRowMatches I row x := by
  constructor
  · rintro ⟨e, h⟩
    simp only [purchaseOrderRow, bind_eq_ok, sameText_eq_ok, sameOptional_eq_ok,
      sameMaterialRequest_eq_ok] at h
    obtain ⟨-, hcode, -, hwarehouse, -, hdate, -, huom, conversion, hconversion, -, -, qty, hqty,
      -, -, rate, hrate, -, -, amount, hamount, -, -, -, hrequest, -, hdescription, -⟩ := h
    obtain ⟨hqtyText, hqtyValue⟩ := value_of_sameNumber hqty
    obtain ⟨hrateText, hrateValue⟩ := value_of_sameNumber hrate
    exact
      { itemCode := hcode
        warehouse := hwarehouse
        scheduleDate := hdate
        uom := huom
        conversionFactor := spells_one_of_sameNumber hconversion
        qty := ⟨qty, hqtyText, hqtyValue⟩
        rate := ⟨rate, hrateText, hrateValue⟩
        amount := spellsAmount_of_sameProduct hqtyValue hrateValue hamount
        materialRequest := hrequest
        description := hdescription }
  · intro h
    obtain ⟨conversion, conversionText, hconversion, hplain⟩ := exists_sameOne h.conversionFactor
      (itemField index "conversion_factor")
      (itemField index "conversion_factor" ++ " does not match approved payload")
    obtain ⟨qty, qtyText, hqty, hqtyValue, hqtyPlain⟩ := exists_sameNumber h.qty
      (itemField index "qty") (itemField index "qty" ++ " does not match approved payload")
    obtain ⟨rate, rateText, hrate, hrateValue, hratePlain⟩ := exists_sameNumber h.rate
      (itemField index "rate") (itemField index "rate" ++ " does not match approved payload")
    obtain ⟨amount, amountText, hamount, hamountPlain⟩ := exists_sameProduct hqtyValue hrateValue
      h.amount (itemField index "amount")
      (itemField index "amount" ++ " does not match qty multiplied by rate")
    simp only [purchaseOrderRow, sameText_ok h.itemCode, sameText_ok h.warehouse,
      sameText_ok h.scheduleDate, sameOptional_ok h.uom, hconversion, hplain, hqty, hqtyPlain,
      hrate, hratePlain, hamount, hamountPlain, sameMaterialRequest_ok h.materialRequest,
      sameOptional_ok h.description, ok_bind]
    exact ⟨_, rfl⟩

theorem linePrice_eq_ok {priced : Bool} (index : ℕ) {row : Row} {qty : Dec}
    {line : LineItem priced} (hqty : qty.value = line.qty.rat) :
    (∃ e, linePrice I index row qty line = .ok e) ↔
      ∀ rate ∈ line.rate, (row.value "rate").Spells I rate.rat ∧
        (row.value "amount").SpellsAmount I line.qty rate := by
  cases hline : line.rate with
  | none => simp [linePrice, hline]
  | some expected =>
      simp only [linePrice, hline, Option.mem_def, Option.some.injEq, forall_eq']
      constructor
      · rintro ⟨e, h⟩
        simp only [bind_eq_ok] at h
        obtain ⟨rate, hrate, amount, hamount, -⟩ := h
        obtain ⟨hrateText, hrateValue⟩ := value_of_sameNumber hrate
        exact ⟨⟨rate, hrateText, hrateValue⟩,
          spellsAmount_of_sameProduct hqty hrateValue hamount⟩
      · rintro ⟨hrate, hamount⟩
        obtain ⟨rate, rateText, hrate, hrateValue, hratePlain⟩ := exists_sameNumber hrate
          (itemField index "rate") (itemField index "rate" ++ " does not match")
        obtain ⟨amount, amountText, hamount, hamountPlain⟩ := exists_sameProduct hqty hrateValue
          hamount (itemField index "amount")
          (itemField index "amount" ++ " does not match qty multiplied by rate")
        simp only [hrate, hamount, hratePlain, hamountPlain, ok_bind]
        exact ⟨_, rfl⟩

theorem draftRow_eq_ok {priced : Bool} {sourceName : Text} (index : ℕ) {row : Row}
    {line : LineItem priced} :
    (∃ e, draftRow I sourceName index row line = .ok e) ↔
      DraftRowMatches I sourceName row line := by
  constructor
  · rintro ⟨e, h⟩
    simp only [draftRow, ite_error_eq_ok, bind_eq_ok, sameText_eq_ok, sameOptional_eq_ok] at h
    obtain ⟨hcode, -, hsource, -, hparent, -, hwarehouse, -, huom, qty, hqty, -, -, price, hprice,
      -⟩ := h
    obtain ⟨hqtyText, hqtyValue⟩ := value_of_sameNumber hqty
    exact
      { itemCode := not_not.mp hcode
        source := by simpa [Cell.Shows, LineItem.row] using hsource
        parent := hparent
        warehouse := hwarehouse
        uom := huom
        qty := ⟨qty, hqtyText, hqtyValue⟩
        price := (linePrice_eq_ok index hqtyValue).mp ⟨price, hprice⟩ }
  · intro h
    obtain ⟨qty, qtyText, hqty, hqtyValue, hqtyPlain⟩ := exists_sameNumber h.qty
      (itemField index "qty") (itemField index "qty" ++ " does not match")
    obtain ⟨price, hprice⟩ := (linePrice_eq_ok index hqtyValue).mpr h.price
    have hsource : sameText I (.text ((row.value (sourceLink priced)).strOrEmpty I))
        line.sourceRow.text (itemField index (sourceLink priced)) = .ok () :=
      sameText_ok (by simpa [Cell.Shows, LineItem.row] using h.source) _
    have hcode : ¬(row.value "item_code").strOrEmpty I ≠ line.itemCode.text :=
      not_not.mpr h.itemCode
    simp only [draftRow, if_neg hcode, hsource, sameText_ok h.parent, sameOptional_ok h.warehouse,
      sameOptional_ok h.uom, hqty, hqtyPlain, hprice, ok_bind]
    exact ⟨_, rfl⟩

/-! ## Documents -/

/-- Rows in the order of the items. -/
theorem eachRow_eq_ok {α : Type} {verify : ℕ → Row → α → Result Evidence} {R : Row → α → Prop}
    (hrow : ∀ index row x, (∃ e, verify index row x = .ok e) ↔ R row x) (index : ℕ)
    {rows : List Row} {items : List α} (hlength : rows.length = items.length) :
    (∃ e, eachRow verify index rows items = .ok e) ↔ List.Forall₂ R rows items := by
  induction rows generalizing index items with
  | nil =>
      obtain rfl := List.length_eq_zero_iff.mp hlength.symm
      simp [eachRow]
  | cons row rows ih =>
      obtain ⟨x, items, rfl⟩ := List.exists_cons_of_length_pos
        (show 0 < items.length by rw [← hlength]; exact Nat.succ_pos _)
      rw [List.forall₂_cons, ← hrow index, ← ih (index + 1) (by simpa using hlength)]
      simp only [eachRow, bind_eq_ok]
      constructor
      · rintro ⟨e, first, hfirst, rest, hrest, -⟩
        exact ⟨⟨first, hfirst⟩, rest, hrest⟩
      · rintro ⟨⟨first, hfirst⟩, rest, hrest⟩
        exact ⟨_, first, hfirst, rest, hrest, rfl⟩

/-- `verify_purchase_order_read_back` returns evidence exactly for the documents that show
the approved payload. -/
theorem purchaseOrder_eq_ok {p : PurchaseOrderPayload I} {doc : Document}
    (hunits : ∀ x ∈ p.items.items, x.uom.isSome = true) :
    (∃ e, purchaseOrder I p doc = .ok e) ↔ OrderMatches I p doc := by
  have hany : ¬p.items.items.any (fun x => x.uom.isNone) = true := by
    rw [List.any_eq_true]
    rintro ⟨x, hx, hnone⟩
    have hsome := hunits x hx
    rw [Option.isNone_iff_eq_none] at hnone
    rw [hnone] at hsome
    cases hsome
  have hrow : ∀ index row x, (∃ e, purchaseOrderRow I index row x = .ok e) ↔
      OrderRowMatches I row x := fun index _ _ => purchaseOrderRow_eq_ok index
  constructor
  · rintro ⟨e, h⟩
    simp only [purchaseOrder, ite_error_eq_ok, bind_eq_ok, sameText_eq_ok] at h
    obtain ⟨-, hstatus, -, hsupplier, -, hcompany, -, hcurrency, -, hlist, -, hdate, conversion,
      hconversion, -, hschedule, hlength, -, -, items, hitems, -⟩ := h
    exact
      { docstatus := by simpa using hstatus
        supplier := hsupplier
        company := hcompany
        currency := hcurrency
        buyingPriceList := hlist
        transactionDate := hdate
        conversionRate := spells_one_of_sameNumber hconversion
        scheduleDate := hschedule
        rows := (eachRow_eq_ok hrow 0 (not_not.mp hlength)).mp ⟨items, hitems⟩ }
  · intro h
    obtain ⟨items, hitems⟩ := (eachRow_eq_ok hrow 0 h.rows.length_eq).mpr h.rows
    obtain ⟨conversion, conversionText, hconversion, hplain⟩ := exists_sameOne h.conversionRate
      "conversion_rate" "conversion_rate does not match approved payload"
    have hlength : ¬(doc.rows "items").length ≠ p.items.items.length :=
      not_not.mpr h.rows.length_eq
    simp only [purchaseOrder, if_neg hany, h.docstatus, Bool.not_true, Bool.false_eq_true, if_false,
      sameText_ok h.supplier, sameText_ok h.company, sameText_ok h.currency,
      sameText_ok h.buyingPriceList, sameText_ok h.transactionDate, hconversion,
      sameText_ok h.scheduleDate, if_neg hlength, hplain, hitems, ok_bind]
    exact ⟨_, rfl⟩

/-- The source row a row of a draft names. -/
def sourceOf (priced : Bool) (row : Row) : Text := (row.value (sourceLink priced)).strOrEmpty I

/-- The line a row shows is the one that is looked up. -/
theorem find?_of_matches {priced : Bool} {sourceName : Text} {lines : List (LineItem priced)}
    (hnodup : (lines.map LineItem.row).Nodup) {row : Row} {line : LineItem priced}
    (hline : line ∈ lines) (h : DraftRowMatches I sourceName row line) :
    lines.find? (fun l => l.row = sourceOf (I := I) priced row) = some line := by
  have hsource : sourceOf (I := I) priced row = line.row := h.source
  rw [hsource]
  exact SortedByKey.find?_key LineItem.row hnodup hline

/-- The rows of a draft, one after another: their sources are pairwise different and new, and
each row shows the line of its source. -/
theorem draftRows_eq_ok {priced : Bool} {sourceName : Text} {lines : List (LineItem priced)}
    (hnodup : (lines.map LineItem.row).Nodup) (index : ℕ) {seen found : List Text}
    {rows : List Row} :
    (∃ e, draftRows I sourceName lines index seen rows = .ok (found, e)) ↔
      found = (rows.map (sourceOf (I := I) priced)).reverse ++ seen ∧
      (rows.map (sourceOf (I := I) priced)).Nodup ∧
      (∀ row ∈ rows, sourceOf (I := I) priced row ∉ seen) ∧
      ∀ row ∈ rows, ∃ line ∈ lines, DraftRowMatches I sourceName row line := by
  induction rows generalizing index seen with
  | nil =>
      simp only [draftRows, Except.ok.injEq, Prod.mk.injEq]
      simp [eq_comm]
  | cons row rows ih =>
      have hfold : (row.value (sourceLink priced)).strOrEmpty I = sourceOf (I := I) priced row := rfl
      rw [draftRows]
      simp only [hfold]
      constructor
      · rintro ⟨e, h⟩
        cases hfind : lines.find? fun l => l.row = sourceOf (I := I) priced row with
        | none => simp [hfind] at h
        | some line =>
            simp only [hfind, ite_error_eq_ok, bind_eq_ok, Prod.exists, Except.ok.injEq,
              Prod.mk.injEq] at h
            obtain ⟨hseen, first, hfirst, found', rest, hrest, rfl, -⟩ := h
            obtain ⟨rfl, hkeys, hnew, hlines⟩ := (ih (index + 1)).mp ⟨rest, hrest⟩
            have hfresh : sourceOf (I := I) priced row ∉ seen := by simpa using hseen
            refine ⟨by simp, ?_, ?_, ?_⟩
            · rw [List.map_cons, List.nodup_cons, List.mem_map]
              refine ⟨?_, hkeys⟩
              rintro ⟨other, hother, heq⟩
              exact hnew other hother (heq ▸ List.mem_cons_self)
            · rw [List.forall_mem_cons]
              exact ⟨hfresh, fun other hother h =>
                hnew other hother (List.mem_cons_of_mem _ h)⟩
            · rw [List.forall_mem_cons]
              exact ⟨⟨line, List.mem_of_find?_eq_some hfind, (draftRow_eq_ok index).mp ⟨first, hfirst⟩⟩,
                hlines⟩
      · rintro ⟨rfl, hkeys, hnew, hlines⟩
        rw [List.map_cons, List.nodup_cons, List.mem_map] at hkeys
        rw [List.forall_mem_cons] at hnew hlines
        obtain ⟨⟨line, hline, hmatch⟩, hlines⟩ := hlines
        obtain ⟨first, hfirst⟩ := (draftRow_eq_ok index).mpr hmatch
        have hrest : ∀ other ∈ rows, sourceOf (I := I) priced other ∉
            sourceOf (I := I) priced row :: seen := by
          intro other hother h
          rcases List.mem_cons.mp h with heq | h
          · exact hkeys.1 ⟨other, hother, heq⟩
          · exact hnew.2 other hother h
        obtain ⟨rest, hrest⟩ := (ih (index + 1)).mpr ⟨by simp, hkeys.2, hrest, hlines⟩
        have hfresh : ¬seen.contains (sourceOf (I := I) priced row) = true := by simpa using hnew.1
        simp only [find?_of_matches hnodup hline hmatch, if_neg hfresh, hfirst, hrest, ok_bind]
        exact ⟨first ++ rest, rfl⟩

/-- The part of `p2p_read_back` for drafts returns evidence exactly for the documents whose
rows correspond one to one to the approved lines. -/
theorem draft_eq_ok {priced : Bool} {p : DraftPayload I priced} {doc : Document} :
    (∃ e, draft I p doc = .ok e) ↔
      (doc.value "posting_date").Shows I p.transactionDate.text ∧
        Matched (DraftRowMatches I p.sourceName.text) (doc.rows "items") p.items.items := by
  have hkey : ∀ (row : Row) (line : LineItem priced),
      DraftRowMatches I p.sourceName.text row line →
        sourceOf (I := I) priced row = line.row := fun row line h => h.source
  rw [matched_iff hkey p.rows_nodup]
  constructor
  · rintro ⟨e, h⟩
    simp only [draft, ite_error_eq_ok, bind_eq_ok, sameText_eq_ok, Prod.exists] at h
    obtain ⟨hlength, -, hdate, found, items, hitems, -⟩ := h
    obtain ⟨-, hkeys, -, hlines⟩ := (draftRows_eq_ok p.rows_nodup 0).mp ⟨items, hitems⟩
    exact ⟨hdate, not_not.mp hlength, hkeys, hlines⟩
  · rintro ⟨hdate, hlength, hkeys, hlines⟩
    obtain ⟨items, hitems⟩ := (draftRows_eq_ok p.rows_nodup 0).mpr
      ⟨rfl, hkeys, fun row _ => List.not_mem_nil, hlines⟩
    have hperm := ((matched_iff hkey p.rows_nodup).mpr ⟨hlength, hkeys, hlines⟩).keys_perm hkey
    have hall : p.items.items.all (fun line => List.contains
        ((((doc.rows "items").map (sourceOf (I := I) priced)).reverse ++ [])) line.row) = true := by
      rw [List.all_eq_true]
      intro line hline
      simpa using hperm.symm.subset (List.mem_map_of_mem hline)
    have hcount : ¬(doc.rows "items").length ≠ p.items.items.length := not_not.mpr hlength
    simp only [draft, if_neg hcount, sameText_ok hdate, hitems, ok_bind, if_pos hall]
    exact ⟨_, rfl⟩

/-- The head of `p2p_read_back`, for an action that creates its document. -/
theorem p2p_eq_ok {t : ActionType} {p : PayloadFor I t} {doc : Document}
    (hsubmit : t.isSubmit = false) (hcancel : t.isCancel = false) :
    (∃ e, p2p I p doc false = .ok e) ↔
      ((doc.value "doctype").Shows I [] ∨ (doc.value "doctype").Shows I t.targetDoctype) ∧
        (doc.value "docstatus").eqInt 0 = true ∧ (doc.value "company").Shows I (company I p) ∧
        ∃ e, body I p doc = .ok e := by
  have hexpected : t.expectedDocstatus = 0 := by simp [ActionType.expectedDocstatus, hsubmit, hcancel]
  constructor
  · rintro ⟨e, h⟩
    simp only [p2p, ite_error_eq_ok, bind_eq_ok, sameText_eq_ok, hexpected] at h
    obtain ⟨hdoctype, hstatus, -, hcompany, -, fields, hfields, -⟩ := h
    refine ⟨?_, by simpa using hstatus, hcompany, fields, hfields⟩
    rw [Cell.Shows, Cell.Shows]
    tauto
  · rintro ⟨hdoctype, hstatus, hcompany, fields, hfields⟩
    have htarget : ¬((doc.value "doctype").strOrEmpty I ≠ [] ∧
        (doc.value "doctype").strOrEmpty I ≠ t.targetDoctype) := by
      rw [Cell.Shows, Cell.Shows] at hdoctype
      tauto
    simp only [p2p, if_neg htarget, hexpected, hstatus, Bool.not_true, Bool.false_and,
      Bool.false_eq_true, if_false, sameText_ok hcompany, hsubmit, hcancel, Bool.or_self, false_and,
      and_false, hfields, ok_bind]
    exact ⟨_, rfl⟩

end ReadBack

/-! ## Actions -/

section Actions

variable {I : Interpreter}

/-- A document that shows an approved payload. -/
def ReadBackMatches : {t : ActionType} → PayloadFor I t → Document → Prop
  | .createPoDraft, p, doc => OrderMatches I p doc
  | .createPrDraft, p, doc => DraftMatches I "Purchase Receipt" p doc
  | .createPiDraft, p, doc => DraftMatches I "Purchase Invoice" p doc
  | _, _, _ => False

/-- The items of a purchase order state their units. -/
def StatesUnits : {t : ActionType} → PayloadFor I t → Prop
  | .createPoDraft, p => ∀ x ∈ (PurchaseOrderPayload.items p).items, x.uom.isSome = true
  | _, _ => True

theorem draft_p2p_eq_ok {priced : Bool} {target : Text} {p : DraftPayload I priced}
    {doc : Document} :
    ((doc.value "doctype").Shows I [] ∨ (doc.value "doctype").Shows I target) ∧
        (doc.value "docstatus").eqInt 0 = true ∧ (doc.value "company").Shows I p.company.text ∧
        (∃ e, ReadBack.draft I p doc = .ok e) ↔ DraftMatches I target p doc := by
  rw [ReadBack.draft_eq_ok]
  constructor
  · rintro ⟨hdoctype, hstatus, hcompany, hdate, hrows⟩
    exact ⟨hdoctype, hstatus, hcompany, hdate, hrows⟩
  · intro h
    exact ⟨h.doctype, h.docstatus, h.company, h.postingDate, h.rows⟩

/-- Documents with the header of a draft and its rows in another order. -/
structure Reordered (doc doc' : Document) : Prop where
  fields : doc'.fields = doc.fields
  rows : (doc'.rows "items").Perm (doc.rows "items")

theorem DraftMatches.reordered {priced : Bool} {target : Text} {p : DraftPayload I priced}
    {doc doc' : Document} (h : DraftMatches I target p doc) (hdoc : Reordered doc doc') :
    DraftMatches I target p doc' := by
  have hvalue : ∀ field, doc'.value field = doc.value field := by
    intro field
    rw [Document.value, Document.value, hdoc.fields]
  exact
    { doctype := by simpa only [hvalue] using h.doctype
      docstatus := by simpa only [hvalue] using h.docstatus
      company := by simpa only [hvalue] using h.company
      postingDate := by simpa only [hvalue] using h.postingDate
      rows := h.rows.perm hdoc.rows }

/-- The read-back of an accepted order, receipt or invoice draft is exact: evidence is returned
for the documents that show the approved payload and for no other, whatever the order of the
rows of a receipt or an invoice. The amount of a line is its quantity times its rate, where
that product has at most 28 significant digits and does not overflow. -/
theorem readBack_exact {a : ProposedAction I}
    (ht : a.actionType ∈ [ActionType.createPoDraft, .createPrDraft, .createPiDraft])
    (hunits : StatesUnits a.payload) :
    (∀ doc, (∃ e, verifyReadBack a.toProposal doc = .ok e) ↔ ReadBackMatches a.payload doc) ∧
      (a.actionType ≠ .createPoDraft → ∀ doc doc', Reordered doc doc' →
        (∃ e, verifyReadBack a.toProposal doc = .ok e) →
          ∃ e, verifyReadBack a.toProposal doc' = .ok e) ∧
      ∀ qty rate : Amount, lineAmount qty rate = some (qty.rat * rate.rat) ↔
        (Dec.exactProduct qty.dec rate.dec).significantDigits ≤ prec ∧
          (Dec.exactProduct qty.dec rate.dec).adjusted ≤ emax := by
  have hproduct : ∀ qty rate : Amount, lineAmount qty rate = some (qty.rat * rate.rat) ↔
      (Dec.exactProduct qty.dec rate.dec).significantDigits ≤ prec ∧
        (Dec.exactProduct qty.dec rate.dec).adjusted ≤ emax := fun qty rate =>
    Dec.mul_exact_iff (ReadBack.amount_pos qty) (ReadBack.amount_pos rate)
  obtain ⟨⟨t, run, action, initiator, payload, evidence, calculation, risk, snapshot, key,
    expires, summary, correlation⟩, digest, hdigest⟩ := a
  cases t with
  | createPoDraft =>
      exact ⟨fun doc => ReadBack.purchaseOrder_eq_ok hunits, fun h => absurd rfl h, hproduct⟩
  | createPrDraft =>
      have hexact : ∀ doc, (∃ e, ReadBack.p2p I (t := .createPrDraft) payload doc false = .ok e) ↔
          DraftMatches I "Purchase Receipt" payload doc := fun doc =>
        (ReadBack.p2p_eq_ok rfl rfl).trans draft_p2p_eq_ok
      exact ⟨hexact, fun _ doc doc' hdoc h =>
        (hexact doc').mpr (((hexact doc).mp h).reordered hdoc), hproduct⟩
  | createPiDraft =>
      have hexact : ∀ doc, (∃ e, ReadBack.p2p I (t := .createPiDraft) payload doc false = .ok e) ↔
          DraftMatches I "Purchase Invoice" payload doc := fun doc =>
        (ReadBack.p2p_eq_ok rfl rfl).trans draft_p2p_eq_ok
      exact ⟨hexact, fun _ doc doc' hdoc h =>
        (hexact doc').mpr (((hexact doc).mp h).reordered hdoc), hproduct⟩
  | _ => simp at ht

end Actions

/-! ## An invoice of one line and of two -/

/-- One and a unit of the 28th digit. -/
def longAmount : Amount :=
  ⟨⟨false, 1000000000000000000000000001, -27⟩, rfl, by decide, by decide +kernel,
    by decide +kernel, by decide +kernel⟩

def invoiceLine : LineItem true where
  description := none
  itemCode := exampleItemCode
  qty := longAmount
  rate := some longAmount
  rate_isSome := rfl
  sourceRow := ⟨"receipt-row-1", by decide, by decide⟩
  uom := some ⟨"Nos", by decide, by decide⟩
  warehouse := some replenishmentLine.warehouse

def invoicePayload : DraftPayload Interpreter.ascii true where
  company := exampleCompany
  items := ⟨[invoiceLine], by simp, by simp⟩
  rows_nodup := by simp
  reason := none
  sourceName := ⟨"MAT-PRE-2026-00001", by decide, by decide⟩
  transactionDate := exampleDate

def invoiceDraft : Proposal Interpreter.ascii :=
  { replenishment 0 one_line with
    actionType := .createPiDraft
    actionId := ⟨"00000000-0000-4000-8000-000000000015", by decide +kernel⟩
    payload := invoicePayload
    idempotencyKey := ⟨"invoice-0001", by decide⟩
    summary := some ⟨"Invoice", by decide, by decide⟩ }

/-- The invoice in a warehouse, for an amount. -/
def invoiceDocument (warehouse amount : Text) : Document where
  fields := [("docstatus", .int 0), ("company", .text "Synora"), ("posting_date", .text "2026-07-19")]
  tables := [("items", [[("item_code", .text "ITEM-1"), ("pr_detail", .text "receipt-row-1"),
    ("purchase_receipt", .text "MAT-PRE-2026-00001"), ("warehouse", .text warehouse),
    ("uom", .text "Nos"), ("qty", .text longAmount.text), ("rate", .text longAmount.text),
    ("amount", .text amount)]])]

theorem exists_invoiceDraft :
    ∃ a : ProposedAction Interpreter.ascii, a.toProposal = invoiceDraft ∧
      buildProposedAction Interpreter.ascii (.dict a.toDict) = .ok a := by
  obtain ⟨⟨_, digest, hdigest⟩, rfl⟩ := exists_action (p := invoiceDraft) (by decide +kernel)
  refine ⟨⟨_, digest, hdigest⟩, rfl, ?_⟩
  refine (ProposedAction.build_toDict _ _).mpr ⟨⟨rfl, ?_⟩, rfl⟩
  intro line hline
  rw [List.mem_singleton.mp hline]
  exact ⟨rfl, rfl⟩

/-- Two and a half units at the same rate. -/
def secondLine : LineItem true :=
  { invoiceLine with
    qty := exampleQty
    rate := some exampleQty
    rate_isSome := rfl
    sourceRow := ⟨"receipt-row-2", by decide, by decide⟩ }

/-- The invoice with a second line. -/
def secondDraft : Proposal Interpreter.ascii :=
  { invoiceDraft with
    actionType := .createPiDraft
    payload :=
      { invoicePayload with
        items := ⟨[invoiceLine, secondLine], by simp, by simp⟩
        rows_nodup := by decide +kernel } }

/-- The row of the second line. -/
def secondRow : Row :=
  [("item_code", .text "ITEM-1"), ("pr_detail", .text "receipt-row-2"),
    ("purchase_receipt", .text "MAT-PRE-2026-00001"), ("warehouse", .text "Stores"),
    ("uom", .text "Nos"), ("qty", .text "2.5"), ("rate", .text "2.5"), ("amount", .text "6.25")]

/-- The rows of both lines, in one order or the other. -/
def secondDocument (reversed : Bool) : Document :=
  let doc := invoiceDocument "Stores" "1.000000000000000000000000002"
  let rows := doc.rows "items" ++ [secondRow]
  { doc with tables := [("items", if reversed then rows.reverse else rows)] }

/-- The read-back of the invoice of two lines is exact, in either order of its rows. -/
theorem readBack_exact_invoice :
    ∃ a : ProposedAction Interpreter.ascii, a.toProposal = secondDraft ∧
      (∀ doc, (∃ e, verifyReadBack a.toProposal doc = .ok e) ↔ ReadBackMatches a.payload doc) ∧
      ∀ reversed, ∃ e, verifyReadBack a.toProposal (secondDocument reversed) = .ok e := by
  obtain ⟨a, ha⟩ := exists_action (p := secondDraft) (by decide +kernel)
  have htype : a.actionType = .createPiDraft := by
    rw [ha]
    rfl
  have hunits : StatesUnits a.payload := by
    rw [ha]
    trivial
  obtain ⟨hexact, hreorder, -⟩ := readBack_exact (by simp [htype]) hunits
  have hread : ∃ e, verifyReadBack a.toProposal (secondDocument false) = .ok e := by
    rw [ha]
    exact exists_of_succeeds (by decide +kernel)
  refine ⟨a, ha, hexact, ?_⟩
  rintro (_ | _)
  · exact hread
  · exact hreorder (by simp [htype]) (secondDocument false) _ ⟨rfl, List.reverse_perm _⟩ hread

/-! ## An order without a unit -/

/-- An order for one item, in a unit. -/
def orderFields (uom : Value) : List (String × Option Value) :=
  [("schema_version", Value.ofString "1"), ("action_type", Value.ofString "CREATE_PO_DRAFT"),
    ("run_id", Value.ofString "00000000-0000-4000-8000-000000000001"),
    ("action_id", Value.ofString "00000000-0000-4000-8000-000000000016"),
    ("initiator", Value.ofString "buyer@example.test"),
    ("payload", Value.dict (record [("company", Value.ofString "Synora"),
      ("supplier", Value.ofString "Supplier"), ("transaction_date", Value.ofString "2026-07-19"),
      ("schedule_date", Value.ofString "2026-07-26"), ("currency", Value.ofString "EUR"),
      ("buying_price_list", Value.ofString "Standard Buying"),
      ("items", Value.list [.dict (record [("item_code", Value.ofString "ITEM-1"),
        ("qty", Value.ofString "2.5"), ("uom", uom), ("rate", Value.ofString "4"),
        ("schedule_date", Value.ofString "2026-07-26"),
        ("warehouse", Value.ofString "Stores")])])])),
    ("evidence_refs", Value.list [Value.ofString "evidence-1"]),
    ("calculation_refs", Value.list [Value.ofString "calculation-1"]),
    ("risk_class", Value.ofString "LOW"),
    ("approval_class", Value.ofString "INITIATOR_CONFIRMATION"),
    ("snapshot_ref", Value.ofString "snapshot-1"),
    ("idempotency_key", Value.ofString "request-0003"),
    ("expires_at", Value.ofString "2026-07-19T12:00:00+00:00"),
    ("revalidation_rule", Value.ofString "FULL_PRE_EXECUTE_RECHECK_V1"),
    ("correlation_id", Value.ofString "00000000-0000-4000-8000-000000000003")]

/-- The draft of the order. -/
def orderDocument : Document where
  fields := [("docstatus", .int 0), ("supplier", .text "Supplier"), ("company", .text "Synora"),
    ("currency", .text "EUR"), ("buying_price_list", .text "Standard Buying"),
    ("transaction_date", .text "2026-07-19"), ("conversion_rate", .int 1),
    ("schedule_date", .text "2026-07-26")]
  tables := [("items", [[("item_code", .text "ITEM-1"), ("warehouse", .text "Stores"),
    ("schedule_date", .text "2026-07-26"), ("uom", .text "Nos"), ("conversion_factor", .int 1),
    ("qty", .text "2.5"), ("rate", .int 4), ("amount", .int 10)]])]

/-- Whether an action is accepted whose read-back of the draft looks up what is not there. -/
def lacksUnit : Result (ProposedAction Interpreter.ascii) → Bool
  | .ok a =>
      match verifyReadBack a.toProposal orderDocument with
      | .error .lookupError => true
      | _ => false
  | .error _ => false

theorem exists_of_lacksUnit {x : Result (ProposedAction Interpreter.ascii)}
    (h : lacksUnit x = true) :
    ∃ a, x = .ok a ∧ verifyReadBack a.toProposal orderDocument = .error .lookupError := by
  cases x with
  | error e => cases h
  | ok a =>
      rw [lacksUnit] at h
      split at h
      · exact ⟨a, rfl, by assumption⟩
      · cases h

/-- An amount that is not the product of quantity and rate is accepted where the product has
55 digits; a row in another warehouse is refused although item, quantity, source, rate and
amount are as approved; and no read-back succeeds for an order without a unit. -/
theorem readBack_not_exact :
    (∃ a : ProposedAction Interpreter.ascii, a.toProposal = invoiceDraft ∧
      buildProposedAction Interpreter.ascii (.dict a.toDict) = .ok a ∧
      (∃ e, verifyReadBack a.toProposal
        (invoiceDocument "Stores" "1.000000000000000000000000002") = .ok e) ∧
      ¬(Cell.text "1.000000000000000000000000002").Spells Interpreter.ascii
        (longAmount.rat * longAmount.rat) ∧
      ¬∃ e, verifyReadBack a.toProposal
        (invoiceDocument "Shop" "1.000000000000000000000000002") = .ok e) ∧
    ∃ a, buildProposedAction Interpreter.ascii (.dict (record (orderFields .none))) = .ok a ∧
      verifyReadBack a.toProposal orderDocument = .error .lookupError := by
  constructor
  · obtain ⟨a, ha, hbuild⟩ := exists_invoiceDraft
    refine ⟨a, ha, hbuild, ?_, ?_, ?_⟩
    · rw [ha]
      exact exists_of_succeeds (by decide +kernel)
    · rintro ⟨d, hd, hvalue⟩
      have hread : Decimal.ofText Interpreter.ascii "1.000000000000000000000000002" =
          some (.finite ⟨false, 1000000000000000000000000002, -27⟩) := by decide +kernel
      rw [Cell.str_text, hread] at hd
      obtain rfl := Decimal.finite.inj (Option.some.inj hd)
      norm_num [Dec.value, Amount.rat, longAmount] at hvalue
    · rintro ⟨e, he⟩
      have hfails : succeeds (verifyReadBack invoiceDraft
          (invoiceDocument "Shop" "1.000000000000000000000000002")) = false := by decide +kernel
      rw [← ha, he] at hfails
      cases hfails
  · exact exists_of_lacksUnit (by decide +kernel)

end Governance
