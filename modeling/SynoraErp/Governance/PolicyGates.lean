import SynoraErp.Governance.Document
import SynoraErp.Governance.Gate

/-!
# The policy gates

The five gates of `_gate_checks` and the order in which they are evaluated. What Frappe and
the ERP answer is a parameter; so are the two checks that only look at prices and at
source rows, `_purchase_price_rate` and `_deterministic_p2p`.
-/

namespace Governance

open Python

/-! ## What the gates read -/

/-- A listing the gates ask for. -/
structure Query where
  doctype : Text
  filters : List (String × Value)
  user : Option Text
  parentDoctype : Option Text

/-- The fields of a Run that the gates read; an unset text is empty. -/
structure PolicyRun where
  initiator : Text
  companyScope : Text
  warehouseScope : Text
  status : Text
  revoked : Bool
  runState : Text
  executionMode : Text
  expiresAt : Option Text
  workflowExpiresAt : Option Text

/-- The answers of Frappe, `none` where a call raises, and the checks on prices and on
source rows. -/
structure PolicyErp (I : Interpreter) where
  getList : Query → Option (List Row)
  getAll : Query → Option (List Row)
  hasPermission : Text → Text → Text → Option Bool
  userEnabled : Text → Option Bool
  getDatetime : Option Text → Option ℤ
  now : ℤ
  purchasePriceRate : PurchaseOrderPayload I → PurchaseOrderItem I → Row → Text →
    Result (Option Dec)
  deterministicP2p : Proposal I → Text → Result GateResult

/-- How a gate ends early. -/
inductive Refusal where
  | fail (reason : String)
  | unknown (reason : String)

/-- The checks of a gate. -/
abbrev Checks := Except Refusal

/-- `return GateResult("FAIL", reason)`, unless the condition holds. -/
def demand (condition : Prop) [Decidable condition] (reason : String) : Checks Unit :=
  if condition then .ok () else .error (.fail reason)

/-- A call that raises ends the gate as `UNKNOWN`. -/
def answer {α : Type} (value : Option α) (reason : String) : Checks α :=
  match value with
  | some a => .ok a
  | none => .error (.unknown reason)

/-- The result of a gate. -/
def conclude (checks : Checks Unit) (reason : String) : Result GateResult :=
  match checks with
  | .ok () => GateResult.build .pass reason
  | .error (.fail reason) => GateResult.build .fail reason
  | .error (.unknown reason) => GateResult.build .unknown reason

/-! ## The order of the gates -/

/-- `GATE_ORDER`. -/
def gateOrder : List String := ["identity", "scope", "permission", "deterministic", "workflow_policy"]

/-- The result of one check; what it raises is not shown. -/
def gateResult : Result GateResult → Result GateResult
  | .ok result => .ok result
  | .error (.gatewayFault fault) =>
      GateResult.build (if fault.statusCode < 500 then .fail else .unknown)
        "policy gate could not be verified"
  | .error _ => GateResult.build .unknown "policy gate could not be verified"

/-- `evaluate_gate_sequence`, past the results so far and the gate that blocks. -/
def evaluateGateSequence (results : List (String × GateResult)) (blockedBy : Option String) :
    List (String × Result GateResult) → Result (List (String × GateResult))
  | [] => .ok results
  | (name, check) :: gates =>
      if gateOrder.contains name && !(results.map Prod.fst).contains name then
        match blockedBy with
        | some blocker => do
            let result ← GateResult.build .unknown s!"blocked by {blocker}"
            evaluateGateSequence (results ++ [(name, result)]) blockedBy gates
        | none => do
            let result ← gateResult check
            evaluateGateSequence (results ++ [(name, result)])
              (if result.status = .pass then none else some name) gates
      else .error (invalid "policy gate order is invalid")

section

variable {I : Interpreter} (erp : PolicyErp I) (action : Proposal I) (run : PolicyRun) (actor : Text)

/-! ## Identity -/

/-- The states a Run is active in. -/
def activeRunStates : List Text :=
  [("CREATED" : Text), "ANALYZING", "PROPOSED", "AWAITING_APPROVAL", "EXECUTING"]

/-- The deadline of a Run. -/
def runDeadline : Option Text :=
  if run.executionMode = "PLAN_EXECUTE" then
    (run.workflowExpiresAt.filter fun t => t ≠ []).or run.expiresAt
  else run.expiresAt

/-- `_run_identity`. -/
def runIdentity (approvedActor : Option Text) : Result GateResult :=
  conclude (do
    demand (actor ≠ "Guest" ∧ run.initiator ≠ []) "authenticated identity is unavailable"
    demand (action.initiator.text = run.initiator) "action and Run initiators conflict"
    demand (approvedActor = none → actor = run.initiator)
      "session user is not the Run initiator"
    demand (∀ approved ∈ approvedActor, actor = approved)
      "session user is not the approved executor"
    let enabled ← answer (erp.userEnabled run.initiator) "Run identity could not be verified"
    demand (enabled = true) "Run initiator is disabled"
    demand (run.status = "ACTIVE" ∧ run.revoked = false ∧ run.runState ∈ activeRunStates)
      "Run is no longer active"
    let deadline ← answer (erp.getDatetime (runDeadline run)) "Run identity could not be verified"
    demand (erp.now < deadline) "Run has expired") "server session and Run identity match"

/-! ## Permission -/

/-- The permission an action needs on its target. -/
def requiredPermission : String :=
  if action.actionType.approvalClass = "INDEPENDENT_APPROVER" ∧ actor = action.initiator.text then
    "read"
  else
    match action.actionType with
    | .createMrDraft | .createPoDraft | .createPrDraft | .createPiDraft
    | .createPaymentEntryDraft => "create"
    | .submitPo | .submitPr | .submitPi | .submitPaymentEntry => "submit"
    | .cancelPo | .cancelPr | .cancelPi | .cancelPaymentEntry => "cancel"

/-- Whether the action creates a document. -/
def isCreate : ActionType → Bool
  | .createMrDraft | .createPoDraft | .createPrDraft | .createPiDraft
  | .createPaymentEntryDraft => true
  | _ => false

/-- `required`. -/
def requiredPermissions : List (String × String) :=
  let target := action.actionType.targetDoctype
  [("Company", "read"), ("Warehouse", "read")] ++
    (if action.actionType = .createPaymentEntryDraft ∧ actor = action.initiator.text then []
      else [(target, requiredPermission action actor), (target, "read")]) ++
    (if isCreate action.actionType then [("Item", "read")] else []) ++
    (if target = "Purchase Order" then
      [("Supplier", "read"), ("Currency", "read"), ("Price List", "read")] else []) ++
    (if target = "Purchase Receipt" ∨ target = "Purchase Invoice" then [("Supplier", "read")]
      else []) ++
    if target = "Payment Entry" then
      [("Account", "read"), ("Supplier", "read"), ("Purchase Invoice", "read")] else []

/-- One permission after another, up to the first that is missing. -/
def demandPermissions : List (String × String) → Checks Unit
  | [] => .ok ()
  | (doctype, ptype) :: required => do
      let granted ← answer (erp.hasPermission doctype ptype actor)
        "current ERP permission could not be verified"
      demand (granted = true) "current ERP permission is insufficient"
      demandPermissions required

/-- `_permission`. -/
def permission : Result GateResult :=
  conclude (demandPermissions erp actor (requiredPermissions action actor))
    "current ERP permissions are sufficient"

/-! ## Objects -/

def unverifiedObjects : String := "current ERP objects could not be verified"

/-- A listing of the deterministic gate. -/
def listObjects (query : Query) : Checks (List Row) := answer (erp.getList query) unverifiedObjects

/-- `frappe.get_list(doctype, filters=filters, user=actor)`. -/
def listed (doctype : String) (filters : List (String × Value)) : Query :=
  ⟨doctype, filters, some actor, none⟩

/-- `_open_duplicate`. -/
def openDuplicate (target itemCode warehouse company : Text) : Checks Bool := do
  let rows ← listObjects erp
    ⟨if target = "Material Request" then "Material Request Item" else "Purchase Order Item",
      [("item_code", .str itemCode), ("warehouse", .str warehouse)], some actor, some target⟩
  let parents := sortedSet ((rows.filter fun row => (row.value "parent").truthy).map fun row =>
    (row.value "parent").str I)
  if parents = [] then return false
  else do
    let current ← listObjects erp
      ⟨target, [("name", .list [.str "in", .list (parents.map Value.str)]),
        ("company", .str company), ("docstatus", .list [.str "<", .int 2])], some actor, none⟩
    return current ≠ []

variable (I) in
/-- `datetime.strptime(text, "%Y-%m-%d").date()`, `none` where it raises. -/
def strptime (t : Text) : Option Date :=
  match t with
  | [y1, y2, y3, y4, _, m1, m2, _, d1, d2] => do
      let year ← [y1, y2, y3, y4].mapM I.decimalDigit
      let month ← [m1, m2].mapM I.decimalDigit
      let day ← [d1, d2].mapM I.decimalDigit
      Date.ofFields? (ofDigits year) (ofDigits month) (ofDigits day)
  | _ => none

/-- A date of the payload. -/
def payloadDate (t : Text) : Checks Date :=
  match strptime I t with
  | some date => .ok date
  | none => .error (.fail "deterministic payload checks failed")

def Date.before (d e : Date) : Prop :=
  d.year < e.year ∨ d.year = e.year ∧ (d.month < e.month ∨ d.month = e.month ∧ d.day < e.day)

instance Date.decidableBefore (d e : Date) : Decidable (Date.before d e) :=
  inferInstanceAs (Decidable (_ ∨ _))

/-- The fields of a line that both kinds of draft have. -/
structure OrderLine where
  itemCode : Text
  warehouse : Text
  qty : Amount
  scheduleDate : Text
  uom : Text

/-- The checks of a line before its price; `seen` are the lines before it. The result is the
row of the item. -/
def checkLine (transactionDate : Date) (seen : List (Text × Text)) (line : OrderLine) :
    Checks Row := do
  demand ((line.itemCode, line.warehouse) ∉ seen) "duplicate item lines are not allowed"
  demand (0 < line.qty.rat) "quantity must be positive and finite"
  let schedule ← payloadDate (I := I) line.scheduleDate
  demand (¬Date.before schedule transactionDate) "schedule date precedes transaction date"
  let rows ← listObjects erp (listed actor "Item" [("name", .str line.itemCode)])
  match rows with
  | [] => .error (.fail "item is unavailable")
  | row :: _ => do
      demand ((row.value "disabled").truthy = false) "item is unavailable"
      demand (line.uom = [] ∨ line.uom = (row.value "stock_uom").strOrEmpty I)
        "only item stock UOM is supported"
      return row

/-- The lines of a material request. -/
def checkRequestLines (company : Text) (transactionDate : Date) :
    List (Text × Text) → List (MaterialRequestItem I) → Checks Unit
  | _, [] => .ok ()
  | seen, x :: xs => do
      let line : OrderLine := ⟨x.itemCode.text, x.warehouse.text, x.qty, x.scheduleDate.text,
        (x.uom.map RequiredText.text).getD []⟩
      let _ ← checkLine erp actor transactionDate seen line
      let duplicate ← openDuplicate erp actor "Material Request" line.itemCode line.warehouse company
      demand (duplicate = false) "an open document already covers this item"
      checkRequestLines company transactionDate ((line.itemCode, line.warehouse) :: seen) xs

/-- The price of an order line. -/
def checkPrice (p : PurchaseOrderPayload I) (x : PurchaseOrderItem I) (row : Row) : Checks Unit := do
  demand (0 < x.rate.rat) "rate must be finite and positive"
  match erp.purchasePriceRate p x row actor with
  | .ok none => .error (.fail "authoritative buying price is unavailable")
  | .ok (some rate) => demand (rate.value = x.rate.rat) "rate differs from authoritative buying price"
  | .error .typeError | .error .lookupError =>
      .error (.fail "deterministic payload checks failed")
  | .error _ => .error (.unknown unverifiedObjects)

/-- The request an order line comes from, where it names one. -/
def checkPrerequisite (p : PurchaseOrderPayload I) (x : PurchaseOrderItem I) : Checks Unit :=
  match x.materialRequest with
  | none => .ok ()
  | some name => do
      let rows ← listObjects erp (listed actor "Material Request" [("name", .str name.text),
        ("company", .str p.company.text), ("docstatus", .list [.str "<", .int 2])])
      demand (rows ≠ []) "material request prerequisite is unavailable"

/-- The lines of a purchase order. -/
def checkOrderLines (p : PurchaseOrderPayload I) (transactionDate : Date) :
    List (Text × Text) → List (PurchaseOrderItem I) → Checks Unit
  | _, [] => .ok ()
  | seen, x :: xs => do
      let line : OrderLine := ⟨x.itemCode.text, x.warehouse.text, x.qty, x.scheduleDate.text,
        (x.uom.map RequiredText.text).getD []⟩
      let row ← checkLine erp actor transactionDate seen line
      checkPrice erp actor p x row
      let duplicate ← openDuplicate erp actor "Purchase Order" line.itemCode line.warehouse
        p.company.text
      demand (duplicate = false) "an open document already covers this item"
      checkPrerequisite erp actor p x
      checkOrderLines p transactionDate ((line.itemCode, line.warehouse) :: seen) xs

/-- `_deterministic` of a material request. -/
def checkMaterialRequest (p : MaterialRequestPayload I) : Checks Unit := do
  let transactionDate ← payloadDate (I := I) p.transactionDate.text
  checkRequestLines erp actor p.company.text transactionDate [] p.items.items

/-- `_deterministic` of a purchase order. -/
def checkPurchaseOrder (p : PurchaseOrderPayload I) : Checks Unit := do
  let transactionDate ← payloadDate (I := I) p.transactionDate.text
  let currencies ← listObjects erp (listed actor "Currency" [("name", .str p.currency.text)])
  demand (currencies ≠ []) "currency is unavailable"
  let priceLists ← listObjects erp (listed actor "Price List"
    [("name", .str p.buyingPriceList.text), ("buying", .int 1), ("enabled", .int 1)])
  demand (priceLists ≠ []) "buying price list is unavailable"
  demand (∀ row ∈ priceLists.head?, (row.value "currency").strOrEmpty I = p.currency.text)
    "price list currency does not match payload currency"
  checkOrderLines erp actor p transactionDate [] p.items.items
  let suppliers ← listObjects erp (listed actor "Supplier" [("name", .str p.supplier.text)])
  demand (∃ row ∈ suppliers.head?, (row.value "disabled").truthy = false) "supplier is unavailable"
  let schedule ← payloadDate (I := I) p.scheduleDate.text
  demand (¬Date.before schedule transactionDate) "schedule date precedes transaction date"

/-- `_deterministic`. -/
def deterministic : Result GateResult :=
  let passed := "quantity, object, prerequisite, and duplicate checks passed"
  match action.actionType, action.payload with
  | .createMrDraft, p => conclude (checkMaterialRequest erp actor p) passed
  | .createPoDraft, p => conclude (checkPurchaseOrder erp actor p) passed
  | _, _ => erp.deterministicP2p action actor

/-! ## Workflows -/

/-- `_workflow_policy`. -/
def workflowPolicy : Result GateResult :=
  match erp.getAll ⟨"Workflow", [("document_type", .str action.actionType.targetDoctype),
      ("is_active", .int 1)], none, none⟩ with
  | none => GateResult.build .unknown "active ERP Workflow could not be verified"
  | some [] => GateResult.build .pass "fixed development mapping permits explicit confirmation"
  | some _ => GateResult.build .unknown "active ERP Workflow requires a new mapping"

end

/-! ## A gate that passes -/

theorem status_of_build {status : GateStatus} {reason : Text} {result : GateResult}
    (h : GateResult.build status reason = .ok result) : result.status = status := by
  unfold GateResult.build at h
  split_ifs at h
  rw [← Except.ok.inj h]

@[simp] theorem demand_eq_ok {condition : Prop} [Decidable condition] {reason : String} {u : Unit} :
    demand condition reason = .ok u ↔ condition := by
  unfold demand
  split_ifs with h <;> simp [h]

@[simp] theorem answer_eq_ok {α : Type} {value : Option α} {reason : String} {a : α} :
    answer value reason = .ok a ↔ value = some a := by
  cases value with
  | none => simp [answer]
  | some b => simp [answer]

/-- A gate passes only past all its checks. -/
theorem eq_ok_of_conclude {checks : Checks Unit} {reason : String} {result : GateResult}
    (h : conclude checks reason = .ok result) (hpass : result.status = .pass) :
    checks = .ok () := by
  cases checks with
  | ok u => rfl
  | error refusal =>
      cases refusal with
      | fail reason =>
          rw [status_of_build h] at hpass
          cases hpass
      | unknown reason =>
          rw [status_of_build h] at hpass
          cases hpass

theorem eq_ok_of_gateResult {check : Result GateResult} {result : GateResult}
    (h : gateResult check = .ok result) (hpass : result.status = .pass) : check = .ok result := by
  cases check with
  | ok r =>
      rw [gateResult] at h
      exact h
  | error e =>
      have hstatus : result.status ≠ .pass := by
        cases e with
        | gatewayFault fault =>
            rw [gateResult] at h
            rw [status_of_build h]
            split_ifs <;> simp
        | readBackMismatch _ | typeError | lookupError | unicodeEncodeError | overflowError
        | decimalOverflow | validationError _ =>
            rw [status_of_build h]
            simp
      exact absurd hpass hstatus

/-- The results so far stay in the results of a sequence. -/
theorem mem_of_evaluateGateSequence {results final : List (String × GateResult)}
    {blockedBy : Option String} {gates : List (String × Result GateResult)}
    (h : evaluateGateSequence results blockedBy gates = .ok final) {r : String × GateResult}
    (hr : r ∈ results) : r ∈ final := by
  induction gates generalizing results blockedBy with
  | nil => rwa [← Except.ok.inj h]
  | cons gate gates ih =>
      obtain ⟨name, check⟩ := gate
      cases blockedBy with
      | none =>
          rw [evaluateGateSequence] at h
          split_ifs at h with hname
          simp only [bind_eq_ok] at h
          obtain ⟨result, -, h⟩ := h
          exact ih h (List.mem_append_left _ hr)
      | some blocker =>
          rw [evaluateGateSequence] at h
          split_ifs at h with hname
          simp only [bind_eq_ok] at h
          obtain ⟨result, -, h⟩ := h
          exact ih h (List.mem_append_left _ hr)

/-- Where every result of a sequence is a pass, every check ended with a pass. -/
theorem pass_of_evaluateGateSequence {results final : List (String × GateResult)}
    {gates : List (String × Result GateResult)}
    (h : evaluateGateSequence results none gates = .ok final)
    (hpass : ∀ r ∈ final, r.2.status = .pass) :
    ∀ gate ∈ gates, ∃ result, gate.2 = .ok result ∧ result.status = .pass := by
  induction gates generalizing results with
  | nil => simp
  | cons gate gates ih =>
      obtain ⟨name, check⟩ := gate
      rw [evaluateGateSequence] at h
      split_ifs at h with hname
      simp only [bind_eq_ok] at h
      obtain ⟨result, hresult, h⟩ := h
      have hstatus : result.status = .pass :=
        hpass (name, result) (mem_of_evaluateGateSequence h (by simp))
      rw [if_pos hstatus] at h
      rw [List.forall_mem_cons]
      exact ⟨⟨result, eq_ok_of_gateResult hresult hstatus, hstatus⟩, ih h⟩

end Governance
