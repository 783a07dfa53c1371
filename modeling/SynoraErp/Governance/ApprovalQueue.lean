import SynoraErp.Governance.ExecutionScope
import SynoraErp.Governance.Service
import SynoraErp.Python.Instant

/-!
# The approval queue

`list_pending_approvals`: the newest actions with an independent approver, each of them
checked again for the user of the session, and shown with the amounts of its calculation.
-/

namespace Governance

open Python

section

variable {I : Interpreter}

/-! ## How a row ends -/

/-- How the loop leaves a row without an entry: `continue`, a `GatewayFault`, or an
exception that is none, `none` where Frappe raises it. -/
inductive Interruption where
  | passed
  | fault (fault : GatewayFault)
  | raised (error : Option Exn)

/-- What an exception of the services is to the loop. -/
def interrupt : Exn → Interruption
  | .gatewayFault fault => .fault fault
  | error => .raised (some error)

/-- A row on its way to an entry. -/
abbrev Entrance := Except Interruption

/-- A call of the services. -/
def enter {α : Type} (x : Result α) : Entrance α :=
  match x with
  | .ok a => .ok a
  | .error error => .error (interrupt error)

/-- `if not condition: continue`. -/
def proceedIf (condition : Prop) [Decidable condition] : Entrance Unit :=
  if condition then .ok () else .error .passed

/-- A call of Frappe. -/
def askErp {α : Type} (answer : Option α) : Entrance α :=
  match answer with
  | some a => .ok a
  | none => .error (.raised none)

variable (erp : PolicyErp I) (runs : Text → Option PolicyRun) (records : Records I) (actor : Text)

/-! ## The checks -/

/-- `_expiry_passes`. -/
def PolicyErp.ahead (expiresAt : Text) : Bool :=
  match erp.getDatetime (some expiresAt) with
  | some expires => decide (erp.now < expires)
  | none => false

/-- `ENABLED_P2P_ACTION_TYPES`. -/
def enabledP2pActionTypes : List ActionType :=
  [.submitPo, .cancelPo, .createPrDraft, .submitPr, .cancelPr, .createPiDraft, .submitPi,
    .cancelPi, .createPaymentEntryDraft, .submitPaymentEntry, .cancelPaymentEntry]

/-- The permission an approver needs on the target. -/
def approverPermission : ActionType → String
  | .createMrDraft | .createPoDraft | .createPrDraft | .createPiDraft
  | .createPaymentEntryDraft => "create"
  | .submitPo | .submitPr | .submitPi | .submitPaymentEntry => "submit"
  | .cancelPo | .cancelPr | .cancelPi | .cancelPaymentEntry => "cancel"

/-- `GatewayFault("UNKNOWN", "approver permission could not be verified", 409)`. -/
def unverifiedApprover : Exn :=
  .gatewayFault ⟨"UNKNOWN", "approver permission could not be verified", 409⟩

/-- A permission of the approver. -/
def demandApprover (target permission : String) : Result Unit :=
  match erp.hasPermission target permission actor with
  | none => .error unverifiedApprover
  | some granted =>
      if granted then .ok () else .error (denied "approver permission is insufficient")

/-- `_approver_allowed`. -/
def approverAllowed (action : ProposedAction I) : Result Unit :=
  if action.actionType.approvalClass = "INITIATOR_CONFIRMATION" then
    if actor ≠ action.initiator.text then .error (denied "initiator confirmation is required")
    else .ok ()
  else if actor = action.initiator.text then
    .error (denied "independent approval requires a different user")
  else do
    demandApprover erp actor action.actionType.targetDoctype "read"
    demandApprover erp actor action.actionType.targetDoctype (approverPermission action.actionType)

/-- `_load_run`. -/
def loadRun (runId : Text) : Result PolicyRun :=
  match runs runId with
  | some run => .ok run
  | none => .error (.gatewayFault ⟨"RUN_REJECTED", "run is not available", 404⟩)

/-- `_latest_approval`, of a decision that allows; the decisions are kept in the order of
their creation. -/
def latestApproval (action : ProposedAction I) : Option ApprovalDecision :=
  ((records.approvals.filter fun p => p.actionId.text = action.actionId.text ∧
    p.proposalDigest = action.digest ∧ p.decision = .allow).reverse.mergeSort
      fun p q => q.decidedAt.microseconds 0 ≤ p.decidedAt.microseconds 0).head?

/-- The check of an approved action: its approval is the actor's, and has not expired. -/
def ownApproval (action : ProposedAction I) : Prop :=
  ∃ approval ∈ latestApproval records action, approval.actor.text = actor ∧
    erp.ahead (timestampText approval.expiresAt) = true

instance decidableOwnApproval (action : ProposedAction I) :
    Decidable (ownApproval erp records actor action) :=
  inferInstanceAs (Decidable (∃ approval ∈ latestApproval records action, _ ∧ _))

/-- A gate that has to pass. -/
def proceedIfPass (gate : Result GateResult) : Entrance Unit := do
  let result ← enter gate
  proceedIf (result.status = .pass)

/-- The checks of a row, up to its entry. -/
def checkRow (row : StoredAction I) : Entrance (ProposedAction I) := do
  let action ← enter (reload row.action)
  proceedIf (action.actionType ∈ enabledP2pActionTypes)
  enter (approverAllowed erp actor action)
  let run ← enter (loadRun runs action.runId.text)
  proceedIf (row.state = .awaitingApproval →
    erp.ahead (timestampText action.expiresAt) = true ∧ run.status = "ACTIVE" ∧
      run.revoked = false)
  proceedIf (if row.state = .approved then ownApproval erp records actor action
    else row.state = .awaitingApproval)
  proceedIfPass (scopeIdentity erp action.toProposal run actor)
  proceedIfPass (permission erp action.toProposal actor)
  return action

/-! ## The amounts of an action -/

end

section

variable {I : Interpreter} (erp : PolicyErp I) (actor : Text)

/-- `str(value or default)`. -/
def Cell.strOr (cell : Cell) (default : Text) : Text :=
  if cell.truthy then cell.str I else default

/-- The number of an integer column. -/
def Cell.integer : Cell → ℤ
  | .int n => n
  | .bool true => 1
  | _ => 0

/-- `_financial_decimal`. -/
def financialDecimal (cell : Cell) (field : String) : Entrance Dec :=
  enter (ReadBack.decimal I cell field)

/-- `_financial_number`. -/
def financialNumber (number : Dec) : Entrance Text := enter (ReadBack.plainNumber number)

/-- `d + e` of two numbers that are not negative. -/
def addAmounts (d e : Dec) : Option Dec :=
  Dec.fix
    { negative := false
      coeff := d.coeff * 10 ^ (d.exp - min d.exp e.exp).toNat +
        e.coeff * 10 ^ (e.exp - min d.exp e.exp).toNat
      exp := min d.exp e.exp }

/-- A number of the context; `none` is `decimal.Overflow`. -/
def inContext (number : Option Dec) : Entrance Dec :=
  match number with
  | some d => .ok d
  | none => .error (.raised (some .decimalOverflow))

/-- The amount of each line, and the total so far. -/
def lineAmounts (amounts : List Text) (total : Dec) :
    List (Text × Text) → Entrance (List Text × Dec)
  | [] => .ok (amounts, total)
  | (qty, rate) :: lines => do
      let qty ← financialDecimal (I := I) (.text qty) "qty"
      let rate ← financialDecimal (I := I) (.text rate) "rate"
      let amount ← inContext (qty.mul rate)
      let text ← financialNumber amount
      let total ← inContext (addAmounts total amount)
      lineAmounts (amounts ++ [text]) total lines

/-- `frappe.get_list(doctype, filters={"name": .., "company": ..}, limit=1)`. -/
def readSource (doctype : String) (sourceName company : Text) : Entrance (List Row) :=
  askErp (erp.getList (listed actor doctype [("name", .str sourceName), ("company", .str company)]))

/-- The amounts of a document that the actor does not see. -/
def unseenAmounts (document : String) : Dict :=
  record
    [("currency", Value.ofString "—"), ("line_amounts", Value.list []),
      ("total_amount", Value.ofString "—"), ("tax_amount", Value.ofString "—"),
      ("grand_total", Value.ofString "—"), ("outstanding_amount", Value.ofString "—"),
      ("status", Value.ofString "未知"),
      ("accounting_state", Value.ofString s!"当前 {document}不可见, 审批前必须重新读取"),
      ("basis", Value.ofString "当前 ERP 单据不可见")]

/-- The status of a document that is to be cancelled. -/
def cancelCalculation (target : String) (p : SourcePayload) : Entrance Dict := do
  let rows ← readSource erp actor target p.sourceName.text p.company.text
  match rows with
  | [] =>
      return record
        [("status", Value.ofString "未知"),
          ("accounting_state", Value.ofString "当前 ERP 单据不可见, 审批前必须重新读取"),
          ("basis", Value.ofString "当前 ERP 单据不可见")]
  | row :: _ =>
      return record
        [("status", Value.str (Cell.strOr (I := I) (row.value "status") "未知")),
          ("docstatus", Value.int (Cell.integer (row.value "docstatus"))),
          ("accounting_state", Value.ofString
            "取消仅由 ERP 原生 controller 执行; 下游依赖和库存/会计逆向结果以回执为准"),
          ("basis", Value.ofString s!"读取当前 {target}; 不级联取消、不执行数据库回滚")]

/-- The amounts of an invoice draft. -/
def invoiceDraftCalculation (p : DraftPayload I true) : Entrance Dict := do
  let (amounts, total) ← lineAmounts (I := I) [] ⟨false, 0, 0⟩
    (p.items.items.map fun x => (x.qty.text, (x.rate.map Amount.text).getD []))
  let source ← readSource erp actor "Purchase Receipt" p.sourceName.text p.company.text
  let currency := match source with
    | [] => []
    | row :: _ => (row.value "currency").strOrEmpty I
  let total ← financialNumber total
  return record
    [("currency", Value.str (if currency = [] then "—" else currency)),
      ("line_amounts", Value.list (amounts.map Value.str)), ("total_amount", Value.str total),
      ("tax_amount", Value.ofString "—"), ("grand_total", Value.ofString "—"),
      ("outstanding_amount", Value.ofString "—"), ("status", Value.ofString "Draft"),
      ("accounting_state", Value.ofString "待 ERP controller 计算税额、科目和应付"),
      ("basis", Value.ofString "批准数量 x PR 费率; 税额、科目和总额由 ERPNext 计算")]

/-- The amounts of an invoice. -/
def invoiceCalculation (p : SourcePayload) : Entrance Dict := do
  let rows ← readSource erp actor "Purchase Invoice" p.sourceName.text p.company.text
  match rows with
  | [] => return unseenAmounts "ERP 发票"
  | row :: _ => do
      let total ← financialDecimal (I := I) (row.value "total") "total"
      let grandTotal ← financialDecimal (I := I) (row.value "grand_total") "grand_total"
      let taxes ← financialDecimal (I := I) (row.value "total_taxes_and_charges")
        "total_taxes_and_charges"
      let outstanding ← financialDecimal (I := I) (row.value "outstanding_amount")
        "outstanding_amount"
      let total ← financialNumber total
      let taxes ← financialNumber taxes
      let grandTotal ← financialNumber grandTotal
      let outstanding ← financialNumber outstanding
      return record
        [("currency", Value.str (Cell.strOr (I := I) (row.value "currency") "—")),
          ("line_amounts", Value.list []), ("total_amount", Value.str total),
          ("tax_amount", Value.str taxes), ("grand_total", Value.str grandTotal),
          ("outstanding_amount", Value.str outstanding),
          ("status", Value.str (Cell.strOr (I := I) (row.value "status") "未知")),
          ("accounting_state", Value.ofString "提交前预览; 提交后以 ERP 会计回执为准"),
          ("basis", Value.ofString
            "读取当前 Purchase Invoice; ERP controller 负责最终税额、科目和应付")]

/-- The amounts of a payment draft. -/
def paymentDraftCalculation (p : PaymentPayload I) : Entrance Dict := do
  let rows ← readSource erp actor "Purchase Invoice" p.sourceName.text p.company.text
  match rows with
  | [] => return unseenAmounts "ERP 发票"
  | row :: _ => do
      let paid ← financialDecimal (I := I) (.text p.paidAmount.text) "paid_amount"
      let outstanding ← financialDecimal (I := I) (row.value "outstanding_amount")
        "outstanding_amount"
      let paid ← financialNumber paid
      let outstanding ← financialNumber outstanding
      return record
        [("currency", Value.str (Cell.strOr (I := I) (row.value "currency") "—")),
          ("line_amounts", Value.list [.str paid]), ("total_amount", Value.str paid),
          ("tax_amount", Value.ofString "—"), ("grand_total", Value.str paid),
          ("outstanding_amount", Value.str outstanding), ("status", Value.ofString "Draft"),
          ("accounting_state", Value.ofString
            "待 ERP controller 生成 Payment Entry GL 并更新发票余额"),
          ("basis", Value.ofString
            "付款金额受当前 Purchase Invoice outstanding 限制; 不执行银行转账")]

/-- The amounts of a payment. -/
def paymentCalculation (p : SourcePayload) : Entrance Dict := do
  let rows ← readSource erp actor "Payment Entry" p.sourceName.text p.company.text
  match rows with
  | [] => return unseenAmounts "Payment Entry "
  | row :: _ => do
      let paid ← financialDecimal (I := I) (row.value "paid_amount") "paid_amount"
      let received ← financialDecimal (I := I) (row.value "received_amount") "received_amount"
      let allocated ← financialDecimal (I := I) (row.value "total_allocated_amount")
        "total_allocated_amount"
      let unallocated ← financialDecimal (I := I) (row.value "unallocated_amount")
        "unallocated_amount"
      let paid ← financialNumber paid
      let received ← financialNumber received
      let unallocated ← financialNumber unallocated
      let allocated ← financialNumber allocated
      return record
        [("currency", Value.str
            (Cell.strOr (I := I) (row.value "paid_to_account_currency") "—")),
          ("line_amounts", Value.list [.str paid]), ("total_amount", Value.str paid),
          ("tax_amount", Value.ofString "—"), ("grand_total", Value.str received),
          ("outstanding_amount", Value.str unallocated),
          ("status", Value.str (Cell.strOr (I := I) (row.value "status") "Draft")),
          ("accounting_state", Value.ofString
            "提交后以 Payment Entry GL 与发票 outstanding 回读为准"),
          ("basis", Value.str
            ("Payment Entry 分配金额 " ++ (allocated ++ "; ERP controller 负责记账")))]

/-- `p2p_action_calculation`, for the action types that `_action_response` asks it for. -/
def p2pActionCalculation (action : Proposal I) : Entrance (Option Dict) :=
  match action.actionType, action.payload with
  | .cancelPo, p => some <$> cancelCalculation erp actor "Purchase Order" p
  | .cancelPr, p => some <$> cancelCalculation erp actor "Purchase Receipt" p
  | .cancelPi, p => some <$> cancelCalculation erp actor "Purchase Invoice" p
  | .cancelPaymentEntry, p => some <$> cancelCalculation erp actor "Payment Entry" p
  | .createPiDraft, p => some <$> invoiceDraftCalculation erp actor p
  | .submitPi, p => some <$> invoiceCalculation erp actor p
  | .createPaymentEntryDraft, p => some <$> paymentDraftCalculation erp actor p
  | .submitPaymentEntry, p => some <$> paymentCalculation erp actor p
  | .createMrDraft, _ | .createPoDraft, _ | .submitPo, _ | .createPrDraft, _ | .submitPr, _ =>
      .ok none

/-- What `_action_response` answers. -/
structure ActionResponse where
  action : Dict
  calculation : Option Dict
  state : ActionState
  stateVersion : ℕ
  stateReason : Text
  stateChangedBy : Text

/-- `_action_response`, of an action the queue is open for. -/
def actionResponse (row : StoredAction I) (action : ProposedAction I) :
    Entrance ActionResponse := do
  let calculation ← p2pActionCalculation erp actor action.toProposal
  return ⟨action.toDict, calculation, row.state, row.stateVersion, row.stateReason,
    row.stateChangedBy⟩

/-! ## The list -/

variable (runs : Text → Option PolicyRun) (records : Records I)

/-- The entry of a row. -/
def rowEntry (row : StoredAction I) : Entrance ActionResponse := do
  let action ← checkRow erp runs records actor row
  actionResponse erp actor row action

/-- The loop over the rows: a `GatewayFault` only leaves its row out. -/
def rowEntries : List (StoredAction I) → Except (Option Exn) (List ActionResponse)
  | [] => .ok []
  | row :: rows =>
      match rowEntry erp actor runs records row with
      | .ok response => (rowEntries rows).map (response :: ·)
      | .error (.raised error) => .error error
      | .error .passed | .error (.fault _) => rowEntries rows

/-- The actions with an independent approver, the newest first; the records keep them in the
order of their creation. -/
def independentActions : List (StoredAction I) :=
  records.actions.reverse.filter fun row =>
    row.action.actionType.approvalClass = "INDEPENDENT_APPROVER"

/-- `list_pending_approvals`. -/
def listPendingApprovals (limit : ℤ) : Except (Option Exn) (List ActionResponse) :=
  if limit < 1 ∨ 200 < limit then .error (some (invalid "approval list limit is invalid"))
  else if actor = [] ∨ actor = "Guest" then
    .error (some (.gatewayFault ⟨"AUTHENTICATION_REQUIRED", "authenticated user required", 401⟩))
  else rowEntries erp actor runs records ((independentActions records).take limit.toNat)

end

end Governance
