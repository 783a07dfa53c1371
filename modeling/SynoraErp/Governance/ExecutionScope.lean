import SynoraErp.Governance.Orchestration
import SynoraErp.Governance.PolicyGates
import SynoraErp.Governance.Receiptable
import SynoraErp.Python.Except

/-!
# The scope of an execution

The scope gate checks every warehouse of the lines of an action, or the source document of
an action without lines; `execution_key` has room for one. Where all gates pass, the key
exists exactly when the lines name one warehouse at most.
-/

namespace Governance

open Python

section

variable {I : Interpreter}

/-! ## The payload -/

def asDict : Value → Option Dict
  | .dict d => some d
  | _ => none

/-- `payload.get("items", [])`. -/
def payloadItems (payload : Dict) : List Dict :=
  match payload.get? "items" with
  | some (.list xs) => xs.filterMap asDict
  | _ => []

/-- `str(d.get(key, ""))`, for a key that holds a text. -/
def strItem (d : Dict) (key : String) : Text :=
  match d.get? key with
  | some (.str t) => t
  | _ => []

/-- The warehouse of each line, empty where it names none. -/
def warehouses (payload : Dict) : List Text := (payloadItems payload).map (strItem · "warehouse")

/-! ## The execution key -/

/-- `ExecutionKey`. -/
structure ExecutionKey where
  actionType : ActionType
  targetDoctype : Text
  company : Text
  warehouse : Text
  proposalDigest : Digest
  idempotencyKey : IdempotencyKey

/-- `{str(item["warehouse"]) for item in items if item.get("warehouse")}`. -/
def keyWarehouses (payload : Dict) : List Text := ((warehouses payload).filter (· ≠ [])).dedup

/-- `execution_key`. -/
def executionKey (action : ProposedAction I) : Result ExecutionKey :=
  let payload := payloadDict action.toProposal
  let sourceRef := strItem payload "source_name"
  if keyWarehouses payload = [] ∧ sourceRef = [] then
    .error (invalid "execution scope is incomplete")
  else if 1 < (keyWarehouses payload).length then
    .error (invalid "execution requires one warehouse scope")
  else
    .ok
      { actionType := action.actionType
        targetDoctype := action.actionType.targetDoctype
        company := strItem payload "company"
        warehouse := (keyWarehouses payload).head?.getD sourceRef
        proposalDigest := action.digest
        idempotencyKey := action.idempotencyKey }

/-! ## The scope gate -/

variable (erp : PolicyErp I) (action : Proposal I) (run : PolicyRun) (actor : Text)

/-- The child table that holds the warehouses of a source document. -/
def sourceChild (target : Text) : Option String :=
  ([("Purchase Order", "Purchase Order Item"), ("Purchase Receipt", "Purchase Receipt Item"),
    ("Purchase Invoice", "Purchase Invoice Item")] : List (Text × String)).lookup target

/-- The listing of the source document. -/
def sourceQuery (target source : Text) : Query :=
  ⟨target, [("name", .str source), ("company", .str run.companyScope)], some actor, none⟩

/-- The listing of the rows of the source document in the warehouse of the Run. -/
def sourceRowsQuery (target source : Text) (child : String) : Query :=
  ⟨child, [("parent", .str source), ("warehouse", .str run.warehouseScope)], some actor,
    some target⟩

/-- The listing of the company. -/
def companyQuery : Query := listed actor "Company" [("name", .str run.companyScope)]

/-- The listing of a warehouse. -/
def warehouseQuery (warehouse : Text) : Query :=
  listed actor "Warehouse" [("name", .str warehouse), ("company", .str run.companyScope),
    ("disabled", .int 0)]

/-- The scope of an action on an existing document. -/
def checkSource (target source : Text) : Checks Unit := do
  demand (target ≠ [] ∧ source ≠ []) "source document scope is incomplete"
  let visible ← answer (erp.getList (sourceQuery run actor target source))
    "source document scope could not be verified"
  demand (visible ≠ []) "source document is outside the current user scope"
  match (if run.warehouseScope = [] then none else sourceChild target) with
  | none => return ()
  | some child => do
      let rows ← answer (erp.getList (sourceRowsQuery run actor target source child))
        "source warehouse scope could not be verified"
      demand (rows ≠ []) "source document is outside the Run warehouse scope"

/-- The warehouses, one after another. -/
def checkWarehouses : List Text → Checks Unit
  | [] => .ok ()
  | warehouse :: rest => do
      let visible ← answer (erp.getList (warehouseQuery run actor warehouse))
        "company or warehouse scope could not be verified"
      demand (visible ≠ []) "warehouse is outside the current user scope"
      checkWarehouses rest

/-- The scope of an action with lines. -/
def checkLines (named : List Text) : Checks Unit := do
  demand (named ≠ [] ∧ [] ∉ named) "warehouse scope is incomplete"
  demand (run.warehouseScope ≠ [] → ∀ w ∈ named, w = run.warehouseScope)
    "warehouse scope does not match the Run"
  let company ← answer (erp.getList (companyQuery run actor))
    "company or warehouse scope could not be verified"
  demand (company ≠ []) "company is outside the current user scope"
  checkWarehouses erp run actor (sortedSet named)

/-- `_scope_identity`. -/
def scopeIdentity : Result GateResult :=
  let payload := payloadDict action
  if strItem payload "company" ≠ run.companyScope then
    GateResult.build .fail "company scope does not match the Run"
  else if action.actionType.isP2p ∧ warehouses payload = [] then
    conclude (checkSource erp run actor (strItem payload "source_doctype")
      (strItem payload "source_name"))
      "source document company and scope match current permissions"
  else
    conclude (checkLines erp run actor (warehouses payload))
      "company and warehouse scope match current permissions"

/-- `_gate_checks`. -/
def gateChecks (approvedActor : Option Text) : Result (List (String × GateResult)) :=
  evaluateGateSequence [] none
    [("identity", runIdentity erp action run actor approvedActor),
      ("scope", scopeIdentity erp action run actor),
      ("permission", permission erp action actor),
      ("deterministic", deterministic erp action actor),
      ("workflow_policy", workflowPolicy erp action)]

/-! ## What the scope gate has checked -/

/-- A listing that returned a row. -/
def Visible (query : Query) : Prop := ∃ rows, rows ≠ [] ∧ erp.getList query = some rows

/-- A warehouse of a line that the gate found in the scope. -/
def WarehouseChecked (scope : Text) : Prop :=
  scope ∈ warehouses (payloadDict action) ∧ Visible erp (companyQuery run actor) ∧
    Visible erp (warehouseQuery run actor scope) ∧
    (run.warehouseScope ≠ [] → scope = run.warehouseScope)

/-- The source document of an action without lines, found in the scope. -/
def SourceChecked (scope : Text) : Prop :=
  warehouses (payloadDict action) = [] ∧
    scope = strItem (payloadDict action) "source_name" ∧
    Visible erp (sourceQuery run actor (strItem (payloadDict action) "source_doctype") scope)

/-- The lines of the action name one warehouse at most. -/
def NamesOneWarehouse : Prop :=
  ∀ w ∈ warehouses (payloadDict action), ∀ w' ∈ warehouses (payloadDict action),
    w = w'

end

section

variable {I : Interpreter} {erp : PolicyErp I} {run : PolicyRun} {actor : Text}

theorem checkWarehouses_eq_ok {named : List Text}
    (h : checkWarehouses erp run actor named = .ok ()) :
    ∀ w ∈ named, Visible erp (warehouseQuery run actor w) := by
  induction named with
  | nil => simp
  | cons w named ih =>
      simp only [checkWarehouses, Python.Except.bind_eq_ok, answer_eq_ok, demand_eq_ok] at h
      obtain ⟨rows, hrows, -, hne, hrest⟩ := h
      rw [List.forall_mem_cons]
      exact ⟨⟨rows, hne, hrows⟩, ih hrest⟩

theorem checkLines_eq_ok {named : List Text} (h : checkLines erp run actor named = .ok ()) :
    named ≠ [] ∧ [] ∉ named ∧ (run.warehouseScope ≠ [] → ∀ w ∈ named, w = run.warehouseScope) ∧
      Visible erp (companyQuery run actor) ∧
      ∀ w ∈ named, Visible erp (warehouseQuery run actor w) := by
  simp only [checkLines, Python.Except.bind_eq_ok, answer_eq_ok, demand_eq_ok] at h
  obtain ⟨-, ⟨hne, hnamed⟩, -, hrun, company, hcompany, -, hvisible, hwarehouses⟩ := h
  refine ⟨hne, hnamed, hrun, ⟨company, hvisible, hcompany⟩, fun w hw => ?_⟩
  exact checkWarehouses_eq_ok hwarehouses w (mem_sortedSet.mpr hw)

theorem checkSource_eq_ok {target source : Text}
    (h : checkSource erp run actor target source = .ok ()) :
    source ≠ [] ∧ Visible erp (sourceQuery run actor target source) := by
  simp only [checkSource, Python.Except.bind_eq_ok, answer_eq_ok, demand_eq_ok] at h
  obtain ⟨-, hne, rows, hrows, -, hvisible, -⟩ := h
  exact ⟨hne.2, rows, hvisible, hrows⟩

/-- Where the scope gate passes, either every line has a warehouse that was checked, or there
are no lines and the source document was. -/
theorem scopeIdentity_pass {action : Proposal I} {result : GateResult}
    (h : scopeIdentity erp action run actor = .ok result) (hpass : result.status = .pass) :
    (warehouses (payloadDict action) ≠ [] ∧
        [] ∉ warehouses (payloadDict action) ∧
        ∀ w ∈ warehouses (payloadDict action), WarehouseChecked erp action run actor w) ∨
      strItem (payloadDict action) "source_name" ≠ [] ∧
        SourceChecked erp action run actor (strItem (payloadDict action) "source_name") := by
  rw [scopeIdentity] at h
  split_ifs at h with hcompany hsource
  · rw [status_of_build h] at hpass
    cases hpass
  · obtain ⟨hne, hvisible⟩ := checkSource_eq_ok (eq_ok_of_conclude h hpass)
    exact .inr ⟨hne, hsource.2, rfl, hvisible⟩
  · obtain ⟨hne, hnamed, hrun, hvisible, hwarehouses⟩ :=
      checkLines_eq_ok (eq_ok_of_conclude h hpass)
    exact .inl ⟨hne, hnamed, fun w hw => ⟨hw, hvisible, hwarehouses w hw, fun hscope =>
      hrun hscope w hw⟩⟩

theorem keyWarehouses_eq_dedup {payload : Dict} (h : [] ∉ warehouses payload) :
    keyWarehouses payload = (warehouses payload).dedup := by
  have hfilter : (warehouses payload).filter (fun w => decide (w ≠ [])) = warehouses payload := by
    rw [List.filter_eq_self]
    intro w hw
    have hne : w ≠ [] := fun hnil => h (hnil ▸ hw)
    simpa using hne
  rw [keyWarehouses, hfilter]

theorem length_dedup_le_one_iff {α : Type} [DecidableEq α] {xs : List α} :
    xs.dedup.length ≤ 1 ↔ ∀ x ∈ xs, ∀ y ∈ xs, x = y := by
  constructor
  · intro h x hx y hy
    rw [← List.mem_dedup] at hx hy
    cases hdedup : xs.dedup with
    | nil =>
        rw [hdedup] at hx
        cases hx
    | cons z zs =>
        rw [hdedup] at h hx hy
        obtain rfl : zs = [] := List.length_eq_zero_iff.mp (by simpa using h)
        rw [List.mem_singleton.mp hx, List.mem_singleton.mp hy]
  · intro h
    cases hdedup : xs.dedup with
    | nil => simp
    | cons z zs =>
        cases zs with
        | nil => simp
        | cons w zs =>
            have hnodup := List.nodup_dedup xs
            have hz : z ∈ xs := List.mem_dedup.mp (by rw [hdedup]; simp)
            have hw : w ∈ xs := List.mem_dedup.mp (by rw [hdedup]; simp)
            rw [hdedup, h z hz w hw] at hnodup
            simp at hnodup

/-- The key of an action whose lines all name a warehouse. -/
theorem executionKey_of_lines {action : ProposedAction I}
    (hne : warehouses (payloadDict action.toProposal) ≠ [])
    (hnamed : [] ∉ warehouses (payloadDict action.toProposal)) :
    (NamesOneWarehouse action.toProposal → ∃ key, executionKey action = .ok key ∧
        key.warehouse ∈ warehouses (payloadDict action.toProposal)) ∧
      (¬NamesOneWarehouse action.toProposal →
        executionKey action = .error (invalid "execution requires one warehouse scope")) := by
  have hkey := keyWarehouses_eq_dedup hnamed
  have hdedup : (warehouses (payloadDict action.toProposal)).dedup ≠ [] := by
    rwa [ne_eq, List.dedup_eq_nil]
  have hone : (warehouses (payloadDict action.toProposal)).dedup.length ≤ 1 ↔
      NamesOneWarehouse action.toProposal := length_dedup_le_one_iff
  rw [executionKey, hkey, if_neg fun h => hdedup h.1]
  constructor
  · intro h
    have hlength := hone.mpr h
    rw [if_neg (not_lt.mpr hlength)]
    refine ⟨_, rfl, ?_⟩
    obtain ⟨w, ws, hcons⟩ := List.exists_cons_of_ne_nil hdedup
    have hw : w ∈ warehouses (payloadDict action.toProposal) :=
      List.mem_dedup.mp (by rw [hcons]; exact List.mem_cons_self)
    simpa [hcons] using hw
  · intro h
    rw [if_pos (not_le.mp fun hle => h (hone.mp hle))]

/-- The key of an action without lines. -/
theorem executionKey_of_source {action : ProposedAction I}
    (hnone : warehouses (payloadDict action.toProposal) = [])
    (hne : strItem (payloadDict action.toProposal) "source_name" ≠ []) :
    ∃ key, executionKey action = .ok key ∧
      key.warehouse = strItem (payloadDict action.toProposal) "source_name" := by
  have hkey : keyWarehouses (payloadDict action.toProposal) = [] := by
    rw [keyWarehouses, hnone]
    rfl
  rw [executionKey, hkey, if_neg fun h => hne h.2, if_neg (by simp)]
  exact ⟨_, rfl, rfl⟩

/-- An action that passes all gates has an execution key, of a scope that the gate checked,
exactly when its lines name one warehouse at most; with more, the key is refused. Within
the warehouse of a Run there is only one. -/
theorem executionKey_of_gates_pass {action : ProposedAction I} {approvedActor : Option Text}
    {results : List (String × GateResult)}
    (hchecks : gateChecks erp action.toProposal run actor approvedActor = .ok results)
    (hpass : ∀ r ∈ results, r.2.status = .pass) :
    ((∃ key, executionKey action = .ok key ∧
        (WarehouseChecked erp action.toProposal run actor key.warehouse ∨
          SourceChecked erp action.toProposal run actor key.warehouse)) ↔
        NamesOneWarehouse action.toProposal) ∧
      (¬NamesOneWarehouse action.toProposal →
        executionKey action = .error (invalid "execution requires one warehouse scope")) ∧
      (run.warehouseScope ≠ [] → NamesOneWarehouse action.toProposal) := by
  obtain ⟨result, hscope, hstatus⟩ := pass_of_evaluateGateSequence hchecks hpass
    ("scope", scopeIdentity erp action.toProposal run actor) (by simp)
  obtain ⟨hne, hnamed, hchecked⟩ | ⟨hne, hsource⟩ := scopeIdentity_pass hscope hstatus
  · obtain ⟨hone, hmany⟩ := executionKey_of_lines hne hnamed
    refine ⟨⟨?_, ?_⟩, hmany, ?_⟩
    · rintro ⟨key, hkey, -⟩
      by_contra hnot
      rw [hmany hnot] at hkey
      cases hkey
    · intro hnames
      obtain ⟨key, hkey, hmem⟩ := hone hnames
      exact ⟨key, hkey, .inl (hchecked _ hmem)⟩
    · intro hrun w hw w' hw'
      rw [(hchecked w hw).2.2.2 hrun, (hchecked w' hw').2.2.2 hrun]
  · have hnames : NamesOneWarehouse action.toProposal := by
      intro w hw
      rw [hsource.1] at hw
      cases hw
    obtain ⟨key, hkey, hwarehouse⟩ := executionKey_of_source hsource.1 hne
    refine ⟨⟨fun _ => hnames, fun _ => ⟨key, hkey, .inr ?_⟩⟩, fun h => absurd hnames h,
      fun _ => hnames⟩
    rw [hwarehouse]
    exact hsource

end

/-! ## A request for two warehouses -/

/-- A line for the second warehouse. -/
def shopLine : MaterialRequestItem Interpreter.ascii :=
  { replenishmentLine with
    itemCode := ⟨"ITEM-2", by decide, by decide⟩
    warehouse := ⟨"Shop", by decide, by decide⟩ }

/-- A request for the two warehouses. -/
def sharedRequestPayload : MaterialRequestPayload Interpreter.ascii :=
  { replenishmentPayload 0 one_line with
    items := ⟨[replenishmentLine, shopLine], by simp, by simp⟩ }

def sharedRequest : Proposal Interpreter.ascii :=
  { replenishment 0 one_line with
    actionId := ⟨"00000000-0000-4000-8000-000000000014", by decide +kernel⟩
    payload := sharedRequestPayload
    idempotencyKey := ⟨"request-0002", by decide⟩ }

/-- An ERP in which the buyer may do everything and no document is open. -/
def openErp : PolicyErp Interpreter.ascii where
  getList query := some (if query.doctype = "Material Request Item" then [] else [[]])
  getAll _ := some []
  hasPermission _ _ _ := some true
  userEnabled _ := some true
  getDatetime _ := some 1
  now := 0
  purchasePriceRate _ _ _ _ := .ok none
  deterministicP2p _ _ := GateResult.build .fail "deterministic P2P checks failed"

/-- A Run without a warehouse. -/
def companyRun : PolicyRun where
  initiator := "buyer@example.test"
  companyScope := "Synora"
  warehouseScope := []
  status := "ACTIVE"
  revoked := false
  runState := "PROPOSED"
  executionMode := "PLAN_ONLY"
  expiresAt := some "2026-07-19 12:00:00"
  workflowExpiresAt := none

/-- Whether all gates pass. -/
def allPass : Result (List (String × GateResult)) → Bool
  | .ok results => results.all fun r => r.2.status = .pass
  | .error _ => false

theorem exists_of_allPass {x : Result (List (String × GateResult))} (h : allPass x = true) :
    ∃ results, x = .ok results ∧ ∀ r ∈ results, r.2.status = .pass := by
  cases x with
  | error e => cases h
  | ok results => exact ⟨results, rfl, by simpa [allPass] using h⟩

/-- A request that names one warehouse has a key. -/
theorem executionKey_of_gates_pass_replenishment :
    ∃ (action : ProposedAction Interpreter.ascii) (key : ExecutionKey),
      executionKey action = .ok key ∧
        WarehouseChecked openErp action.toProposal companyRun "buyer@example.test"
          key.warehouse := by
  obtain ⟨action, haction, -⟩ := exists_replenishment (n := 0) (by decide) (by decide +kernel)
  obtain ⟨results, hchecks, hpass⟩ := exists_of_allPass
    (x := gateChecks openErp (replenishment 0 (by decide)) companyRun "buyer@example.test" none)
    (by decide +kernel)
  have hlines : warehouses (payloadDict (replenishment 0 (by decide))) = ["Stores"] := by
    decide +kernel
  have hnames : NamesOneWarehouse (replenishment 0 (by decide)) := by
    rw [NamesOneWarehouse, hlines]
    simp
  rw [← haction] at hchecks hlines hnames
  obtain ⟨key, hkey, hwarehouse | hsource⟩ :=
    (executionKey_of_gates_pass hchecks hpass).1.mpr hnames
  · exact ⟨action, key, hkey, hwarehouse⟩
  · rw [hsource.1] at hlines
    cases hlines

/-- A request for two warehouses passes every gate of a Run without one and has no key. -/
theorem gates_pass_without_executionKey :
    ∃ (action : ProposedAction Interpreter.ascii) (results : List (String × GateResult)),
      buildProposedAction Interpreter.ascii (.dict action.toDict) = .ok action ∧
      gateChecks openErp action.toProposal companyRun "buyer@example.test" none = .ok results ∧
      (∀ r ∈ results, r.2.status = .pass) ∧
      executionKey action = .error (invalid "execution requires one warehouse scope") := by
  obtain ⟨⟨_, digest, hdigest⟩, rfl⟩ := exists_action (p := sharedRequest) (by decide +kernel)
  obtain ⟨results, hchecks, hpass⟩ := exists_of_allPass
    (x := gateChecks openErp sharedRequest companyRun "buyer@example.test" none)
    (by decide +kernel)
  refine ⟨⟨sharedRequest, digest, hdigest⟩, results,
    (ProposedAction.build_toDict _ _).mpr ⟨⟨rfl, trivial⟩, rfl⟩, hchecks, hpass, ?_⟩
  have hkey : keyWarehouses (payloadDict sharedRequest) = ["Stores", "Shop"] := by
    decide +kernel
  rw [executionKey]
  simp only [hkey]
  rfl

end Governance
