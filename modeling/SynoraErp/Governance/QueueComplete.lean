import SynoraErp.Governance.ApprovalQueue
import SynoraErp.Governance.FailsClosed
import SynoraErp.Governance.Separation
import SynoraErp.Governance.Superseded
import SynoraErp.Order.Window

/-!
# What the approval queue lists

An entry of the queue is an action of its window, the newest actions of any state, that
passes the checks. So the queue is complete where each due action stands in the window and
passes them, or all that stands in the window passes.
-/

namespace Governance

open Python

section

variable {I : Interpreter} (erp : PolicyErp I) (actor : Text) (runs : Text → Option PolicyRun)
  (records : Records I)

/-! ## Due actions -/

/-- A gate that passes. -/
def Passes (gate : Result GateResult) : Prop := ∃ result, gate = .ok result ∧ result.status = .pass

/-- An action that waits for its approval, ahead of its expiry and in an active Run. -/
def Waiting (row : StoredAction I) (run : PolicyRun) : Prop :=
  row.state = .awaitingApproval ∧ erp.ahead (timestampText row.action.expiresAt) = true ∧
    run.status = "ACTIVE" ∧ run.revoked = false

/-- An action that waits for an independent approval, which the actor may give. -/
structure Approvable (row : StoredAction I) : Prop where
  independent : row.action.actionType.approvalClass = "INDEPENDENT_APPROVER"
  enabled : row.action.actionType ∈ enabledP2pActionTypes
  approver : approverAllowed erp actor row.action = .ok ()
  open_run : ∃ run, runs row.action.runId.text = some run ∧ Waiting erp row run ∧
    Passes (scopeIdentity erp row.action.toProposal run actor)
  permitted : Passes (permission erp row.action.toProposal actor)

/-- An action the actor has to see: one the actor may approve, or one that is approved, with
an approval of the actor that has not expired. -/
def Due (row : StoredAction I) : Prop :=
  Approvable erp actor runs row ∨
    row.state = .approved ∧ ownApproval erp records actor row.action

/-- An action that passes the checks of the queue, which are the same for one that waits and
for one that is approved but for the state itself. -/
structure Admitted (row : StoredAction I) : Prop where
  readable : reload row.action = .ok row.action
  enabled : row.action.actionType ∈ enabledP2pActionTypes
  approver : approverAllowed erp actor row.action = .ok ()
  open_run : ∃ run, runs row.action.runId.text = some run ∧
    (Waiting erp row run ∨ row.state = .approved ∧ ownApproval erp records actor row.action) ∧
    Passes (scopeIdentity erp row.action.toProposal run actor)
  permitted : Passes (permission erp row.action.toProposal actor)

/-- The row is shown by an entry. -/
def Shows (row : StoredAction I) (response : ActionResponse) : Prop :=
  actionResponse erp actor row row.action = .ok response

/-- The amounts of an action can be read. -/
def Displays (row : StoredAction I) : Prop := ∃ response, Shows erp actor row response

/-- An action is among the entries. -/
def Returned (responses : List ActionResponse) (row : StoredAction I) : Prop :=
  ∃ response ∈ responses, item response.action "action_id" = row.action.actionId.value

/-- The queue is complete: every due action is returned, unless the list has as many entries
as were asked for, and nothing else is. -/
def QueueComplete (limit : ℤ) : Prop :=
  ∃ responses, listPendingApprovals erp actor runs records limit = .ok responses ∧
    (∀ row ∈ records.actions, Due erp actor runs records row →
      Returned responses row ∨ (responses.length : ℤ) = limit) ∧
    ∀ response ∈ responses, ∃ row ∈ records.actions,
      Due erp actor runs records row ∧ Shows erp actor row response

/-- The checks of a row succeed. -/
def admitted (row : StoredAction I) : Bool :=
  match checkRow erp runs records actor row with
  | .ok _ => true
  | .error _ => false

end

section

variable {I : Interpreter} {erp : PolicyErp I} {actor : Text} {runs : Text → Option PolicyRun}
  {records : Records I}

/-- An approval that carries the expiry of its action, as `decide_action` writes it, has expired
exactly when the action has. -/
theorem ownApproval_iff {action : ProposedAction I}
    (hexpiry : ∀ approval ∈ records.approvals, approval.actionId.text = action.actionId.text →
      approval.expiresAt = action.expiresAt) :
    ownApproval erp records actor action ↔
      (∃ approval ∈ latestApproval records action, approval.actor.text = actor) ∧
        erp.ahead (timestampText action.expiresAt) = true := by
  have hsame : ∀ approval ∈ latestApproval records action,
      approval.expiresAt = action.expiresAt := by
    intro approval hlatest
    have hmem := List.mem_of_mem_head? hlatest
    rw [List.mem_mergeSort, List.mem_reverse, List.mem_filter] at hmem
    obtain ⟨hstored, hfilter⟩ := hmem
    exact hexpiry approval hstored (of_decide_eq_true hfilter).1
  constructor
  · intro ⟨approval, hlatest, hactor, hahead⟩
    rw [hsame approval hlatest] at hahead
    exact ⟨⟨approval, hlatest, hactor⟩, hahead⟩
  · intro ⟨⟨approval, hlatest, hactor⟩, hahead⟩
    rw [← hsame approval hlatest] at hahead
    exact ⟨approval, hlatest, hactor, hahead⟩

/-! ## Steps -/

@[simp] theorem enter_eq_ok {α : Type} {x : Result α} {a : α} : enter x = .ok a ↔ x = .ok a := by
  cases x <;> simp [enter]

@[simp] theorem proceedIf_eq_ok {condition : Prop} [Decidable condition] {u : Unit} :
    proceedIf condition = .ok u ↔ condition := by
  unfold proceedIf
  split_ifs with h <;> simp [h]

@[simp] theorem proceedIfPass_eq_ok {gate : Result GateResult} {u : Unit} :
    proceedIfPass gate = .ok u ↔ Passes gate := by
  simp [proceedIfPass, Passes, Except.bind_eq_ok]

theorem loadRun_eq_ok {runId : Text} {run : PolicyRun} :
    loadRun runs runId = .ok run ↔ runs runId = some run := by
  unfold loadRun
  cases runs runId <;> simp

theorem eq_of_reload {a b : ProposedAction I} (h : reload a = .ok b) : b = a :=
  ((ProposedAction.build_toDict a b).mp (reload_eq_ok.mp h)).2

/-- What the checks of a row ask. -/
theorem checkRow_eq_ok {row : StoredAction I} {action : ProposedAction I} :
    checkRow erp runs records actor row = .ok action ↔
      action = row.action ∧ Admitted erp actor runs records row := by
  simp only [checkRow, Except.bind_eq_ok, enter_eq_ok, proceedIf_eq_ok, proceedIfPass_eq_ok,
    loadRun_eq_ok]
  constructor
  · rintro ⟨read, hread, ⟨⟩, henabled, ⟨⟩, happrover, run, hrun, ⟨⟩, hwaiting, ⟨⟩, hstate, ⟨⟩,
      hscope, ⟨⟩, hpermitted, h⟩
    obtain rfl := eq_of_reload hread
    obtain rfl := Except.ok.inj h
    refine ⟨rfl, hread, henabled, happrover, ⟨run, hrun, ?_, hscope⟩, hpermitted⟩
    split_ifs at hstate with happroved
    · exact .inr ⟨happroved, hstate⟩
    · exact .inl ⟨hstate, hwaiting hstate⟩
  · rintro ⟨rfl, hadmitted⟩
    obtain ⟨run, hrun, hstate, hscope⟩ := hadmitted.open_run
    refine ⟨_, hadmitted.readable, (), hadmitted.enabled, (), hadmitted.approver, run, hrun, (), ?_, (), ?_, (),
      hscope, (), hadmitted.permitted, rfl⟩
    · intro hawaiting
      rcases hstate with hwaiting | ⟨happroved, -⟩
      · exact hwaiting.2
      · rw [hawaiting] at happroved
        cases happroved
    · rcases hstate with ⟨hawaiting, -⟩ | ⟨happroved, happroval⟩
      · simp [hawaiting]
      · simp [happroved, happroval]

theorem admitted_eq_true {row : StoredAction I} :
    admitted erp actor runs records row = true ↔ Admitted erp actor runs records row := by
  unfold admitted
  cases h : checkRow erp runs records actor row with
  | ok action => simp [(checkRow_eq_ok.mp h).2]
  | error e =>
      simp only [Bool.false_eq_true, false_iff]
      intro hadmitted
      rw [checkRow_eq_ok.mpr ⟨rfl, hadmitted⟩] at h
      cases h

/-! ## Which errors a row can end with -/

/-- The row is left out. -/
def Interruption.IsQuiet (e : Interruption) : Prop := ∀ error, e ≠ .raised error

theorem raisesOnly_enter_quiet {α : Type} {x : Result α} (h : FailsClosed x) :
    Except.RaisesOnly Interruption.IsQuiet (enter x) := by
  cases x with
  | ok a => simp [enter]
  | error e =>
      obtain ⟨fault, rfl⟩ := h e rfl
      simp [enter, interrupt, Interruption.IsQuiet]

theorem raisesOnly_proceedIf {condition : Prop} [Decidable condition] :
    Except.RaisesOnly Interruption.IsQuiet (proceedIf condition) := by
  unfold proceedIf
  split_ifs <;> simp [Interruption.IsQuiet]

theorem failsClosed_build (status : GateStatus) (reason : Text) :
    FailsClosed (GateResult.build status reason) := by
  unfold GateResult.build
  split_ifs <;> simp

theorem failsClosed_conclude (checks : Checks Unit) (reason : String) :
    FailsClosed (conclude checks reason) := by
  unfold conclude
  split <;> exact failsClosed_build _ _

theorem failsClosed_scopeIdentity (action : Proposal I) (run : PolicyRun) :
    FailsClosed (scopeIdentity erp action run actor) := by
  simp only [scopeIdentity]
  split_ifs
  · exact failsClosed_build _ _
  · exact failsClosed_conclude _ _
  · exact failsClosed_conclude _ _

theorem isFault_denied (message : String) : IsFault (denied message) := ⟨_, rfl⟩

theorem failsClosed_demandApprover (target permission : String) :
    FailsClosed (demandApprover erp actor target permission) := by
  unfold demandApprover
  split
  · exact Except.raisesOnly_error.mpr ⟨_, rfl⟩
  · split_ifs <;> simp [isFault_denied]

theorem failsClosed_approverAllowed (action : ProposedAction I) :
    FailsClosed (approverAllowed erp actor action) := by
  unfold approverAllowed
  split_ifs
  · simp [isFault_denied]
  · simp
  · simp [isFault_denied]
  · exact .bind (failsClosed_demandApprover _ _) fun _ _ => failsClosed_demandApprover _ _

theorem failsClosed_reload (a : ProposedAction I) : FailsClosed (reload a) := by
  unfold reload
  split
  · simp
  · split <;> simp

theorem failsClosed_loadRun (runId : Text) : FailsClosed (loadRun runs runId) := by
  unfold loadRun
  split
  · simp
  · exact Except.raisesOnly_error.mpr ⟨_, rfl⟩

theorem raisesOnly_proceedIfPass {gate : Result GateResult} (h : FailsClosed gate) :
    Except.RaisesOnly Interruption.IsQuiet (proceedIfPass gate) :=
  .bind (raisesOnly_enter_quiet h) fun _ _ => raisesOnly_proceedIf

/-- The checks only leave a row out. -/
theorem raisesOnly_checkRow (row : StoredAction I) :
    Except.RaisesOnly Interruption.IsQuiet (checkRow erp runs records actor row) := by
  refine .bind (raisesOnly_enter_quiet (failsClosed_reload _)) fun action _ => ?_
  refine .bind raisesOnly_proceedIf fun _ _ => ?_
  refine .bind (raisesOnly_enter_quiet (failsClosed_approverAllowed _)) fun _ _ => ?_
  refine .bind (raisesOnly_enter_quiet (failsClosed_loadRun _)) fun run _ => ?_
  refine .bind raisesOnly_proceedIf fun _ _ => ?_
  refine .bind raisesOnly_proceedIf fun _ _ => ?_
  refine .bind (raisesOnly_proceedIfPass (failsClosed_scopeIdentity _ _)) fun _ _ => ?_
  refine .bind (raisesOnly_proceedIfPass (failsClosed_conclude _ _)) fun _ _ => ?_
  exact Except.raisesOnly_ok _

/-- The call ends. -/
def Interruption.IsLoud (e : Interruption) : Prop := ∃ error, e = .raised error

theorem raisesOnly_askErp {α : Type} (answer : Option α) :
    Except.RaisesOnly Interruption.IsLoud (askErp answer) := by
  cases answer <;> simp [askErp, Interruption.IsLoud]

theorem raisesOnly_inContext (number : Option Dec) :
    Except.RaisesOnly Interruption.IsLoud (inContext number) := by
  cases number <;> simp [inContext, Interruption.IsLoud]

theorem raisesOnly_financialDecimal (cell : Cell) (field : String) :
    Except.RaisesOnly Interruption.IsLoud (financialDecimal (I := I) cell field) := by
  unfold financialDecimal ReadBack.decimal
  split <;> simp [enter, interrupt, ReadBack.mismatch, Interruption.IsLoud]

theorem raisesOnly_financialNumber (number : Dec) :
    Except.RaisesOnly Interruption.IsLoud (financialNumber number) := by
  unfold financialNumber ReadBack.plainNumber
  split <;> simp [enter, interrupt, Interruption.IsLoud]

theorem raisesOnly_lineAmounts (amounts : List Text) (total : Dec) (lines : List (Text × Text)) :
    Except.RaisesOnly Interruption.IsLoud (lineAmounts (I := I) amounts total lines) := by
  induction lines generalizing amounts total with
  | nil => exact Except.raisesOnly_ok _
  | cons line lines ih =>
      refine .bind (raisesOnly_financialDecimal _ _) fun qty _ => ?_
      refine .bind (raisesOnly_financialDecimal _ _) fun rate _ => ?_
      refine .bind (raisesOnly_inContext _) fun amount _ => ?_
      refine .bind (raisesOnly_financialNumber _) fun text _ => ?_
      exact .bind (raisesOnly_inContext _) fun total _ => ih _ _

theorem raisesOnly_readSource (doctype : String) (sourceName company : Text) :
    Except.RaisesOnly Interruption.IsLoud (readSource erp actor doctype sourceName company) :=
  raisesOnly_askErp _

theorem raisesOnly_cancelCalculation (target : String) (p : SourcePayload) :
    Except.RaisesOnly Interruption.IsLoud (cancelCalculation erp actor target p) := by
  refine .bind (raisesOnly_readSource _ _ _) fun rows _ => ?_
  split <;> exact Except.raisesOnly_ok _

theorem raisesOnly_invoiceDraftCalculation (p : DraftPayload I true) :
    Except.RaisesOnly Interruption.IsLoud (invoiceDraftCalculation erp actor p) := by
  refine .bind (raisesOnly_lineAmounts _ _ _) fun amounts _ => ?_
  refine .bind (raisesOnly_readSource _ _ _) fun source _ => ?_
  exact .bind (raisesOnly_financialNumber _) fun total _ => Except.raisesOnly_ok _

theorem raisesOnly_invoiceCalculation (p : SourcePayload) :
    Except.RaisesOnly Interruption.IsLoud (invoiceCalculation erp actor p) := by
  refine .bind (raisesOnly_readSource _ _ _) fun rows _ => ?_
  split
  · exact Except.raisesOnly_ok _
  · iterate 4 refine .bind (raisesOnly_financialDecimal _ _) fun _ _ => ?_
    iterate 4 refine .bind (raisesOnly_financialNumber _) fun _ _ => ?_
    exact Except.raisesOnly_ok _

theorem raisesOnly_paymentDraftCalculation (p : PaymentPayload I) :
    Except.RaisesOnly Interruption.IsLoud (paymentDraftCalculation erp actor p) := by
  refine .bind (raisesOnly_readSource _ _ _) fun rows _ => ?_
  split
  · exact Except.raisesOnly_ok _
  · iterate 2 refine .bind (raisesOnly_financialDecimal _ _) fun _ _ => ?_
    iterate 2 refine .bind (raisesOnly_financialNumber _) fun _ _ => ?_
    exact Except.raisesOnly_ok _

theorem raisesOnly_paymentCalculation (p : SourcePayload) :
    Except.RaisesOnly Interruption.IsLoud (paymentCalculation erp actor p) := by
  refine .bind (raisesOnly_readSource _ _ _) fun rows _ => ?_
  split
  · exact Except.raisesOnly_ok _
  · iterate 4 refine .bind (raisesOnly_financialDecimal _ _) fun _ _ => ?_
    iterate 4 refine .bind (raisesOnly_financialNumber _) fun _ _ => ?_
    exact Except.raisesOnly_ok _

/-- An amount that cannot be read ends the call: no handler of the queue catches it. -/
theorem raisesOnly_p2pActionCalculation (action : Proposal I) :
    Except.RaisesOnly Interruption.IsLoud (p2pActionCalculation erp actor action) := by
  unfold p2pActionCalculation
  split
  case h_1 | h_2 | h_3 | h_4 =>
    exact Except.raisesOnly_map.mpr (raisesOnly_cancelCalculation _ _)
  case h_5 => exact Except.raisesOnly_map.mpr (raisesOnly_invoiceDraftCalculation _)
  case h_6 => exact Except.raisesOnly_map.mpr (raisesOnly_invoiceCalculation _)
  case h_7 => exact Except.raisesOnly_map.mpr (raisesOnly_paymentDraftCalculation _)
  case h_8 => exact Except.raisesOnly_map.mpr (raisesOnly_paymentCalculation _)
  all_goals exact Except.raisesOnly_ok _

/-- An entry that cannot be built ends the call. -/
theorem raisesOnly_actionResponse (row : StoredAction I) (action : ProposedAction I) :
    Except.RaisesOnly Interruption.IsLoud (actionResponse erp actor row action) :=
  .bind (raisesOnly_p2pActionCalculation _) fun _ _ => Except.raisesOnly_ok _

/-! ## The loop -/

theorem rowEntry_of_admitted {row : StoredAction I} (h : Admitted erp actor runs records row) :
    rowEntry erp actor runs records row = actionResponse erp actor row row.action := by
  rw [rowEntry, checkRow_eq_ok.mpr ⟨rfl, h⟩, Except.ok_bind]

theorem rowEntry_of_not_admitted {row : StoredAction I} (h : ¬Admitted erp actor runs records row) :
    ∃ e : Interruption, e.IsQuiet ∧ rowEntry erp actor runs records row = .error e := by
  cases hcheck : checkRow erp runs records actor row with
  | ok action => exact absurd (checkRow_eq_ok.mp hcheck).2 h
  | error e => exact ⟨e, raisesOnly_checkRow row e hcheck, by rw [rowEntry, hcheck]; rfl⟩

theorem map_eq_ok {ε α β : Type} {x : Except ε α} {f : α → β} {b : β} :
    x.map f = .ok b ↔ ∃ a, x = .ok a ∧ f a = b := by
  cases x <;> simp [Except.map]

/-- The loop returns where every row that passes the checks can be shown, and returns these
rows, in order. -/
theorem rowEntries_eq_ok {rows : List (StoredAction I)} {responses : List ActionResponse} :
    rowEntries erp actor runs records rows = .ok responses ↔
      List.Forall₂ (Shows erp actor) (rows.filter (admitted erp actor runs records)) responses := by
  induction rows generalizing responses with
  | nil => simp [rowEntries, eq_comm]
  | cons row rows ih =>
      by_cases hadmitted : Admitted erp actor runs records row
      · rw [List.filter_cons_of_pos (admitted_eq_true.mpr hadmitted), rowEntries, rowEntry_of_admitted hadmitted,
          List.forall₂_cons_left_iff]
        cases hresponse : actionResponse erp actor row row.action with
        | ok response =>
            constructor
            · intro h
              obtain ⟨rest, hrest, rfl⟩ := map_eq_ok.mp h
              exact ⟨response, rest, hresponse, ih.mp hrest, rfl⟩
            · rintro ⟨first, rest, hfirst, hrest, rfl⟩
              obtain rfl := Except.ok.inj (hresponse.symm.trans hfirst)
              exact map_eq_ok.mpr ⟨rest, ih.mpr hrest, rfl⟩
        | error e =>
            obtain ⟨error, rfl⟩ := raisesOnly_actionResponse row row.action e hresponse
            simp [Shows, hresponse]
      · rw [List.filter_cons_of_neg (by rwa [admitted_eq_true]), rowEntries, ← ih]
        obtain ⟨e, hquiet, he⟩ := rowEntry_of_not_admitted hadmitted
        rw [he]
        cases e with
        | passed => rfl
        | fault fault => rfl
        | raised error => exact absurd rfl (hquiet error)

/-! ## Completeness -/

section Related

variable {α β : Type} {R : α → β → Prop} {xs : List α} {ys : List β}

theorem exists_related_of_mem (h : List.Forall₂ R xs ys) {x : α} (hx : x ∈ xs) :
    ∃ y ∈ ys, R x y := by
  induction h with
  | nil => cases hx
  | cons hR _ ih =>
      rcases List.mem_cons.mp hx with rfl | hx
      · exact ⟨_, List.mem_cons_self, hR⟩
      · obtain ⟨y, hy, hRy⟩ := ih hx
        exact ⟨y, List.mem_cons_of_mem _ hy, hRy⟩

theorem exists_relating_of_mem (h : List.Forall₂ R xs ys) {y : β} (hy : y ∈ ys) :
    ∃ x ∈ xs, R x y :=
  exists_related_of_mem (R := flip R) h.flip hy

end Related

theorem shows_action {row : StoredAction I} {response : ActionResponse}
    (h : Shows erp actor row response) :
    item response.action "action_id" = row.action.actionId.value := by
  rw [Shows, actionResponse, Except.bind_eq_ok] at h
  obtain ⟨calculation, -, h⟩ := h
  rw [← Except.ok.inj h]
  simp [ProposedAction.toDict, ProposedAction.fields, item_record_cons]

theorem mem_independentActions {row : StoredAction I} :
    row ∈ independentActions records ↔
      row ∈ records.actions ∧ row.action.actionType.approvalClass = "INDEPENDENT_APPROVER" := by
  rw [independentActions, List.mem_filter, List.mem_reverse, decide_eq_true_eq]

/-- Among distinct actions, one is returned for being one of the rows the entries are of. -/
theorem returned_iff (hdistinct : records.Distinct) {rows : List (StoredAction I)}
    {responses : List ActionResponse} (hrows : ∀ row ∈ rows, row ∈ records.actions)
    (h : List.Forall₂ (Shows erp actor) rows responses) {row : StoredAction I}
    (hrow : row ∈ records.actions) : Returned responses row ↔ row ∈ rows := by
  constructor
  · rintro ⟨response, hresponse, hid⟩
    obtain ⟨shown, hshown, hshows⟩ := exists_relating_of_mem h hresponse
    have hsame : shown.action.actionId.text = row.action.actionId.text :=
      Value.str.inj ((shows_action hshows).symm.trans hid)
    rwa [← hdistinct.eq_of_actionId (hrows shown hshown) hrow hsame]
  · intro hmem
    obtain ⟨response, hresponse, hshows⟩ := exists_related_of_mem h hmem
    exact ⟨response, hresponse, shows_action hshows⟩

/-- The rows the query reads. -/
abbrev window (records : Records I) (limit : ℤ) : List (StoredAction I) :=
  (independentActions records).take limit.toNat

theorem listPendingApprovals_of_valid {limit : ℤ} (hlimit : 1 ≤ limit ∧ limit ≤ 200)
    (hactor : actor ≠ [] ∧ actor ≠ "Guest") :
    listPendingApprovals erp actor runs records limit =
      rowEntries erp actor runs records (window records limit) := by
  rw [listPendingApprovals, if_neg (by omega), if_neg (not_or.mpr hactor)]

/-- The call returns where the amounts of every row of the window that passes the checks can be
read. -/
theorem exists_rowEntries_iff {rows : List (StoredAction I)} :
    (∃ responses, rowEntries erp actor runs records rows = .ok responses) ↔
      ∀ row ∈ rows, Admitted erp actor runs records row → Displays erp actor row := by
  simp only [rowEntries_eq_ok]
  constructor
  · rintro ⟨responses, h⟩ row hrow hadmitted
    obtain ⟨response, -, hshows⟩ :=
      exists_related_of_mem h (List.mem_filter.mpr ⟨hrow, admitted_eq_true.mpr hadmitted⟩)
    exact ⟨response, hshows⟩
  · intro h
    induction rows with
    | nil => exact ⟨[], .nil⟩
    | cons row rows ih =>
        obtain ⟨rest, hrest⟩ := ih fun x hx => h x (List.mem_cons_of_mem _ hx)
        by_cases hadmitted : Admitted erp actor runs records row
        · obtain ⟨response, hshows⟩ := h row List.mem_cons_self hadmitted
          rw [List.filter_cons_of_pos (admitted_eq_true.mpr hadmitted)]
          exact ⟨response :: rest, .cons hshows hrest⟩
        · rw [List.filter_cons_of_neg (by rwa [admitted_eq_true])]
          exact ⟨rest, hrest⟩

/-- A row that has an independent approver and passes the checks is due. -/
theorem Admitted.due {row : StoredAction I} (h : Admitted erp actor runs records row)
    (hclass : row.action.actionType.approvalClass = "INDEPENDENT_APPROVER") :
    Due erp actor runs records row := by
  obtain ⟨run, hrun, hwaiting | happroved, hscope⟩ := h.open_run
  · exact .inl ⟨hclass, h.enabled, h.approver, ⟨run, hrun, hwaiting, hscope⟩, h.permitted⟩
  · exact .inr happroved

/-- Of an action that waits, the checks ask nothing more than that its record is readable. -/
theorem Approvable.admitted {row : StoredAction I} (h : Approvable erp actor runs row)
    (hreadable : reload row.action = .ok row.action) : Admitted erp actor runs records row := by
  obtain ⟨run, hrun, hwaiting, hscope⟩ := h.open_run
  exact ⟨hreadable, h.enabled, h.approver, ⟨run, hrun, .inl hwaiting, hscope⟩, h.permitted⟩

/-- The entries of a window are complete where each due action is one of the rows they are of,
unless they are as many as were asked for. -/
theorem queueComplete_of_entries (hdistinct : records.Distinct) {limit : ℤ}
    (hlimit : 1 ≤ limit ∧ limit ≤ 200) (hactor : actor ≠ [] ∧ actor ≠ "Guest")
    {responses : List ActionResponse}
    (h : rowEntries erp actor runs records (window records limit) = .ok responses) :
    QueueComplete erp actor runs records limit ↔
      ∀ row, row ∈ records.actions ∧ Due erp actor runs records row →
        row ∈ Window.kept (admitted erp actor runs records) limit.toNat
            (independentActions records) ∨
          (Window.kept (admitted erp actor runs records) limit.toNat
            (independentActions records)).length = limit.toNat := by
  have hentries := rowEntries_eq_ok.mp h
  have hlength := hentries.length_eq
  have hkept : ∀ row ∈ (window records limit).filter (admitted erp actor runs records),
      row ∈ records.actions := fun row hrow =>
    (mem_independentActions.mp (List.mem_of_mem_take (List.mem_filter.mp hrow).1)).1
  rw [QueueComplete]
  simp only [listPendingApprovals_of_valid hlimit hactor, h, Except.ok.injEq, exists_eq_left']
  constructor
  · rintro ⟨hall, -⟩ row ⟨hmem, hdue⟩
    rcases hall row hmem hdue with hreturned | hfull
    · exact .inl ((returned_iff hdistinct hkept hentries hmem).mp hreturned)
    · refine .inr ?_
      rw [Window.kept, hlength]
      omega
  · intro hall
    constructor
    · intro row hmem hdue
      rcases hall row ⟨hmem, hdue⟩ with hrow | hfull
      · exact .inl ((returned_iff hdistinct hkept hentries hmem).mpr hrow)
      · rw [Window.kept, hlength] at hfull
        exact .inr (by omega)
    · intro response hresponse
      obtain ⟨row, hrow, hshows⟩ := exists_relating_of_mem hentries hresponse
      obtain ⟨hwindow, hadmitted⟩ := List.mem_filter.mp hrow
      obtain ⟨hmem, hclass⟩ := mem_independentActions.mp (List.mem_of_mem_take hwindow)
      exact ⟨row, hmem, (admitted_eq_true.mp hadmitted).due hclass, hshows⟩

/-- The queue is complete exactly where the amounts of the newest `limit` actions that pass the
checks can be read, and either all of these pass, or every due action is one of them and
passes. -/
theorem queueComplete_iff (hdistinct : records.Distinct) {limit : ℤ}
    (hlimit : 1 ≤ limit ∧ limit ≤ 200) (hactor : actor ≠ [] ∧ actor ≠ "Guest") :
    QueueComplete erp actor runs records limit ↔
      (∀ row ∈ (independentActions records).take limit.toNat,
        Admitted erp actor runs records row → Displays erp actor row) ∧
      ((limit.toNat ≤ (independentActions records).length ∧
          ∀ row ∈ (independentActions records).take limit.toNat,
            Admitted erp actor runs records row) ∨
        ∀ row ∈ records.actions, Due erp actor runs records row →
          row ∈ (independentActions records).take limit.toNat ∧
            Admitted erp actor runs records row) := by
  rw [← exists_rowEntries_iff]
  constructor
  · intro h
    obtain ⟨responses, hresponses, -⟩ := id h
    rw [listPendingApprovals_of_valid hlimit hactor] at hresponses
    refine ⟨⟨responses, hresponses⟩, ?_⟩
    rw [queueComplete_of_entries hdistinct hlimit hactor hresponses, Window.covers_iff] at h
    simpa only [admitted_eq_true, and_imp] using h
  · rintro ⟨⟨responses, hresponses⟩, h⟩
    rw [queueComplete_of_entries hdistinct hlimit hactor hresponses, Window.covers_iff]
    simpa only [admitted_eq_true, and_imp] using h

end

/-! ## A submission behind a declined one -/

/-- Whether a gate passes. -/
def passes : Result GateResult → Bool
  | .ok result => result.status = .pass
  | .error _ => false

theorem passes_eq_true {gate : Result GateResult} (h : passes gate = true) : Passes gate := by
  cases gate with
  | ok result => exact ⟨result, rfl, by simpa [passes] using h⟩
  | error e => cases h

section Example

variable {a b : ProposedAction Interpreter.ascii}

/-- The submission waits; the one that was proposed after it is declined. -/
def declinedLast (a b : ProposedAction Interpreter.ascii) : Records Interpreter.ascii :=
  ⟨[⟨a, .awaitingApproval, 2, [], []⟩, ⟨b, .declined, 3, [], []⟩], [], []⟩

theorem gates_orderSubmission :
    passes (scopeIdentity openErp (orderSubmission executedId) companyRun manager.text) = true ∧
      passes (permission openErp (orderSubmission executedId) manager.text) = true := by
  decide +kernel

/-- The manager may approve the submission. -/
theorem approvable_orderSubmission (ha : a.toProposal = orderSubmission executedId) :
    Approvable openErp manager.text (fun _ => some companyRun)
      ⟨a, .awaitingApproval, 2, [], []⟩ := by
  obtain ⟨hscope, hpermission⟩ := gates_orderSubmission
  rw [← ha] at hscope hpermission
  have hother : manager.text ≠ a.initiator.text := by
    rw [ha]
    decide
  refine ⟨by rw [ha]; decide, by rw [ha]; decide, ?_,
    ⟨companyRun, rfl, ⟨rfl, rfl, rfl, rfl⟩, ?_⟩, ?_⟩
  · have hclass : a.actionType.approvalClass ≠ "INITIATOR_CONFIRMATION" := by
      rw [ha]
      decide
    rw [approverAllowed, if_neg hclass, if_neg hother]
    rfl
  · exact passes_eq_true hscope
  · exact passes_eq_true hpermission

theorem not_admitted_of_declined {row : StoredAction Interpreter.ascii} (h : row.state = .declined)
    {erp : PolicyErp Interpreter.ascii} {actor : Text} {runs : Text → Option PolicyRun}
    {records : Records Interpreter.ascii} : ¬Admitted erp actor runs records row := by
  intro hadmitted
  obtain ⟨run, -, hstate, -⟩ := hadmitted.open_run
  rw [Waiting, h] at hstate
  simp at hstate

theorem not_due_of_declined {row : StoredAction Interpreter.ascii} (h : row.state = .declined)
    {erp : PolicyErp Interpreter.ascii} {actor : Text} {runs : Text → Option PolicyRun}
    {records : Records Interpreter.ascii} : ¬Due erp actor runs records row := by
  rintro (⟨-, -, -, ⟨run, -, hwaiting, -⟩, -⟩ | ⟨happroved, -⟩)
  · rw [Waiting, h] at hwaiting
    cases hwaiting.1
  · rw [h] at happroved
    cases happroved

variable (ha : a.toProposal = orderSubmission executedId)
  (hb : b.toProposal = orderSubmission supersededId)

include ha hb in
theorem distinct_declinedLast : (declinedLast a b).Distinct := by
  simp only [Records.Distinct, declinedLast, List.map_cons, List.map_nil, ha, hb]
  decide

include ha hb in
theorem independentActions_declinedLast :
    independentActions (declinedLast a b) =
      [⟨b, .declined, 3, [], []⟩, ⟨a, .awaitingApproval, 2, [], []⟩] := by
  have hclasses : a.actionType.approvalClass = "INDEPENDENT_APPROVER" ∧
      b.actionType.approvalClass = "INDEPENDENT_APPROVER" := by
    rw [ha, hb]
    decide
  simp [independentActions, declinedLast, hclasses.1, hclasses.2]

end Example

/-- A window of one row has no place for the submission that waits; a window of two has. -/
theorem queueComplete_iff_declinedLast :
    ∃ records : Records Interpreter.ascii, records.Distinct ∧
      ¬QueueComplete openErp manager.text (fun _ => some companyRun) records 1 ∧
      QueueComplete openErp manager.text (fun _ => some companyRun) records 2 := by
  obtain ⟨a, ha, hreload⟩ := exists_reloadable_submission
  obtain ⟨b, hb⟩ := exists_superseded
  have hdistinct := distinct_declinedLast ha hb
  have hactor : manager.text ≠ [] ∧ manager.text ≠ "Guest" := by decide
  have hrows := independentActions_declinedLast ha hb
  have hdue : Due openErp manager.text (fun _ => some companyRun) (declinedLast a b)
      ⟨a, .awaitingApproval, 2, [], []⟩ := .inl (approvable_orderSubmission ha)
  have hcalculation : p2pActionCalculation openErp manager.text a.toProposal = .ok none := by
    rw [ha]
    rfl
  have hdisplays : Displays openErp manager.text ⟨a, .awaitingApproval, 2, [], []⟩ :=
    ⟨_, by rw [Shows, actionResponse, hcalculation]; rfl⟩
  refine ⟨declinedLast a b, hdistinct, ?_, ?_⟩
  · rw [queueComplete_iff hdistinct (by decide) hactor, hrows]
    rintro ⟨-, ⟨-, hall⟩ | hall⟩
    · exact not_admitted_of_declined rfl (hall _ List.mem_cons_self)
    · obtain ⟨hwindow, -⟩ := hall _ List.mem_cons_self hdue
      cases List.mem_singleton.mp hwindow
  · rw [queueComplete_iff hdistinct (by decide) hactor, hrows]
    refine ⟨?_, .inr ?_⟩
    · intro row hrow hadmitted
      rcases List.mem_cons.mp hrow with rfl | hrow
      · exact absurd hadmitted (not_admitted_of_declined rfl)
      · rw [List.mem_singleton.mp hrow]
        exact hdisplays
    · intro row hrow hrowDue
      rcases List.mem_cons.mp hrow with rfl | hrow
      · exact ⟨List.mem_cons_of_mem _ List.mem_cons_self,
          (approvable_orderSubmission ha).admitted hreload⟩
      · rw [List.mem_singleton.mp hrow] at hrowDue
        exact absurd hrowDue (not_due_of_declined rfl)

/-- The queue is not complete for every limit. -/
theorem not_queueComplete :
    ¬∀ (erp : PolicyErp Interpreter.ascii) (actor : Text) (runs : Text → Option PolicyRun)
      (records : Records Interpreter.ascii) (limit : ℤ), records.Distinct →
      1 ≤ limit ∧ limit ≤ 200 → actor ≠ [] ∧ actor ≠ "Guest" →
      QueueComplete erp actor runs records limit := by
  intro h
  obtain ⟨a, ha, -⟩ := exists_reloadable_submission
  obtain ⟨b, hb⟩ := exists_superseded
  have hlimit : (1 : ℤ) ≤ 1 ∧ (1 : ℤ) ≤ 200 := by decide
  have hactor : manager.text ≠ [] ∧ manager.text ≠ "Guest" := by decide
  obtain ⟨responses, hresponses, hall, -⟩ := h openErp manager.text (fun _ => some companyRun)
    (declinedLast a b) 1 (distinct_declinedLast ha hb) hlimit hactor
  have hwindow : (window (declinedLast a b) 1).filter
      (admitted openErp manager.text (fun _ => some companyRun) (declinedLast a b)) = [] := by
    rw [window, independentActions_declinedLast ha hb, List.filter_eq_nil_iff]
    intro row hrow hadmitted
    obtain rfl := List.mem_singleton.mp hrow
    exact not_admitted_of_declined rfl (admitted_eq_true.mp hadmitted)
  rw [listPendingApprovals_of_valid hlimit hactor, rowEntries_eq_ok, hwindow,
    List.forall₂_nil_left_iff] at hresponses
  subst hresponses
  rcases hall ⟨a, .awaitingApproval, 2, [], []⟩ (by simp [declinedLast])
    (.inl (approvable_orderSubmission ha)) with hreturned | hlength
  · obtain ⟨response, hresponse, -⟩ := hreturned
    cases hresponse
  · cases hlength

end Governance
