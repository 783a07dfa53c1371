import SynoraErp.Governance.Service
import SynoraErp.Governance.Superseded
import SynoraErp.Transition.Path

/-!
# Separation of duties

Who can bring an action to its approved state, over every sequence of the calls that
write the governance records.
-/

namespace Governance

open Python Transition

variable {I : Interpreter}

variable (I) in
/-- A call of the service. -/
inductive ServiceCall where
  | propose (session : Session) (runInitiator : Option Text) (action : ProposedAction I)
  | decidePolicy (session : Session) (decision : PolicyDecision)
  | decideApproval (session : Session) (decision : ApprovalDecision)
  | transition (session : Session) (t : TransitionCall)

namespace ServiceCall

def session : ServiceCall I → Session
  | propose session _ _ => session
  | decidePolicy session _ => session
  | decideApproval session _ => session
  | transition session _ => session

/-- The records once the call has written. -/
def write (r : Records I) : ServiceCall I → Result (Records I)
  | propose session runInitiator action => r.persistProposedAction session runInitiator action
  | decidePolicy session decision => r.persistPolicyDecision session decision
  | decideApproval session decision => r.persistApprovalDecision session decision
  | transition session t => r.transitionActionState session t

end ServiceCall

/-- A call writes, or leaves the records as they were: it raised before it wrote, or its
transaction was rolled back. -/
inductive ServiceStep : Records I → ServiceCall I → Records I → Prop
  | kept (r : Records I) (call : ServiceCall I) : ServiceStep r call r
  | written {r r' : Records I} {call : ServiceCall I} :
      call.write r = .ok r' → ServiceStep r call r'

/-- Nobody approves an action of their own that asks for an independent approver, and
nobody else an action its initiator confirms. -/
def Separated (a : ProposedAction I) (user : Text) : Prop :=
  (a.actionType.approvalClass = "INDEPENDENT_APPROVER" → user ≠ a.initiator.text) ∧
    (a.actionType.approvalClass = "INITIATOR_CONFIRMATION" → user = a.initiator.text)

/-! ## Rows with distinct actions -/

/-- The actions of the records are distinct. -/
def Records.Distinct (r : Records I) : Prop :=
  (r.actions.map fun row => row.action.actionId.text).Nodup

theorem Records.find?_eq_some {r : Records I} {actionId : Text} {row : StoredAction I}
    (h : r.find? actionId = some row) :
    row ∈ r.actions ∧ row.action.actionId.text = actionId :=
  ⟨List.mem_of_find?_eq_some h, by simpa using List.find?_some h⟩

theorem Records.Distinct.eq_of_actionId {r : Records I} (h : r.Distinct) {x y : StoredAction I}
    (hx : x ∈ r.actions) (hy : y ∈ r.actions)
    (hid : x.action.actionId.text = y.action.actionId.text) : x = y :=
  List.inj_on_of_nodup_map h hx hy hid

/-! ## What each call writes -/

theorem authenticatedActor_eq_ok {session : Session} {actor : Text}
    (h : authenticatedActor session = .ok actor) : actor = session.user := by
  rw [authenticatedActor, ite_error_eq_ok, Except.ok.injEq] at h
  exact h.2.symm

theorem write_propose {session : Session} {runInitiator : Option Text} {a : ProposedAction I}
    {r r' : Records I} (h : r.persistProposedAction session runInitiator a = .ok r') :
    r.find? a.actionId.text = none ∧
      r' = { r with actions := r.actions ++ [⟨a, .draft, 1, "created", a.initiator.text⟩] } := by
  simp only [Records.persistProposedAction, bind_eq_ok, ite_error_eq_ok] at h
  obtain ⟨actor, -, -, h⟩ := h
  split at h
  · cases h
  · simp only [ite_error_eq_ok, bind_eq_ok, Except.ok.injEq] at h
    obtain ⟨-, -, hnone, -, -, rfl⟩ := h
    exact ⟨by simpa using hnone, rfl⟩

theorem write_decidePolicy {session : Session} {decision : PolicyDecision} {r r' : Records I}
    (h : r.persistPolicyDecision session decision = .ok r') :
    r' = { r with policies := r.policies ++ [decision] } := by
  simp only [Records.persistPolicyDecision, bind_eq_ok, ite_error_eq_ok, Except.ok.injEq] at h
  obtain ⟨-, -, -, -, -, -, -, rfl⟩ := h
  rfl

theorem write_decideApproval {session : Session} {decision : ApprovalDecision} {r r' : Records I}
    (h : r.persistApprovalDecision session decision = .ok r') :
    decision.actor.text = session.user ∧
      (∃ row, r.find? decision.actionId.text = some row) ∧
      r' = { r with approvals := r.approvals ++ [decision] } := by
  simp only [Records.persistApprovalDecision, bind_eq_ok, ite_error_eq_ok, Except.ok.injEq] at h
  obtain ⟨actor, hactor, huser, action, hload, -, -, rfl⟩ := h
  refine ⟨?_, ?_, rfl⟩
  · rw [← authenticatedActor_eq_ok hactor]
    exact (not_not.mp huser).symm
  · unfold Records.loadAction at hload
    split at hload
    · cases hload
    · exact ⟨_, ‹_›⟩

theorem write_transition {session : Session} {t : TransitionCall} {r r' : Records I}
    (h : r.transitionActionState session t = .ok r') :
    ∃ row, r.find? t.actionId = some row ∧ r.checkTransition session t row = .ok () ∧
      t.target ∈ row.state.transitions ∧
      r' = r.replaceAction { row with
        state := t.target
        stateVersion := row.stateVersion + 1
        stateReason := t.reason
        stateChangedBy := session.user } := by
  simp only [Records.transitionActionState, bind_eq_ok] at h
  obtain ⟨actor, hactor, h⟩ := h
  split at h
  · cases h
  · rename_i row hrow
    simp only [bind_eq_ok, ite_error_eq_ok, Except.ok.injEq] at h
    obtain ⟨checked, hcheck, ⟨state, version⟩, hnext, -, -, -, rfl⟩ := h
    obtain ⟨-, -, htarget, rfl, rfl⟩ := ActionState.transitionState_eq_ok.mp hnext
    rw [authenticatedActor_eq_ok hactor]
    exact ⟨row, hrow, hcheck, htarget, rfl⟩

/-- What is loaded is the content of the row. -/
theorem loadAction_eq_ok {r : Records I} {row : StoredAction I} {actionId : Text}
    {a : ProposedAction I} (hrow : r.find? actionId = some row)
    (h : r.loadAction actionId = .ok a) : a = row.action := by
  simp only [Records.loadAction, hrow] at h
  exact ((ProposedAction.build_toDict _ _).mp (reload_eq_ok.mp h)).2

/-- An approval that passes: the records prove it, and an actor who is neither the
initiator nor a System Manager is not the wrong one. -/
theorem checkApproval_eq_ok {r : Records I} {session : Session} {t : TransitionCall}
    {decision : ApprovalOutcome} {row : StoredAction I} (hrow : r.find? t.actionId = some row)
    (h : r.checkApproval session t decision row = .ok ()) :
    r.policyAllows t.actionId row.action.digest ∧
      r.actorDecided t.actionId row.action.digest session.user decision ∧
      (row.action.actionType.approvalClass = "INITIATOR_CONFIRMATION" →
        session.user ≠ row.action.initiator.text → session.systemManager = true) := by
  unfold Records.checkApproval at h
  split at h
  · cases h
  · simp only [ite_error_eq_ok, not_not] at h
    obtain ⟨rfl, hproof, h⟩ := h
    refine ⟨hproof.1, hproof.2, fun hclass huser => ?_⟩
    by_contra hmanager
    rw [if_pos ⟨huser, by simpa using hmanager⟩, bind_eq_ok] at h
    obtain ⟨a, ha, h⟩ := h
    obtain rfl := loadAction_eq_ok hrow ha
    rw [if_pos ⟨hclass, huser⟩] at h
    cases h

/-! ## Runs with permitted approvals -/

/-- A user may approve an action, of the users of a run: the identity test of
`_approver_allowed`, which an action that its initiator confirms need not pass for a user
who is never a System Manager. -/
def MayApprove (sessions : List Session) (a : ProposedAction I) (user : Text) : Prop :=
  (a.actionType.approvalClass = "INDEPENDENT_APPROVER" → user ≠ a.initiator.text) ∧
    (a.actionType.approvalClass = "INITIATOR_CONFIRMATION" → user = a.initiator.text ∨
      ∀ session ∈ sessions, session.user = user → session.systemManager = false)

/-- A call of one of the sessions whose approval, if it is one, comes from a user who may
approve the action. -/
def PermittedCall (sessions : List Session) (r : Records I) (call : ServiceCall I) : Prop :=
  call.session ∈ sessions ∧ ∀ session decision, call = .decideApproval session decision →
    decision.decision = .allow → ∀ row ∈ r.actions,
      row.action.actionId = decision.actionId → MayApprove sessions row.action session.user

/-- A step of a run with permitted approvals. -/
def PermittedStep (sessions : List Session) (r : Records I) (call : ServiceCall I)
    (r' : Records I) : Prop :=
  PermittedCall sessions r call ∧ ServiceStep r call r'

/-- What every permitted step preserves. -/
structure PermittedRecords (sessions : List Session) (r : Records I) : Prop where
  distinct : r.Distinct
  /-- An approval is of an action that is stored. -/
  known : ∀ p ∈ r.approvals, ∃ row ∈ r.actions, row.action.actionId = p.actionId
  permitted : ∀ p ∈ r.approvals, p.decision = .allow → ∀ row ∈ r.actions,
    row.action.actionId = p.actionId → MayApprove sessions row.action p.actor.text

theorem actions_replaceAction {r : Records I} {row : StoredAction I} (hdistinct : r.Distinct)
    {old : StoredAction I} (hold : old ∈ r.actions) (haction : row.action = old.action) :
    (r.replaceAction row).actions.map StoredAction.action = r.actions.map StoredAction.action := by
  rw [Records.replaceAction, List.map_map]
  refine List.map_congr_left fun x hx => ?_
  by_cases hid : x.action.actionId = row.action.actionId
  · have hxold : x = old := hdistinct.eq_of_actionId hx hold (by rw [hid, haction])
    simp [hxold, haction]
  · simp [hid]

theorem PermittedRecords.step {sessions : List Session} {r r' : Records I} {call : ServiceCall I}
    (h : PermittedRecords sessions r) (hstep : PermittedStep sessions r call r') :
    PermittedRecords sessions r' := by
  obtain ⟨hcall, hstep⟩ := hstep
  cases hstep with
  | kept => exact h
  | written hwrite =>
      cases call with
      | propose session runInitiator a =>
          obtain ⟨hnone, rfl⟩ := write_propose hwrite
          have hfresh : ∀ row ∈ r.actions, row.action.actionId.text ≠ a.actionId.text := by
            intro row hrow hid
            have := List.find?_eq_none.mp hnone row hrow
            exact this (by simpa using hid)
          refine ⟨?_, fun p hp => ?_, fun p hp hallow row hrow hid => ?_⟩
          · rw [Records.Distinct, List.map_append]
            refine List.nodup_append.mpr ⟨h.distinct, by simp, ?_⟩
            intro x hx y hy
            obtain ⟨row, hrow, rfl⟩ := List.mem_map.mp hx
            obtain rfl := List.mem_singleton.mp hy
            exact hfresh row hrow
          · obtain ⟨row, hrow, hid⟩ := h.known p hp
            exact ⟨row, List.mem_append_left _ hrow, hid⟩
          · rcases List.mem_append.mp hrow with hrow | hrow
            · exact h.permitted p hp hallow row hrow hid
            · obtain rfl := List.mem_singleton.mp hrow
              obtain ⟨known, hknown, hid'⟩ := h.known p hp
              exact absurd (by rw [hid', ← hid]) (hfresh known hknown)
      | decidePolicy session decision =>
          obtain rfl := write_decidePolicy hwrite
          exact ⟨h.distinct, h.known, h.permitted⟩
      | decideApproval session decision =>
          obtain ⟨hactor, ⟨row, hrow⟩, rfl⟩ := write_decideApproval hwrite
          obtain ⟨hmem, hid⟩ := Records.find?_eq_some hrow
          refine ⟨h.distinct, fun p hp => ?_, fun p hp hallow => ?_⟩
          · rcases List.mem_append.mp hp with hp | hp
            · exact h.known p hp
            · obtain rfl := List.mem_singleton.mp hp
              exact ⟨row, hmem, Uuid.ext hid⟩
          · rcases List.mem_append.mp hp with hp | hp
            · exact h.permitted p hp hallow
            · obtain rfl := List.mem_singleton.mp hp
              rw [hactor]
              exact hcall.2 session p rfl hallow
      | transition session t =>
          obtain ⟨row, hrow, -, -, rfl⟩ := write_transition hwrite
          have hactions : (r.replaceAction { row with
              state := t.target
              stateVersion := row.stateVersion + 1
              stateReason := t.reason
              stateChangedBy := session.user }).actions.map StoredAction.action =
                r.actions.map StoredAction.action :=
            actions_replaceAction h.distinct (Records.find?_eq_some hrow).1 rfl
          have hback : ∀ x ∈ (r.replaceAction _).actions, ∃ y ∈ r.actions,
              y.action = x.action := fun x hx => by
            have := List.mem_map_of_mem (f := StoredAction.action) hx
            rw [hactions] at this
            exact List.mem_map.mp this
          refine ⟨?_, fun p hp => ?_, fun p hp hallow x hx hid => ?_⟩
          · have hmap := congrArg (List.map fun a : ProposedAction I => a.actionId.text) hactions
            rw [List.map_map, List.map_map] at hmap
            exact (congrArg List.Nodup hmap).mpr h.distinct
          · obtain ⟨y, hy, hid⟩ := h.known p hp
            have := List.mem_map_of_mem (f := StoredAction.action) hy
            rw [← hactions] at this
            obtain ⟨x, hx, hxy⟩ := List.mem_map.mp this
            exact ⟨x, hx, by rw [hxy, hid]⟩
          · obtain ⟨y, hy, hyx⟩ := hback x hx
            rw [← hyx] at hid ⊢
            exact h.permitted p hp hallow y hy hid

/-! ## Reaching the approved state -/

/-- An action is approved after a step that it was not approved before. -/
structure Approves (r r' : Records I) (row : StoredAction I) : Prop where
  mem : row ∈ r'.actions
  approved : row.state = .approved
  before : ∀ old ∈ r.actions, old.action.actionId = row.action.actionId → old.state ≠ .approved

/-- Only a transition approves, with a policy that allows and an approval of its own
actor, both for the digest of the action. -/
theorem approves_transition {r r' : Records I} {call : ServiceCall I} {row : StoredAction I}
    (hstep : ServiceStep r call r') (h : Approves r r' row) :
    ∃ session t, call = .transition session t ∧ t.target = .approved ∧
      row.stateChangedBy = session.user ∧
      r.policyAllows row.action.actionId.text row.action.digest ∧
      r.actorDecided row.action.actionId.text row.action.digest session.user .allow ∧
      (row.action.actionType.approvalClass = "INITIATOR_CONFIRMATION" →
        session.user ≠ row.action.initiator.text → session.systemManager = true) ∧
      ∃ old ∈ r.actions, old.action = row.action := by
  have hold : row ∉ r.actions := fun hmem => h.before row hmem rfl h.approved
  cases hstep with
  | kept => exact absurd h.mem hold
  | written hwrite =>
      cases call with
      | propose session runInitiator a =>
          obtain ⟨-, rfl⟩ := write_propose hwrite
          rcases List.mem_append.mp h.mem with hmem | hmem
          · exact absurd hmem hold
          · obtain rfl := List.mem_singleton.mp hmem
            cases h.approved
      | decidePolicy session decision =>
          obtain rfl := write_decidePolicy hwrite
          exact absurd h.mem hold
      | decideApproval session decision =>
          obtain ⟨-, -, rfl⟩ := write_decideApproval hwrite
          exact absurd h.mem hold
      | transition session t =>
          obtain ⟨old, hfind, hcheck, -, rfl⟩ := write_transition hwrite
          obtain ⟨holdmem, holdid⟩ := Records.find?_eq_some hfind
          obtain ⟨x, hx, hreplace⟩ := List.mem_map.mp h.mem
          by_cases hid : x.action.actionId = old.action.actionId
          · rw [if_pos hid] at hreplace
            subst hreplace
            have htarget : t.target = .approved := h.approved
            simp only [Records.checkTransition, htarget] at hcheck
            obtain ⟨hpolicy, hdecided, hmanager⟩ := checkApproval_eq_ok hfind hcheck
            rw [← holdid] at hpolicy hdecided
            exact ⟨session, t, rfl, htarget, rfl, hpolicy, hdecided, hmanager, old, holdmem, rfl⟩
          · rw [if_neg hid] at hreplace
            exact absurd (hreplace ▸ hx) hold

/-- The records before anything was proposed. -/
def noRecords : Records I := ⟨[], [], []⟩

theorem permittedRecords_noRecords (sessions : List Session) :
    PermittedRecords sessions (noRecords (I := I)) where
  distinct := List.nodup_nil
  known := fun p hp => (by cases hp)
  permitted := fun p hp => (by cases hp)

/-- In a run whose approvals all come from users who may approve, every action that
reaches the approved state is brought there by an actor separated from its initiator as
its class asks, and with a policy and an approval of that actor for its digest. -/
theorem approved_only_when_separated {sessions : List Session}
    {trace : List (Step (Records I) (ServiceCall I))} {r : Records I}
    (hrun : Path (PermittedStep sessions) noRecords trace r) :
    ∀ x ∈ trace, ∀ row, Approves x.before x.after row →
      ∃ session t, x.event = .transition session t ∧ t.target = .approved ∧
        row.stateChangedBy = session.user ∧ Separated row.action session.user ∧
        x.before.policyAllows row.action.actionId.text row.action.digest ∧
        x.before.actorDecided row.action.actionId.text row.action.digest session.user .allow := by
  intro x hx row happroves
  obtain ⟨hrecords, hcall, hstep⟩ := hrun.invariant_before
    (fun _ _ _ hr hs => PermittedRecords.step hr hs) (permittedRecords_noRecords sessions) x hx
  obtain ⟨session, t, hevent, htarget, hchanged, hpolicy, hdecided, hmanager, old, hold, haction⟩ :=
    approves_transition hstep happroves
  have hmay : MayApprove sessions row.action session.user := by
    obtain ⟨p, hp, hid, -, hactor, hallow⟩ := hdecided
    rw [← hactor, ← haction]
    exact hrecords.permitted p hp hallow old hold (Uuid.ext (by rw [haction, hid]))
  have hsession : session ∈ sessions := by
    have := hcall.1
    rwa [hevent] at this
  refine ⟨session, t, hevent, htarget, hchanged, ⟨hmay.1, fun hclass => ?_⟩, hpolicy, hdecided⟩
  rcases hmay.2 hclass with huser | hroles
  · exact huser
  · by_contra huser
    rw [hroles session hsession rfl] at hmanager
    cases hmanager hclass huser

/-! ## An order that is submitted with an approval -/

section Example

variable (a : ProposedAction I)

/-- The policy that allows an action. -/
def allowingPolicy : PolicyDecision where
  decisionId := ⟨"00000000-0000-4000-8000-000000000021", by decide +kernel⟩
  actionId := a.actionId
  proposalDigest := a.digest
  actor := a.initiator
  checks := List.replicate 5 ⟨"PASS", by decide⟩
  checks_length := rfl
  matchedRule := ⟨"rule-1", by decide, by decide⟩
  ruleVersion := ⟨"1", by decide, by decide⟩
  outcome := .allow
  reason := ⟨"policy checks passed", by decide, by decide⟩
  snapshotRef := a.snapshotRef
  expiresAt := a.expiresAt
  decidedAt := a.expiresAt
  correlationId := a.correlationId
  allowed := fun _ check hcheck => by rw [List.eq_of_mem_replicate hcheck]

/-- The approval of an action by a user. -/
def allowingApproval (user : RequiredText 140) : ApprovalDecision where
  decisionId := ⟨"00000000-0000-4000-8000-000000000022", by decide +kernel⟩
  actionId := a.actionId
  proposalDigest := a.digest
  actor := user
  decision := .allow
  matchedRule := ⟨"rule-1", by decide, by decide⟩
  snapshotRef := a.snapshotRef
  expiresAt := a.expiresAt
  reason := ⟨"approved", by decide, by decide⟩
  decidedAt := a.expiresAt
  correlationId := a.correlationId

/-- The records that hold one action, with its state. -/
def recordsOf (state : ActionState) (version : ℕ) (reason changedBy : Text)
    (policies : List PolicyDecision) (approvals : List ApprovalDecision) : Records I :=
  ⟨[⟨a, state, version, reason, changedBy⟩], policies, approvals⟩

/-- The action waits for its approval, with a policy that allows it. -/
def awaiting (approvals : List ApprovalDecision) : Records I :=
  recordsOf a .awaitingApproval 2 "policy checks passed" a.initiator.text [allowingPolicy a]
    approvals

/-- The step that approves the action. -/
def approvalStep (user : RequiredText 140) : Step (Records I) (ServiceCall I) :=
  ⟨awaiting a [allowingApproval a user],
    .transition ⟨user.text, false⟩ ⟨a.actionId.text, .approved, 2, "approved", some a.digest⟩,
    recordsOf a .approved 3 "approved" user.text [allowingPolicy a] [allowingApproval a user]⟩

/-- The steps that bring an action to its approval by a user. -/
def approvalTrace (user : RequiredText 140) : List (Step (Records I) (ServiceCall I)) :=
  let owner : Session := ⟨a.initiator.text, false⟩
  [⟨noRecords, .propose owner (some a.initiator.text) a,
      recordsOf a .draft 1 "created" a.initiator.text [] []⟩,
    ⟨recordsOf a .draft 1 "created" a.initiator.text [] [],
      .decidePolicy owner (allowingPolicy a),
      recordsOf a .draft 1 "created" a.initiator.text [allowingPolicy a] []⟩,
    ⟨recordsOf a .draft 1 "created" a.initiator.text [allowingPolicy a] [],
      .transition owner ⟨a.actionId.text, .awaitingApproval, 1, "policy checks passed", none⟩,
      awaiting a []⟩,
    ⟨awaiting a [], .decideApproval ⟨user.text, false⟩ (allowingApproval a user),
      awaiting a [allowingApproval a user]⟩,
    approvalStep a user]

variable {a} {user : RequiredText 140}

theorem RequiredText.text_ne_nil {maximum : ℕ} (t : RequiredText maximum) : t.text ≠ [] := by
  intro ht
  have hvisible := t.visible
  rw [ht] at hvisible
  cases hvisible

theorem authenticatedActor_of_text {user : RequiredText 140} {manager : Bool}
    (h : user.text ≠ Text.ofString "Guest") :
    authenticatedActor ⟨user.text, manager⟩ = .ok user.text :=
  if_neg (not_or.mpr ⟨user.text_ne_nil, h⟩)

theorem find?_recordsOf {state : ActionState} {version : ℕ} {reason changedBy : Text}
    {policies : List PolicyDecision} {approvals : List ApprovalDecision} :
    (recordsOf a state version reason changedBy policies approvals).find? a.actionId.text =
      some ⟨a, state, version, reason, changedBy⟩ := by
  simp [Records.find?, recordsOf]

theorem replaceAction_recordsOf {state next : ActionState} {version version' : ℕ}
    {reason reason' changedBy changedBy' : Text} {policies : List PolicyDecision}
    {approvals : List ApprovalDecision} :
    (recordsOf a state version reason changedBy policies approvals).replaceAction
      ⟨a, next, version', reason', changedBy'⟩ =
        recordsOf a next version' reason' changedBy' policies approvals := by
  simp [Records.replaceAction, recordsOf]

/-- An initiator is not asked for the class, and another user passes it. -/
theorem checkTransition_awaiting (hreload : reload a = .ok a)
    (hclass : a.actionType.approvalClass = "INDEPENDENT_APPROVER") {t : TransitionCall}
    (hid : t.actionId = a.actionId.text) (htarget : t.target = .approved)
    (hdigest : t.approvalDigest = some a.digest) {row : StoredAction I} (hrow : row.action = a) :
    (awaiting a [allowingApproval a user]).checkTransition ⟨user.text, false⟩ t row = .ok () := by
  have hproof : (awaiting a [allowingApproval a user]).policyAllows a.actionId.text a.digest ∧
      (awaiting a [allowingApproval a user]).actorDecided a.actionId.text a.digest user.text
        .allow := by
    simp [Records.policyAllows, Records.actorDecided, awaiting, recordsOf, allowingPolicy,
      allowingApproval]
  have hload : (awaiting a [allowingApproval a user]).loadAction a.actionId.text = .ok a := by
    simp only [Records.loadAction, awaiting, find?_recordsOf, hreload]
  simp only [Records.checkTransition, htarget, Records.checkApproval, hid, hdigest, hrow, hproof,
    ne_eq, not_true_eq_false, if_false, and_self]
  by_cases huser : user.text = a.initiator.text
  · simp [huser]
  · simp [huser, hload, hclass]

/-- A permitted transition of the one action that is recorded. -/
theorem transition_recordsOf (hreload : reload a = .ok a) {state : ActionState} {version : ℕ}
    {reason changedBy : Text} {policies : List PolicyDecision} {approvals : List ApprovalDecision}
    (huser : user.text ≠ Text.ofString "Guest") {t : TransitionCall}
    (hid : t.actionId = a.actionId.text)
    (hcheck : (recordsOf a state version reason changedBy policies approvals).checkTransition
      ⟨user.text, false⟩ t ⟨a, state, version, reason, changedBy⟩ = .ok ())
    (htarget : t.target ∈ state.transitions) (hversion : 1 ≤ version)
    (hexpected : t.expectedVersion = version)
    (hreason : ¬(t.reason = [] ∨ 2000 < t.reason.length)) :
    (recordsOf a state version reason changedBy policies approvals).transitionActionState
      ⟨user.text, false⟩ t =
        .ok (recordsOf a t.target (version + 1) t.reason user.text policies approvals) := by
  have hvalidate : Records.validateAction a = .ok () := by
    simp [Records.validateAction, hreload]
  have hnext : ActionState.transitionState state t.target version (some t.expectedVersion) =
      .ok (t.target, version + 1) :=
    ActionState.transitionState_eq_ok.mpr ⟨hversion, fun _ => by rw [hexpected], htarget, rfl, rfl⟩
  simp only [Records.transitionActionState, authenticatedActor_of_text huser, ok_bind, hid,
    find?_recordsOf, hcheck, hnext, if_neg hreason, hvalidate, replaceAction_recordsOf]

/-- The trace is a run. -/
theorem path_approvalTrace (hreload : reload a = .ok a)
    (hclass : a.actionType.approvalClass = "INDEPENDENT_APPROVER")
    (howner : a.initiator.text ≠ Text.ofString "Guest")
    (huser : user.text ≠ Text.ofString "Guest") :
    Path ServiceStep noRecords (approvalTrace a user)
      (recordsOf a .approved 3 "approved" user.text [allowingPolicy a]
        [allowingApproval a user]) := by
  have hvalidate : Records.validateAction a = .ok () := by
    simp [Records.validateAction, hreload]
  refine .cons (.written ?_) (.cons (.written ?_) (.cons (.written ?_) (.cons (.written ?_)
    (.cons (.written ?_) (.nil _)))))
  · simp [ServiceCall.write, Records.persistProposedAction, authenticatedActor_of_text howner,
      noRecords, Records.find?, hvalidate, recordsOf]
  · simp only [ServiceCall.write, Records.persistPolicyDecision, allowingPolicy, ok_bind,
      authenticatedActor_of_text howner, Records.loadAction, find?_recordsOf, hreload]
    simp [recordsOf]
  · have htarget : ActionState.awaitingApproval ∈ ActionState.draft.transitions := by decide
    have hreason : ¬(Text.ofString "policy checks passed" = [] ∨
        2000 < (Text.ofString "policy checks passed").length) := by decide
    exact transition_recordsOf hreload howner rfl
      (by simp [Records.checkTransition, Records.checkOwner]) htarget le_rfl rfl hreason
  · simp only [ServiceCall.write, Records.persistApprovalDecision, allowingApproval, ok_bind,
      authenticatedActor_of_text huser, Records.loadAction, awaiting, find?_recordsOf, hreload]
    simp [recordsOf]
  · have htarget : ActionState.approved ∈ ActionState.awaitingApproval.transitions := by decide
    have hreason : ¬(Text.ofString "approved" = [] ∨
        2000 < (Text.ofString "approved").length) := by decide
    exact transition_recordsOf hreload huser rfl
      (checkTransition_awaiting hreload hclass rfl rfl rfl rfl) htarget (by decide) rfl hreason

theorem approvalStep_mem : approvalStep a user ∈ approvalTrace a user := by simp [approvalTrace]

/-- The last step of the trace approves the action. -/
theorem approves_approvalStep :
    Approves (approvalStep a user).before (approvalStep a user).after
      ⟨a, .approved, 3, "approved", user.text⟩ where
  mem := by simp [approvalStep, recordsOf]
  approved := rfl
  before := by simp [approvalStep, awaiting, recordsOf]

/-- The one approval of the trace is permitted when its user may approve. -/
theorem permittedCall_approvalTrace {sessions : List Session}
    (howner : ⟨a.initiator.text, false⟩ ∈ sessions) (huser : ⟨user.text, false⟩ ∈ sessions)
    (hmay : MayApprove sessions a user.text) :
    ∀ x ∈ approvalTrace a user, PermittedCall sessions x.before x.event := by
  intro x hx
  simp only [approvalTrace, approvalStep, List.mem_cons, List.not_mem_nil, or_false] at hx
  rcases hx with rfl | rfl | rfl | rfl | rfl
  · exact ⟨howner, fun session decision h => (by cases h)⟩
  · exact ⟨howner, fun session decision h => (by cases h)⟩
  · exact ⟨howner, fun session decision h => (by cases h)⟩
  · refine ⟨huser, fun session decision h _ row hrow _ => ?_⟩
    cases h
    obtain rfl := List.mem_singleton.mp hrow
    exact hmay
  · exact ⟨huser, fun session decision h => (by cases h)⟩

/-- The submission of the order is an action that its own row yields again. -/
theorem exists_reloadable_submission :
    ∃ a : ProposedAction Interpreter.ascii,
      a.toProposal = orderSubmission executedId ∧ reload a = .ok a := by
  obtain ⟨a, ha⟩ := exists_executed
  have hreloadable : Reloadable a.toProposal := by
    rw [ha]
    exact ⟨rfl, trivial⟩
  exact ⟨a, ha, reload_eq_ok.mpr ((ProposedAction.build_toDict _ _).mpr ⟨hreloadable, rfl⟩)⟩

end Example

/-- The submission approved by a manager is approved by another user than its initiator. -/
theorem submission_approved_by_manager :
    ∃ (a : ProposedAction Interpreter.ascii) (session : Session) (t : TransitionCall),
      (approvalStep a manager).event = .transition session t ∧ Separated a session.user := by
  obtain ⟨a, ha, hreload⟩ := exists_reloadable_submission
  have hclass : a.actionType.approvalClass = "INDEPENDENT_APPROVER" := by rw [ha]; rfl
  have howner : a.initiator.text = Text.ofString "buyer@example.test" := by rw [ha]; rfl
  have hguest : a.initiator.text ≠ Text.ofString "Guest" := by rw [howner]; decide
  have hother : manager.text ≠ a.initiator.text := by rw [howner]; decide
  have hmay : MayApprove [⟨a.initiator.text, false⟩, ⟨manager.text, false⟩] a manager.text :=
    ⟨fun _ => hother, fun h => absurd (hclass.symm.trans h) (by decide)⟩
  have hcalls := permittedCall_approvalTrace (by simp) (by simp) hmay
  have hpermitted : Path (PermittedStep [⟨a.initiator.text, false⟩, ⟨manager.text, false⟩])
      noRecords (approvalTrace a manager) _ :=
    (path_approvalTrace hreload hclass hguest (by decide)).restrict hcalls
  obtain ⟨session, t, hevent, -, -, hseparated, -⟩ :=
    approved_only_when_separated hpermitted _ approvalStep_mem _ approves_approvalStep
  exact ⟨a, session, t, hevent, hseparated⟩

/-- An initiator approves the action that asks for an independent approver. -/
theorem initiator_approves_own_submission :
    ∃ (a : ProposedAction Interpreter.ascii)
      (trace : List (Step (Records Interpreter.ascii) (ServiceCall Interpreter.ascii)))
      (r : Records Interpreter.ascii), Path ServiceStep noRecords trace r ∧
        ∃ x ∈ trace, ∃ row session t, Approves x.before x.after row ∧
          x.event = .transition session t ∧ row.action = a ∧
          a.actionType.approvalClass = "INDEPENDENT_APPROVER" ∧
          session.user = a.initiator.text := by
  obtain ⟨a, ha, hreload⟩ := exists_reloadable_submission
  have hclass : a.actionType.approvalClass = "INDEPENDENT_APPROVER" := by rw [ha]; rfl
  have hguest : a.initiator.text ≠ Text.ofString "Guest" := by
    rw [ha]
    decide
  exact ⟨a, _, _, path_approvalTrace hreload hclass hguest hguest, _, approvalStep_mem, _, _, _,
    approves_approvalStep, rfl, rfl, hclass, rfl⟩

end Governance
