import SynoraErp.Execution.Settling
import SynoraErp.Transition.Undisturbed

/-!
# An execution that nobody interferes with

An action that is approved and not reserved can be executed to its end: there are answers of
the clock, of Frappe and of the ERP with which the executor writes the document once, and
leaves the action executed, its reservation settled and its receipt stored.
-/

namespace Execution

open Python Governance
open Transition Transition.Documents Transition.Documents.Discipline

variable {I : Interpreter} {ι : Type} [DecidableEq ι] {α : Type}
  {scene scene' : Scene Key (Record I)}

/-! ## Calls -/

variable (ι) in
/-- What a program of a request can do. -/
abbrev May (scene : Scene Key (Record I)) (p : Prog I α) (a : α)
    (scene' : Scene Key (Record I)) : Prop :=
  discipline.May ι scene p a scene'

theorem may_external (x : External I) (v : x.Value) (h : discipline.subject x = none) :
    May ι scene (external x) v scene :=
  Discipline.may_external v h

theorem may_get {k : Key} {record : Option (Record I)} (h : scene.table k = record) :
    May ι scene (call (.get k)) record scene :=
  h ▸ Discipline.may_get k

theorem may_lift {result : Result α} {a : α} (h : result = .ok a) :
    May ι scene (lift result) a scene := by
  rw [lift, h]
  exact Discipline.may_pure a

theorem may_unless {c : Prop} {_ : Decidable c} {e : Raised} {rest : Unit → Prog I α} {a : α}
    (hc : ¬c) (h : May ι scene (rest ()) a scene') :
    May ι scene (if c then (throw e : Prog I Unit) >>= fun r => rest r else rest ()) a scene' :=
  .else hc h

theorem may_write (a : ProposedAction I) (target : Text) :
    May ι scene (external (.write a)) target (scene.call (.reservation a.idempotencyKey)) :=
  may_external_subject (D := discipline) (ρ := External.Value) (x := External.write a) target rfl

/-! ## An action that is approved -/

/-- What is asked of an action, for a user to execute it. -/
structure Executable (user : Text) (args : Arguments) (row : StoredAction I) : Prop where
  user_ne : user ≠ [] ∧ user ≠ Text.ofString "Guest"
  build : buildProposedAction I (.dict row.action.toDict) = .ok row.action
  isP2p : row.action.actionType.isP2p = false
  stateVersion : 1 ≤ row.stateVersion
  ready : Ready args.actionId args.digest args.key row

variable {user : Text} {args : Arguments} {row : StoredAction I}

theorem may_authenticate (h : Executable user args row) : May ι scene (authenticate user) () scene := by
  have hactor : authenticatedActor ⟨user, false⟩ = .ok user :=
    if_neg (not_or.mpr h.user_ne)
  exact (may_lift hactor).bind (may_pure ())

theorem may_ownsOrManages (user : Text) (row : StoredAction I) :
    May ι scene (ownsOrManages user row) true scene := by
  unfold ownsOrManages
  split_ifs
  · exact may_pure true
  · exact may_external (.systemManager user) true rfl

theorem may_getAction {actionId : Uuid} (h : scene.table (.action actionId) = some (.action row)) :
    May ι scene (getAction actionId) row scene :=
  (may_get h).bind (may_pure row)

theorem Executable.reload (h : Executable user args row) :
    Governance.reload row.action = .ok row.action :=
  reload_eq_ok.mpr h.build

theorem may_loadAction (h : Executable user args row)
    (hrow : scene.table (.action args.actionId) = some (.action row)) :
    May ι scene (loadAction args.actionId) row.action scene :=
  (may_get hrow).bind (may_lift h.reload)

theorem may_lockRunForAction (run : RunRow)
    (hrow : scene.table (.action args.actionId) = some (.action row)) :
    May ι scene (lockRunForAction args.actionId) run scene :=
  (may_get hrow).bind (may_external (.lockRun row.action.runId) run rfl)

theorem may_lockAction (h : Executable user args row)
    (hrow : scene.table (.action args.actionId) = some (.action row)) :
    May ι scene (lockAction args.actionId) ⟨row, row.action, row⟩ scene :=
  (may_lock hrow).bind ((may_getAction hrow).bind ((may_lift h.reload).bind (may_pure _)))

theorem may_readAuthorized (h : Executable user args row) (other : StoredAction I)
    (allowedActor : Option Text) :
    May ι scene (readAuthorized user other allowedActor) () scene := by
  refine (may_authenticate h).bind ?_
  by_cases hallowed : allowedActor = some user
  · exact .then hallowed (may_pure ())
  · exact .else hallowed ((may_ownsOrManages user other).bind (.then rfl (may_pure ())))

theorem may_serializeAction (h : Executable user args row) {other : StoredAction I}
    (hother : other.action = row.action) (allowedActor : Option Text) :
    May ι scene (serializeAction user other allowedActor) () scene := by
  refine (may_readAuthorized h other allowedActor).bind ?_
  have hload : May ι scene (loadActionFromDoc other) row.action scene := by
    unfold loadActionFromDoc
    rw [hother]
    exact may_lift h.build
  exact hload.bind (may_external (.calculate row.action) () rfl)

/-! ## The check before a write -/

/-- A policy decision that allows the action. -/
def allowingPolicy (a : ProposedAction I) : PolicyRow := ⟨a.snapshotRef.text, ruleId, ruleVersion, []⟩

theorem may_checkPolicy (a : ProposedAction I) : May ι scene (checkPolicy a) () scene := by
  refine (may_external (.latestPolicy a.actionId a.digest) (some (allowingPolicy a)) rfl).bind ?_
  refine may_unless (by simp [allowingPolicy]) ?_
  exact (may_external (.expiryPasses _) true rfl).bind (may_unless Bool.true_eq_false.mp (may_pure ()))

/-- An approval of the action by a user. -/
def approvalOf (user : Text) (a : ProposedAction I) : ApprovalRow := ⟨user, a.snapshotRef.text, []⟩

theorem may_checkLatestApproval (user : Text) (a : ProposedAction I) :
    May ι scene (checkLatestApproval a) (approvalOf user a) scene := by
  refine (may_external (.latestApproval a.actionId a.digest) (some (approvalOf user a)) rfl).bind ?_
  refine may_unless (by simp [approvalOf]) ?_
  exact (may_external (.expiryPasses _) true rfl).bind (may_unless Bool.true_eq_false.mp (may_pure _))

theorem may_checkGates (locked : LockedAction I) (run : RunRow) (approvedActor : Option Text) :
    May ι scene (checkGates user locked run approvedActor) () scene := by
  refine (may_external (.gateChecks locked.action run user approvedActor) none rfl).bind ?_
  refine (may_external (.expiryPasses _) true rfl).bind ?_
  exact .else Bool.true_eq_false.mp (may_pure ())

variable {run : RunRow}

theorem may_preExecuteRecheck (h : Executable user args row) (hrun : run.name = row.action.runId)
    (hrow : scene.table (.action args.actionId) = some (.action row))
    (hreceipt : scene.table (.receipt args.key) = none) :
    May ι scene (preExecuteRecheck user args.actionId args.digest args.key) () scene := by
  unfold preExecuteRecheck
  refine (may_authenticate h).bind ((may_lockRunForAction run hrow).bind ?_)
  refine (may_lockAction h hrow).bind ?_
  refine may_unless (fun hp2p => Bool.eq_false_iff.mp h.isP2p hp2p.1) ?_
  refine may_unless (not_or.mpr ⟨not_not.mpr hrun.symm, not_not.mpr h.ready.digest⟩) ?_
  refine may_unless (not_not.mpr h.ready.idempotencyKey) ?_
  refine may_unless (not_not.mpr h.ready.state) ?_
  refine (may_get hreceipt).bind (may_unless Bool.false_ne_true ?_)
  refine (may_checkPolicy row.action).bind ?_
  refine (may_checkLatestApproval user row.action).bind ?_
  extract_lets approvedActor
  refine may_unless (fun hclass => ?_) (may_checkGates _ run _)
  obtain ⟨hindependent, hne⟩ := hclass
  refine hne ?_
  change (if _ then none else some (approvalOf user row.action).actor) = some user
  rw [if_neg (by rw [hindependent]; decide)]
  rfl

/-! ## Writes -/

theorem may_insert {k : Key} (record : Record I) (hnone : scene.table k = none) :
    May ι scene (insert k record) true (scene.write k record) :=
  (Discipline.may_insert record hnone).catching

theorem may_save {k : Key} {before : Record I} (after : Record I) {changed : Raised}
    (hbefore : scene.table k = some before) :
    May ι scene (save k before after changed) () (scene.write k after) :=
  (Discipline.may_save after hbefore).catching

variable {reservation : Reservation} {receipt : ExecutionReceipt}

theorem may_persistExecutionReceipt {outcome : Outcome} (h : Executable user args row)
    (hrow : scene.table (.action args.actionId) = some (.action row))
    (hnone : scene.table (.receipt receipt.idempotencyKey) = none)
    (hreceipt : ReceiptFor receipt row.action outcome) (hexecutor : receipt.executor.text = user) :
    May ι scene (persistExecutionReceipt user receipt true) ()
      (scene.write (.receipt receipt.idempotencyKey) (.receipt receipt)) := by
  have hid : receipt.actionId = args.actionId := hreceipt.actionId.trans h.ready.actionId
  refine (may_authenticate h).bind ?_
  refine may_unless (not_not.mpr hexecutor.symm) ?_
  refine may_unless (fun hsuccess => Bool.true_eq_false.mp hsuccess.2) ?_
  rw [hid]
  refine (may_loadAction h hrow).bind ?_
  refine may_unless ?_ ((may_insert _ hnone).bind (may_unless Bool.true_eq_false.mp ?_))
  · simp only [hreceipt.runId, hreceipt.initiator, hreceipt.idempotencyKey,
      hreceipt.proposalDigest, ne_eq, not_true_eq_false, or_self, not_false_eq_true]
  · unfold serializeReceipt
    rw [hid]
    exact (may_getAction ((Scene.table_write_of_ne _ _ (by simp)).trans hrow)).bind
      (may_readAuthorized h row _)

/-- The row of an action that was executed. -/
def executedRow (user : Text) (row : StoredAction I) (reason : Text) : StoredAction I :=
  movedAction user row (.executed, row.stateVersion + 1) reason

theorem may_transitionActionState (h : Executable user args row)
    (hrow : scene.table (.action args.actionId) = some (.action row)) {reason : Text}
    (hreason : reason ≠ [] ∧ reason.length ≤ 2000) (approvalDigest : Option Digest) :
    May ι scene
      (transitionActionState user args.actionId ⟨.executed, row.stateVersion, reason, approvalDigest⟩)
      () (scene.write (.action args.actionId) (.action (executedRow user row reason))) := by
  refine (may_authenticate h).bind ((may_lock hrow).bind ?_)
  have hcheck : May ι scene (checkTransition user args.actionId row .executed approvalDigest) ()
      scene := (may_ownsOrManages user row).bind (.then rfl (may_pure ()))
  refine hcheck.bind ?_
  have hnext : ActionState.transitionState row.state .executed row.stateVersion
      (some row.stateVersion) = .ok (.executed, row.stateVersion + 1) := by
    rw [ActionState.transitionState_eq_ok, h.ready.state]
    exact ⟨h.stateVersion, fun _ => rfl, by decide, rfl, rfl⟩
  have hvalid : Records.validateAction row.action = .ok () := by
    simp [Records.validateAction, h.reload]
  refine (may_lift hnext).bind (may_unless (not_or.mpr ⟨hreason.1, not_lt.mpr hreason.2⟩) ?_)
  refine (may_getAction hrow).bind ((may_lift hvalid).bind ?_)
  exact (may_save _ hrow).bind (may_serializeAction h rfl _)

/-- The document of a reservation that has succeeded. -/
theorem may_updateReservation (hstarted : reservation.status = .started)
    (hrow : scene.table (.reservation reservation.identity.idempotencyKey) =
      some (.reservation reservation)) (update : Update) (completedAt : DateTime) :
    May ι scene (updateReservation reservation .succeeded update)
      (updated reservation .succeeded update completedAt completedAt)
      (scene.write (.reservation reservation.identity.idempotencyKey)
        (.reservation (updated reservation .succeeded update completedAt completedAt))) := by
  unfold updateReservation
  refine may_unless (fun hclosed => ?_) (.else (fun hsame => ?_) ?_)
  · rw [hstarted] at hclosed
    exact Bool.true_eq_false.mp hclosed.1
  · rw [hstarted] at hsame
    cases hsame.1
  · refine (may_external .timestamp completedAt rfl).bind ?_
    refine (may_external .timestamp completedAt rfl).bind ?_
    have hvalid : validateReservation reservation
        (updated reservation .succeeded update completedAt completedAt) = .ok () := by
      have hsucceeds : ReservationStatus.settled .succeeded ∈ ReservationStatus.started.transitions := by
        decide
      rw [validateReservation_eq_ok, hstarted]
      exact ⟨rfl, .inr hsucceeds⟩
    exact (may_lift hvalid).bind ((may_save _ hrow).bind (may_pure _))

/-! ## The executor -/

/-- What is answered while an execution goes through. -/
structure Answers where
  run : RunRow
  reservationId : Uuid
  ownerToken : Uuid
  reading : Reading
  startedAt : DateTime
  receiptId : Uuid
  completedAt : DateTime
  target : RequiredText 140
  verified : Dict

/-- The reservation of an action, as it starts. -/
def Answers.started (answers : Answers) (user : Text) (key : ExecutionKey)
    (a : ProposedAction I) : Reservation :=
  startedReservation a key user answers.reservationId answers.ownerToken answers.reading
    answers.startedAt

/-- The outcome of an execution that succeeds. -/
def Answers.outcome (answers : Answers) : Outcome where
  finalState := .succeeded
  responseCategory := erpSuccess
  failureCategory := none
  targetName := some answers.target
  verifiedFields := answers.verified
  reconciliationEvidence := none

/-- The answers that let an execution go through. -/
structure Answers.Fits (answers : Answers) (user : Text) (row : StoredAction I)
    (key : ExecutionKey) (receipt : ExecutionReceipt) : Prop where
  run : answers.run.name = row.action.runId
  key : executionKey row.action = .ok key
  receipt : ∃ context, receiptContext answers.receiptId (some user) user answers.startedAt
      answers.completedAt row.action.correlationId = .ok context ∧
    createReceipt context row.action answers.outcome = .ok receipt

variable {answers : Answers} {key : ExecutionKey}

/-- The executor of a receipt is the user that executes. -/
theorem executor_of_receiptContext {receiptId : Uuid} {approver : Option Text} {executor : Text}
    {startedAt completedAt : DateTime} {correlationId : Uuid} {context : ReceiptContext}
    (h : receiptContext receiptId approver executor startedAt completedAt correlationId =
      .ok context) : context.executor.text = executor := by
  simp only [receiptContext, bind_eq_ok] at h
  obtain ⟨_, -, t, ht, h⟩ := h
  rw [← Except.ok.inj h]
  exact (Value.str.inj (requiredText_eq_ok.mp ht)).symm

/-- Texts that a receipt allows are its context. -/
theorem receiptContext_text (receiptId correlationId : Uuid) (startedAt completedAt : DateTime)
    (approver : Option (RequiredText 140)) (executor : RequiredText 140) :
    receiptContext receiptId (approver.map RequiredText.text) executor.text startedAt completedAt
      correlationId = .ok
        { receiptId := receiptId
          approver := approver
          executor := executor
          startedAt := startedAt
          completedAt := completedAt
          correlationId := correlationId } := by
  have happrover := optionally_requiredText "approver" approver
  have hexecutor := requiredText_value executor "executor"
  have hmap : (approver.map RequiredText.text).map Value.str = approver.map RequiredText.value :=
    Option.map_map ..
  rw [RequiredText.value] at hexecutor
  rw [receiptContext, hmap, happrover, hexecutor]
  rfl

theorem may_newReceipt (hfits : answers.Fits user row key receipt) :
    May ι scene (newReceipt row.action (answers.started user key row.action) answers.outcome)
      receipt scene := by
  obtain ⟨context, hcontext, hcreate⟩ := hfits.receipt
  refine (may_external (.latestApproval ..) (some (approvalOf user row.action)) rfl).bind ?_
  refine (may_external .uuid4 answers.receiptId rfl).bind ?_
  refine (may_external .timestamp answers.completedAt rfl).bind ?_
  exact (may_lift hcontext).bind (may_lift hcreate)

theorem may_insertReservation (hkey : key.idempotencyKey = args.key)
    (hnone : scene.table (.reservation args.key) = none) :
    May ι scene (insertReservation row.action key user)
      (answers.started user key row.action, true)
      (scene.write (.reservation args.key)
        (.reservation (answers.started user key row.action))) := by
  rw [← hkey] at hnone ⊢
  have hlock : May ι scene (reservationByKey key.idempotencyKey) none scene :=
    (may_lock_none hnone).bind (may_pure none)
  refine hlock.bind ?_
  refine (may_external .uuid4 answers.reservationId rfl).bind ?_
  refine (may_external .uuid4 answers.ownerToken rfl).bind ?_
  refine (may_external .now answers.reading rfl).bind ?_
  refine (may_external .timestamp answers.startedAt rfl).bind ?_
  exact (may_insert _ hnone).bind (.then rfl (may_pure _))

theorem may_commitReservation (run : RunRow) : May ι scene (commitReservation run) () scene :=
  ((may_external (.moveToExecuting run) run rfl).bind may_commit).catching

/-- What an execution leaves in the table. -/
def completed (scene : Scene Key (Record I)) (answers : Answers) (user : Text)
    (args : Arguments) (row : StoredAction I) (key : ExecutionKey) (receipt : ExecutionReceipt)
    (reason : Text) : Scene Key (Record I) :=
  ((((scene.call (.reservation args.key)).write (.receipt args.key) (.receipt receipt)).write
      (.action args.actionId) (.action (executedRow user row reason))).write
      (.reservation args.key)
      (.reservation (updated (answers.started user key row.action) .succeeded
        { targetName := some answers.target
          receipt := some receipt.receiptId
          responseCategory := some erpSuccess } answers.completedAt answers.completedAt)))

theorem may_performDraft {W : DraftWriter} (h : Executable user args row)
    (hfits : answers.Fits user row key receipt) (hkey : key.idempotencyKey = args.key)
    (hreason : Text.ofString W.executedReason ≠ [] ∧
      (Text.ofString W.executedReason).length ≤ 2000)
    (hrow : scene.table (.action args.actionId) = some (.action row))
    (hreservation : scene.table (.reservation args.key) =
      some (.reservation (answers.started user key row.action)))
    (hnone : scene.table (.receipt args.key) = none) :
    May ι scene (performDraft W user args (answers.started user key row.action)) ()
      (completed scene answers user args row key receipt (Text.ofString W.executedReason)) := by
  obtain ⟨context, hcontext, hcreate⟩ := hfits.receipt
  obtain ⟨hexecutor, hreceipt⟩ := of_createReceipt hcreate
  have hreceiptKey : receipt.idempotencyKey = args.key :=
    hreceipt.idempotencyKey.trans h.ready.idempotencyKey
  unfold performDraft
  refine (may_preExecuteRecheck h hfits.run hrow hnone).bind ?_
  refine (may_lockRunForAction answers.run hrow).bind ((may_lockAction h hrow).bind ?_)
  obtain ⟨actionId, digest, idempotencyKey, correlationId⟩ := args
  obtain ⟨rfl, rfl, rfl, -⟩ := h.ready
  refine (may_write row.action answers.target.text).bind ?_
  refine (may_external (.readBack ..) answers.verified rfl).bind ?_
  refine (may_lift (requiredText_value answers.target _)).bind ((may_newReceipt hfits).bind ?_)
  let called := scene.call (.reservation row.action.idempotencyKey)
  let stored := called.write (.receipt row.action.idempotencyKey) (.receipt receipt)
  let executed := stored.write (.action row.action.actionId)
    (.action (executedRow user row (Text.ofString W.executedReason)))
  have hpersist : May ι called (persistExecutionReceipt user receipt true) () stored := by
    have hwritten : May ι called (persistExecutionReceipt user receipt true) ()
        (called.write (.receipt receipt.idempotencyKey) (.receipt receipt)) :=
      may_persistExecutionReceipt h hrow (hreceiptKey ▸ hnone) hreceipt
        (hexecutor ▸ executor_of_receiptContext hcontext)
    rwa [hreceiptKey] at hwritten
  have hstored : stored.table (.action row.action.actionId) = some (.action row) := by
    rw [← hrow]
    exact called.table_write_of_ne _ (by simp)
  have hreserved : executed.table (.reservation row.action.idempotencyKey) =
      some (.reservation (answers.started user key row.action)) := by
    rw [← hreservation]
    exact (stored.table_write_of_ne _ (by simp)).trans (called.table_write_of_ne _ (by simp))
  refine hpersist.bind ((may_transitionActionState h hstored hreason _).bind ?_)
  have hkey' : (answers.started user key row.action).identity.idempotencyKey =
      row.action.idempotencyKey := hkey
  have hupdate := may_updateReservation (ι := ι) rfl (hkey' ▸ hreserved)
    { targetName := some answers.target
      receipt := some receipt.receiptId
      responseCategory := some erpSuccess } answers.completedAt
  rw [hkey'] at hupdate
  refine hupdate.bind ?_
  refine (may_external (.closeRun ..) answers.run rfl).bind ?_
  refine (may_external (.audit ..) () rfl).bind (may_commit.bind ?_)
  have hlast : (completed scene answers user
      ⟨row.action.actionId, row.action.digest, row.action.idempotencyKey, correlationId⟩ row key
      receipt (Text.ofString W.executedReason)).table (.action row.action.actionId) =
      some (.action (executedRow user row (Text.ofString W.executedReason))) :=
    (executed.table_write_of_ne _ (by simp)).trans (stored.table_write_self _ _)
  exact (may_getAction hlast).bind (may_serializeAction h rfl none)

/-- An approved action that is not reserved can be executed to its end. -/
theorem may_executeDraft {W : DraftWriter} (h : Executable user args row)
    (hfits : answers.Fits user row key receipt) (htype : row.action.actionType = W.actionType)
    (hreason : Text.ofString W.executedReason ≠ [] ∧
      (Text.ofString W.executedReason).length ≤ 2000)
    (hrow : scene.table (.action args.actionId) = some (.action row))
    (hreservation : scene.table (.reservation args.key) = none)
    (hreceipt : scene.table (.receipt args.key) = none) :
    May ι scene (executeDraft W user args) ()
      (completed (scene.write (.reservation args.key)
          (.reservation (answers.started user key row.action))) answers user args row key receipt
        (Text.ofString W.executedReason)) := by
  obtain ⟨hkey, hdigest⟩ := of_executionKey hfits.key
  have hkey' : key.idempotencyKey = args.key := hkey.trans h.ready.idempotencyKey
  refine (may_authenticate h).bind ((may_lockRunForAction answers.run hrow).bind ?_)
  refine (may_lockAction h hrow).bind ?_
  refine may_unless (not_or.mpr ⟨not_not.mpr hfits.run.symm, not_not.mpr h.ready.digest⟩) ?_
  refine may_unless (not_not.mpr h.ready.idempotencyKey) (may_unless (not_not.mpr htype) ?_)
  refine (may_lift hfits.key).bind (may_unless (not_or.mpr
    ⟨not_not.mpr (hdigest.trans h.ready.digest), not_not.mpr hkey'⟩) ?_)
  have hlock : May ι scene (reservationByKey args.key) none scene :=
    (may_lock_none hreservation).bind (may_pure none)
  refine hlock.bind ((may_preExecuteRecheck h hfits.run hrow hreceipt).bind ?_)
  refine (may_lockRunForAction answers.run hrow).bind ((may_lockAction h hrow).bind ?_)
  refine may_unless (not_not.mpr h.ready.state) ?_
  have hinsert : May ι scene (insertReservation row.action key user)
      (answers.started user key row.action, true) _ := may_insertReservation hkey' hreservation
  refine hinsert.bind (.else Bool.true_eq_false.mp ?_)
  let reserved := scene.write (.reservation args.key)
    (.reservation (answers.started user key row.action))
  have hrow' : reserved.table (.action args.actionId) = some (.action row) := by
    rw [← hrow]
    exact scene.table_write_of_ne _ (by simp)
  have hreceipt' : reserved.table (.receipt args.key) = none := by
    rw [← hreceipt]
    exact scene.table_write_of_ne _ (by simp)
  refine (may_commitReservation answers.run).bind (May.catching ?_)
  exact may_performDraft h hfits hkey' hreason hrow' (scene.table_write_self _ _) hreceipt'

/-- A request that returns has committed what it leaves. -/
theorem runs_serve {p : Prog I Unit} (h : May ι scene p () scene') {i : ι}
    {s : Store ι Key (Record I) (External I)} (hs : discipline.Sees scene i s) :
    ∃ t, Runs Store.Perform i s (serve p) t (.ok ()) ∧ t.committed = scene'.table ∧
      t.log.filterMap discipline.subject = scene'.subjects := by
  obtain ⟨t, hruns, hsees⟩ := h i s hs
  have hdoes : t.Does (ρ := External.Value) i .commit () (t.commit i) := rfl
  have hcommit : Runs Store.Perform i t (call .commit) (t.commit i) (.ok ()) := .request hdoes
  exact ⟨t.commit i, (hruns.bind hcommit).catching, hsees.view, hsees.subjects⟩

end Execution
