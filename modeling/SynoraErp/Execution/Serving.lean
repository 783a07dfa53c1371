import SynoraErp.Execution.Executors

/-!
# The requests are lawful

The executor of the procure-to-pay actions, and every request to its end.
-/

namespace Execution

open Python Governance
open Transition Transition.Documents Transition.Documents.Discipline

variable {I : Interpreter} {ι : Type} [DecidableEq ι] (user : Text) (args : Arguments)

/-! ## Failures of a procure-to-pay action -/

theorem lawful_persistedTarget (a : ProposedAction I) (hasTarget : Bool) :
    (requests I ι).Lawful (persistedTarget a hasTarget) := by
  refine .ite (fun _ => lawful_pure none) fun _ => ?_
  refine (lawful_external (.inMemory a) rfl).bind fun r => ?_
  obtain ⟨name, remembered⟩ := r
  dsimp -zeta only
  extract_lets observe
  have hobserve : ∀ there, (requests I ι).Lawful (observe there) := fun there => by
    refine .ite (fun _ => lawful_pure none) fun _ => ?_
    exact ((lawful_external (.docstatus ..) rfl).catching fun _ => lawful_pure _).bind fun _ =>
      lawful_pure _
  refine .ite (fun _ => (lawful_pure false).bind hobserve) fun _ => ?_
  exact (lawful_external (.exists ..) rfl).bind hobserve

theorem ensures_recordP2pFailure {a : ProposedAction I} (ha : AskedFor args a)
    (reservationId : Uuid) (failure : Failure) (isUncertain hasTarget : Bool) :
    (requests I ι).Ensures (Commits (Begun a))
      (recordP2pFailure user args reservationId failure isUncertain hasTarget)
      fun _ _ _ => True := by
  refine ensures_getFailed ha fun reservation doc run hstarted => ?_
  refine .ite (fun _ => lawful_pure ()) fun hstatus => ?_
  have hopen := (hstarted (not_not.mp hstatus)).openFor
  refine (lawful_persistedTarget a hasTarget).bind fun persisted => ?_
  refine (keeping_boundedText lasting_true.toKept _ _ _).lawful.bind fun name => ?_
  extract_lets close record
  have hclose : ∀ run, (requests I ι).Lawful (close run) := by
    intro run
    have hfinish := (lawful_external (ι := ι) (I := I) (.audit run
      reservation.identity.correlationId "REJECTED" (some name.text)) rfl).bind fun _ => lawful_commit
    refine .ite (fun _ => ?_) fun _ => hfinish
    exact (keeping_transitionActionState lasting_true user _ _).lawful.bind fun _ => hfinish
  have hrecord : ∀ targetName, (requests I ι).Lawful (record targetName) := by
    intro targetName
    refine System.Ensures.lawful (C := fun _ _ _ => True) ?_
    refine (ensures_newReceipt lasting_true.toKept a reservation _).bind fun receipt => ?_
    refine System.ensures_of_imp fun hreceipt => ?_
    refine System.Ensures.bind (B := fun _ => Stores receipt)
      ((ensures_persistExecutionReceipt lasting_true user receipt false).post
        fun _ _ _ _ => And.left) fun _ => ?_
    refine ensures_update_of_failure hopen hreceipt rfl rfl
      (isSuccess_failedState isUncertain) fun _ => ?_
    refine .ite (fun _ => ?_) fun _ => (lawful_pure _).bind hclose
    exact (lawful_external (.setRunState ..) rfl).bind hclose
  split
  · refine (keeping_boundedText lasting_true.toKept _ _ _).lawful.bind fun target => ?_
    exact (lawful_pure _).bind hrecord
  · exact (lawful_pure none).bind hrecord

theorem ensures_finalizeP2pFailure {a : ProposedAction I} (ha : AskedFor args a)
    (reservationId : Uuid) (failure : Failure) (isUncertain hasTarget : Bool) :
    (requests I ι).Ensures (Commits (Begun a))
      (finalizeP2pFailure user args reservationId failure isUncertain hasTarget)
      fun _ _ _ => True :=
  (ensures_recordP2pFailure user args ha reservationId failure isUncertain hasTarget).catching
    fun _ => lawful_rollback.ensures

/-- The handler of a failure counts on what was committed with the reservation. -/
theorem ensures_failP2p {α : Type} {a : ProposedAction I} (ha : AskedFor args a)
    (reservation : Reservation) (run : Uuid) (started : Bool) (e : Raised)
    {C : α → ι → Store ι Key (Record I) (External I) → Prop} :
    (requests I ι).Ensures (Commits (Begun a)) (failP2p user args reservation run started e) C := by
  refine (lawful_rollback.keeping (firm_commits (persists_begun a))).bind fun _ => ?_
  refine (ensures_finalizeP2pFailure user args ha _ _ _ _).bind fun _ => ?_
  refine System.Lawful.then ((lawful_external (.syncPlan run) rfl).catching fun _ => lawful_pure ())
    fun _ => System.ensures_throw _

/-! ## Reconciliation -/

theorem lawful_readTarget (a : ProposedAction I) (target : Option Text) :
    (requests I ι).Lawful (readTarget a target) := by
  cases target with
  | none => exact lawful_pure []
  | some name =>
      refine System.Lawful.catching ((lawful_external (.loadTarget ..) rfl).bind fun _ =>
        lawful_external (.readBack ..) rfl) fun e => ?_
      split
      · exact lawful_pure []
      · exact .ite (fun _ => lawful_throw _) fun _ => lawful_pure []
      · exact lawful_throw _

theorem lawful_p2pResponse (locked : LockedAction I) (doc : StoredAction I)
    (receipt : Option ExecutionReceipt) :
    (requests I ι).Lawful (p2pResponse user locked doc receipt) := by
  cases receipt with
  | none => exact (lawful_pure ()).bind fun _ => lawful_serializeAction _ _ _
  | some receipt =>
      exact (lawful_serializeReceiptForActor _ _ _ _).bind fun _ => lawful_serializeAction _ _ _

theorem lawful_settleP2p {locked : LockedAction I} {reservation : Reservation}
    (hopen : OpenFor reservation locked.action) (run : RunRow)
    (existing : Option ExecutionReceipt) (target : Option Text) (verified : Dict)
    (found : Option (RequiredText 140)) :
    (requests I ι).Lawful
      (settleP2p user args locked run reservation existing target verified found) := by
  unfold settleP2p
  extract_lets reconciled state
  refine (keeping_boundedText lasting_true.toKept _ _ _).lawful.bind fun ambiguous => ?_
  extract_lets failure
  refine System.Ensures.lawful (C := fun _ _ _ => True) ?_
  refine (ensures_requireReconciliation lasting_true hopen).bind fun reservation => ?_
  refine System.ensures_of_imp fun hopen => ?_
  refine (ensures_reconciliationReceipt lasting_true.toKept _ reservation existing _).bind
    fun receipt => ?_
  refine System.ensures_of_imp fun hreceipt => ?_
  refine System.Ensures.bind (B := fun _ => Stores receipt)
    ((ensures_storeReceipt lasting_true user existing receipt).post fun _ _ _ _ => And.left)
    fun _ => ?_
  extract_lets close rest
  have hclose : ∀ r, (requests I ι).Lawful (close r) := fun _ => by
    refine (lawful_external (.syncPlan _) rfl).bind fun _ => ?_
    refine (lawful_external (.audit ..) rfl).bind fun _ => ?_
    refine lawful_commit.bind fun _ => ?_
    exact (lawful_getAction _).bind fun stored => lawful_p2pResponse _ _ _ _
  refine .ite (fun hreconciled => ?_) fun hreconciled => ?_
  · exact ensures_update_of_success hopen hreceipt rfl (if_pos hreconciled) rfl rfl fun _ =>
      hclose ()
  · have hrest : ∀ r, (requests I ι).Ensures (Stores receipt) (rest r) fun _ _ _ => True := by
      refine fun _ => ensures_update_of_failure hopen hreceipt rfl (if_neg hreconciled) rfl
        fun _ => ?_
      refine .ite (fun _ => ?_) fun _ => (lawful_pure _).bind fun _ => hclose ()
      exact (lawful_external (.setRunState ..) rfl).bind fun _ => hclose ()
    refine .ite (fun _ => ?_) fun _ => hrest ()
    exact (keeping_transitionActionState (lasting_stores receipt) user _ _).bind hrest

theorem lawful_reconcileP2p : (requests I ι).Lawful (reconcileP2p (I := I) user args) := by
  refine (keeping_authenticate lasting_true.toKept user).lawful.bind fun _ => ?_
  refine (lawful_lockRunForAction _).bind fun run => ?_
  refine (lawful_lockAction _).bind fun locked => ?_
  refine System.lawful_unless fun _ => ?_
  refine System.lawful_unless fun _ => ?_
  refine (keeping_reservationByKey lasting_true.toKept _).lawful.bind fun existing => ?_
  cases existing with
  | none => exact lawful_throw _
  | some reservation =>
      refine System.Ensures.lawful (C := fun _ _ _ => True) ?_
      refine (ensures_lift lasting_true.toKept _).bind fun key => ?_
      refine System.ensures_of_imp fun hkey => ?_
      refine (ensures_reservationIdentityMatches lasting_true.toKept _ _ _ _).bind fun _ => ?_
      refine System.ensures_of_imp fun hmatches => System.Lawful.ensures ?_
      refine (keeping_namedReceipt lasting_true.toKept _ _).lawful.bind fun existing => ?_
      refine .ite (fun _ => lawful_p2pResponse _ _ _ _) fun hopen => ?_
      rw [Bool.not_eq_false] at hopen
      have hopen := openFor_of_identityMatches hkey hmatches hopen
      refine (keeping_leaseExpired lasting_true.toKept _).lawful.bind fun expired => ?_
      refine .ite (fun _ => lawful_p2pResponse _ _ _ _) fun _ => ?_
      refine (lawful_readTarget _ _).bind fun verified => ?_
      refine .ite (fun _ => ?_) fun _ => lawful_settleP2p user args hopen _ _ _ _ _
      refine (keeping_boundedText lasting_true.toKept _ _ _).lawful.bind fun name => ?_
      exact lawful_settleP2p user args hopen _ _ _ _ _

/-! ## Execution -/

theorem lawful_replayP2p (locked : LockedAction I) (run : RunRow) (reservation : Reservation) :
    (requests I ι).Lawful (replayP2p user locked run reservation) := by
  refine (lawful_lift _).bind fun key => ?_
  refine (keeping_reservationIdentityMatches lasting_true.toKept _ _ _ _).lawful.bind fun _ => ?_
  split
  case h_1 receiptId targetName _ _ =>
    refine System.lawful_unless fun _ => ?_
    refine (keeping_getReceipt lasting_true.toKept _ _ _).lawful.bind fun receipt => ?_
    refine (lawful_external (.loadTarget ..) rfl).bind fun _ => ?_
    refine (lawful_external (.verifyReceipt ..) rfl).bind fun _ => ?_
    refine (lawful_external (.audit ..) rfl).bind fun _ => ?_
    refine (keeping_serializeReceipt lasting_true.toKept user receipt _).lawful.bind fun _ => ?_
    exact lawful_serializeAction _ _ _
  case h_2 => exact lawful_throw _

/-- The checks leave the action locked and ready. -/
theorem ensures_recheckP2p {A : ι → Store ι Key (Record I) (External I) → Prop}
    (hA : discipline.Kept A) :
    (requests I ι).Ensures A (recheckP2p user args) fun r i s =>
      IsLocked args.actionId r.1 i s ∧ LocksReady args.actionId args.digest args.key i s ∧
        A i s := by
  have hready := (kept_locksReady (ι := ι) (I := I) args.actionId args.digest args.key).and hA
  have hready' := (kept_locksReady (ι := ι) (I := I) args.actionId args.digest args.key).and hready
  refine (ensures_preExecuteRecheck hA user _ _ _).bind fun _ => ?_
  refine (keeping_lockRunForAction hready args.actionId).bind fun run => ?_
  refine (ensures_lockAction hready args.actionId).bind fun locked => ?_
  have hlocked := (kept_isLocked args.actionId locked).and hready
  refine (keeping_external hlocked (.dependencies _) rfl).bind fun _ => ?_
  refine .ite (fun _ => ?_) fun _ => System.ensures_pure hlocked.steady fun _ _ _ => id
  refine System.Ensures.pre (A := fun i s =>
    LocksReady args.actionId args.digest args.key i s ∧ A i s) ?_ fun _ _ _ => And.right
  refine (ensures_preExecuteRecheck hready user _ _ _).bind fun _ => ?_
  refine (keeping_lockRunForAction hready' args.actionId).bind fun run => ?_
  refine (ensures_lockAction hready' args.actionId).bind fun locked => ?_
  exact System.ensures_pure ((kept_isLocked args.actionId locked).and hready').steady
    fun _ _ _ h => ⟨h.1, h.2.2⟩

theorem ensures_performP2p {a : ProposedAction I} (ha : AskedFor args a)
    {reservation : Reservation} (hstarted : StartedFor reservation a) (locked : LockedAction I)
    (run : RunRow) :
    (requests I ι).Ensures
      (fun i s => IsLocked args.actionId locked i s ∧
        LocksReady args.actionId args.digest args.key i s ∧
        discipline.Owns (.reservation args.key) i s)
      (performP2p user args reservation locked run) fun _ _ _ => True := by
  refine ensures_write fun target hid hkey => ?_
  have hopen : OpenFor reservation locked.action :=
    { isOpen := hstarted.openFor.isOpen
      action := hstarted.action.trans (ha.actionId.trans hid.symm)
      idempotencyKey := hstarted.idempotencyKey.trans (ha.idempotencyKey.trans hkey.symm) }
  refine lawful_concludes hopen rfl fun row => ?_
  refine (lawful_external (.audit ..) rfl).bind fun _ => ?_
  refine (lawful_external (.syncPlan _) rfl).bind fun _ => ?_
  refine lawful_commit.bind fun _ => ?_
  exact (lawful_getAction _).bind fun stored => lawful_serializeAction _ _ _

theorem ensures_operateP2p {a : ProposedAction I} (ha : AskedFor args a) {reservation : Reservation}
    (hstarted : StartedFor reservation a) (run : RunRow) :
    (requests I ι).Ensures
      (fun i s => discipline.Owns (.reservation args.key) i s ∧ Commits (Begun a) i s)
      (operateP2p user args reservation run) fun _ _ _ => True := by
  have hfirm := firm_commits (ι := ι) (ρ := External.Value) (ε := Raised) (persists_begun a)
  have hA := ((lasting_owns (ι := ι) (D := discipline (I := I)) (.reservation args.key)).toKept).and
    (kept_commits (persists_begun a))
  refine System.Ensures.bind (B := fun r i s => (IsLocked args.actionId r.1 i s ∧
    LocksReady args.actionId args.digest args.key i s ∧
    discipline.Owns (.reservation args.key) i s) ∧ Commits (Begun a) i s) ?_ fun r => ?_
  · refine System.Ensures.pre (A := fun i s =>
      (discipline.Owns (.reservation args.key) i s ∧ Commits (Begun a) i s) ∧
        Commits (Begun a) i s) ?_ fun _ _ _ h => ⟨h, h.2⟩
    refine System.Ensures.catching_of_firm ?_ hfirm fun e => ensures_failP2p user args ha _ _ _ e
    refine (ensures_recheckP2p user args hA).bind fun r => ?_
    have hchecked := (kept_isLocked args.actionId r.1).and ((kept_locksReady (ι := ι)
      args.actionId args.digest args.key).and hA)
    refine (keeping_external hchecked (.prepare _) rfl).bind fun _ => ?_
    refine System.ensures_pure hchecked.steady fun i s _ h => ?_
    exact ⟨⟨h.1, h.2.1, h.2.2.1⟩, h.2.2.2⟩
  · exact (ensures_performP2p user args ha hstarted r.1 r.2).catching_of_firm hfirm fun e =>
      ensures_failP2p user args ha _ _ _ e

theorem lawful_releaseSource (locks : List Text) :
    (requests I ι).Lawful (releaseSource (I := I) locks) :=
  (lawful_external (.releaseSource locks) rfl).catching fun _ => lawful_pure ()

theorem ensures_executeP2pReserved {a : ProposedAction I} (ha : AskedFor args a)
    {reservation : Reservation} (hstarted : StartedFor reservation a) (action : ProposedAction I)
    (run : RunRow) :
    (requests I ι).Ensures
      (fun i s => discipline.Owns (.reservation args.key) i s ∧ Commits (Begun a) i s)
      (executeP2pReserved user args action reservation run) fun _ _ _ => True := by
  have hfirm := firm_commits (ι := ι) (ρ := External.Value) (ε := Raised) (persists_begun a)
  have hA := ((lasting_owns (ι := ι) (D := discipline (I := I)) (.reservation args.key)).toKept).and
    (kept_commits (persists_begun a))
  refine System.Ensures.bind (B := fun _ i s =>
    discipline.Owns (.reservation args.key) i s ∧ Commits (Begun a) i s) ?_ fun locks => ?_
  · refine System.Ensures.pre (A := fun i s =>
      (discipline.Owns (.reservation args.key) i s ∧ Commits (Begun a) i s) ∧
        Commits (Begun a) i s) ?_ fun _ _ _ h => ⟨h, h.2⟩
    exact (keeping_external hA (.lockSource action) rfl).catching_of_firm hfirm fun e =>
      ensures_failP2p user args ha _ _ _ e
  · refine System.Ensures.bind (System.Ensures.catching
      (ensures_operateP2p user args ha hstarted run) fun e => ?_)
      fun _ => (lawful_releaseSource locks).ensures
    exact (lawful_releaseSource locks).then fun _ => System.ensures_throw _

theorem lawful_executeP2pNew {key : ExecutionKey} (hkey : key.idempotencyKey = args.key)
    (hdigest : key.proposalDigest = args.digest) :
    (requests I ι).Lawful (executeP2pNew (I := I) user args key) := by
  refine ensures_lockNew user args fun run locked ha hsame => ?_
  refine (ensures_insertReservation (hkey.trans ha.idempotencyKey.symm)
    (hdigest.trans hsame.symm)).bind fun r => ?_
  obtain ⟨reservation, created⟩ := r
  refine .ite (fun _ => System.ensures_throw _) fun hcreated => ?_
  rw [Bool.not_eq_false] at hcreated
  refine System.Ensures.pre (A := fun i s => StartedFor reservation locked.action ∧
    Creates (.reservation locked.action.idempotencyKey) (.reservation reservation) i s ∧
    Shows (Reads locked.action) i s) ?_ fun i s _ h => h hcreated
  refine System.ensures_of_imp fun hstarted => ?_
  refine (ensures_commitReservation hstarted run).bind fun _ => ?_
  rw [ha.idempotencyKey]
  exact ensures_executeP2pReserved user args ha hstarted _ _

theorem lawful_executeP2p : (requests I ι).Lawful (executeP2p (I := I) user args) := by
  refine (keeping_authenticate lasting_true.toKept user).lawful.bind fun _ => ?_
  refine (lawful_lockRunForAction _).bind fun run => ?_
  refine (lawful_lockAction _).bind fun locked => ?_
  refine System.lawful_unless fun _ => ?_
  refine System.lawful_unless fun _ => ?_
  refine System.lawful_unless fun hdigest => ?_
  refine System.lawful_unless fun hkey => ?_
  simp only [not_or, not_not] at hdigest hkey
  refine (lawful_external (.dependencies _) rfl).bind fun _ => ?_
  refine System.Ensures.lawful (C := fun _ _ _ => True) ?_
  refine (ensures_lift lasting_true.toKept _).bind fun key => ?_
  refine System.ensures_of_imp fun hexecution => System.Lawful.ensures ?_
  obtain ⟨hsame, hsameDigest⟩ := of_executionKey hexecution
  refine (keeping_reservationByKey lasting_true.toKept _).lawful.bind fun existing => ?_
  cases existing with
  | some existing =>
      refine (keeping_reservationIdentityMatches lasting_true.toKept _ _ _ _).lawful.bind fun _ => ?_
      refine .ite (fun _ => lawful_replayP2p _ _ _ _) fun _ => ?_
      extract_lets settle
      have hsettle : ∀ expired, (requests I ι).Lawful (settle expired) := fun expired => by
        refine .ite (fun _ => lawful_reconcileP2p user args) fun _ => ?_
        exact .ite (fun _ => lawful_throw _) fun _ => lawful_throw _
      refine .ite (fun _ => ?_) fun _ => (lawful_pure false).bind hsettle
      exact (keeping_leaseExpired lasting_true.toKept _).lawful.bind hsettle
  | none => exact lawful_executeP2pNew user args (hsame.trans hkey) (hsameDigest.trans hdigest.2)

/-! ## Requests -/

theorem lawful_persistProposedAction (a : ProposedAction I) :
    (requests I ι).Lawful (persistProposedAction user a) := by
  refine (keeping_authenticate lasting_true.toKept user).lawful.bind fun _ => ?_
  refine System.lawful_unless fun _ => ?_
  refine (lawful_external (.runInitiator _) rfl).bind fun owner => ?_
  cases owner with
  | none => exact lawful_throw _
  | some owner =>
      refine System.lawful_unless fun _ => ?_
      refine (lawful_external (.keyTaken _) rfl).bind fun taken => ?_
      refine System.lawful_unless fun _ => ?_
      refine (lawful_lift _).bind fun _ => ?_
      extract_lets row
      refine System.Ensures.lawful (C := fun _ _ _ => True) ?_
      refine System.Ensures.bind (System.Ensures.pre (ensures_insert lasting_true.toKept
        lasting_true fun i s _ _ => ⟨⟨rfl, rfl⟩, rfl⟩) fun _ _ _ _ => ⟨trivial, trivial⟩)
        fun created => ?_
      exact System.ensures_unless fun _ => (lawful_serializeAction _ _ _).ensures

theorem lawful_program (request : Request I) :
    (requests I ι).Lawful (request.program user) := by
  cases request with
  | persistProposedAction a => exact lawful_persistProposedAction user a
  | transitionActionState actionId move =>
      exact (keeping_transitionActionState lasting_true user actionId move).lawful
  | executeMaterialRequest args => exact lawful_executeDraft materialRequest user args
  | reconcileMaterialRequest args => exact lawful_reconcileDraft materialRequest user args
  | executePurchaseOrder args => exact lawful_executeDraft purchaseOrder user args
  | reconcilePurchaseOrder args => exact lawful_reconcileDraft purchaseOrder user args
  | executeP2pAction args => exact lawful_executeP2p user args
  | reconcileP2pAction args => exact lawful_reconcileP2p user args
  | abandon => exact lawful_rollback

theorem lawful_of_entry {p : Prog I Unit} (h : Entry p) : (requests I ι).Lawful p := by
  obtain ⟨user, request, rfl⟩ := h
  exact ((lawful_program user request).bind fun _ => lawful_commit).catching fun _ =>
    .ite (fun _ => lawful_commit) fun _ => lawful_rollback

end Execution
