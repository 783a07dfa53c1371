import SynoraErp.Execution.Settling

/-!
# The executors are lawful

An executor writes to the ERP only with its action locked and approved and past the commit of
a reservation that it has created, and it settles the reservation last. What a handler counts
on is what was committed with the reservation.
-/

namespace Execution

open Python Governance
open Transition Transition.Documents Transition.Documents.Discipline

variable {I : Interpreter} {ι : Type} [DecidableEq ι] {α : Type}
  {A : ι → Store ι Key (Record I) (External I) → Prop}

/-! ## Programs that only read -/

theorem lawful_external (x : External I) (hsubject : discipline.subject x = none) :
    (requests I ι).Lawful (external x) :=
  (keeping_external lasting_true.toKept x hsubject).lawful

theorem lawful_lift (result : Result α) : (requests I ι).Lawful (lift result) :=
  (keeping_lift lasting_true.toKept result).lawful

theorem lawful_pure (a : α) : (requests I ι).Lawful (pure a : Prog I α) := System.lawful_pure a

theorem lawful_throw (e : Raised) : (requests I ι).Lawful (throw e : Prog I α) :=
  System.lawful_throw e

theorem lawful_getAction (actionId : Uuid) : (requests I ι).Lawful (getAction actionId) :=
  (keeping_getAction lasting_true.toKept actionId).lawful

theorem lawful_lockRunForAction (actionId : Uuid) :
    (requests I ι).Lawful (lockRunForAction actionId) :=
  (keeping_lockRunForAction lasting_true.toKept actionId).lawful

theorem lawful_lockAction (actionId : Uuid) : (requests I ι).Lawful (lockAction actionId) :=
  (keeping_lockAction lasting_true.toKept actionId).lawful

theorem lawful_serializeAction (user : Text) (row : StoredAction I) (allowedActor : Option Text) :
    (requests I ι).Lawful (serializeAction user row allowedActor) :=
  (keeping_serializeAction lasting_true.toKept user row allowedActor).lawful

theorem lawful_serializeReceiptForActor (user : Text) (a : ProposedAction I)
    (receipt : ExecutionReceipt) (actor : Text) :
    (requests I ι).Lawful (serializeReceiptForActor user a receipt actor) := by
  refine (lawful_external (.verifyReceipt ..) rfl).bind fun _ => ?_
  exact (keeping_serializeReceipt lasting_true.toKept user receipt _).lawful

theorem keeping_checkReader (hA : discipline.Kept A) (W : DraftWriter) (user : Text) :
    (requests I ι).Keeping A (checkReader W user) := by
  refine (keeping_external hA (.enabled user) rfl).bind fun enabled => ?_
  refine System.ensures_unless fun _ => ?_
  refine (keeping_external hA (.hasPermission ..) rfl).bind fun permitted => ?_
  exact System.ensures_unless fun _ => keeping_pure hA ()

theorem keeping_namedReceipt (hA : discipline.Kept A) (reservation : Reservation)
    (missing : Raised) : (requests I ι).Keeping A (namedReceipt reservation missing) := by
  unfold namedReceipt
  split
  · exact keeping_pure hA none
  · exact (keeping_getReceipt hA _ _ _).bind fun receipt => keeping_pure hA _

theorem keeping_leaseExpired (hA : discipline.Kept A) (reservation : Reservation) :
    (requests I ι).Keeping A (leaseExpired reservation) :=
  (keeping_external hA .now rfl).bind fun _ => keeping_pure hA _

theorem lawful_rollbackQuietly : (requests I ι).Lawful rollbackQuietly :=
  lawful_rollback.catching fun _ => lawful_pure ()

theorem lawful_replaySuccess (W : DraftWriter) (user : Text) (locked : LockedAction I)
    (run : RunRow) (reservation : Reservation) :
    (requests I ι).Lawful (replaySuccess W user locked run reservation) := by
  refine (lawful_lift _).bind fun key => ?_
  refine (keeping_reservationIdentityMatches lasting_true.toKept _ _ _ _).lawful.bind fun _ => ?_
  refine System.lawful_unless fun _ => ?_
  refine (keeping_checkReader lasting_true.toKept W user).lawful.bind fun _ => ?_
  split
  case h_1 receiptId targetName _ _ =>
    refine (keeping_getReceipt lasting_true.toKept _ _ _).lawful.bind fun receipt => ?_
    refine System.lawful_unless fun _ => ?_
    refine (lawful_serializeReceiptForActor _ _ _ _).bind fun _ => ?_
    refine (lawful_external (.audit ..) rfl).bind fun _ => ?_
    exact lawful_commit.bind fun _ => lawful_serializeAction _ _ _
  case h_2 => exact lawful_throw _

theorem lawful_reconciliationResponse (user : Text) (doc : StoredAction I)
    (reservation : Reservation) (receipt : Option ExecutionReceipt) :
    (requests I ι).Lawful (reconciliationResponse user doc reservation receipt) := by
  refine (lawful_lift _).bind fun a => ?_
  cases receipt with
  | none => exact .ite (fun _ => lawful_throw _) fun _ => lawful_serializeAction _ _ _
  | some receipt =>
      exact (lawful_serializeReceiptForActor _ _ _ _).bind fun _ => lawful_serializeAction _ _ _

theorem lawful_reconciliationCandidates (a : ProposedAction I) (reservation : Reservation) :
    (requests I ι).Lawful (reconciliationCandidates a reservation) := by
  have hmatching : ∀ names : List Text, (requests I ι).Lawful
      (names.foldlM
        (fun (found : List (Text × Dict)) name =>
          tryCatch
            (do
              external (.loadTarget a name)
              let verified ← external (.readBack a name)
              pure (found ++ [(name, verified)]))
            fun e =>
              if e = .other "ReadBackMismatch" ∨ e = doesNotExist then pure found
              else throw e) [] >>= fun matching => (pure (names, matching) : Prog I _)) := fun names =>
    (System.lawful_foldlM [] fun found name =>
      ((lawful_external (.loadTarget ..) rfl).bind fun _ =>
        (lawful_external (.readBack ..) rfl).bind fun verified => lawful_pure _).catching
        fun _ => .ite (fun _ => lawful_pure _) fun _ => lawful_throw _).bind fun _ => lawful_pure _
  unfold reconciliationCandidates
  split
  · exact (lawful_pure _).bind hmatching
  · exact (lawful_external (.candidates a) rfl).bind hmatching

/-! ## What is recorded of a failure -/

/-- The action that a request names, with the key that it was given. -/
structure AskedFor (args : Arguments) (a : ProposedAction I) : Prop where
  actionId : a.actionId = args.actionId
  idempotencyKey : a.idempotencyKey = args.key

omit [DecidableEq ι] in
/-- What was committed with a reservation is what is loaded later. -/
theorem eq_of_commits {a : ProposedAction I} {row : StoredAction I} {i : ι}
    {s : Store ι Key (Record I) (External I)} (hs : discipline.Consistent s)
    (hreads : Shows (Reads row.action) i s) (hid : row.action.actionId = a.actionId)
    (hcommits : Commits (Begun a) i s) : row.action = a := by
  obtain ⟨stored, hstored, hcontent⟩ := hreads
  obtain ⟨⟨stored', hstored', hcontent'⟩, -⟩ := hcommits.shows (persists_begun a) hs
  rw [hid] at hstored
  have hsame : stored = stored' := Record.action.inj (Option.some.inj (hstored.symm.trans hstored'))
  rw [← hcontent, ← hcontent', hsame]

/-- The reservation, the action and its content that a failure is recorded for. -/
theorem ensures_getFailed {args : Arguments} {a : ProposedAction I} (ha : AskedFor args a)
    {reservationId : Uuid} {rest : Reservation → StoredAction I → RunRow → ProposedAction I → Prog I Unit}
    (hrest : ∀ reservation doc run, (reservation.status = .started → StartedFor reservation a) →
      (requests I ι).Lawful (rest reservation doc run a)) :
    (requests I ι).Ensures (Commits (Begun a))
      (do
        let reservation ← getReservation args.key reservationId
        let doc ← getAction args.actionId
        let run ← external (.getRun reservation.identity.run)
        let action ← loadActionFromDoc doc
        rest reservation doc run action) fun _ _ _ => True := by
  have hcommits := kept_commits (ι := ι) (persists_begun a)
  refine (ensures_getReservation
    (P := fun row => row.status = .started → StartedFor row a)
    hcommits fun i s row hs hbegun hrow hstatus => ?_).bind fun reservation => ?_
  · obtain ⟨later, hlater, hkey, hsame, -⟩ := precedes_of_get hs hrow
    obtain ⟨-, row', hrow', haction⟩ := hbegun.shows (persists_begun a) hs
    rw [ha.idempotencyKey, hlater] at hrow'
    obtain rfl := Record.reservation.inj (Option.some.inj hrow')
    refine ⟨hstatus, hsame ▸ haction, ?_⟩
    rw [← hsame, hkey, ha.idempotencyKey]
  · refine System.ensures_of_imp fun hstarted => ?_
    refine (ensures_getAction hcommits args.actionId).bind fun doc => ?_
    refine System.Ensures.pre (A := fun i s => doc.action = a ∧ True) ?_ fun i s hs h =>
      ⟨eq_of_commits hs h.1.2 (h.1.1.trans ha.actionId.symm) h.2, trivial⟩
    refine System.ensures_of_imp fun hdoc => ?_
    refine (keeping_external lasting_true.toKept (.getRun _) rfl).bind fun run => ?_
    refine (ensures_loadActionFromDoc lasting_true.toKept doc).bind fun action => ?_
    refine System.ensures_of_imp fun haction => ?_
    obtain rfl : action = a := haction.trans hdoc
    exact (hrest reservation doc run hstarted).ensures

theorem isSuccess_eq_false {state : ReceiptState} :
    state.isSuccess = false ↔ state ≠ .succeeded ∧ state ≠ .reconciledSuccess := by
  cases state <;> simp [ReceiptState.isSuccess]

theorem isSuccess_failedState (isUncertain : Bool) : (failedState isUncertain).isSuccess = false := by
  cases isUncertain <;> rfl

theorem ensures_recordFailure {args : Arguments} {a : ProposedAction I} (ha : AskedFor args a)
    (user : Text) (reservationId : Uuid) (failure : Failure) :
    (requests I ι).Ensures (Commits (Begun a)) (recordFailure user args reservationId failure)
      fun _ _ _ => True := by
  unfold recordFailure
  extract_lets isUncertain
  refine ensures_getFailed ha fun reservation doc run hstarted => ?_
  refine .ite (fun _ => lawful_pure ()) fun hstatus => ?_
  have hopen := (hstarted (not_not.mp hstatus)).openFor
  refine (keeping_boundedText lasting_true.toKept _ _ _).lawful.bind fun name => ?_
  refine System.Ensures.lawful (C := fun _ _ _ => True) ?_
  refine (ensures_newReceipt lasting_true.toKept a reservation _).bind fun receipt => ?_
  refine System.ensures_of_imp fun hreceipt => ?_
  refine System.Ensures.bind (B := fun _ => Stores receipt)
    ((ensures_persistExecutionReceipt lasting_true user receipt false).post
      fun _ _ _ _ => And.left) fun _ => ?_
  have hupdate : (requests I ι).Ensures (Stores receipt)
      (updateReservation reservation (failedState isUncertain)
        { receipt := some receipt.receiptId
          responseCategory := some (if isUncertain = true then uncertainResult else failure.category)
          failureCategory := some name } >>= fun _ => do
        let run ← external (.closeRun run (failedRunState isUncertain)
          reservation.identity.correlationId)
        external (.audit run reservation.identity.correlationId "REJECTED" (some name.text))
        call .commit) fun _ _ _ => True := by
    refine ensures_update_of_failure hopen hreceipt rfl rfl
      (isSuccess_failedState isUncertain) fun _ => ?_
    refine (lawful_external (.closeRun ..) rfl).bind fun run => ?_
    exact (lawful_external (.audit ..) rfl).bind fun _ => lawful_commit
  refine .ite (fun _ => ?_) fun _ => hupdate
  exact (keeping_transitionActionState (lasting_stores receipt) user _ _).bind fun _ => hupdate

theorem ensures_finalizeFailure {args : Arguments} {a : ProposedAction I} (ha : AskedFor args a)
    (user : Text) (reservationId : Uuid) (failure : Failure) :
    (requests I ι).Ensures (Commits (Begun a)) (finalizeFailure user args reservationId failure)
      fun _ _ _ => True :=
  (ensures_recordFailure ha user reservationId failure).catching fun _ =>
    lawful_rollbackQuietly.ensures

/-! ## A write to the ERP -/

/-- With its action locked and ready, a connection writes for a reservation of its own. -/
theorem ensures_write {actionId : Uuid} {digest : Digest} {key : IdempotencyKey}
    {locked : LockedAction I} {rest : Text → Prog I Unit}
    (hrest : ∀ target, locked.action.actionId = actionId → locked.action.idempotencyKey = key →
      (requests I ι).Lawful (rest target)) :
    (requests I ι).Ensures
      (fun i s => IsLocked actionId locked i s ∧ LocksReady actionId digest key i s ∧
        discipline.Owns (.reservation key) i s)
      (external (.write locked.action) >>= rest) fun _ _ _ => True := by
  have hA := (kept_isLocked (ι := ι) actionId locked).and
    ((kept_locksReady actionId digest key).and (lasting_owns (.reservation key)).toKept)
  refine System.Ensures.pre (A := fun i s =>
    (locked.action.actionId = actionId ∧ locked.action.idempotencyKey = key) ∧
      IsLocked actionId locked i s ∧ LocksReady actionId digest key i s ∧
      discipline.Owns (.reservation key) i s) ?_ fun i s _ h => ⟨?_, h⟩
  · refine System.ensures_of_imp fun hsame => ?_
    refine System.Ensures.bind (ensures_external hA (.write locked.action)
      (k := .reservation locked.action.idempotencyKey) rfl (fun i s h => ?_) (fun i s h => ?_)
      (M := fun _ => True) (fun _ _ _ => id) fun _ _ _ => trivial)
      fun target => (hrest target hsame.1 hsame.2).ensures
    · rw [hsame.2]
      exact h.2.2
    · exact approved_of_isLocked h.2.1 h.1
  · have hready := ready_of_isLocked h.2.1 h.1
    obtain ⟨⟨⟨hid, -, hcontent⟩, -⟩, -⟩ := h
    exact ⟨hid, hcontent ▸ hready.idempotencyKey⟩

/-- The records of a write are brought to their last state. -/
theorem lawful_concludes {user : Text} {a : ProposedAction I} {reservation : Reservation}
    {target : Text} {move : ActionMove} {rest : Reservation → Prog I Unit}
    (hopen : OpenFor reservation a) (hmove : move.target = .executed)
    (hrest : ∀ row, (requests I ι).Lawful (rest row)) :
    (requests I ι).Lawful (do
      let verified ← external (.readBack a target)
      let targetName ← boundedText target "target_name" 140
      let receipt ← newReceipt a reservation
        { finalState := .succeeded
          responseCategory := erpSuccess
          failureCategory := none
          targetName := some targetName
          verifiedFields := verified
          reconciliationEvidence := none }
      persistExecutionReceipt user receipt true
      transitionActionState user a.actionId move
      let row ← updateReservation reservation .succeeded
        { targetName := some targetName
          receipt := some receipt.receiptId
          responseCategory := some erpSuccess }
      rest row) := by
  refine (lawful_external (.readBack ..) rfl).bind fun verified => ?_
  refine (keeping_boundedText lasting_true.toKept _ _ _).lawful.bind fun targetName => ?_
  refine System.Ensures.lawful (C := fun _ _ _ => True) ?_
  refine (ensures_newReceipt lasting_true.toKept a reservation _).bind fun receipt => ?_
  refine System.ensures_of_imp fun hreceipt => ?_
  refine System.Ensures.bind (B := fun _ => Stores receipt)
    ((ensures_persistExecutionReceipt lasting_true user receipt true).post
      fun _ _ _ _ => And.left) fun _ => ?_
  exact ensures_update_of_success hopen hreceipt rfl rfl rfl hmove hrest

/-! ## Material Requests and Purchase Orders -/

variable (W : DraftWriter) (user : Text) (args : Arguments)

theorem ensures_performDraft {a : ProposedAction I} (ha : AskedFor args a)
    {reservation : Reservation} (hstarted : StartedFor reservation a) :
    (requests I ι).Ensures (discipline.Owns (.reservation a.idempotencyKey))
      (performDraft W user args reservation) fun _ _ _ => True := by
  have howns := (lasting_owns (ι := ι) (D := discipline (I := I))
    (.reservation a.idempotencyKey)).toKept
  have hready := (kept_locksReady (ι := ι) (I := I) args.actionId args.digest args.key).and howns
  unfold performDraft
  refine (ensures_preExecuteRecheck howns user _ _ _).bind fun _ => ?_
  refine (keeping_lockRunForAction hready args.actionId).bind fun run => ?_
  refine (ensures_lockAction hready args.actionId).bind fun locked => ?_
  rw [ha.idempotencyKey]
  refine ensures_write fun target hid hkey => ?_
  have hopen : OpenFor reservation locked.action :=
    { isOpen := hstarted.openFor.isOpen
      action := hstarted.action.trans (ha.actionId.trans hid.symm)
      idempotencyKey := hstarted.idempotencyKey.trans (ha.idempotencyKey.trans hkey.symm) }
  refine lawful_concludes hopen rfl fun row => ?_
  refine (lawful_external (.closeRun ..) rfl).bind fun run => ?_
  refine (lawful_external (.audit ..) rfl).bind fun _ => ?_
  refine lawful_commit.bind fun _ => ?_
  exact (lawful_getAction _).bind fun stored => lawful_serializeAction _ _ _

theorem ensures_executeReserved {a : ProposedAction I} (ha : AskedFor args a)
    {reservation : Reservation} (hstarted : StartedFor reservation a) :
    (requests I ι).Ensures
      (fun i s => discipline.Owns (.reservation a.idempotencyKey) i s ∧ Commits (Begun a) i s)
      (executeReserved W user args reservation) fun _ _ _ => True := by
  refine (ensures_performDraft W user args ha hstarted).catching_of_firm
    (firm_commits (persists_begun a)) fun e => ?_
  refine (lawful_rollbackQuietly.keeping (firm_commits (persists_begun a))).bind fun _ => ?_
  exact (ensures_finalizeFailure ha user _ _).bind fun _ => System.ensures_throw _

/-- The action that is locked for a new reservation is the one that was asked for. -/
theorem ensures_lockNew {rest : RunRow → LockedAction I → Prog I Unit}
    (hrest : ∀ run locked, AskedFor args locked.action → locked.action.digest = args.digest →
      (requests I ι).Ensures (Shows (Reads locked.action)) (rest run locked) fun _ _ _ => True) :
    (requests I ι).Lawful (do
      preExecuteRecheck user args.actionId args.digest args.key
      let run ← lockRunForAction args.actionId
      let locked ← lockAction args.actionId
      rest run locked) := by
  have hready := (kept_locksReady (ι := ι) (I := I) args.actionId args.digest args.key).and
    lasting_true.toKept
  refine System.Ensures.lawful (C := fun _ _ _ => True) ?_
  refine (ensures_preExecuteRecheck lasting_true.toKept user _ _ _).bind fun _ => ?_
  refine (keeping_lockRunForAction hready args.actionId).bind fun run => ?_
  refine (ensures_lockAction hready args.actionId).bind fun locked => ?_
  refine System.Ensures.pre (A := fun i s =>
    (AskedFor args locked.action ∧ locked.action.digest = args.digest) ∧
      Shows (Reads locked.action) i s) ?_ fun i s _ h => ?_
  · exact System.ensures_of_imp fun h => hrest run locked h.1 h.2
  · have hready := ready_of_isLocked h.2.1 h.1
    obtain ⟨⟨⟨hid, -, hcontent⟩, hreads, -⟩, -⟩ := h
    exact ⟨⟨⟨hid, hcontent ▸ hready.idempotencyKey⟩, hcontent ▸ hready.digest⟩, hreads⟩

theorem lawful_executeNew {key : ExecutionKey} (hkey : key.idempotencyKey = args.key)
    (hdigest : key.proposalDigest = args.digest) :
    (requests I ι).Lawful (executeNew (I := I) W user args key) := by
  refine ensures_lockNew user args fun run locked ha hsame => ?_
  refine System.ensures_unless fun _ => ?_
  refine (ensures_insertReservation (hkey.trans ha.idempotencyKey.symm)
    (hdigest.trans hsame.symm)).bind fun r => ?_
  obtain ⟨reservation, created⟩ := r
  refine .ite (fun _ => ?_) fun hcreated => ?_
  · refine System.Ensures.pre (A := fun _ _ => True) ?_ fun _ _ _ _ => trivial
    refine System.Lawful.ensures (.ite (fun _ => ?_) fun _ => lawful_throw _)
    refine lawful_rollback.bind fun _ => ?_
    refine (lawful_lockRunForAction _).bind fun run => ?_
    exact (lawful_lockAction _).bind fun locked => lawful_replaySuccess _ _ _ _ _
  · rw [Bool.not_eq_false] at hcreated
    refine System.Ensures.pre (A := fun i s => StartedFor reservation locked.action ∧
      Creates (.reservation locked.action.idempotencyKey) (.reservation reservation) i s ∧
      Shows (Reads locked.action) i s) ?_ fun i s _ h => h hcreated
    refine System.ensures_of_imp fun hstarted => ?_
    exact (ensures_commitReservation hstarted run).bind fun _ =>
      ensures_executeReserved W user args ha hstarted

theorem lawful_executeDraft : (requests I ι).Lawful (executeDraft (I := I) W user args) := by
  refine (keeping_authenticate lasting_true.toKept user).lawful.bind fun _ => ?_
  refine (lawful_lockRunForAction _).bind fun run => ?_
  refine (lawful_lockAction _).bind fun locked => ?_
  refine System.lawful_unless fun _ => ?_
  refine System.lawful_unless fun _ => ?_
  refine System.lawful_unless fun _ => ?_
  refine (lawful_lift _).bind fun key => ?_
  refine System.lawful_unless fun hkey => ?_
  simp only [not_or, not_not] at hkey
  refine (keeping_reservationByKey lasting_true.toKept _).lawful.bind fun existing => ?_
  cases existing with
  | some existing =>
      refine (keeping_reservationIdentityMatches lasting_true.toKept _ _ _ _).lawful.bind fun _ => ?_
      refine .ite (fun _ => lawful_replaySuccess _ _ _ _ _) fun _ => ?_
      exact .ite (fun _ => lawful_throw _) fun _ => lawful_throw _
  | none => exact lawful_executeNew W user args hkey.2 hkey.1

/-! ## Reconciliation -/

theorem lawful_settleDraft {locked : LockedAction I} {reservation : Reservation}
    (hopen : OpenFor reservation locked.action) {classification : Classification}
    (hclassified : classification.status ≠ .succeeded) (run : RunRow)
    (existing : Option ExecutionReceipt) (target : Option (RequiredText 140))
    (verified evidence : Dict) :
    (requests I ι).Lawful (settleDraft W user args locked run reservation existing classification
      target verified evidence) := by
  unfold settleDraft
  extract_lets isSuccess category
  refine (keeping_boundedText lasting_true.toKept _ _ _).lawful.bind fun name => ?_
  extract_lets failure
  refine System.Ensures.lawful (C := fun _ _ _ => True) ?_
  refine (ensures_reconciliationReceipt lasting_true.toKept _ reservation existing _).bind
    fun receipt => ?_
  refine System.ensures_of_imp fun hreceipt => ?_
  refine System.Ensures.bind (B := fun _ => Stores receipt)
    ((ensures_storeReceipt lasting_true user existing receipt).post fun _ _ _ _ => And.left)
    fun _ => ?_
  have hlast : (requests I ι).Lawful (do
      call .commit
      let stored ← getAction locked.action.actionId
      reconciliationResponse user stored reservation (some receipt)) :=
    lawful_commit.bind fun _ => (lawful_getAction _).bind fun stored =>
      lawful_reconciliationResponse _ _ _ _
  refine .ite (fun hsuccess => ?_) fun hfailure => ?_
  · have hstate : classification.status = .reconciledSuccess := of_decide_eq_true hsuccess
    refine ensures_update_of_success hopen hreceipt rfl hstate rfl rfl fun _ => ?_
    refine (lawful_external (.closeRun ..) rfl).bind fun run => ?_
    exact (lawful_external (.audit ..) rfl).bind fun _ => hlast
  · have hstate : classification.status.isSuccess = false := by
      rw [isSuccess_eq_false]
      exact ⟨hclassified, fun h => hfailure (decide_eq_true h)⟩
    extract_lets close rest
    have hclose : ∀ run, (requests I ι).Lawful (close run) := fun run =>
      (lawful_external (.closeRun ..) rfl).bind fun run =>
        (lawful_external (.audit ..) rfl).bind fun _ => hlast
    have hrest : ∀ r, (requests I ι).Ensures (Stores receipt) (rest r) fun _ _ _ => True := by
      refine fun _ => ensures_update_of_failure hopen hreceipt rfl rfl hstate fun _ => ?_
      refine .ite (fun _ => ?_) fun _ => (lawful_pure _).bind hclose
      exact (lawful_external (.setRunState ..) rfl).bind hclose
    refine .ite (fun _ => ?_) fun _ => hrest ()
    exact (keeping_transitionActionState (lasting_stores receipt) user _ _).bind hrest

theorem classifyReconciliation_ne_succeeded {candidateCount matchingCount : ℕ}
    {leaseExpired failureEvidenceComplete : Bool} {classification : Classification}
    (h : classifyReconciliation candidateCount matchingCount leaseExpired failureEvidenceComplete =
      .ok classification) : classification.status ≠ .succeeded := by
  unfold classifyReconciliation at h
  split_ifs at h <;> cases h <;> simp

theorem lawful_reconcileOpen {locked : LockedAction I} {reservation : Reservation}
    (hopen : OpenFor reservation locked.action) (run : RunRow)
    (existing : Option ExecutionReceipt) :
    (requests I ι).Lawful (reconcileOpen W user args locked run reservation existing) := by
  refine (lawful_reconciliationCandidates _ _).bind fun r => ?_
  obtain ⟨candidates, matching⟩ := r
  refine System.Ensures.lawful (C := fun _ _ _ => True) ?_
  refine (ensures_lift lasting_true.toKept _).bind fun found => ?_
  refine System.ensures_of_imp fun hfound => ?_
  refine (ensures_requireReconciliation lasting_true hopen).bind fun reservation => ?_
  refine System.ensures_of_imp fun hopen => ?_
  extract_lets classification evidence
  have hclassified : classification.status ≠ .succeeded := by
    change (downgraded found locked.doc.state).status ≠ _
    unfold downgraded
    split_ifs
    · simp
    · exact classifyReconciliation_ne_succeeded hfound
  refine System.Lawful.ensures ?_
  split
  · refine (keeping_boundedText lasting_true.toKept _ _ _).lawful.bind fun target => ?_
    exact lawful_settleDraft W user args hopen hclassified _ _ _ _ _
  · exact lawful_settleDraft W user args hopen hclassified _ _ _ _ _

theorem lawful_reconcileDraft : (requests I ι).Lawful (reconcileDraft (I := I) W user args) := by
  refine (keeping_authenticate lasting_true.toKept user).lawful.bind fun _ => ?_
  refine (lawful_lockRunForAction _).bind fun run => ?_
  refine (lawful_lockAction _).bind fun locked => ?_
  refine System.lawful_unless fun _ => ?_
  refine System.lawful_unless fun _ => ?_
  refine System.Ensures.lawful (C := fun _ _ _ => True) ?_
  refine (ensures_lift lasting_true.toKept _).bind fun key => ?_
  refine System.ensures_of_imp fun hkey => ?_
  refine (keeping_reservationByKey lasting_true.toKept _).bind fun existing => ?_
  cases existing with
  | none => exact System.ensures_throw _
  | some reservation =>
      refine (ensures_reservationIdentityMatches lasting_true.toKept _ _ _ _).bind fun _ => ?_
      refine System.ensures_of_imp fun hmatches => System.Lawful.ensures ?_
      refine (keeping_checkReader lasting_true.toKept W user).lawful.bind fun _ => ?_
      refine (keeping_namedReceipt lasting_true.toKept _ _).lawful.bind fun existing => ?_
      refine .ite (fun _ => lawful_reconciliationResponse _ _ _ _) fun hopen => ?_
      rw [Bool.not_eq_false] at hopen
      refine (keeping_leaseExpired lasting_true.toKept _).lawful.bind fun expired => ?_
      refine .ite (fun _ => lawful_reconciliationResponse _ _ _ _) fun _ => ?_
      exact lawful_reconcileOpen W user args (openFor_of_identityMatches hkey hmatches hopen) _ _

end Execution
