import SynoraErp.Execution.Lawful

/-!
# How a reservation is settled

The receipt of an outcome is stored before its reservation is saved in the same state: the
save rests on what the table then shows. A reservation that is open stays the same but for
its mutable fields.
-/

namespace Execution

open Python Governance
open Transition Transition.Documents Transition.Documents.Discipline

variable {I : Interpreter} {ι : Type} [DecidableEq ι] {α : Type}
  {A B : ι → Store ι Key (Record I) (External I) → Prop}

/-! ## The receipt of an outcome -/

/-- The target of a receipt is the one that its outcome names. -/
theorem target_of_receiptTarget {context : ReceiptContext} {a : ProposedAction I}
    {outcome : Outcome} {target : Option (OneOf targetDoctypes × RequiredText 140)}
    (h : receiptTarget (Governance.record (receiptInput context a outcome)) = .ok target) :
    target.map Prod.snd = outcome.targetName := by
  have hname : item (Governance.record (receiptInput context a outcome)) "target_name" =
      (outcome.targetName.map RequiredText.value).getD .none := by
    simp [receiptInput, item_record_cons]
  simp only [receiptTarget, hname, bind_eq_ok] at h
  obtain ⟨doctype, -, name, hread, h⟩ := h
  have hsame : name = outcome.targetName := by
    cases htarget : outcome.targetName with
    | none =>
        rw [htarget] at hread
        exact (Except.ok.inj hread).symm
    | some t =>
        rw [htarget] at hread
        have hvalue := requiredText_value t "target_name"
        simp only [RequiredText.value] at hvalue
        simp only [optionally, isNone, RequiredText.value, Option.map_some, Option.getD_some, hvalue,
          Except.map] at hread
        exact (Except.ok.inj hread).symm
  split at h
  case h_1 doctype name =>
    rw [← Except.ok.inj h, ← hsame]
    rfl
  case h_2 =>
    rw [← Except.ok.inj h, ← hsame]
    rfl
  case h_3 => cases h

/-- What a receipt takes from its action and its outcome. -/
structure ReceiptFor (receipt : ExecutionReceipt) (a : ProposedAction I) (outcome : Outcome) :
    Prop where
  actionId : receipt.actionId = a.actionId
  runId : receipt.runId = a.runId
  initiator : receipt.initiator = a.initiator
  idempotencyKey : receipt.idempotencyKey = a.idempotencyKey
  proposalDigest : receipt.proposalDigest = a.digest
  finalState : receipt.finalState = outcome.finalState
  target : receipt.target.map Prod.snd = outcome.targetName

theorem of_createReceipt {context : ReceiptContext} {a : ProposedAction I} {outcome : Outcome}
    {receipt : ExecutionReceipt} (h : createReceipt context a outcome = .ok receipt) :
    receipt.executor = context.executor ∧ ReceiptFor receipt a outcome := by
  have hobject : object (.dict (Governance.record (receiptInput context a outcome))) receiptFields
      receiptRequired "execution receipt" =
      .ok (Governance.record (receiptInput context a outcome)) :=
    object_record_eq_ok (by simp [receiptInput, receiptFields, receiptRequired])
      (by simp [receiptInput, receiptRequired])
  have hstate : item (Governance.record (receiptInput context a outcome)) "final_state" =
      .str (Text.ofString outcome.finalState.name) := by
    simp [receiptInput, item_record_cons, Value.ofString]
  have hcategory : item (Governance.record (receiptInput context a outcome)) "response_category" =
      .str (Text.ofString outcome.responseCategory.name) := by
    simp [receiptInput, item_record_cons, OneOf.value]
  have haction : item (Governance.record (receiptInput context a outcome)) "action_id" =
      a.actionId.value := by
    simp [receiptInput, item_record_cons]
  have hrun : item (Governance.record (receiptInput context a outcome)) "run_id" =
      a.runId.value := by
    simp [receiptInput, item_record_cons]
  have hinitiator : item (Governance.record (receiptInput context a outcome)) "initiator" =
      a.initiator.value := by
    simp [receiptInput, item_record_cons]
  have hexecutor : item (Governance.record (receiptInput context a outcome)) "executor" =
      context.executor.value := by
    simp [receiptInput, item_record_cons]
  have hkey : item (Governance.record (receiptInput context a outcome)) "idempotency_key" =
      a.idempotencyKey.value := by
    simp [receiptInput, item_record_cons]
  have hdigest : item (Governance.record (receiptInput context a outcome)) "proposal_digest" =
      a.digest.value := by
    simp [receiptInput, item_record_cons]
  have hchoice : OneOf.ofText? responseCategories (Text.ofString outcome.responseCategory.name) =
      some outcome.responseCategory := OneOf.ofText?_eq_some.mpr rfl
  simp only [createReceipt, createExecutionReceipt, hobject, ok_bind, hstate, hcategory, memberOf,
    ReceiptState.ofText?_name, hchoice, receiptOutcome, bind_eq_ok] at h
  obtain ⟨target, htarget, verified, -, h⟩ := h
  split_ifs at h with hsuccess
  simp only [receiptRecord, haction, hrun, hinitiator, hexecutor, hkey, hdigest, uuid_value,
    requiredText_value, idempotencyKey_value, digest_value, ok_bind, bind_eq_ok] at h
  obtain ⟨_, -, _, -, _, -, _, -, _, -, _, -, _, -, h⟩ := h
  rw [← Except.ok.inj h]
  exact ⟨rfl, rfl, rfl, rfl, rfl, rfl, rfl, target_of_receiptTarget htarget⟩

theorem receiptFor_of_createReceipt {context : ReceiptContext} {a : ProposedAction I}
    {outcome : Outcome} {receipt : ExecutionReceipt}
    (h : createReceipt context a outcome = .ok receipt) : ReceiptFor receipt a outcome :=
  (of_createReceipt h).2

theorem keeping_boundedText (hA : discipline.Kept A) (text : Text) (label : String) (maximum : ℕ) :
    (requests I ι).Keeping A (boundedText text label maximum) :=
  keeping_lift hA _

theorem ensures_newReceipt (hA : discipline.Kept A) (a : ProposedAction I)
    (reservation : Reservation) (outcome : Outcome) :
    (requests I ι).Ensures A (newReceipt a reservation outcome) fun receipt i s =>
      ReceiptFor receipt a outcome ∧ A i s := by
  refine (keeping_external hA (.latestApproval ..) rfl).bind fun approval => ?_
  refine (keeping_external hA .uuid4 rfl).bind fun receiptId => ?_
  refine (keeping_external hA .timestamp rfl).bind fun completedAt => ?_
  refine (keeping_lift hA _).bind fun context => ?_
  exact (ensures_lift hA _).post fun _ _ _ _ h => ⟨receiptFor_of_createReceipt h.1, h.2⟩

theorem ensures_reconciliationReceipt (hA : discipline.Kept A) (a : ProposedAction I)
    (reservation : Reservation) (existing : Option ExecutionReceipt) (outcome : Outcome) :
    (requests I ι).Ensures A (reconciliationReceipt a reservation existing outcome)
      fun receipt i s => ReceiptFor receipt a outcome ∧ A i s := by
  refine (keeping_external hA (.latestApproval ..) rfl).bind fun approval => ?_
  refine (keeping_external hA .timestamp rfl).bind fun completedAt => ?_
  have hcreate : ∀ context, (requests I ι).Ensures A (lift (createReceipt context a outcome))
      fun receipt i s => ReceiptFor receipt a outcome ∧ A i s := fun context =>
    (ensures_lift hA _).post fun _ _ _ _ h => ⟨receiptFor_of_createReceipt h.1, h.2⟩
  cases existing with
  | none =>
      refine (keeping_external hA .uuid4 rfl).bind fun receiptId => ?_
      exact (keeping_lift hA _).bind hcreate
  | some receipt => exact (keeping_lift hA _).bind hcreate

/-! ## Reservations -/

theorem keeping_reservationByKey (hA : discipline.Kept A) (key : IdempotencyKey) :
    (requests I ι).Keeping A (reservationByKey key) := by
  refine System.Ensures.bind (B := fun _ => A)
    ((ensures_lock hA (.reservation key)).post fun _ _ _ _ => And.right) fun locked => ?_
  split
  · refine System.Ensures.bind (B := fun _ => A)
      ((ensures_get hA (.reservation key)).post fun _ _ _ _ => And.right) fun row => ?_
    split
    · exact keeping_pure hA _
    · exact System.ensures_throw _
  · exact keeping_pure hA none

theorem ensures_reservationIdentityMatches (hA : discipline.Kept A) (reservation : Reservation)
    (a : ProposedAction I) (key : ExecutionKey) (actor : Text) :
    (requests I ι).Ensures A (reservationIdentityMatches reservation a key actor) fun _ i s =>
      IdentityMatches reservation a key actor ∧ A i s :=
  .ite (fun h => System.ensures_pure hA.steady fun _ _ _ hAs => ⟨h, hAs⟩)
    fun _ => System.ensures_throw _

theorem keeping_reservationIdentityMatches (hA : discipline.Kept A) (reservation : Reservation)
    (a : ProposedAction I) (key : ExecutionKey) (actor : Text) :
    (requests I ι).Keeping A (reservationIdentityMatches reservation a key actor) :=
  (ensures_reservationIdentityMatches hA reservation a key actor).post fun _ _ _ _ => And.right

omit [DecidableEq ι] in
/-- What is read has become what the table shows. -/
theorem precedes_of_get {key : IdempotencyKey} {row : Reservation} {i : ι}
    {s : Store ι Key (Record I) (External I)} (hs : discipline.Consistent s)
    (h : discipline.Evolves (.reservation key) (some (.reservation row))
      (s.view i (.reservation key))) :
    ∃ later, s.view i (.reservation key) = some (.reservation later) ∧
      later.identity.idempotencyKey = key ∧
      Precedes (I := I) (.reservation row) (.reservation later) := by
  obtain ⟨later, hlater, hprecedes⟩ := precedes_of_evolves h
  cases later with
  | reservation later => exact ⟨later, hlater, (hs.backed_view i _ _ hlater).1, hprecedes⟩
  | action later | receipt later => exact hprecedes.elim

/-- A row that is read, with what is known of it where it is read. -/
theorem ensures_getReservation (hA : discipline.Kept A) {P : Reservation → Prop}
    {key : IdempotencyKey} {reservationId : Uuid}
    (h : ∀ i s row, discipline.Consistent s → A i s →
      discipline.Evolves (.reservation key) (some (.reservation row))
        (s.view i (.reservation key)) → P row) :
    (requests I ι).Ensures A (getReservation key reservationId) fun row i s => P row ∧ A i s := by
  refine (ensures_get hA (.reservation key)).bind fun row => ?_
  split
  case h_1 row =>
    refine .ite (fun _ => ?_) fun _ => System.ensures_throw _
    refine System.Ensures.pre (A := fun i s => P row ∧ A i s) ?_ fun i s hs hrow =>
      ⟨h i s row hs hrow.2 hrow.1, hrow.2⟩
    exact System.ensures_pure ((lasting_const _).toKept.and hA).steady fun _ _ _ => id
  case h_2 => exact System.ensures_throw _

/-- What an update of a reservation rests on. -/
def Evidence (row : Reservation) (state : ReceiptState) (update : Update)
    (T : Table Key (Record I)) : Prop :=
  ∃ receipt, Receipted receipt T ∧ receipt.idempotencyKey = row.identity.idempotencyKey ∧
    receipt.actionId = row.identity.action ∧ update.receipt = some receipt.receiptId ∧ receipt.finalState = state ∧
    (state.isSuccess = true → update.targetName.isSome = true ∧
      receipt.target.map Prod.snd = update.targetName ∧ Executed row.identity.action T)

theorem settled_updated {row : Reservation} {state : ReceiptState} {update : Update}
    {T : Table Key (Record I)} (h : Evidence row state update T) (completedAt reconciledAt : DateTime) :
    Settled (updated row state update completedAt reconciledAt) state T := by
  obtain ⟨receipt, hreceipted, hkey, haction, hnamed, hstate, hsuccess⟩ := h
  refine ⟨receipt, hreceipted, hkey, haction, ?_, hstate, fun hs => ?_⟩
  · change update.receipt.or row.receipt = _
    rw [hnamed]
    rfl
  · obtain ⟨hsome, htarget, hexecuted⟩ := hsuccess hs
    obtain ⟨name, hname⟩ := Option.isSome_iff_exists.mp hsome
    have hupdated : (updated row state update completedAt reconciledAt).targetName =
        update.targetName := by
      change update.targetName.or row.targetName = _
      rw [hname]
      rfl
    exact ⟨hupdated ▸ hsome, hupdated ▸ htarget, hexecuted⟩

/-- Another row is as it was when a reservation is written. -/
theorem Settled.update {row : Reservation} {state : ReceiptState} {T : Table Key (Record I)}
    {key : IdempotencyKey} {written : Record I} (h : Settled row state T) :
    Settled row state (Function.update T (.reservation key) (some written)) := by
  obtain ⟨receipt, ⟨hrow, hfinal⟩, hkey, haction, hnamed, hstate, hsuccess⟩ := h
  refine ⟨receipt, ⟨(Function.update_of_ne (by simp) ..).trans hrow, hfinal⟩, hkey, haction, hnamed,
    hstate, fun hs => ?_⟩
  obtain ⟨hsome, htarget, stored, hstored, hexecuted⟩ := hsuccess hs
  exact ⟨hsome, htarget, stored, (Function.update_of_ne (by simp) ..).trans hstored, hexecuted⟩

omit [DecidableEq ι] in
/-- The document of an update may be saved over the reservation. -/
theorem allows_updated {row : Reservation} {state : ReceiptState} {update : Update}
    {completedAt reconciledAt : DateTime} {i : ι} {s : Store ι Key (Record I) (External I)}
    (hs : discipline.Consistent s) (hopen : isOpen row.status = true)
    (hvalid : validateReservation row (updated row state update completedAt reconciledAt) = .ok ())
    (hevidence : state ≠ .reconciliationRequired → Evidence row state update (s.view i))
    (hview : s.view i (.reservation row.identity.idempotencyKey) = some (.reservation row)) :
    Changes (I := I) (.reservation row)
        (.reservation (updated row state update completedAt reconciledAt)) ∧
      discipline.Admits (s.view i) (.reservation row.identity.idempotencyKey)
        (.reservation (updated row state update completedAt reconciledAt)) := by
  obtain ⟨-, hstatus⟩ := validateReservation_eq_ok.mp hvalid
  obtain ⟨-, ⟨a, hreads, hof⟩, -⟩ := hs.backed_view i _ _ hview
  refine ⟨⟨rfl, hopen, hstatus⟩, rfl, ⟨a, reads_update (by simp) hreads, ?_⟩, ?_⟩
  · exact ⟨hof.action, hof.run, hof.idempotencyKey, hof.proposalDigest, hof.targetDoctype⟩
  · rintro state' hstate' hne
    obtain rfl : state = state' := ReservationStatus.settled.inj hstate'
    exact (settled_updated (hevidence hne) completedAt reconciledAt).update

theorem ensures_updateReservation (hA : discipline.Kept A) (hB : discipline.Lasting B)
    {row : Reservation} {state : ReceiptState} (update : Update) (hopen : isOpen row.status = true)
    (hevidence : ∀ i s, discipline.Consistent s → A i s → state ≠ .reconciliationRequired →
      Evidence row state update (s.view i)) :
    (requests I ι).Ensures (fun i s => A i s ∧ B i s) (updateReservation row state update)
      fun after i s => (row.status ≠ .settled state →
        (after.identity = row.identity ∧ after.status = .settled state) ∧
          Wrote (.reservation row.identity.idempotencyKey) (.reservation after) i s) ∧ B i s := by
  unfold updateReservation
  have hAB := hA.and hB.toKept
  refine System.ensures_unless fun _ => ?_
  refine .ite (fun hsame => ?_) fun _ => ?_
  · exact System.ensures_pure hAB.steady fun _ _ _ h => ⟨fun hne => absurd hsame.1 hne, h.2⟩
  · refine (keeping_external hAB .timestamp rfl).bind fun reconciledAt => ?_
    refine (keeping_external hAB .timestamp rfl).bind fun completedAt => ?_
    refine (ensures_lift hAB _).bind fun _ => ?_
    refine System.ensures_of_imp fun hvalid => ?_
    refine System.Ensures.bind (ensures_save hA hB fun i s hs hAs hview =>
      allows_updated hs hopen hvalid (hevidence i s hs hAs) hview) fun _ => ?_
    have hwrote := (kept_wrote (ι := ι) (D := discipline (I := I))
      (.reservation row.identity.idempotencyKey)
      (.reservation (updated row state update completedAt reconciledAt))).and hB.toKept
    exact System.ensures_pure hwrote.steady fun _ _ _ h => ⟨fun _ => ⟨⟨rfl, rfl⟩, h.1⟩, h.2⟩

/-- A reservation that is open, of an action. -/
structure OpenFor (reservation : Reservation) (a : ProposedAction I) : Prop where
  isOpen : isOpen reservation.status = true
  action : reservation.identity.action = a.actionId
  idempotencyKey : reservation.identity.idempotencyKey = a.idempotencyKey

/-- An execution key takes its action's idempotency key and digest. -/
theorem of_executionKey {a : ProposedAction I} {key : ExecutionKey}
    (h : executionKey a = .ok key) :
    key.idempotencyKey = a.idempotencyKey ∧ key.proposalDigest = a.digest := by
  unfold executionKey at h
  extract_lets payload sourceRef at h
  split_ifs at h
  obtain rfl := Except.ok.inj h
  exact ⟨rfl, rfl⟩

/-- A reservation that matches the key of an action is of the action. -/
theorem openFor_of_identityMatches {reservation : Reservation} {a : ProposedAction I}
    {key : ExecutionKey} {actor : Text} (hkey : executionKey a = .ok key)
    (hmatches : IdentityMatches reservation a key actor) (hopen : isOpen reservation.status = true) :
    OpenFor reservation a where
  isOpen := hopen
  action := hmatches.1
  idempotencyKey := hmatches.2.2.1.trans (of_executionKey hkey).1

/-- The receipt of an outcome is what an update to its state rests on. -/
theorem evidence_of_receiptFor {reservation : Reservation} {a : ProposedAction I}
    {outcome : Outcome} {receipt : ExecutionReceipt} {update : Update} {T : Table Key (Record I)}
    (hreceipt : ReceiptFor receipt a outcome) (hreceipted : Receipted receipt T)
    (hopen : OpenFor reservation a) (hnamed : update.receipt = some receipt.receiptId)
    (hsuccess : outcome.finalState.isSuccess = true →
      update.targetName = outcome.targetName ∧ Executed a.actionId T) :
    Evidence reservation outcome.finalState update T := by
  refine ⟨receipt, hreceipted, ?_, ?_, hnamed, hreceipt.finalState, fun hs => ?_⟩
  · rw [hreceipt.idempotencyKey, hopen.idempotencyKey]
  · rw [hreceipt.actionId, hopen.action]
  · obtain ⟨htarget, hexecuted⟩ := hsuccess hs
    obtain ⟨hsome, -⟩ := receipt.success (hreceipt.finalState ▸ hs)
    have hsame : receipt.target.map Prod.snd = update.targetName :=
      hreceipt.target.trans htarget.symm
    refine ⟨?_, hsame, hopen.action ▸ hexecuted⟩
    rw [← hsame, Option.isSome_map]
    exact hsome

/-- A reservation is saved in the state of an outcome that is no success. -/
theorem ensures_update_of_failure {reservation : Reservation} {a : ProposedAction I}
    {outcome : Outcome} {receipt : ExecutionReceipt} {state : ReceiptState} {update : Update}
    {rest : Reservation → Prog I Unit} (hopen : OpenFor reservation a)
    (hreceipt : ReceiptFor receipt a outcome) (hnamed : update.receipt = some receipt.receiptId)
    (hstate : outcome.finalState = state)
    (hfailure : state.isSuccess = false) (hrest : ∀ row, (requests I ι).Lawful (rest row)) :
    (requests I ι).Ensures (Stores receipt) (updateReservation reservation state update >>= rest)
      fun _ _ _ => True := by
  subst hstate
  refine System.Ensures.bind (System.Ensures.pre (ensures_updateReservation
    (lasting_stores receipt).toKept lasting_true update hopen.isOpen fun i s _ hstores hne => ?_)
    fun _ _ _ h => ⟨h, trivial⟩) fun row => (hrest row).ensures
  refine evidence_of_receiptFor hreceipt (hstores ?_) hopen hnamed fun hs => ?_
  · rw [hreceipt.finalState]
    exact hne
  · rw [hfailure] at hs
    cases hs

/-- An action is executed, and its reservation is saved in the state of a success. -/
theorem ensures_update_of_success {user : Text} {reservation : Reservation} {a : ProposedAction I}
    {outcome : Outcome} {receipt : ExecutionReceipt} {state : ReceiptState} {move : ActionMove}
    {update : Update} {rest : Reservation → Prog I Unit} (hopen : OpenFor reservation a)
    (hreceipt : ReceiptFor receipt a outcome) (hnamed : update.receipt = some receipt.receiptId)
    (hstate : outcome.finalState = state) (htarget : update.targetName = outcome.targetName)
    (hmove : move.target = .executed) (hrest : ∀ row, (requests I ι).Lawful (rest row)) :
    (requests I ι).Ensures (Stores receipt)
      (transitionActionState user a.actionId move >>= fun _ =>
        updateReservation reservation state update >>= rest) fun _ _ _ => True := by
  subst hstate
  refine (ensures_transitionActionState (lasting_stores receipt) user a.actionId move).bind
    fun _ => ?_
  have hA := ((lasting_imp (move.target = .executed)
    (lasting_shows (ι := ι) (persists_executed (I := I) a.actionId))).and (lasting_stores receipt))
  refine System.Ensures.bind (System.Ensures.pre (ensures_updateReservation
    hA.toKept lasting_true update hopen.isOpen fun i s _ h hne => ?_) fun _ _ _ h => ⟨h, trivial⟩)
    fun row => (hrest row).ensures
  refine evidence_of_receiptFor hreceipt (h.2 ?_) hopen hnamed fun _ => ⟨htarget, h.1 hmove⟩
  rw [hreceipt.finalState]
  exact hne

/-- A reservation whose lease has run out stays open. -/
theorem ensures_requireReconciliation (hB : discipline.Lasting B) {reservation : Reservation}
    {a : ProposedAction I} (hopen : OpenFor reservation a) :
    (requests I ι).Ensures B (requireReconciliation reservation) fun row i s =>
      OpenFor row a ∧ B i s := by
  refine .ite (fun hstarted => ?_) fun _ => ?_
  · have hne : reservation.status ≠ .settled .reconciliationRequired := by
      rw [hstarted]
      simp
    refine (keeping_boundedText hB.toKept _ _ _).bind fun pending => ?_
    refine System.Ensures.bind (System.Ensures.pre (ensures_updateReservation lasting_true.toKept hB
      _ hopen.isOpen fun _ _ _ _ h => absurd rfl h) fun _ _ _ h => ⟨trivial, h⟩) fun after => ?_
    refine System.Ensures.pre (A := fun i s =>
      (after.identity = reservation.identity ∧ after.status = .settled .reconciliationRequired) ∧
        Wrote (.reservation reservation.identity.idempotencyKey) (.reservation after) i s ∧ B i s)
      ?_ fun i s _ h => ⟨(h.1 hne).1, (h.1 hne).2, h.2⟩
    refine System.ensures_of_imp fun hafter => ?_
    obtain ⟨hidentity, hstatus⟩ := hafter
    refine (ensures_getReservation (P := fun row => OpenFor row a)
      ((kept_wrote _ _).and hB.toKept) fun i s row hs hwrote hrow => ?_).post
      fun _ _ _ _ h => ⟨h.1, h.2.2⟩
    rw [hidentity] at hrow
    obtain ⟨later, hlater, -, hsame, hleads, hclosed⟩ := precedes_of_get hs hrow
    rw [hwrote.1.view] at hlater
    obtain rfl := Record.reservation.inj (Option.some.inj hlater)
    refine ⟨?_, ?_, ?_⟩
    · by_contra hrowClosed
      rw [Bool.not_eq_true] at hrowClosed
      rw [← hclosed hrowClosed, hstatus] at hrowClosed
      cases hrowClosed
    · rw [← hsame, hidentity, hopen.action]
    · rw [← hsame, hidentity, hopen.idempotencyKey]
  · exact System.ensures_pure hB.toKept.steady fun _ _ _ h => ⟨hopen, h⟩

/-! ## A reservation that is new -/

/-- The reservation of an execution as it starts. -/
structure StartedFor (reservation : Reservation) (a : ProposedAction I) : Prop where
  status : reservation.status = .started
  action : reservation.identity.action = a.actionId
  idempotencyKey : reservation.identity.idempotencyKey = a.idempotencyKey

theorem StartedFor.openFor {reservation : Reservation} {a : ProposedAction I}
    (h : StartedFor reservation a) : OpenFor reservation a where
  isOpen := by
    rw [h.status]
    rfl
  action := h.action
  idempotencyKey := h.idempotencyKey

/-- A reservation is inserted for an action that the table shows. -/
theorem ensures_insertReservation {a : ProposedAction I} {key : ExecutionKey} {actor : Text}
    (hkey : key.idempotencyKey = a.idempotencyKey) (hdigest : key.proposalDigest = a.digest) :
    (requests I ι).Ensures (Shows (Reads a)) (insertReservation a key actor) fun r i s =>
      r.2 = true → StartedFor r.1 a ∧
        Creates (.reservation a.idempotencyKey) (.reservation r.1) i s ∧ Shows (Reads a) i s := by
  have hreads : discipline.Lasting
      (Shows (Reads a) : ι → Store ι Key (Record I) (External I) → Prop) :=
    lasting_shows (persists_reads a)
  have hother : ∀ row : Reservation, (requests I ι).Ensures (fun _ _ => True)
      (do
        reservationIdentityMatches row a key actor
        pure (row, false)) fun r i s => r.2 = true → StartedFor r.1 a ∧
          Creates (.reservation a.idempotencyKey) (.reservation r.1) i s ∧
          Shows (Reads a) i s := fun row =>
    (keeping_reservationIdentityMatches lasting_true.toKept row a key actor).bind fun _ =>
      System.ensures_pure lasting_true.toKept.steady fun _ _ _ _ h => by cases h
  refine (keeping_reservationByKey hreads.toKept key.idempotencyKey).bind fun existing => ?_
  cases existing with
  | some existing => exact (hother existing).pre fun _ _ _ _ => trivial
  | none =>
      refine (keeping_external hreads.toKept .uuid4 rfl).bind fun reservationId => ?_
      refine (keeping_external hreads.toKept .uuid4 rfl).bind fun ownerToken => ?_
      refine (keeping_external hreads.toKept .now rfl).bind fun now => ?_
      refine (keeping_external hreads.toKept .timestamp rfl).bind fun startedAt => ?_
      extract_lets row
      have hof : ReservationOf row a := ⟨rfl, rfl, hkey, hdigest, rfl⟩
      refine System.Ensures.bind (System.Ensures.pre (ensures_insert hreads.toKept hreads
        fun i s _ hs => ?_) fun _ _ _ h => ⟨h, h⟩) fun created => ?_
      · refine ⟨rfl, rfl, ⟨a, reads_update (by simp) hs, hof⟩, fun state hstate => ?_⟩
        cases hstate
      refine .ite (fun hcreated => ?_) fun _ => ?_
      · refine System.Ensures.pre (A := fun i s =>
          Creates (.reservation a.idempotencyKey) (.reservation row) i s ∧ Shows (Reads a) i s) ?_
          fun i s _ h => hkey ▸ h hcreated
        refine System.ensures_pure ((kept_creates _ _).and hreads.toKept).steady fun i s _ h _ => ?_
        exact ⟨⟨rfl, rfl, hkey⟩, h⟩
      · refine lawful_rollback.then fun _ => ?_
        refine (keeping_reservationByKey lasting_true.toKept key.idempotencyKey).bind fun winner => ?_
        cases winner with
        | none => exact System.ensures_throw _
        | some winner => exact hother winner

/-- A reservation that has been committed is owned by its connection. -/
theorem ensures_commitReservation {a : ProposedAction I} {reservation : Reservation}
    (hstarted : StartedFor reservation a) (run : RunRow) :
    (requests I ι).Ensures
      (fun i s => Creates (.reservation a.idempotencyKey) (.reservation reservation) i s ∧
        Shows (Reads a) i s)
      (commitReservation run) fun _ i s =>
        discipline.Owns (.reservation a.idempotencyKey) i s ∧ Commits (Begun a) i s := by
  have hA := (kept_creates (ι := ι) (D := discipline (I := I)) (.reservation a.idempotencyKey)
    (.reservation reservation)).and (lasting_shows (persists_reads a)).toKept
  refine System.Ensures.catching ?_ fun e => ?_
  · refine (keeping_external hA (.moveToExecuting run) rfl).bind fun _ => ?_
    refine System.Ensures.pre (ensures_commit (persists_begun a) _ (.reservation reservation))
      fun i s _ h => ?_
    exact ⟨h.1, h.2, reservation, h.1.view, hstarted.action⟩
  · exact lawful_rollback.then fun _ => System.ensures_throw _

end Execution
