import SynoraErp.Execution.Rules
import SynoraErp.Governance.QueueComplete

/-!
# What the services keep to

For each program of the services, what it keeps and what it establishes, whatever is in the
table and whatever the other connections do. A condition `A` is one that reads keep, and a
condition `B` one that writes keep as well.
-/

namespace Execution

open Python Governance
open Transition Transition.Documents Transition.Documents.Discipline

variable {I : Interpreter} {ι : Type} [DecidableEq ι] {α : Type}
  {A B : ι → Store ι Key (Record I) (External I) → Prop}

/-! ## Calls -/

theorem lawful_call {c : Call Key (Record I) (External I)}
    (h : ∀ i s, (requests I ι).invariant s → (requests I ι).allowed i s c) :
    (requests I ι).Lawful (call c) :=
  System.lawful_call h

theorem lawful_commit : (requests I ι).Lawful (call .commit) := lawful_call fun _ _ _ => trivial

theorem lawful_rollback : (requests I ι).Lawful (call .rollback) :=
  lawful_call fun _ _ _ => trivial

theorem keeping_external (hA : discipline.Kept A) (x : External I)
    (hsubject : discipline.subject x = none) : (requests I ι).Keeping A (external x) := by
  refine Discipline.keeping_external hA x hsubject fun i s _ => ?_
  cases x with
  | write a => cases hsubject
  | _ => trivial

theorem ensures_lift (hA : discipline.Kept A) (result : Result α) :
    (requests I ι).Ensures A (lift result) fun a i s => result = .ok a ∧ A i s := by
  refine (System.ensures_ofExcept hA.steady).post fun a i s _ h => ⟨?_, h.2⟩
  cases result with
  | ok b => exact congrArg Except.ok (Except.ok.inj h.1)
  | error e => exact absurd h.1 (by simp [Except.mapError])

theorem keeping_lift (hA : discipline.Kept A) (result : Result α) :
    (requests I ι).Keeping A (lift result) :=
  (ensures_lift hA result).post fun _ _ _ _ => And.right

theorem keeping_pure (hA : discipline.Kept A) (a : α) :
    (requests I ι).Keeping A (pure a : Prog I α) :=
  System.ensures_pure hA.steady fun _ _ _ h => h

/-- A question, and what is raised for its answer. -/
theorem keeping_authenticate (hA : discipline.Kept A) (user : Text) :
    (requests I ι).Keeping A (authenticate user) :=
  (keeping_lift hA _).bind fun _ => keeping_pure hA ()

theorem keeping_ownsOrManages (hA : discipline.Kept A) (user : Text) (row : StoredAction I) :
    (requests I ι).Keeping A (ownsOrManages user row) :=
  .ite (fun _ => keeping_pure hA true) fun _ => keeping_external hA (.systemManager user) rfl

/-! ## Actions -/

omit [DecidableEq ι] in
/-- An action that is loaded is the one of its row. -/
theorem reads_of_evolves {actionId : Uuid} {row : StoredAction I} {i : ι}
    {s : Store ι Key (Record I) (External I)} (hs : discipline.Consistent s)
    (h : discipline.Evolves (.action actionId) (some (.action row)) (s.view i (.action actionId))) :
    row.action.actionId = actionId ∧ Shows (Reads row.action) i s := by
  obtain ⟨row', hrow', hprecedes⟩ := precedes_of_evolves h
  have hbacked := hs.backed_view i _ _ hrow'
  cases row' with
  | action row' =>
      have hcontent : row'.action = row.action := hprecedes.1
      have hid : row'.action.actionId = actionId := hbacked
      rw [hcontent] at hid
      exact ⟨hid, row', hid ▸ hrow', hcontent⟩
  | reservation row' | receipt row' => exact hprecedes.elim

theorem ensures_getAction (hA : discipline.Kept A) (actionId : Uuid) :
    (requests I ι).Ensures A (getAction actionId) fun row i s =>
      (row.action.actionId = actionId ∧ Shows (Reads row.action) i s) ∧ A i s := by
  refine (ensures_get hA (.action actionId)).bind fun row => ?_
  split
  case h_1 row =>
    refine System.Ensures.pre (A := fun i s => (row.action.actionId = actionId ∧
      Shows (Reads row.action) i s) ∧ A i s) ?_ fun i s hs h => ⟨reads_of_evolves hs h.1, h.2⟩
    refine System.ensures_pure (Kept.steady ?_) fun _ _ _ h => h
    exact ((lasting_const _).toKept.and (lasting_shows (persists_reads _)).toKept).and hA
  case h_2 => exact System.ensures_throw _

theorem keeping_getAction (hA : discipline.Kept A) (actionId : Uuid) :
    (requests I ι).Keeping A (getAction actionId) :=
  (ensures_getAction hA actionId).post fun _ _ _ _ => And.right

theorem ensures_loadActionFromDoc (hA : discipline.Kept A) (row : StoredAction I) :
    (requests I ι).Ensures A (loadActionFromDoc row) fun a i s => a = row.action ∧ A i s :=
  (ensures_lift hA _).post fun a _ _ _ h =>
    ⟨((ProposedAction.build_toDict row.action a).mp h.1).2, h.2⟩

theorem keeping_loadActionFromDoc (hA : discipline.Kept A) (row : StoredAction I) :
    (requests I ι).Keeping A (loadActionFromDoc row) :=
  (ensures_loadActionFromDoc hA row).post fun _ _ _ _ => And.right

theorem ensures_loadAction (hA : discipline.Kept A) (actionId : Uuid) :
    (requests I ι).Ensures A (loadAction actionId) fun a i s =>
      (a.actionId = actionId ∧ Shows (Reads a) i s) ∧ A i s := by
  refine (ensures_get hA (.action actionId)).bind fun row => ?_
  split
  case h_1 row =>
    refine System.Ensures.pre (A := fun i s => (row.action.actionId = actionId ∧
      Shows (Reads row.action) i s) ∧ A i s) ?_ fun i s hs h => ⟨reads_of_evolves hs h.1, h.2⟩
    refine (ensures_lift ?_ _).post fun a i s _ h => ?_
    · exact ((lasting_const _).toKept.and (lasting_shows (persists_reads _)).toKept).and hA
    · obtain rfl := eq_of_reload h.1
      exact h.2
  case h_2 => exact System.ensures_throw _

theorem keeping_loadAction (hA : discipline.Kept A) (actionId : Uuid) :
    (requests I ι).Keeping A (loadAction actionId) :=
  (ensures_loadAction hA actionId).post fun _ _ _ _ => And.right

theorem keeping_lockRunForAction (hA : discipline.Kept A) (actionId : Uuid) :
    (requests I ι).Keeping A (lockRunForAction actionId) := by
  refine System.Ensures.bind (B := fun _ => A)
    ((ensures_get hA (.action actionId)).post fun _ _ _ _ => And.right) fun row => ?_
  split
  · exact keeping_external hA (.lockRun _) rfl
  · exact System.ensures_throw _

/-- The row of an action is locked as it was read. -/
def LocksAction (locked : LockedAction I) : ι → Store ι Key (Record I) (External I) → Prop :=
  Locks (.action locked.action.actionId) (· = .action locked.locked)

/-- What an action that is locked is known for. -/
def IsLocked (actionId : Uuid) (locked : LockedAction I) (i : ι)
    (s : Store ι Key (Record I) (External I)) : Prop :=
  (locked.action.actionId = actionId ∧ locked.doc.action = locked.action ∧
    locked.locked.action = locked.action) ∧
    Shows (Reads locked.action) i s ∧ LocksAction locked i s

theorem kept_isLocked (actionId : Uuid) (locked : LockedAction I) :
    discipline.Kept (IsLocked actionId locked :
      ι → Store ι Key (Record I) (External I) → Prop) :=
  (lasting_const _).toKept.and ((lasting_shows (persists_reads _)).toKept.and (kept_locks _ _))

theorem ensures_lockAction (hA : discipline.Kept A) (actionId : Uuid) :
    (requests I ι).Ensures A (lockAction actionId) fun locked i s =>
      IsLocked actionId locked i s ∧ A i s := by
  refine (ensures_lock hA (.action actionId)).bind fun row => ?_
  split
  case h_1 row =>
    refine System.Ensures.pre (A := fun i s =>
      Locks (.action actionId) (· = .action row) i s ∧ A i s) ?_ fun i s _ h => ⟨h.1 _ rfl, h.2⟩
    refine (ensures_getAction ((kept_locks _ _).and hA) actionId).bind fun doc => ?_
    refine (ensures_lift ?_ _).bind fun a => ?_
    · exact ((lasting_const _).toKept.and (lasting_shows (persists_reads _)).toKept).and
        ((kept_locks _ _).and hA)
    refine System.ensures_pure (Kept.steady ?_) ?_
    · exact (lasting_const _).toKept.and (((lasting_const _).toKept.and
        (lasting_shows (persists_reads _)).toKept).and ((kept_locks _ _).and hA))
    rintro i s hs ⟨ha, ⟨hid, hreads⟩, hlocks, hAs⟩
    obtain rfl := eq_of_reload ha
    obtain ⟨_, hview, rfl⟩ := hlocks.view
    obtain ⟨stored, hstored, hcontent⟩ := hreads
    rw [hid] at hstored
    obtain rfl : stored = row := by
      rw [hview] at hstored
      exact Record.action.inj (Option.some.inj hstored).symm
    refine ⟨⟨⟨hid, rfl, hcontent⟩, ⟨stored, hid ▸ hview, hcontent⟩, ?_⟩, hAs⟩
    change Locks (.action doc.action.actionId) _ i s
    rw [hid]
    exact hlocks
  case h_2 => exact System.ensures_throw _

theorem keeping_lockAction (hA : discipline.Kept A) (actionId : Uuid) :
    (requests I ι).Keeping A (lockAction actionId) :=
  (ensures_lockAction hA actionId).post fun _ _ _ _ => And.right

/-! ## Answers -/

theorem keeping_readAuthorized (hA : discipline.Kept A) (user : Text) (row : StoredAction I)
    (allowedActor : Option Text) :
    (requests I ι).Keeping A (readAuthorized user row allowedActor) := by
  refine (keeping_authenticate hA user).bind fun _ => ?_
  refine .ite (fun _ => keeping_pure hA ()) fun _ => ?_
  refine (keeping_ownsOrManages hA user row).bind fun allowed => ?_
  exact .ite (fun _ => keeping_pure hA ()) fun _ => System.ensures_throw _

theorem keeping_serializeAction (hA : discipline.Kept A) (user : Text) (row : StoredAction I)
    (allowedActor : Option Text) :
    (requests I ι).Keeping A (serializeAction user row allowedActor) := by
  refine (keeping_readAuthorized hA user row allowedActor).bind fun _ => ?_
  exact (keeping_loadActionFromDoc hA row).bind fun a => keeping_external hA (.calculate a) rfl

theorem keeping_serializeReceipt (hA : discipline.Kept A) (user : Text)
    (receipt : ExecutionReceipt) (allowedActor : Option Text) :
    (requests I ι).Keeping A (serializeReceipt user receipt allowedActor) := by
  refine (keeping_getAction hA receipt.actionId).bind fun row => ?_
  exact keeping_readAuthorized hA user row allowedActor

/-! ## Writes -/

/-- A row that is inserted. A condition that a write ends may be used for it. -/
theorem ensures_insert (hA : discipline.Kept A) (hB : discipline.Lasting B) {k : Key}
    {row : Record I} (hallows : ∀ i s, discipline.Consistent s → A i s →
      Inserted k row ∧ discipline.Admits (s.view i) k row) :
    (requests I ι).Ensures (fun i s => A i s ∧ B i s) (insert k row) fun created i s =>
      created = true → Creates k row i s ∧ B i s := by
  refine System.Ensures.catching ?_ fun e => ?_
  · exact (Discipline.ensures_insert hA hB hallows).post fun created i s _ h hcreated =>
      ⟨h.1 hcreated, h.2⟩
  · refine .ite (fun _ => ?_) fun _ => System.ensures_throw _
    exact System.ensures_pure lasting_true.steady fun i s _ _ h => (by cases h)

theorem ensures_save (hA : discipline.Kept A) (hB : discipline.Lasting B) {k : Key}
    {before after : Record I} {changed : Raised}
    (hallows : ∀ i s, discipline.Consistent s → A i s → s.view i k = some before →
      Changes before after ∧ discipline.Admits (s.view i) k after) :
    (requests I ι).Ensures (fun i s => A i s ∧ B i s) (save k before after changed)
      fun _ i s => Wrote k after i s ∧ B i s :=
  System.Ensures.catching (Discipline.ensures_save hA hB hallows) fun _ => System.ensures_throw _

/-! ## Transitions of an action -/

theorem keeping_checkApproval (hA : discipline.Kept A) (user : Text) (actionId : Uuid)
    (row : StoredAction I) (decision : ApprovalOutcome) (approvalDigest : Option Digest) :
    (requests I ι).Keeping A (checkApproval user actionId row decision approvalDigest) := by
  unfold checkApproval
  refine System.ensures_unless fun _ => ?_
  refine (keeping_external hA (.policyAllows _ _) rfl).bind fun policy => ?_
  refine (keeping_external hA (.decided ..) rfl).bind fun approval => ?_
  refine System.ensures_unless fun _ => ?_
  refine (keeping_ownsOrManages hA user row).bind fun allowed => ?_
  refine .ite (fun _ => keeping_pure hA ()) fun _ => ?_
  refine (keeping_loadAction hA actionId).bind fun a => ?_
  refine System.ensures_unless fun _ => ?_
  exact System.ensures_unless fun _ => keeping_pure hA ()

theorem keeping_checkOwner (hA : discipline.Kept A) (user : Text) (actionId : Uuid)
    (row : StoredAction I) (target : ActionState) (approvalDigest : Option Digest) :
    (requests I ι).Keeping A (checkOwner user actionId row target approvalDigest) := by
  refine (keeping_ownsOrManages hA user row).bind fun allowed => ?_
  refine .ite (fun _ => keeping_pure hA ()) fun _ => ?_
  refine (keeping_loadAction hA actionId).bind fun a => ?_
  refine .ite (fun _ => ?_) fun _ => System.ensures_throw _
  refine (keeping_external hA (.decided ..) rfl).bind fun approved => ?_
  exact .ite (fun _ => keeping_pure hA ()) fun _ => System.ensures_throw _

theorem keeping_checkTransition (hA : discipline.Kept A) (user : Text) (actionId : Uuid)
    (row : StoredAction I) (target : ActionState) (approvalDigest : Option Digest) :
    (requests I ι).Keeping A (checkTransition user actionId row target approvalDigest) := by
  cases target with
  | approved => exact keeping_checkApproval hA user actionId row .allow approvalDigest
  | declined => exact keeping_checkApproval hA user actionId row .decline approvalDigest
  | draft | invalid | policyRejected | awaitingApproval | expired | executed =>
      exact keeping_checkOwner hA user actionId row _ approvalDigest

omit [DecidableEq ι] in
/-- The document of a transition may be saved over the row that was locked. -/
theorem allows_movedAction {actionId : Uuid} {row doc : StoredAction I} {user reason : Text}
    {move : ActionMove} {next : ActionState × ℕ} {i : ι}
    {s : Store ι Key (Record I) (External I)} (hs : discipline.Consistent s)
    (hnext : ActionState.transitionState row.state move.target row.stateVersion
      (some move.expectedVersion) = .ok next)
    (hlocks : Locks (.action actionId) (· = .action row) i s)
    (hview : s.view i (.action actionId) = some (.action doc)) :
    Changes (.action doc) (.action (movedAction user doc next reason)) ∧
      discipline.Admits (s.view i) (.action actionId) (.action (movedAction user doc next reason)) := by
  obtain ⟨_, hrow, rfl⟩ := hlocks.view
  obtain rfl : doc = row := by
    rw [hview] at hrow
    exact Record.action.inj (Option.some.inj hrow)
  obtain ⟨-, -, htarget, hstate, hversion⟩ := ActionState.transitionState_eq_ok.mp hnext
  have hmem : next.1 ∈ doc.state.transitions := hstate ▸ htarget
  have hbacked : doc.action.actionId = actionId := hs.backed_view i _ _ hview
  exact ⟨⟨rfl, hmem, hversion⟩, hbacked⟩

theorem ensures_transitionActionState (hB : discipline.Lasting B) (user : Text) (actionId : Uuid)
    (move : ActionMove) :
    (requests I ι).Ensures B (transitionActionState user actionId move) fun _ i s =>
      (move.target = .executed → Shows (Executed actionId) i s) ∧ B i s := by
  refine (keeping_authenticate hB.toKept user).bind fun _ => ?_
  refine (ensures_lock hB.toKept (.action actionId)).bind fun row => ?_
  split
  case h_1 row =>
    have hlocked : discipline.Kept fun i s =>
        Locks (.action actionId) (· = .action row) i s ∧ B i s := (kept_locks _ _).and hB.toKept
    refine System.Ensures.pre (A := fun i s =>
      Locks (.action actionId) (· = .action row) i s ∧ B i s) ?_ fun i s _ h => ⟨h.1 _ rfl, h.2⟩
    refine (keeping_checkTransition hlocked user actionId row _ _).bind fun _ => ?_
    refine (ensures_lift hlocked _).bind fun next => ?_
    refine System.ensures_of_imp fun hnext => ?_
    refine System.ensures_unless fun _ => ?_
    refine (keeping_getAction hlocked actionId).bind fun doc => ?_
    refine (keeping_lift hlocked _).bind fun _ => ?_
    refine System.Ensures.bind (ensures_save (kept_locks _ _) hB fun i s hs hlocks hview =>
      allows_movedAction hs hnext hlocks hview) fun _ => ?_
    have hmoved : discipline.Lasting fun i s =>
        (move.target = .executed → Shows (Executed actionId) i s) ∧ B i s :=
      (lasting_imp _ (lasting_shows (persists_executed actionId))).and hB
    refine System.Ensures.pre (keeping_serializeAction hmoved.toKept user _ _) fun i s _ h => ?_
    refine ⟨fun htarget => ⟨_, h.1.view, ?_⟩, h.2⟩
    obtain ⟨-, -, -, hstate, -⟩ := ActionState.transitionState_eq_ok.mp hnext
    exact hstate.trans htarget
  case h_2 => exact System.ensures_throw _

theorem keeping_transitionActionState (hB : discipline.Lasting B) (user : Text)
    (actionId : Uuid) (move : ActionMove) :
    (requests I ι).Keeping B (transitionActionState user actionId move) :=
  (ensures_transitionActionState hB user actionId move).post fun _ _ _ _ => And.right

/-! ## Receipts -/

/-- Another row is as it was when one is written. -/
theorem reads_update {a : ProposedAction I} {T : Table Key (Record I)} {k : Key} {row : Record I}
    (hk : Key.action a.actionId ≠ k) (h : Reads a T) : Reads a (Function.update T k (some row)) := by
  obtain ⟨stored, hstored, hcontent⟩ := h
  exact ⟨stored, (Function.update_of_ne hk ..).trans hstored, hcontent⟩

/-- A receipt is stored, to stay as it is unless it asks for a reconciliation. -/
def Stores (receipt : ExecutionReceipt) (i : ι) (s : Store ι Key (Record I) (External I)) : Prop :=
  receipt.finalState ≠ .reconciliationRequired → Shows (Receipted receipt) i s

theorem lasting_stores (receipt : ExecutionReceipt) :
    discipline.Lasting (Stores receipt : ι → Store ι Key (Record I) (External I) → Prop) :=
  lasting_imp _ (lasting_shows (persists_receipted receipt))

theorem ensures_persistExecutionReceipt (hB : discipline.Lasting B) (user : Text)
    (receipt : ExecutionReceipt) (verified : Bool) :
    (requests I ι).Ensures B (persistExecutionReceipt user receipt verified) fun _ i s =>
      Stores receipt i s ∧ B i s := by
  refine (keeping_authenticate hB.toKept user).bind fun _ => ?_
  refine System.ensures_unless fun _ => ?_
  refine System.ensures_unless fun _ => ?_
  refine (ensures_loadAction hB.toKept receipt.actionId).bind fun a => ?_
  refine System.ensures_unless fun hsame => ?_
  simp only [not_or, not_not] at hsame
  obtain ⟨hrun, hinitiator, hkey, hdigest⟩ := hsame
  have hreads : discipline.Kept fun i s =>
      a.actionId = receipt.actionId ∧ Shows (Reads a) i (s : Store ι Key (Record I) (External I)) :=
    (lasting_const _).toKept.and (lasting_shows (persists_reads _)).toKept
  refine System.Ensures.bind (ensures_insert hreads hB fun i s _ hAs => ⟨trivial, rfl, a, ?_, ?_⟩)
    fun created => ?_
  · exact reads_update (by simp) hAs.2
  · exact ⟨hAs.1.symm, hrun.symm, hinitiator.symm, hkey.symm, hdigest.symm⟩
  refine System.ensures_unless fun hcreated => ?_
  rw [Bool.not_eq_false] at hcreated
  refine System.Ensures.pre (keeping_serializeReceipt ((lasting_stores receipt).and hB).toKept
    user receipt _) fun i s _ h => ?_
  obtain ⟨hcreates, hBs⟩ := h hcreated
  exact ⟨fun hstate => ⟨hcreates.view, hstate⟩, hBs⟩

theorem keeping_getReceipt (hA : discipline.Kept A) (key : IdempotencyKey) (receiptId : Uuid)
    (missing : Raised) :
    (requests I ι).Keeping A (getReceipt key receiptId missing) := by
  refine System.Ensures.bind (B := fun _ => A)
    ((ensures_get hA (.receipt key)).post fun _ _ _ _ => And.right) fun row => ?_
  split
  · exact .ite (fun _ => keeping_pure hA _) fun _ => System.ensures_throw _
  · exact System.ensures_throw _

omit [DecidableEq ι] in
/-- A reconciled receipt may be saved over the one that asked for it. -/
theorem allows_reconciled {before after : ExecutionReceipt} {i : ι}
    {s : Store ι Key (Record I) (External I)} (hs : discipline.Consistent s)
    (hvalid : validateReceipt before after = .ok ())
    (hview : s.view i (.receipt after.idempotencyKey) = some (.receipt before)) :
    Changes (I := I) (.receipt before) (.receipt after) ∧
      discipline.Admits (s.view i) (.receipt after.idempotencyKey) (.receipt after) := by
  obtain ⟨hrequired, hreconciled, hidentity⟩ := validateReceipt_eq_ok.mp hvalid
  refine ⟨⟨hidentity, hrequired, hreconciled⟩, rfl, ?_⟩
  obtain ⟨-, a, hreads, hof⟩ := hs.backed_view i _ _ hview
  simp only [receiptIdentity, ReceiptIdentity.mk.injEq] at hidentity
  obtain ⟨-, haction, hrun, hkey, hinitiator, -, -, hdigest, -, -⟩ := hidentity
  refine ⟨a, reads_update (by simp) hreads, ?_⟩
  exact
    { actionId := haction.trans hof.actionId
      runId := hrun.trans hof.runId
      initiator := hinitiator.trans hof.initiator
      idempotencyKey := hkey.trans hof.idempotencyKey
      proposalDigest := hdigest.trans hof.proposalDigest }

theorem ensures_transitionExecutionReceipt (hB : discipline.Lasting B) (user : Text)
    (receipt : ExecutionReceipt) :
    (requests I ι).Ensures B (transitionExecutionReceipt user receipt) fun _ i s =>
      Stores receipt i s ∧ B i s := by
  refine (keeping_authenticate hB.toKept user).bind fun _ => ?_
  refine System.ensures_unless fun _ => ?_
  refine System.ensures_unless fun _ => ?_
  refine (keeping_getReceipt hB.toKept _ _ _).bind fun doc => ?_
  refine System.ensures_unless fun _ => ?_
  refine System.ensures_unless fun _ => ?_
  refine (ensures_lift hB.toKept _).bind fun _ => ?_
  refine System.ensures_of_imp fun hvalid => ?_
  refine System.Ensures.bind (System.Ensures.pre (ensures_save (B := B) lasting_true.toKept hB
    fun i s hs _ hview => allows_reconciled hs hvalid hview) fun i s _ h => ⟨trivial, h⟩) fun _ => ?_
  refine System.Ensures.pre (keeping_serializeReceipt ((lasting_stores receipt).and hB).toKept
    user receipt _) fun i s _ h => ?_
  exact ⟨fun hstate => ⟨h.1.view, hstate⟩, h.2⟩

theorem ensures_storeReceipt (hB : discipline.Lasting B) (user : Text)
    (existing : Option ExecutionReceipt) (receipt : ExecutionReceipt) :
    (requests I ι).Ensures B (storeReceipt user existing receipt) fun _ i s =>
      Stores receipt i s ∧ B i s := by
  cases existing with
  | none => exact ensures_persistExecutionReceipt hB user receipt _
  | some existing => exact ensures_transitionExecutionReceipt hB user receipt

/-! ## The check before a write -/

theorem keeping_expireIfOwner (hB : discipline.Lasting B) (user : Text) (locked : LockedAction I)
    (reason : Text) : (requests I ι).Keeping B (expireIfOwner user locked reason) := by
  refine .ite (fun _ => keeping_pure hB.toKept ()) fun _ => ?_
  exact .ite (fun _ => keeping_transitionActionState hB user _ _) fun _ => keeping_pure hB.toKept ()

theorem lawful_expireIfOwner (user : Text) (locked : LockedAction I) (reason : Text) :
    (requests I ι).Lawful (expireIfOwner user locked reason) :=
  (keeping_expireIfOwner lasting_true user locked reason).lawful

theorem keeping_checkPolicy (hA : discipline.Kept A) (a : ProposedAction I) :
    (requests I ι).Keeping A (checkPolicy a) := by
  refine (keeping_external hA (.latestPolicy ..) rfl).bind fun policy => ?_
  split
  case h_1 => exact System.ensures_throw _
  case h_2 policy =>
    refine System.ensures_unless fun _ => ?_
    refine (keeping_external hA (.expiryPasses _) rfl).bind fun passes => ?_
    exact System.ensures_unless fun _ => keeping_pure hA ()

theorem keeping_checkLatestApproval (hA : discipline.Kept A) (a : ProposedAction I) :
    (requests I ι).Keeping A (checkLatestApproval a) := by
  refine (keeping_external hA (.latestApproval ..) rfl).bind fun approval => ?_
  split
  case h_1 => exact System.ensures_throw _
  case h_2 approval =>
    refine System.ensures_unless fun _ => ?_
    refine (keeping_external hA (.expiryPasses _) rfl).bind fun passes => ?_
    exact System.ensures_unless fun _ => keeping_pure hA _

/-- An action is expired only where the check then raises. -/
theorem keeping_checkGates (hA : discipline.Kept A) (user : Text) (locked : LockedAction I)
    (run : RunRow) (approvedActor : Option Text) :
    (requests I ι).Keeping A (checkGates user locked run approvedActor) := by
  refine (keeping_external hA (.gateChecks ..) rfl).bind fun failed => ?_
  refine (keeping_external hA (.expiryPasses _) rfl).bind fun passes => ?_
  refine System.ensures_unless_after (lawful_expireIfOwner user locked _) fun _ => ?_
  split
  case h_1 gate =>
    exact (lawful_expireIfOwner user locked _).then fun _ => System.ensures_throw _
  case h_2 => exact keeping_pure hA ()

/-- The row of an action that a request may write to the ERP. -/
structure Ready (actionId : Uuid) (digest : Digest) (key : IdempotencyKey)
    (stored : StoredAction I) : Prop where
  actionId : stored.action.actionId = actionId
  digest : stored.action.digest = digest
  idempotencyKey : stored.action.idempotencyKey = key
  state : stored.state = .approved

/-- The row of an action is locked, and may be written to the ERP. -/
def LocksReady (actionId : Uuid) (digest : Digest) (key : IdempotencyKey) :
    ι → Store ι Key (Record I) (External I) → Prop :=
  Locks (.action actionId) fun row => ∃ stored, row = .action stored ∧ Ready actionId digest key stored

theorem kept_locksReady (actionId : Uuid) (digest : Digest) (key : IdempotencyKey) :
    discipline.Kept (LocksReady (I := I) actionId digest key :
      ι → Store ι Key (Record I) (External I) → Prop) :=
  kept_locks _ _

theorem ensures_preExecuteRecheck (hA : discipline.Kept A) (user : Text) (actionId : Uuid)
    (digest : Digest) (key : IdempotencyKey) :
    (requests I ι).Ensures A (preExecuteRecheck user actionId digest key) fun _ i s =>
      LocksReady actionId digest key i s ∧ A i s := by
  unfold preExecuteRecheck
  refine (keeping_authenticate hA user).bind fun _ => ?_
  refine (keeping_lockRunForAction hA actionId).bind fun run => ?_
  refine (ensures_lockAction hA actionId).bind fun locked => ?_
  refine System.ensures_unless fun _ => ?_
  refine System.ensures_unless fun hdigest => ?_
  refine System.ensures_unless fun hkey => ?_
  refine System.ensures_unless fun hstate => ?_
  simp only [not_or, not_not] at hdigest hkey hstate
  have hready : discipline.Kept fun i s => LocksReady actionId digest key i s ∧ A i s :=
    (kept_locksReady _ _ _).and hA
  refine System.Ensures.pre (A := fun i s => LocksReady actionId digest key i s ∧ A i s) ?_
    fun i s _ h => ?_
  · refine System.Ensures.bind (B := fun _ i s => LocksReady actionId digest key i s ∧ A i s)
      ((ensures_get hready (.receipt key)).post fun _ _ _ _ => And.right) fun receipt => ?_
    refine System.ensures_unless fun _ => ?_
    refine (keeping_checkPolicy hready locked.action).bind fun _ => ?_
    refine (keeping_checkLatestApproval hready locked.action).bind fun approval => ?_
    extract_lets approvedActor
    exact System.ensures_unless fun _ => keeping_checkGates hready user locked run _
  · obtain ⟨⟨⟨hid, -, hcontent⟩, -, d, hheld, rfl⟩, hAs⟩ := h
    rw [hid] at hheld
    refine ⟨⟨_, hheld, _, rfl, ?_⟩, hAs⟩
    exact
      { actionId := by rw [hcontent, hid]
        digest := by rw [hcontent, hdigest.2]
        idempotencyKey := by rw [hcontent, hkey]
        state := hstate }

omit [DecidableEq ι] in
/-- An action that is locked and ready is the one that was asked for. -/
theorem ready_of_isLocked {actionId : Uuid} {digest : Digest} {key : IdempotencyKey}
    {locked : LockedAction I} {i : ι} {s : Store ι Key (Record I) (External I)}
    (hready : LocksReady actionId digest key i s) (hlocked : IsLocked actionId locked i s) :
    Ready actionId digest key locked.locked := by
  obtain ⟨_, hheld, stored, rfl, hstored⟩ := hready
  obtain ⟨⟨hid, -, -⟩, -, _, hsame, rfl⟩ := hlocked
  rw [hid, hheld] at hsame
  obtain rfl := Record.action.inj (Option.some.inj hsame)
  exact hstored

omit [DecidableEq ι] in
/-- The row of an action is locked, and it may be written. -/
theorem approved_of_isLocked {actionId : Uuid} {digest : Digest} {key : IdempotencyKey}
    {locked : LockedAction I} {i : ι} {s : Store ι Key (Record I) (External I)}
    (hready : LocksReady actionId digest key i s) (hlocked : IsLocked actionId locked i s) :
    discipline.requires (s.held i) (.write locked.action) := by
  have hstored := ready_of_isLocked hready hlocked
  obtain ⟨⟨-, -, hcontent⟩, -, _, hheld, rfl⟩ := hlocked
  exact ⟨_, hheld, _, rfl, hcontent, hstored.state⟩

end Execution
