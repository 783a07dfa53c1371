import SynoraErp.Execution.Serving
import SynoraErp.Execution.Undisturbed

/-!
# What holds of every execution

Any number of connections serve requests over one table, with any interleaving of their
calls, with connections that are lost and with calls that raise. `once_of_path` says that the
ERP is written once for an idempotency key, `ready_of_path` what is so just before it is,
`settled_of_path` that the records of an execution agree, and `row_precedes_of_path` how a
row changes.
-/

namespace Execution

open Python Governance
open Transition Transition.Documents Transition.Documents.Discipline

variable {I : Interpreter} {ι : Type}

variable (I ι) in
/-- The table and the programs of the connections. -/
abbrev World : Type :=
  Config ι (Store ι Key (Record I) (External I)) (Call Key (Record I) (External I))
    (Call.Reply External.Value Raised) Raised Unit

/-- A table whose records agree, that no connection has used by now. -/
structure Started (w : World I ι) : Prop where
  unused : ∃ table, discipline.Backed table ∧ w.environment = .unused table
  idle : ∀ i, w.programs i = none

/-- A connection takes a request or makes a call of one. -/
abbrev Serves [DecidableEq ι] : World I ι → Event ι → World I ι → Prop :=
  Moves Store.Perform Entry fun _ => none

variable [DecidableEq ι] {w₀ w w' : World I ι}
  {trace₀ trace : List (Step (World I ι) (Event ι))}

theorem meets_of_entry (i : ι) (p : Prog I Unit) (s : Store ι Key (Record I) (External I))
    (hp : Entry p) (hs : discipline.Consistent s) :
    (requests I ι).Meets i p (fun _ _ => True) s :=
  (lawful_of_entry hp).meets hs

theorem Started.keeps (hstart : Started w₀) : (requests I ι).Keeps (fun _ _ _ => True) w₀ := by
  obtain ⟨table, hbacked, htable⟩ := hstart.unused
  refine ⟨?_, fun i p hp => ?_⟩
  · rw [htable]
    exact Discipline.consistent_unused hbacked
  · rw [hstart.idle i] at hp
    cases hp

/-- Every connection keeps its promise, at the start and after any calls. -/
theorem keeps_of_path (hstart : Started w₀) (hpath : Path Serves w₀ trace w) :
    (requests I ι).Keeps (fun _ _ _ => True) w := by
  refine hpath.invariant (fun v e v' hv hstep => ?_) hstart.keeps
  exact hv.step meets_of_entry (fun _ _ _ _ hnext => by cases hnext) hstep

/-! ## Writes to the ERP -/

/-- The key that a call to the outside writes for. -/
def written : External I → Option IdempotencyKey
  | .write a => some a.idempotencyKey
  | _ => none

theorem subject_eq (x : External I) : discipline.subject x = (written x).map Key.reservation := by
  cases x <;> rfl

/-! ## An execution that goes through -/

/-- The row of an action that its user has approved. -/
def approvedRow (a : ProposedAction I) : StoredAction I where
  action := a
  state := .approved
  stateVersion := 1
  stateReason := []
  stateChangedBy := a.initiator.text

/-- A table with nothing but an approved action. -/
def soleTable (a : ProposedAction I) : Table Key (Record I) :=
  Function.update (fun _ => none) (.action a.actionId) (some (.action (approvedRow a)))

theorem soleTable_action (a : ProposedAction I) :
    soleTable a (.action a.actionId) = some (.action (approvedRow a)) :=
  Function.update_self ..

def soleWorld (a : ProposedAction I) : World I ℕ := ⟨.unused (soleTable a), fun _ => none⟩

theorem started_soleWorld (a : ProposedAction I) : Started (soleWorld a) where
  unused := by
    refine ⟨_, fun k row hrow => ?_, rfl⟩
    by_cases hk : k = .action a.actionId
    · subst hk
      rw [soleTable, Function.update_self] at hrow
      obtain rfl := Option.some.inj hrow
      exact rfl
    · rw [soleTable, Function.update_of_ne hk] at hrow
      cases hrow
  idle _ := rfl

/-- A request that goes through in a table with nothing but an action. -/
structure GoesThrough (a : ProposedAction I) (p : Prog I Unit)
    (t : Store ℕ Key (Record I) (External I)) : Prop where
  entry : Entry p
  runs : Runs Store.Perform 0 (soleWorld a).environment p t (.ok ())
  written : ∃ x ∈ t.log, written x = some a.idempotencyKey
  reservation : ∃ row, t.committed (.reservation a.idempotencyKey) = some (.reservation row) ∧
    row.status = .settled .succeeded

theorem GoesThrough.path {a : ProposedAction I} {p : Prog I Unit}
    {t : Store ℕ Key (Record I) (External I)} (h : GoesThrough a p t) :
    ∃ trace w, Path Serves (soleWorld a) trace w ∧ w.environment = t := by
  obtain ⟨trace, htrace⟩ := @Runs.path _ _ _ _ _ _ _ _ _ _ _ Entry (fun _ => none) _ _ h.runs
    (Function.update (fun _ => none) 0 (some p)) (Function.update_self ..)
  have henter : Serves (soleWorld a) (.enter 0)
      ⟨_, Function.update (fun _ => none) 0 (some p)⟩ := .enter _ 0 p h.entry rfl
  exact ⟨_, _, .cons henter htrace, rfl⟩

/-- What is answered while a replenishment is ordered. -/
def replenishmentAnswers (verified : Dict) : Answers where
  run := ⟨exampleRunId, .proposed, 1⟩
  reservationId := exampleReceiptId
  ownerToken := exampleReceiptId
  reading := 0
  startedAt := exampleStart
  receiptId := exampleReceiptId
  completedAt := replenishmentContext.completedAt
  target := replenishmentName
  verified := verified

theorem warehouses_replenishment :
    warehouses (payloadDict (replenishment 0 one_line)) = ["Stores"] := by
  decide +kernel

/-- An approved replenishment can be executed. -/
theorem exists_goesThrough : ∃ (a : ProposedAction Interpreter.ascii)
    (p : Prog Interpreter.ascii Unit) (t : Store ℕ Key (Record Interpreter.ascii)
      (External Interpreter.ascii)), GoesThrough a p t := by
  obtain ⟨⟨_, digest, hdigest⟩, rfl, hbuild⟩ := exists_replenishment one_line (by decide +kernel)
  obtain ⟨e, he⟩ := exists_verify_replenishment one_line
  let a : ProposedAction Interpreter.ascii := ⟨_, digest, hdigest⟩
  obtain ⟨receipt, hreceipt⟩ := (receipt_accepts_readBack_iff (a := a) he replenishmentContext
    replenishmentName).mpr (show (List.replicate 1 replenishmentLine).length ≤ 11 by simp)
  have hlines : warehouses (payloadDict a.toProposal) = ["Stores"] := warehouses_replenishment
  have hone := @executionKey_of_lines _ a (by rw [hlines]; decide) (by rw [hlines]; decide)
  obtain ⟨key, hkey, -⟩ := hone.1 (by rw [NamesOneWarehouse, hlines]; simp)
  let args : Arguments := ⟨a.actionId, a.digest, a.idempotencyKey, a.correlationId⟩
  have hexecutable : Executable buyer.text args (approvedRow a) :=
    { user_ne := by decide
      build := hbuild
      isP2p := rfl
      stateVersion := le_rfl
      ready := ⟨rfl, rfl, rfl, rfl⟩ }
  have hcontext : receiptContext exampleReceiptId (some buyer.text) buyer.text exampleStart
      replenishmentContext.completedAt a.correlationId = .ok replenishmentContext :=
    receiptContext_text _ _ _ _ (some buyer) buyer
  have hfits : (replenishmentAnswers e).Fits buyer.text (approvedRow a) key receipt :=
    { run := rfl
      key := hkey
      receipt := ⟨_, hcontext, hreceipt⟩ }
  have hrow : soleTable a (.action args.actionId) = some (.action (approvedRow a)) :=
    soleTable_action a
  let scene : Scene Key (Record Interpreter.ascii) := ⟨soleTable a, []⟩
  have hmay : May ℕ scene (executeDraft materialRequest buyer.text args) () _ :=
    may_executeDraft hexecutable hfits rfl (by decide) hrow rfl rfl
  obtain ⟨t, hruns, hcommitted, hsubjects⟩ := runs_serve hmay (i := 0)
    (sees_unused (soleTable a))
  refine ⟨a, _, t, ⟨_, .executeMaterialRequest args, rfl⟩, hruns, ?_, ?_⟩
  · have hsubject : (Key.reservation a.idempotencyKey) ∈ t.log.filterMap discipline.subject := by
      rw [hsubjects]
      exact List.mem_singleton_self _
    obtain ⟨x, hx, hkey⟩ := List.mem_filterMap.mp hsubject
    rw [subject_eq] at hkey
    obtain ⟨_, hwritten, hsame⟩ := Option.map_eq_some_iff.mp hkey
    exact ⟨x, hx, hwritten.trans (congrArg some (Key.reservation.inj hsame))⟩
  · rw [hcommitted]
    exact ⟨_, Scene.table_write_self .., rfl⟩

/-- The ERP is written at most once for a key, and never for one that was reserved before. -/
theorem once_of_path (hstart : Started w₀) (hpath : Path Serves w₀ trace w) :
    (w.environment.log.filterMap written).Nodup ∧
      ∀ a, External.write a ∈ w.environment.log →
        w₀.environment.committed (.reservation a.idempotencyKey) = none ∧
          w.environment.committed (.reservation a.idempotencyKey) ≠ none := by
  have hs := (keeps_of_path hstart hpath).invariant
  refine ⟨?_, fun a ha => ?_⟩
  · have honce := hs.once
    simp only [funext subject_eq, ← List.map_filterMap] at honce
    exact honce.of_map
  · have howner := hs.logged _ ha (.reservation a.idempotencyKey) rfl
    obtain ⟨i, hi⟩ := Option.ne_none_iff_exists'.mp howner
    refine ⟨?_, hs.owned _ i hi⟩
    by_contra hreserved
    have hsame := Discipline.owner_of_path meets_of_entry (fun _ _ _ _ hnext => by cases hnext)
      hpath hstart.keeps hreserved
    obtain ⟨table, -, htable⟩ := hstart.unused
    rw [htable] at hsame
    exact howner hsame

theorem once_of_path_replenishment : ∃ (w₀ w : World Interpreter.ascii ℕ)
    (trace : List (Step (World Interpreter.ascii ℕ) (Event ℕ)))
    (a : ProposedAction Interpreter.ascii), Started w₀ ∧ Path Serves w₀ trace w ∧
      External.write a ∈ w.environment.log ∧ (w.environment.log.filterMap written).Nodup ∧
      w₀.environment.committed (.reservation a.idempotencyKey) = none ∧
      w.environment.committed (.reservation a.idempotencyKey) ≠ none := by
  obtain ⟨a, p, t, h⟩ := exists_goesThrough
  obtain ⟨trace, w, hpath, rfl⟩ := h.path
  obtain ⟨x, hx, hkey⟩ := h.written
  obtain ⟨b, rfl⟩ : ∃ b, x = .write b := by
    cases x with
    | write b => exact ⟨b, rfl⟩
    | _ => cases hkey
  have honce := once_of_path (started_soleWorld a) hpath
  exact ⟨_, w, trace, b, started_soleWorld a, hpath, hx, honce.1, honce.2 b hx⟩

/-- Wherever the ERP is about to be written, the row of the action is approved and locked by
this connection alone, its reservation is committed, and nothing was written for it. -/
theorem ready_of_path (hstart : Started w₀) (hpath : Path Serves w₀ trace w) {i : ι}
    {a : ProposedAction I}
    {next : Call.Reply External.Value Raised (.external (.write a)) → Prog I Unit}
    (hprogram : w.programs i = some (.call (.external (.write a)) next)) :
    (∃ stored, w.environment.view i (.action a.actionId) = some (.action stored) ∧
        stored.action = a ∧ stored.state = .approved) ∧
      (w.environment.connections i).locked (.action a.actionId) = true ∧
      w.environment.Free i (.action a.actionId) ∧
      w.environment.committed (.reservation a.idempotencyKey) ≠ none ∧
      ∀ x ∈ w.environment.log, written x ≠ some a.idempotencyKey := by
  have hkeeps := keeps_of_path hstart hpath
  obtain ⟨hallowed, -⟩ := hkeeps.meets i _ hprogram _ (.refl hkeeps.invariant)
  obtain ⟨⟨row, hheld, stored, rfl, hcontent, hstate⟩, howner, hnew⟩ := hallowed
  unfold Store.held Connection.held at hheld
  split_ifs at hheld with hlocked
  refine ⟨⟨stored, hheld, hcontent, hstate⟩, hlocked,
    (hkeeps.invariant.fits i).exclusive _ hlocked, hkeeps.invariant.owned _ i (howner _ rfl), fun x hx hkey => hnew _ rfl x hx ?_⟩
  rw [subject_eq, hkey]
  rfl

theorem ready_of_path_replenishment : ∃ (w₀ w : World Interpreter.ascii ℕ)
    (trace : List (Step (World Interpreter.ascii ℕ) (Event ℕ)))
    (a : ProposedAction Interpreter.ascii)
    (next : Call.Reply External.Value Raised (.external (.write a)) → Prog Interpreter.ascii Unit),
    Started w₀ ∧ Path Serves w₀ trace w ∧
      w.programs 0 = some (.call (.external (.write a)) next) ∧
      (∃ stored, w.environment.view 0 (.action a.actionId) = some (.action stored) ∧
        stored.action = a ∧ stored.state = .approved) ∧
      (w.environment.connections 0).locked (.action a.actionId) = true ∧
      w.environment.Free 0 (.action a.actionId) ∧
      w.environment.committed (.reservation a.idempotencyKey) ≠ none ∧
      ∀ x ∈ w.environment.log, written x ≠ some a.idempotencyKey := by
  obtain ⟨a, p, t, h⟩ := exists_goesThrough
  have henter : Serves (soleWorld a) (.enter 0)
      ⟨_, Function.update (fun _ => none) 0 (some p)⟩ := .enter _ 0 p h.entry rfl
  obtain ⟨x, hx, hkey⟩ := h.written
  obtain ⟨trace, u, x, next, hwrites, hpath⟩ := @Store.path_to_external _ _ _ _ _ _ _ _ _ _ _ _
    (fun x => written x ≠ none) Entry (fun _ => none) _ _ h.runs (fun _ hx => by cases hx)
    ⟨x, hx, by rw [hkey]; simp⟩ _ (Function.update_self ..)
  obtain ⟨b, rfl⟩ : ∃ b, x = .write b := by
    cases x with
    | write b => exact ⟨b, rfl⟩
    | _ => exact absurd rfl hwrites
  have hprogram := Function.update_self (β := fun _ => Option (Prog Interpreter.ascii Unit)) 0
    (some (.call (.external (.write b)) next)) (Function.update (fun _ => none) 0 (some p))
  exact ⟨_, _, _, b, next, started_soleWorld a, .cons henter hpath, hprogram,
    ready_of_path (started_soleWorld a) (.cons henter hpath) hprogram⟩

/-! ## The records of an execution -/

/-- A reservation that is settled agrees with its action and its receipt. -/
theorem settled_of_path (hstart : Started w₀) (hpath : Path Serves w₀ trace w)
    {key : IdempotencyKey} {row : Reservation} {state : ReceiptState}
    (hrow : w.environment.committed (.reservation key) = some (.reservation row))
    (hstatus : row.status = .settled state) (hstate : state ≠ .reconciliationRequired) :
    ∃ stored receipt,
      w.environment.committed (.action row.identity.action) = some (.action stored) ∧
      ReservationOf row stored.action ∧
      w.environment.committed (.receipt key) = some (.receipt receipt) ∧
      ReceiptOf receipt stored.action ∧ row.receipt = some receipt.receiptId ∧
      receipt.finalState = state ∧
      (state.isSuccess = true → stored.state = .executed ∧ row.targetName.isSome = true ∧
        receipt.target.map Prod.snd = row.targetName) := by
  have hbacked := (keeps_of_path hstart hpath).invariant.backed
  obtain ⟨rfl, ⟨_, ⟨stored, hstored, rfl⟩, hof⟩, hsettled⟩ := hbacked _ _ hrow
  obtain ⟨receipt, ⟨hreceipt, -⟩, hkey, haction, hnamed, hfinal, hsuccess⟩ :=
    hsettled state hstatus hstate
  rw [hkey] at hreceipt
  obtain ⟨-, _, ⟨stored', hstored', rfl⟩, hreceiptOf⟩ := hbacked _ _ hreceipt
  have hsame : stored'.action.actionId = stored.action.actionId := by
    rw [← hreceiptOf.actionId, haction, hof.action]
  rw [hsame, hstored] at hstored'
  obtain rfl := Record.action.inj (Option.some.inj hstored')
  rw [← hof.action] at hstored
  refine ⟨stored, receipt, hstored, hof, hreceipt, hreceiptOf, hnamed, hfinal, fun hs => ?_⟩
  obtain ⟨hsome, htarget, executed, hexecuted, hstateExecuted⟩ := hsuccess hs
  rw [hstored] at hexecuted
  obtain rfl := Record.action.inj (Option.some.inj hexecuted)
  exact ⟨hstateExecuted, hsome, htarget⟩

theorem settled_of_path_replenishment : ∃ (w₀ w : World Interpreter.ascii ℕ)
    (trace : List (Step (World Interpreter.ascii ℕ) (Event ℕ))) (key : IdempotencyKey)
    (row : Reservation), Started w₀ ∧ Path Serves w₀ trace w ∧
      w.environment.committed (.reservation key) = some (.reservation row) ∧
      row.status = .settled .succeeded ∧ ∃ stored receipt,
        w.environment.committed (.action row.identity.action) = some (.action stored) ∧
        ReservationOf row stored.action ∧
        w.environment.committed (.receipt key) = some (.receipt receipt) ∧
        ReceiptOf receipt stored.action ∧ row.receipt = some receipt.receiptId ∧
        receipt.finalState = .succeeded ∧
        (ReceiptState.succeeded.isSuccess = true → stored.state = .executed ∧
          row.targetName.isSome = true ∧ receipt.target.map Prod.snd = row.targetName) := by
  obtain ⟨a, p, t, h⟩ := exists_goesThrough
  obtain ⟨trace, w, hpath, rfl⟩ := h.path
  obtain ⟨row, hrow, hstatus⟩ := h.reservation
  exact ⟨_, w, trace, _, row, started_soleWorld a, hpath, hrow, hstatus,
    settled_of_path (started_soleWorld a) hpath hrow hstatus (by decide)⟩

/-- Whatever is served, a row that is committed stays the record that it was: its identity
is kept, its state moves by the transitions, and one that is settled is not changed. -/
theorem row_precedes_of_path (hstart : Started w₀) (hpath₀ : Path Serves w₀ trace₀ w)
    (hpath : Path Serves w trace w') {k : Key} {earlier : Record I}
    (hearlier : w.environment.committed k = some earlier) :
    ∃ later, w'.environment.committed k = some later ∧ Precedes earlier later := by
  apply precedes_of_evolves
  rw [← hearlier]
  exact Discipline.evolves_of_path meets_of_entry (fun _ _ _ _ hnext => by cases hnext) hpath
    (keeps_of_path hstart hpath₀) k

theorem row_precedes_of_path_replenishment : ∃ (w w' : World Interpreter.ascii ℕ)
    (trace : List (Step (World Interpreter.ascii ℕ) (Event ℕ))) (k : Key)
    (earlier later : Record Interpreter.ascii), Started w ∧ Path Serves w trace w' ∧
      (∃ x ∈ w'.environment.log, written x ≠ none) ∧
      w.environment.committed k = some earlier ∧ w'.environment.committed k = some later ∧
      Precedes earlier later := by
  obtain ⟨a, p, t, h⟩ := exists_goesThrough
  obtain ⟨trace, w, hpath, rfl⟩ := h.path
  obtain ⟨x, hx, hkey⟩ := h.written
  have hrow : (soleWorld a).environment.committed (.action a.actionId) =
      some (.action (approvedRow a)) := soleTable_action a
  obtain ⟨later, hlater, hprecedes⟩ := row_precedes_of_path (started_soleWorld a) (.nil _) hpath hrow
  exact ⟨_, w, trace, _, _, later, started_soleWorld a, hpath, ⟨x, hx, by rw [hkey]; simp⟩, hrow,
    hlater, hprecedes⟩

end Execution
