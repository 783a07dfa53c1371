import SynoraErp.Execution.Request
import SynoraErp.Transition.Claims

/-!
# The discipline of an execution

An action is proposed as a draft and moves by the transitions of its states, a reservation
starts and leaves its status only while it is open, and a receipt is rewritten once, by a
reconciliation. A reservation that is settled names a receipt of its own state, and one that
has succeeded a receipt of its own target and an action that was executed. A write to the ERP
needs its action locked and approved, and a reservation that its connection has created.
-/

namespace Execution

open Python Governance
open Transition Transition.Documents

variable {I : Interpreter}

/-! ## How a row changes -/

/-- A row as it is inserted. -/
def Inserted : Key → Record I → Prop
  | .action _, .action row => row.state = .draft ∧ row.stateVersion = 1
  | .reservation _, .reservation row => row.status = .started
  | .receipt _, .receipt _ => True
  | _, _ => False

/-- What a save makes of a row. -/
def Changes : Record I → Record I → Prop
  | .action before, .action after =>
      after.action = before.action ∧ after.state ∈ before.state.transitions ∧
        after.stateVersion = before.stateVersion + 1
  | .reservation before, .reservation after =>
      after.identity = before.identity ∧ isOpen before.status = true ∧
        (after.status = before.status ∨ after.status ∈ before.status.transitions)
  | .receipt before, .receipt after =>
      receiptIdentity after = receiptIdentity before ∧
        before.finalState = .reconciliationRequired ∧ after.finalState ∈ reconciledStates
  | _, _ => False

/-- A state leads to another by transitions. -/
abbrev ActionLeads : ActionState → ActionState → Prop :=
  Relation.ReflTransGen fun current target => target ∈ current.transitions

abbrev StatusLeads : ReservationStatus → ReservationStatus → Prop :=
  Relation.ReflTransGen fun current target => target ∈ current.transitions

/-- What a row becomes. -/
def Precedes : Record I → Record I → Prop
  | .action earlier, .action later =>
      later.action = earlier.action ∧ ActionLeads earlier.state later.state ∧
        earlier.stateVersion ≤ later.stateVersion ∧
        (later.stateVersion = earlier.stateVersion → later = earlier)
  | .reservation earlier, .reservation later =>
      later.identity = earlier.identity ∧ StatusLeads earlier.status later.status ∧
        (isOpen earlier.status = false → later = earlier)
  | .receipt earlier, .receipt later =>
      receiptIdentity later = receiptIdentity earlier ∧
        (later = earlier ∨ earlier.finalState = .reconciliationRequired ∧
          later.finalState ∈ reconciledStates)
  | _, _ => False

theorem precedes_refl (row : Record I) : Precedes row row := by
  cases row with
  | action row => exact ⟨rfl, .refl, le_rfl, fun _ => rfl⟩
  | reservation row => exact ⟨rfl, .refl, fun _ => rfl⟩
  | receipt row => exact ⟨rfl, .inl rfl⟩

theorem ne_reconciliationRequired_of_mem {state : ReceiptState}
    (h : state ∈ reconciledStates) : state ≠ .reconciliationRequired := by
  rintro rfl
  revert h
  decide

/-- A row that has been changed once more. -/
theorem Precedes.tail {earlier row later : Record I} (h : Precedes earlier row)
    (hchange : Changes row later) : Precedes earlier later := by
  cases earlier with
  | action earlier =>
      cases row with
      | action row =>
          cases later with
          | action later =>
              obtain ⟨hcontent, hleads, hversion, -⟩ := h
              obtain ⟨hsame, hstate, hnext⟩ := hchange
              refine ⟨hsame.trans hcontent, hleads.tail hstate, by omega, fun heq => ?_⟩
              omega
          | reservation later | receipt later => exact hchange.elim
      | reservation row | receipt row => exact h.elim
  | reservation earlier =>
      cases row with
      | reservation row =>
          cases later with
          | reservation later =>
              obtain ⟨hidentity, hleads, hfinal⟩ := h
              obtain ⟨hsame, hopen, hstatus⟩ := hchange
              refine ⟨hsame.trans hidentity, ?_, fun hclosed => ?_⟩
              · rcases hstatus with hstatus | hstatus
                · exact hstatus ▸ hleads
                · exact hleads.tail hstatus
              · rw [hfinal hclosed, hclosed] at hopen
                cases hopen
          | action later | receipt later => exact hchange.elim
      | action row | receipt row => exact h.elim
  | receipt earlier =>
      cases row with
      | receipt row =>
          cases later with
          | receipt later =>
              obtain ⟨hidentity, hstate⟩ := h
              obtain ⟨hsame, hrequired, hreconciled⟩ := hchange
              refine ⟨hsame.trans hidentity, .inr ⟨?_, hreconciled⟩⟩
              rcases hstate with rfl | ⟨-, hmem⟩
              · exact hrequired
              · exact absurd hrequired (ne_reconciliationRequired_of_mem hmem)
          | action later | reservation later => exact hchange.elim
      | action row | reservation row => exact h.elim

/-- How the rows are written. -/
def rules : Rules Key (Record I) where
  new := Inserted
  change _ := Changes

theorem precedes_of_evolves {k : Key} {row : Record I} {later : Option (Record I)}
    (h : rules.Evolves k (some row) later) : ∃ row', later = some row' ∧ Precedes row row' := by
  induction h with
  | refl => exact ⟨row, rfl, precedes_refl row⟩
  | tail _ hwrites ih =>
      obtain ⟨row', rfl, hprecedes⟩ := ih
      cases hwrites with
      | save hchange => exact ⟨_, rfl, hprecedes.tail hchange⟩

/-! ## What the table shows -/

/-- The row of an action has its content. -/
def Reads (a : ProposedAction I) (T : Table Key (Record I)) : Prop :=
  ∃ row, T (.action a.actionId) = some (.action row) ∧ row.action = a

/-- An action was executed. -/
def Executed (actionId : Uuid) (T : Table Key (Record I)) : Prop :=
  ∃ row, T (.action actionId) = some (.action row) ∧ row.state = .executed

/-- A receipt that no reconciliation rewrites. -/
def Receipted (receipt : ExecutionReceipt) (T : Table Key (Record I)) : Prop :=
  T (.receipt receipt.idempotencyKey) = some (.receipt receipt) ∧
    receipt.finalState ≠ .reconciliationRequired

/-- An action is in the table with a reservation. -/
def Begun (a : ProposedAction I) (T : Table Key (Record I)) : Prop :=
  Reads a T ∧ ∃ row, T (.reservation a.idempotencyKey) = some (.reservation row) ∧
    row.identity.action = a.actionId

/-- A table that another becomes by the rules. -/
def Becomes (T T' : Table Key (Record I)) : Prop := ∀ k, rules.Evolves k (T k) (T' k)

theorem Reads.becomes {a : ProposedAction I} {T T' : Table Key (Record I)} (h : Becomes T T')
    (hreads : Reads a T) : Reads a T' := by
  obtain ⟨row, hrow, hcontent⟩ := hreads
  obtain ⟨row', hrow', hprecedes⟩ := precedes_of_evolves (hrow ▸ h (.action a.actionId))
  cases row' with
  | action row' => exact ⟨row', hrow', hprecedes.1.trans hcontent⟩
  | reservation row' | receipt row' => exact hprecedes.elim

theorem eq_of_actionLeads_executed {state : ActionState} (h : ActionLeads .executed state) :
    state = .executed := by
  induction h with
  | refl => rfl
  | tail _ hstep ih =>
      subst ih
      cases hstep

theorem Executed.becomes {actionId : Uuid} {T T' : Table Key (Record I)} (h : Becomes T T')
    (hexecuted : Executed actionId T) : Executed actionId T' := by
  obtain ⟨row, hrow, hstate⟩ := hexecuted
  obtain ⟨row', hrow', hprecedes⟩ := precedes_of_evolves (hrow ▸ h (.action actionId))
  cases row' with
  | action row' =>
      refine ⟨row', hrow', eq_of_actionLeads_executed ?_⟩
      exact hstate ▸ hprecedes.2.1
  | reservation row' | receipt row' => exact hprecedes.elim

theorem Receipted.becomes {receipt : ExecutionReceipt} {T T' : Table Key (Record I)}
    (h : Becomes T T') (hreceipted : Receipted receipt T) : Receipted receipt T' := by
  obtain ⟨hrow, hstate⟩ := hreceipted
  obtain ⟨row', hrow', hprecedes⟩ := precedes_of_evolves
    (hrow ▸ h (.receipt receipt.idempotencyKey))
  cases row' with
  | receipt row' =>
      obtain ⟨-, rfl | ⟨hrequired, -⟩⟩ := hprecedes
      · exact ⟨hrow', hstate⟩
      · exact absurd hrequired hstate
  | action row' | reservation row' => exact hprecedes.elim

theorem Begun.becomes {a : ProposedAction I} {T T' : Table Key (Record I)} (h : Becomes T T')
    (hbegun : Begun a T) : Begun a T' := by
  obtain ⟨hreads, row, hrow, haction⟩ := hbegun
  refine ⟨hreads.becomes h, ?_⟩
  obtain ⟨row', hrow', hprecedes⟩ := precedes_of_evolves
    (hrow ▸ h (.reservation a.idempotencyKey))
  cases row' with
  | reservation row' => exact ⟨row', hrow', hprecedes.1 ▸ haction⟩
  | action row' | receipt row' => exact hprecedes.elim

/-! ## What a row needs of the others -/

/-- A reservation is about an action of the table. -/
structure ReservationOf (reservation : Reservation) (a : ProposedAction I) : Prop where
  action : reservation.identity.action = a.actionId
  run : reservation.identity.run = a.runId
  idempotencyKey : reservation.identity.idempotencyKey = a.idempotencyKey
  proposalDigest : reservation.identity.proposalDigest = a.digest
  targetDoctype : reservation.identity.targetDoctype = a.actionType.targetDoctype

/-- A receipt is about an action of the table. -/
structure ReceiptOf (receipt : ExecutionReceipt) (a : ProposedAction I) : Prop where
  actionId : receipt.actionId = a.actionId
  runId : receipt.runId = a.runId
  initiator : receipt.initiator = a.initiator
  idempotencyKey : receipt.idempotencyKey = a.idempotencyKey
  proposalDigest : receipt.proposalDigest = a.digest

/-- The evidence of a reservation that is settled in a state. -/
def Settled (reservation : Reservation) (state : ReceiptState) (T : Table Key (Record I)) :
    Prop :=
  ∃ receipt, Receipted receipt T ∧
    receipt.idempotencyKey = reservation.identity.idempotencyKey ∧
    receipt.actionId = reservation.identity.action ∧
    reservation.receipt = some receipt.receiptId ∧ receipt.finalState = state ∧
    (state.isSuccess = true → reservation.targetName.isSome = true ∧
      receipt.target.map Prod.snd = reservation.targetName ∧
      Executed reservation.identity.action T)

/-- What a row needs of the table that it is in. -/
def Backed (T : Table Key (Record I)) : Key → Record I → Prop
  | .action actionId, .action row => row.action.actionId = actionId
  | .reservation key, .reservation row =>
      row.identity.idempotencyKey = key ∧ (∃ a, Reads a T ∧ ReservationOf row a) ∧
        ∀ state, row.status = .settled state → state ≠ .reconciliationRequired →
          Settled row state T
  | .receipt key, .receipt row =>
      row.idempotencyKey = key ∧ ∃ a, Reads a T ∧ ReceiptOf row a
  | _, _ => False

theorem Settled.becomes {reservation : Reservation} {state : ReceiptState}
    {T T' : Table Key (Record I)} (h : Becomes T T') (hsettled : Settled reservation state T) :
    Settled reservation state T' := by
  obtain ⟨receipt, hreceipted, hkey, haction, hnamed, hstate, hsuccess⟩ := hsettled
  refine ⟨receipt, hreceipted.becomes h, hkey, haction, hnamed, hstate, fun hs => ?_⟩
  obtain ⟨hsome, htarget, hexecuted⟩ := hsuccess hs
  exact ⟨hsome, htarget, hexecuted.becomes h⟩

theorem Backed.becomes {T T' : Table Key (Record I)} {k : Key} {row : Record I}
    (h : Becomes T T') (hbacked : Backed T k row) : Backed T' k row := by
  cases k with
  | action actionId =>
      cases row with
      | action row => exact hbacked
      | reservation row | receipt row => exact hbacked.elim
  | reservation key =>
      cases row with
      | reservation row =>
          obtain ⟨hkey, ⟨a, hreads, hof⟩, hsettled⟩ := hbacked
          exact ⟨hkey, ⟨a, hreads.becomes h, hof⟩, fun state hs hne => (hsettled state hs hne).becomes h⟩
      | action row | receipt row => exact hbacked.elim
  | receipt key =>
      cases row with
      | receipt row =>
          obtain ⟨hkey, a, hreads, hof⟩ := hbacked
          exact ⟨hkey, a, hreads.becomes h, hof⟩
      | action row | reservation row => exact hbacked.elim

/-! ## The discipline -/

/-- The row of an action that may be written to the ERP. -/
def Approved (a : ProposedAction I) (row : Record I) : Prop :=
  ∃ stored, row = .action stored ∧ stored.action = a ∧ stored.state = .approved

/-- What is asked of the calls of a request. -/
def discipline : Discipline Key (Record I) (External I) where
  toRules := rules
  backed := Backed
  backed_mono h := Backed.becomes h
  requires held x :=
    match x with
    | .write a => ∃ row, held (.action a.actionId) = some row ∧ Approved a row
    | _ => True
  subject x :=
    match x with
    | .write a => some (.reservation a.idempotencyKey)
    | _ => none

variable {ι : Type} [DecidableEq ι]

variable (ι I) in
/-- The requests of any number of connections. -/
abbrev requests : System ι (Store ι Key (Record I) (External I))
    (Call Key (Record I) (External I)) (Call.Reply External.Value Raised) :=
  Discipline.system ι External.Value Raised discipline

theorem persists_reads (a : ProposedAction I) : discipline.Persists (Reads a) :=
  fun _ _ h => Reads.becomes h

theorem persists_begun (a : ProposedAction I) : discipline.Persists (Begun a) :=
  fun _ _ h => Begun.becomes h

theorem persists_executed (actionId : Uuid) :
    (discipline (I := I)).Persists (Executed actionId) :=
  fun _ _ h => Executed.becomes h

theorem persists_receipted (receipt : ExecutionReceipt) :
    (discipline (I := I)).Persists (Receipted receipt) :=
  fun _ _ h => Receipted.becomes h

end Execution
