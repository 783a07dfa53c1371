import SynoraErp.Workflow.Checkpoint
import SynoraErp.Workflow.CheckpointRoundTrip

/-!
# The store is a compare and set with an exclusive lease

The states stored in a run form one chain: each was stored against the revision of
the one before it, which the row still held. A lease that has not ended keeps every
other client's save out, and every `acquire_lease` as long as the id of the lease is
not the empty text: `acquire_lease` takes an empty id for no lease, where
`_lease_matches` takes only `NULL` for one.
-/

namespace Workflow

open Python Transition

/-! ## What a successful call does -/

section Spec

variable {W : Agent.WordClass} {I : Interpreter} {db db' : Database} {now : Instant}
  {seconds : LeaseSeconds} {state : WorkflowState} {leaseId : Option Text}

theorem create_eq_ok (h : db.create W I now seconds state leaseId = .ok db') :
    ∃ payload, storedPayload W I state = .ok payload ∧ db.row = none ∧
      state.revision ∉ db.history ∧
      db' =
        { row := some ⟨state.revision, payload, state.status, leaseId,
            leaseExpiry now seconds leaseId⟩
          history := db.history ++ [state.revision] } := by
  simp only [Database.create, Except.bind_eq_ok, Except.ite_error_eq_ok, not_or,
    Bool.not_eq_true, Option.isSome_eq_false_iff, Option.isNone_iff_eq_none] at h
  obtain ⟨payload, hpayload, ⟨hrow, hhistory⟩, h⟩ := h
  exact ⟨payload, hpayload, hrow, hhistory, (Except.ok.inj h).symm⟩

theorem save_eq_ok {expectedRevision : ℕ} {keepLease : Bool}
    (h : db.save W I now seconds state expectedRevision leaseId keepLease = .ok db') :
    state.revision = expectedRevision + 1 ∧ ∃ payload row,
      storedPayload W I state = .ok payload ∧ db.row = some row ∧
      row.revision = expectedRevision ∧ row.leaseMatches now leaseId = true ∧
      db' =
        { row := some ⟨state.revision, payload, state.status, if keepLease then leaseId else none,
            if keepLease then leaseExpiry now seconds leaseId else none⟩
          history := db.history ++ [state.revision] } := by
  simp only [Database.save, Except.bind_eq_ok, Except.ite_error_eq_ok, not_not] at h
  obtain ⟨hrevision, payload, hencode, h⟩ := h
  split at h
  · cases h
  · next row hrow =>
      simp only [Except.bind_eq_ok, Except.ite_error_eq_ok, not_not, Bool.not_eq_false] at h
      obtain ⟨hexpected, hmatches, u, hbind, -, h⟩ := h
      have hpayload : storedPayload W I state = .ok payload := by
        simp [storedPayload, hencode, hbind]
      exact ⟨hrevision, payload, row, hpayload, hrow, hexpected, hmatches, (Except.ok.inj h).symm⟩

theorem acquireLease_eq_ok {token : LeaseToken} {expectedRevision : ℕ}
    (h : db.acquireLease now seconds token expectedRevision = .ok db') :
    ∃ row, db.row = some row ∧ row.revision = expectedRevision ∧ row.leaseActive now = false ∧
      db' = { db with
        row := some { row with
          leaseId := some token.text
          leaseExpiresAt := some (leaseEnd now seconds) } } := by
  unfold Database.acquireLease at h
  split at h
  · cases h
  · next row hrow =>
      simp only [Except.ite_error_eq_ok, not_not, Bool.not_eq_true] at h
      exact ⟨row, hrow, h.1, h.2.1, (Except.ok.inj h.2.2).symm⟩

end Spec

/-! ## What a call stores -/

section Stored

variable {W : Agent.WordClass} {I : Interpreter}

/-- What a row holds of the state it was made of. -/
def CheckpointRow.content (row : CheckpointRow) : ℕ × Text := (row.revision, row.payload)

/-- The row holds the payload of a state, under its revision. -/
def Holds (W : Agent.WordClass) (I : Interpreter) (db : Database) (state : WorkflowState) : Prop :=
  ∃ row, db.row = some row ∧ row.revision = state.revision ∧
    storedPayload W I state = .ok row.payload

/-- A call stores its state, where there was none or the one before it, or it leaves
what is stored. -/
inductive Storing (W : Agent.WordClass) (I : Interpreter) (x : Step Database StoreCall) : Prop
  | stores (state : WorkflowState) (stored : stored W I x = some state)
      (holds : Holds W I x.after state)
      (history : x.after.history = x.before.history ++ [state.revision])
      (before : ∀ row, x.before.row = some row → state.revision = row.revision + 1)
  | keeps (stored : stored W I x = none) (history : x.after.history = x.before.history)
      (content : x.after.row.map CheckpointRow.content = x.before.row.map CheckpointRow.content)

theorem storing_of_step {db db' : Database} {call : StoreCall} (h : StoreStep W I db call db') :
    Storing W I ⟨db, call, db'⟩ := by
  rcases h with h | ⟨h, rfl⟩
  · have hok : (call.run W I db).toBool = true := by rw [h]; rfl
    cases call with
    | create now seconds state leaseId =>
        obtain ⟨payload, hpayload, hrow, -, rfl⟩ := create_eq_ok h
        refine .stores state (if_pos hok) ⟨_, rfl, rfl, hpayload⟩ rfl fun row hbefore => ?_
        rw [show db.row = some row from hbefore] at hrow
        cases hrow
    | load =>
        obtain rfl := Except.ok.inj h
        exact .keeps rfl rfl rfl
    | acquireLease now seconds token expectedRevision =>
        obtain ⟨row, hrow, -, -, rfl⟩ := acquireLease_eq_ok h
        exact .keeps rfl rfl (by simp [hrow, CheckpointRow.content])
    | save now seconds state expectedRevision leaseId keepLease =>
        obtain ⟨hrevision, payload, row, hpayload, hrow, hexpected, -, rfl⟩ := save_eq_ok h
        refine .stores state (if_pos hok) ⟨_, rfl, rfl, hpayload⟩ rfl fun row' hbefore => ?_
        rw [show db.row = some row' from hbefore, Option.some.injEq] at hrow
        rw [hrevision, ← hexpected, hrow]
    | releaseLease leaseId =>
        obtain rfl := Except.ok.inj h
        refine .keeps rfl rfl ?_
        simp only [Database.releaseLease, Option.map_map]
        congr 1
        refine funext fun row => ?_
        simp only [Function.comp_apply]
        split_ifs <;> rfl
  · refine .keeps ?_ rfl rfl
    cases call with
    | create | save => exact if_neg (by simp [h])
    | load | acquireLease | releaseLease => rfl

/-- The states a run has stored form a chain, whose end is what the row holds. -/
structure Chained (W : Agent.WordClass) (I : Interpreter) (trace : List (Step Database StoreCall))
    (db : Database) : Prop where
  chain : (storedStates W I trace).IsChain fun a b => b.revision = a.revision + 1
  history : db.history = (storedStates W I trace).map WorkflowState.revision
  absent : db.row = none → storedStates W I trace = []
  latest : ∀ row, db.row = some row →
    ∃ last ∈ (storedStates W I trace).getLast?, Holds W I db last

theorem chained_of_path {trace : List (Step Database StoreCall)} {db : Database}
    (hpath : Path (StoreStep W I) Database.empty trace db) : Chained W I trace db := by
  refine hpath.snoc_induction (P := Chained W I) ⟨.nil, rfl, fun _ => rfl, fun row hrow => ?_⟩
    fun trace db call db' _ ih hstep => ?_
  · cases hrow
  · have hstored : storedStates W I (trace ++ [⟨db, call, db'⟩]) =
        storedStates W I trace ++ (stored W I ⟨db, call, db'⟩).toList := by
      rw [storedStates, List.filterMap_append]
      cases h : stored W I ⟨db, call, db'⟩ <;> simp [h, storedStates]
    cases storing_of_step hstep with
    | stores state stored holds history before =>
        rw [stored, Option.toList_some] at hstored
        refine ⟨?_, ?_, fun hnone => ?_, fun row hrow => ?_⟩
        · rw [hstored, List.isChain_append]
          refine ⟨ih.chain, .singleton _, fun last hlast next hnext => ?_⟩
          obtain rfl : state = next := by simpa using hnext
          cases hrow : db.row with
          | none =>
              rw [ih.absent hrow] at hlast
              cases hlast
          | some row =>
              obtain ⟨last', hlast', row', hrow', hrevision, -⟩ := ih.latest row hrow
              obtain rfl : last' = last := Option.some.inj (hlast'.symm.trans hlast)
              rw [hrow, Option.some.injEq] at hrow'
              rw [before row hrow, hrow', hrevision]
        · rw [hstored, List.map_append, ← ih.history]
          exact history
        · obtain ⟨row, hrow, -⟩ := holds
          rw [show db'.row = some row from hrow] at hnone
          cases hnone
        · exact ⟨state, by simp [hstored], holds⟩
    | keeps stored history content =>
        rw [stored, Option.toList_none, List.append_nil] at hstored
        simp only at content history
        refine ⟨hstored ▸ ih.chain, by rw [hstored, history, ih.history], fun hnone => ?_,
          fun row hrow => ?_⟩
        · rw [hnone, Option.map_none, eq_comm, Option.map_eq_none_iff] at content
          rw [hstored, ih.absent content]
        · rw [hrow, Option.map_some, eq_comm, Option.map_eq_some_iff] at content
          obtain ⟨old, hold, hcontent⟩ := content
          obtain ⟨last, hlast, row', hrow', hrevision, hpayload⟩ := ih.latest old hold
          rw [hold, Option.some.injEq] at hrow'
          subst hrow'
          obtain ⟨hrev, hpay⟩ := Prod.mk.inj hcontent
          exact ⟨last, hstored ▸ hlast, row, hrow, by rw [← hrev, hrevision], by rw [← hpay, hpayload]⟩

end Stored

/-! ## Leases -/

/-- The lease of a client that has not ended. A client is known by the id of its
lease. -/
def Database.HeldBy (db : Database) (now : Instant) (holder : Text) : Prop :=
  ∃ row, db.row = some row ∧ row.leaseId = some holder ∧
    ∃ expiry, row.leaseExpiresAt = some expiry ∧ now.microseconds < expiry

/-- A call does not name the empty text as the id of a new lease. -/
def StoreCall.NamesLease : StoreCall → Prop
  | .create _ _ _ leaseId => leaseId ≠ some []
  | _ => True

/-- The lease of the row, if there is one, has a name. -/
def Database.Named (db : Database) : Prop := ∀ row, db.row = some row → row.leaseId ≠ some []

section Leases

variable {W : Agent.WordClass} {I : Interpreter} {db db' : Database} {now : Instant}

/-- A lease keeps out every save that does not present it. -/
theorem leaseId_eq_of_heldBy {seconds : LeaseSeconds} {state : WorkflowState}
    {expectedRevision : ℕ} {leaseId : Option Text} {keepLease : Bool} {holder : Text}
    (h : db.save W I now seconds state expectedRevision leaseId keepLease = .ok db')
    (hheld : db.HeldBy now holder) : leaseId = some holder := by
  obtain ⟨row, hrow, hholder, -⟩ := hheld
  obtain ⟨-, payload, row', -, hrow', -, hmatches, -⟩ := save_eq_ok h
  rw [hrow, Option.some.injEq] at hrow'
  rw [← hrow', CheckpointRow.leaseMatches, hholder, Bool.and_eq_true, beq_iff_eq] at hmatches
  exact hmatches.1

/-- A lease with a name keeps out every other lease. -/
theorem not_heldBy_of_acquireLease {seconds : LeaseSeconds} {token : LeaseToken}
    {expectedRevision : ℕ} {holder : Text} (hnamed : db.Named)
    (h : db.acquireLease now seconds token expectedRevision = .ok db') :
    ¬db.HeldBy now holder := by
  rintro ⟨row, hrow, hholder, expiry, hexpiry, hactive⟩
  obtain ⟨row', hrow', -, hinactive, -⟩ := acquireLease_eq_ok h
  rw [hrow, Option.some.injEq] at hrow'
  have hname : holder ≠ [] := fun hempty => hnamed row hrow (by rw [hholder, hempty])
  simp [← hrow', CheckpointRow.leaseActive, hholder, hexpiry, hactive, hname] at hinactive

/-- A client presents a lease to save under it or to release it. -/
def StoreCall.Presents (holder : Text) : StoreCall → Prop
  | .save _ _ _ _ leaseId _ => leaseId = some holder
  | .releaseLease leaseId => leaseId = holder
  | _ => False

/-- The reading of the clock a call makes. -/
def StoreCall.now? : StoreCall → Option Instant
  | .create now _ _ _ | .acquireLease now _ _ _ | .save now _ _ _ _ _ => some now
  | .load | .releaseLease _ => none

/-- A lease with a name stays in the row, up to its end, until it is presented. -/
theorem lease_kept_step {call : StoreCall} (hstep : StoreStep W I db call db')
    (hnamed : db.Named) {row : CheckpointRow} {holder : Text} {expiry : ℤ}
    (hrow : db.row = some row) (hholder : row.leaseId = some holder)
    (hexpiry : row.leaseExpiresAt = some expiry)
    (hnow : ∀ now ∈ call.now?, now.microseconds < expiry) (hpresents : ¬call.Presents holder) :
    ∃ row', db'.row = some row' ∧ row'.leaseId = some holder ∧
      row'.leaseExpiresAt = some expiry := by
  rcases hstep with hstep | ⟨-, rfl⟩
  · cases call with
    | create now seconds state leaseId =>
        obtain ⟨payload, -, hnone, -⟩ := create_eq_ok hstep
        rw [hrow] at hnone
        cases hnone
    | load =>
        obtain rfl := Except.ok.inj hstep
        exact ⟨row, hrow, hholder, hexpiry⟩
    | acquireLease now seconds token expectedRevision =>
        exact absurd ⟨row, hrow, hholder, expiry, hexpiry, hnow now rfl⟩
          (not_heldBy_of_acquireLease hnamed hstep)
    | save now seconds state expectedRevision leaseId keepLease =>
        exact absurd (leaseId_eq_of_heldBy hstep ⟨row, hrow, hholder, expiry, hexpiry, hnow now rfl⟩)
          hpresents
    | releaseLease leaseId =>
        obtain rfl := Except.ok.inj hstep
        have hne : row.leaseId ≠ some leaseId := fun h =>
          hpresents (Option.some.inj (h.symm.trans hholder))
        exact ⟨row, by simp [Database.releaseLease, hrow, hne], hholder, hexpiry⟩
  · exact ⟨row, hrow, hholder, hexpiry⟩

theorem named_step {call : StoreCall} (hstep : StoreStep W I db call db')
    (hcall : call.NamesLease) (h : db.Named) : db'.Named := by
  rcases hstep with hstep | ⟨-, rfl⟩
  · cases call with
    | create now seconds state leaseId =>
        obtain ⟨payload, -, -, -, rfl⟩ := create_eq_ok hstep
        rintro row ⟨rfl⟩
        exact hcall
    | load =>
        obtain rfl := Except.ok.inj hstep
        exact h
    | acquireLease now seconds token expectedRevision =>
        obtain ⟨old, -, -, -, rfl⟩ := acquireLease_eq_ok hstep
        rintro row ⟨rfl⟩ hempty
        have hlength := token.length_eq
        rw [Option.some.inj hempty] at hlength
        cases hlength
    | save now seconds state expectedRevision leaseId keepLease =>
        obtain ⟨-, payload, old, -, hold, -, hmatches, rfl⟩ := save_eq_ok hstep
        rintro row ⟨rfl⟩ hempty
        have hleaseId : leaseId = some [] := by
          cases keepLease with
          | false => cases hempty
          | true => exact hempty
        rw [CheckpointRow.leaseMatches, hleaseId] at hmatches
        split at hmatches
        · cases hmatches
        · next stored hstored =>
            rw [Bool.and_eq_true, beq_iff_eq, Option.some.injEq] at hmatches
            exact h old hold (by rw [hstored, hmatches.1])
    | releaseLease leaseId =>
        obtain rfl := Except.ok.inj hstep
        intro row hrow
        obtain ⟨old, hold, rfl⟩ := Option.map_eq_some_iff.mp hrow
        split_ifs
        · simp
        · exact h old hold
  · exact h

end Leases

/-! ## Runs -/

/-- A successful call respects the lease that is held. -/
def RespectsLease (x : Step Database StoreCall) : Prop :=
  match x.event with
  | .acquireLease now _ _ _ => ∀ holder, ¬x.before.HeldBy now holder
  | .save now _ _ _ leaseId _ => ∀ holder, x.before.HeldBy now holder → leaseId = some holder
  | _ => True

/-- A lease that has not ended outlasts a call that does not present it. -/
def KeepsLease (x : Step Database StoreCall) : Prop :=
  ∀ row holder expiry, x.before.row = some row → row.leaseId = some holder →
    row.leaseExpiresAt = some expiry → (∀ now ∈ x.event.now?, now.microseconds < expiry) →
      x.event.Presents holder ∨ ∃ row', x.after.row = some row' ∧ row'.leaseId = some holder ∧
        row'.leaseExpiresAt = some expiry

/-- A save is made against the revision the run stored last, and a load reads the
payload the run stored last. -/
def FollowsChain (W : Agent.WordClass) (I : Interpreter) (before : List (Step Database StoreCall))
    (x : Step Database StoreCall) : Prop :=
  match x.event with
  | .save _ _ _ expectedRevision _ _ =>
      ∃ last ∈ (storedStates W I before).getLast?, last.revision = expectedRevision ∧
        Holds W I x.before last
  | .load =>
      ∀ s, x.before.load W I = .ok s →
        ∃ last ∈ (storedStates W I before).getLast?, Holds W I x.before last ∧
          ∃ payload, storedPayload W I last = .ok payload ∧ decode W I payload = .ok s
  | _ => True

/-- The store over any run of calls: the stored states form a chain of revisions, every
save is made against the end of the chain, and no call gets past a lease that is held
or ends it for its holder. -/
theorem store_linearizable {W : Agent.WordClass} {I : Interpreter}
    {trace : List (Step Database StoreCall)} {db : Database}
    (hpath : Path (StoreStep W I) Database.empty trace db)
    (hnames : ∀ x ∈ trace, x.event.NamesLease) :
    ((storedStates W I trace).IsChain fun a b => b.revision = a.revision + 1) ∧
      (∀ before x after, trace = before ++ x :: after →
        (x.event.run W I x.before).toBool = true → FollowsChain W I before x) ∧
      ∀ x ∈ trace, KeepsLease x ∧
        ((x.event.run W I x.before).toBool = true → RespectsLease x) := by
  refine ⟨(chained_of_path hpath).chain, fun before x after htrace hok => ?_, fun x hx => ?_⟩
  · subst htrace
    obtain ⟨middle, hbefore, hlast⟩ := hpath.of_append
    cases hlast with
    | cons hstep _ =>
        next call _ =>
        have hchained := chained_of_path hbefore
        cases call with
        | save now seconds state expectedRevision leaseId keepLease =>
            obtain ⟨db', hsave⟩ : ∃ db', middle.save W I now seconds state expectedRevision leaseId
                keepLease = .ok db' := by
              cases h : middle.save W I now seconds state expectedRevision leaseId keepLease with
              | ok db' => exact ⟨db', rfl⟩
              | error e => simp [StoreCall.run, h, Except.toBool] at hok
            obtain ⟨-, payload, row, -, hrow, hexpected, -, -⟩ := save_eq_ok hsave
            obtain ⟨last, hmem, row', hrow', hrevision, hpayload⟩ := hchained.latest row hrow
            obtain rfl : row = row' := Option.some.inj (hrow.symm.trans hrow')
            exact ⟨last, hmem, by rw [← hrevision, hexpected], row, hrow, hrevision, hpayload⟩
        | load =>
            intro s hs
            simp only [Database.load] at hs
            split at hs
            · cases hs
            · next row hrow =>
                obtain ⟨last, hmem, row', hrow', hrevision, hpayload⟩ := hchained.latest row hrow
                obtain rfl : row = row' := Option.some.inj (hrow.symm.trans hrow')
                exact ⟨last, hmem, ⟨row, hrow, hrevision, hpayload⟩, row.payload, hpayload, hs⟩
        | create | acquireLease | releaseLease => trivial
  · have hrestricted : Path (fun db call db' => call.NamesLease ∧ StoreStep W I db call db')
        Database.empty trace db := hpath.restrict hnames
    obtain ⟨hnamed, -, hstep⟩ := hrestricted.invariant_before (P := Database.Named)
      (fun _ _ _ h hstep => named_step hstep.2 hstep.1 h) (fun row hrow => by cases hrow) x hx
    refine ⟨fun row holder expiry hrow hholder hexpiry hnow => ?_, fun hok => ?_⟩
    · exact or_iff_not_imp_left.mpr fun hpresents =>
        lease_kept_step hstep hnamed hrow hholder hexpiry hnow hpresents
    obtain ⟨before, call, after⟩ := x
    cases hrun : call.run W I before with
    | error e => simp [hrun, Except.toBool] at hok
    | ok db' =>
        cases call with
        | acquireLease now seconds token expectedRevision =>
            exact fun holder => not_heldBy_of_acquireLease hnamed hrun
        | save now seconds state expectedRevision leaseId keepLease =>
            exact fun holder => leaseId_eq_of_heldBy hrun
        | create | load | releaseLease => trivial

/-! ## Two clients -/

/-- 2026-07-19 09:00:00 UTC. -/
def exampleNow : Instant where
  dateTime := (DateTime.ofFields? 2026 7 19 9 0 0).get (by decide)
  microsecond := 0

def exampleSeconds : LeaseSeconds := ⟨30, by decide⟩

def exampleToken : LeaseToken := ⟨List.replicate 24 0x61, by decide⟩

/-- A row of the run, under the lease of the first client or under none. -/
def clientDatabase (revision : ℕ) (payload : Text) (status : WorkflowStatus) (leased : Bool)
    (history : List ℕ) : Database where
  row := some
    { revision := revision
      payload := payload
      status := status
      leaseId := if leased then some exampleToken.text else none
      leaseExpiresAt := if leased then some (leaseEnd exampleNow exampleSeconds) else none }
  history := history

def otherToken : LeaseToken := ⟨List.replicate 24 0x62, by decide⟩

def creationStep (payload : Text) : Step Database StoreCall :=
  ⟨.empty, .create exampleNow exampleSeconds (initialState [openRequests]) none,
    clientDatabase 0 payload .ready false [0]⟩

def acquisitionStep (payload : Text) : Step Database StoreCall :=
  ⟨clientDatabase 0 payload .ready false [0], .acquireLease exampleNow exampleSeconds exampleToken 0,
    clientDatabase 0 payload .ready true [0]⟩

/-- The second client is refused the lease. -/
def refusalStep (payload : Text) : Step Database StoreCall :=
  ⟨clientDatabase 0 payload .ready true [0], .acquireLease exampleNow exampleSeconds otherToken 0,
    clientDatabase 0 payload .ready true [0]⟩

def saveStep (payload payload' : Text) : Step Database StoreCall :=
  ⟨clientDatabase 0 payload .ready true [0],
    .save exampleNow exampleSeconds (cancelledState "cancelled") 0 (some exampleToken.text) false,
    clientDatabase 1 payload' .cancelled false [0, 1]⟩

def loadStep (payload : Text) : Step Database StoreCall :=
  ⟨clientDatabase 1 payload .cancelled false [0, 1], .load,
    clientDatabase 1 payload .cancelled false [0, 1]⟩

theorem run_saveStep {payload payload' : Text} (h : storedPayload Agent.WordClass.ascii
    Interpreter.fractional (cancelledState "cancelled") = .ok payload') :
    (saveStep payload payload').event.run Agent.WordClass.ascii Interpreter.fractional
      (saveStep payload payload').before = .ok (saveStep payload payload').after := by
  obtain ⟨hsafe, hjson, rfl, hutf⟩ := storedPayload_eq_ok h
  have hrevision : (cancelledState "cancelled").revision = 1 := rfl
  have hstatus : (cancelledState "cancelled").status = .cancelled := rfl
  have hexpiry : exampleNow.microseconds < leaseEnd exampleNow exampleSeconds := by decide
  simp [saveStep, clientDatabase, StoreCall.run, Database.save, encode, hsafe, hjson, hrevision,
    hstatus, CheckpointRow.leaseMatches, hexpiry, bindText, hutf]

/-- A client saves under the lease it has acquired, which a second client was refused. -/
theorem store_linearizable_of_save :
    ∃ payload payload',
      ((storedStates Agent.WordClass.ascii Interpreter.fractional
        [creationStep payload, acquisitionStep payload, refusalStep payload,
          saveStep payload payload', loadStep payload']).IsChain
            fun a b => b.revision = a.revision + 1) ∧
      KeepsLease (refusalStep payload) ∧
      FollowsChain Agent.WordClass.ascii Interpreter.fractional
        [creationStep payload, acquisitionStep payload, refusalStep payload]
        (saveStep payload payload') ∧
      RespectsLease (saveStep payload payload') ∧
      FollowsChain Agent.WordClass.ascii Interpreter.fractional
        [creationStep payload, acquisitionStep payload, refusalStep payload,
          saveStep payload payload'] (loadStep payload') := by
  obtain ⟨payload, hpayload⟩ := storable_initialState
  obtain ⟨payload', hpayload'⟩ := storable_cancelledState (Or.inr rfl)
  have hsave := @run_saveStep payload payload' hpayload'
  have hpath : Path (StoreStep Agent.WordClass.ascii Interpreter.fractional) Database.empty
      [creationStep payload, acquisitionStep payload, refusalStep payload,
        saveStep payload payload', loadStep payload']
      (clientDatabase 1 payload' .cancelled false [0, 1]) := by
    refine .cons (Or.inl ?_) (.cons (Or.inl rfl) (.cons (Or.inr ⟨rfl, rfl⟩) (.cons (Or.inl hsave)
      (.cons (Or.inl rfl) (.nil _)))))
    simp only [StoreCall.run, Database.create, hpayload, Except.ok_bind]
    rfl
  have hnames : ∀ x ∈ [creationStep payload, acquisitionStep payload, refusalStep payload,
      saveStep payload payload', loadStep payload'], x.event.NamesLease := by
    simp [creationStep, acquisitionStep, refusalStep, saveStep, loadStep, StoreCall.NamesLease]
  obtain ⟨hchain, hfollows, hleases⟩ := store_linearizable hpath hnames
  have hok : ((saveStep payload payload').event.run Agent.WordClass.ascii Interpreter.fractional
      (saveStep payload payload').before).toBool = true := by
    rw [hsave]
    rfl
  exact ⟨payload, payload', hchain, (hleases _ (by simp)).1, hfollows [_, _, _] _ [_] rfl hok,
    (hleases _ (by simp)).2 hok, hfollows [_, _, _, _] _ [] rfl rfl⟩

/-! ## A lease without a name -/

/-- The database after the state of the example is created with the empty lease id. -/
def createdDatabase (payload : Text) : Database where
  row := some
    { revision := 1
      payload := payload
      status := .cancelled
      leaseId := some []
      leaseExpiresAt := some (leaseEnd exampleNow exampleSeconds) }
  history := [1]

/-- The database after another client has acquired the lease. -/
def acquiredDatabase (payload : Text) : Database :=
  { createdDatabase payload with
    row := (createdDatabase payload).row.map fun row => { row with leaseId := some exampleToken.text } }

def exampleAcquisition : StoreCall := .acquireLease exampleNow exampleSeconds exampleToken 1

/-- A creation and an acquisition of the lease at one instant. -/
def exampleTrace (payload : Text) : List (Step Database StoreCall) :=
  [⟨.empty, .create exampleNow exampleSeconds (cancelledState "cancelled") (some []),
      createdDatabase payload⟩,
    ⟨createdDatabase payload, exampleAcquisition, acquiredDatabase payload⟩]

theorem path_exampleTrace :
    ∃ payload, Path (StoreStep Agent.WordClass.ascii Interpreter.fractional) Database.empty
      (exampleTrace payload) (acquiredDatabase payload) := by
  obtain ⟨payload, hpayload⟩ := storable_cancelledState (Or.inr rfl)
  refine ⟨payload, .cons (Or.inl ?_) (.cons (Or.inl rfl) (.nil _))⟩
  simp only [StoreCall.run, Database.create, hpayload, Except.ok_bind]
  rfl

/-- A lease with the empty id is taken over while it is held. -/
theorem empty_lease_taken_over :
    ∃ trace db, Path (StoreStep Agent.WordClass.ascii Interpreter.fractional) Database.empty
        trace db ∧
      ∃ x ∈ trace,
        (x.event.run Agent.WordClass.ascii Interpreter.fractional x.before).toBool = true ∧
        ¬RespectsLease x := by
  obtain ⟨payload, hpath⟩ := path_exampleTrace
  refine ⟨_, _, hpath, _, by simp [exampleTrace]; exact Or.inr rfl, rfl, fun hrespects => ?_⟩
  exact hrespects [] ⟨_, rfl, rfl, _, rfl, by decide⟩

end Workflow
