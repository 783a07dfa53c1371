import SynoraErp.Transition.Path
import SynoraErp.Workflow.Codec

/-!
# Checkpoint store

The operations of `SQLiteCheckpointStore` on the records of one run: its row and its
history. A call runs in one transaction, so each is a function of the database that
either commits or leaves it as it was. The columns that hold a time hold the instant
its text stands for.
-/

namespace Workflow

open Python Transition

/-- The row of a run in `workflow_checkpoints`. -/
structure CheckpointRow where
  revision : ℕ
  payload : Text
  status : WorkflowStatus
  leaseId : Option Text
  leaseExpiresAt : Option ℤ

/-- What the database holds of a run: its row, and the revisions of its history. -/
structure Database where
  row : Option CheckpointRow
  history : List ℕ

def Database.empty : Database := ⟨none, []⟩

/-- `lease_seconds` of a store. -/
structure LeaseSeconds where
  value : ℕ
  bounds : 1 ≤ value ∧ value ≤ 300

/-- `secrets.token_urlsafe(18)`. -/
structure LeaseToken where
  text : Text
  length_eq : text.length = 24

/-- The end of a lease, to the millisecond `_iso` writes. -/
def leaseEnd (now : Instant) (seconds : LeaseSeconds) : ℤ :=
  (now.microseconds + seconds.value * 1000000) / 1000 * 1000

/-- `_lease_expiry`. -/
def leaseExpiry (now : Instant) (seconds : LeaseSeconds) (leaseId : Option Text) : Option ℤ :=
  leaseId.map fun _ => leaseEnd now seconds

def conflict (detail : String) : Exn := .checkpointError "CHECKPOINT_CONFLICT" detail

def notFound : Exn := .checkpointError "CHECKPOINT_NOT_FOUND" "checkpoint is not available"

/-- `_lease_matches`. -/
def CheckpointRow.leaseMatches (row : CheckpointRow) (now : Instant) (leaseId : Option Text) :
    Bool :=
  match row.leaseId with
  | none => leaseId.isNone
  | some stored =>
      leaseId == some stored && row.leaseExpiresAt.any fun expiry => now.microseconds < expiry

/-- Whether `acquire_lease` takes the lease of the row for active: an empty id counts
as no lease. -/
def CheckpointRow.leaseActive (row : CheckpointRow) (now : Instant) : Bool :=
  row.leaseId.any (fun stored => stored ≠ []) &&
    row.leaseExpiresAt.any fun expiry => now.microseconds < expiry

section

variable (W : Agent.WordClass) (I : Interpreter)

/-- `create`. -/
def Database.create (db : Database) (now : Instant) (seconds : LeaseSeconds) (state : WorkflowState)
    (leaseId : Option Text) : Result Database := do
  let payload ← storedPayload W I state
  if db.row.isSome ∨ state.revision ∈ db.history then
    .error (conflict "checkpoint already exists")
  else
    .ok
      { row := some
          { revision := state.revision
            payload := payload
            status := state.status
            leaseId := leaseId
            leaseExpiresAt := leaseExpiry now seconds leaseId }
        history := db.history ++ [state.revision] }

/-- `load`. -/
def Database.load (db : Database) : Result WorkflowState :=
  match db.row with
  | none => .error notFound
  | some row => decode W I row.payload

/-- What `recoverable` yields of the run: the state of a row that is not over and under no
lease. A payload that cannot be read is passed over. -/
def Database.recoverable (db : Database) (now : Instant) : Option WorkflowState := do
  let row ← db.row
  if row.status ∉ [.ready, .running, .interrupted] ∨ row.leaseActive now then none
  else do
    let decoded ← Json.loads I .default row.payload
    if (safePayload W decoded).toBool then (Json.dumps I decoded).bind (validateJson I) else none

/-- `save`. -/
def Database.save (db : Database) (now : Instant) (seconds : LeaseSeconds) (state : WorkflowState)
    (expectedRevision : ℕ) (leaseId : Option Text) (keepLease : Bool) : Result Database := do
  if state.revision ≠ expectedRevision + 1 then
    .error (conflict "state revision must increment exactly once")
  else do
    let payload ← encode W I state
    match db.row with
    | none => .error notFound
    | some row =>
        if row.revision ≠ expectedRevision then
          .error (conflict "checkpoint changed concurrently")
        else if row.leaseMatches now leaseId = false then
          .error (conflict "checkpoint lease is not held")
        else do
          bindText payload
          if state.revision ∈ db.history then
            .error (.checkpointError "CHECKPOINT_UNAVAILABLE" "checkpoint save failed")
          else
            .ok
              { row := some
                  { revision := state.revision
                    payload := payload
                    status := state.status
                    leaseId := if keepLease then leaseId else none
                    leaseExpiresAt := if keepLease then leaseExpiry now seconds leaseId else none }
                history := db.history ++ [state.revision] }

end

/-- `acquire_lease`, which returns the token. -/
def Database.acquireLease (db : Database) (now : Instant) (seconds : LeaseSeconds)
    (token : LeaseToken) (expectedRevision : ℕ) : Result Database :=
  match db.row with
  | none => .error notFound
  | some row =>
      if row.revision ≠ expectedRevision then .error (conflict "checkpoint changed concurrently")
      else if row.leaseActive now then .error (conflict "checkpoint lease is active")
      else
        .ok { db with
          row := some { row with
            leaseId := some token.text
            leaseExpiresAt := some (leaseEnd now seconds) } }

/-- `release_lease`. -/
def Database.releaseLease (db : Database) (leaseId : Text) : Database :=
  { db with
    row := db.row.map fun row =>
      if row.leaseId = some leaseId then { row with leaseId := none, leaseExpiresAt := none }
      else row }

/-! ## Calls -/

/-- A call of a client, with its reading of the clock. -/
inductive StoreCall where
  | create (now : Instant) (seconds : LeaseSeconds) (state : WorkflowState) (leaseId : Option Text)
  | load
  | acquireLease (now : Instant) (seconds : LeaseSeconds) (token : LeaseToken)
      (expectedRevision : ℕ)
  | save (now : Instant) (seconds : LeaseSeconds) (state : WorkflowState) (expectedRevision : ℕ)
      (leaseId : Option Text) (keepLease : Bool)
  | releaseLease (leaseId : Text)

section Calls

variable (W : Agent.WordClass) (I : Interpreter)

/-- What a call does to the database when it succeeds. -/
def StoreCall.run (db : Database) : StoreCall → Result Database
  | .create now seconds state leaseId => db.create W I now seconds state leaseId
  | .load => .ok db
  | .acquireLease now seconds token expectedRevision =>
      db.acquireLease now seconds token expectedRevision
  | .save now seconds state expectedRevision leaseId keepLease =>
      db.save W I now seconds state expectedRevision leaseId keepLease
  | .releaseLease leaseId => .ok (db.releaseLease leaseId)

/-- A call that succeeds commits, any other leaves the database as it was. -/
def StoreStep (db : Database) (call : StoreCall) (db' : Database) : Prop :=
  call.run W I db = .ok db' ∨ ((call.run W I db).toBool = false ∧ db' = db)

/-- The state a call stores: the one it was given, when it succeeds. -/
def stored (x : Step Database StoreCall) : Option WorkflowState :=
  match x.event with
  | .create _ _ state _ | .save _ _ state _ _ _ =>
      if (x.event.run W I x.before).toBool then some state else none
  | _ => none

/-- The states stored in a run, in their order. -/
def storedStates (trace : List (Step Database StoreCall)) : List WorkflowState :=
  trace.filterMap (stored W I)

end Calls

end Workflow
