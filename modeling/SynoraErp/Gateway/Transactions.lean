import Mathlib.Logic.Function.Basic
import SynoraErp.Gateway.Ledger

/-!
# Transactions

The database under concurrent requests: the rows that are committed, what each connection
has written since its last commit, and the snapshot it reads. A read may come from the
snapshot or from what is committed by now, a write of a row waits for every other
connection that has written it, and any call may fail, with or without its effect, and may
lose its transaction. What an ERP document or an access check replies is left open.
-/

namespace Gateway

open Python
open Governance (Exn Result Uuid Digest)

/-- The committed rows by invocation id, which is also their name. -/
abbrev Table := Digest → Option Invocation

/-- A run of a handler for a reserved invocation. -/
structure Handling where
  identity : Identity
  invocationId : Digest

/-- A response that was returned for an invocation. -/
structure Answered where
  identity : Identity
  invocationId : Digest
  response : Dict

/-- The database, with the history of what the requests have done. -/
structure Database (ι : Type) where
  committed : Table
  /-- What a connection has written since its last commit. -/
  writes : ι → Table
  /-- What a connection has been shown since its last commit. -/
  snapshot : ι → Option Table
  /-- Whose commit has put a row in the table. -/
  owner : Digest → Option ι
  handled : List Handling
  answers : List Answered

/-- A database without a row, a transaction or a history. -/
def Database.empty {ι : Type} : Database ι where
  committed := fun _ => none
  writes := fun _ _ => none
  snapshot := fun _ => none
  owner := fun _ => none
  handled := []
  answers := []

/-- The calls of a request. -/
inductive Call where
  | connect
  | resolveRun (runId : Uuid) (capability : Text)
  | recheckRunScope (run : RunContext) (requiredDoctypes : List String)
  | exists (invocationId : Digest)
  | getDoc (invocationId : Digest)
  | insert (doc : Invocation)
  | save (before doc : Invocation) (completion : Bool)
  | commit
  | handle (request : ReceivedRequest) (run : RunContext) (input : Dict)
  | monotonic
  | now
  | audit (run : RunContext) (request : ReceivedRequest) (outcome : String)
  | endRequest
  | answer (request : ReceivedRequest) (response : Dict)

/-- What a call gives back. An insert tells whether the row was new, and what a handler raises
is part of what it gives back. -/
abbrev Call.Value : Call → Type
  | .resolveRun .. => RunContext
  | .exists _ => Bool
  | .getDoc _ => Invocation
  | .insert _ => Bool
  | .handle .. => Result ToolResult
  | .monotonic => ℚ
  | .now => Text
  | _ => Unit

/-- A call gives a value or raises. -/
abbrev Call.Reply (c : Call) : Type := Result c.Value

namespace Database

variable {ι : Type} [DecidableEq ι] (s : Database ι) (i : ι)

/-- What a connection sees of a table. -/
def view (base : Table) : Table := fun id => (s.writes i id).or (base id)

/-- The transaction is rolled back. -/
def rollback : Database ι :=
  { s with
    writes := Function.update s.writes i fun _ => none
    snapshot := Function.update s.snapshot i none }

/-- The transaction is committed. -/
def commit : Database ι :=
  { s with
    committed := s.view i s.committed
    writes := Function.update s.writes i fun _ => none
    snapshot := Function.update s.snapshot i none
    owner := fun id =>
      if s.committed id = none ∧ s.writes i id ≠ none then some i else s.owner id }

/-- A read takes a snapshot. -/
def keep (base : Table) : Database ι :=
  { s with snapshot := Function.update s.snapshot i (some base) }

/-- A row is written. -/
def write (doc : Invocation) : Database ι :=
  { s with
    writes := Function.update s.writes i
      (Function.update (s.writes i) doc.invocationId (some doc)) }

/-- A handler starts for a request. -/
def handle (request : ReceivedRequest) : Database ι :=
  match request.metadata with
  | none => s
  | some m => { s with handled := s.handled ++ [⟨request.identity m, m.invocationId⟩] }

/-- A response is returned for a request. -/
def answer (request : ReceivedRequest) (response : Dict) : Database ι :=
  match request.metadata with
  | none => s
  | some m => { s with answers := s.answers ++ [⟨request.identity m, m.invocationId, response⟩] }

/-- A read of the connection takes its rows from a table: from its snapshot, or from what is
committed by now. -/
def Reads (base : Table) (t : Database ι) : Prop :=
  (base = s.committed ∨ s.snapshot i = some base) ∧ t = s.keep i base

/-- No other connection has written the row. -/
def Free (id : Digest) : Prop := ∀ j, j ≠ i → s.writes j id = none

/-- What a call does when it gives a value back. -/
def Does : (c : Call) → c.Value → Database ι → Prop
  | .connect, _, t => t = s.rollback i
  | .resolveRun runId _, run, t => run.runId = runId ∧ t = s
  | .exists id, found, t => ∃ base, s.Reads i base t ∧ found = (s.view i base id).isSome
  | .getDoc id, doc, t => ∃ base, s.Reads i base t ∧ s.view i base id = some doc
  | .insert doc, true, t =>
      s.Free i doc.invocationId ∧ s.view i s.committed doc.invocationId = none ∧
        doc.validate none false = .ok () ∧ t = s.write i doc
  | .insert doc, false, t => s.view i s.committed doc.invocationId ≠ none ∧ t = s
  | .save before doc completion, _, t =>
      s.Free i before.invocationId ∧ s.view i s.committed before.invocationId = some before ∧
        doc.validate (some before) completion = .ok () ∧ t = s.write i doc
  | .commit, _, t => t = s.commit i
  | .handle request .., _, t => t = s.handle request ∨ t = (s.rollback i).handle request
  | .endRequest, _, t => t = s.commit i ∨ t = s.rollback i
  | .answer request response, _, t => t = s.answer request response
  | .recheckRunScope .., _, t | .monotonic, _, t | .now, _, t | .audit .., _, t => t = s

/-- A call that raises has done nothing, lost the transaction or done what it does. -/
def Perform (c : Call) : c.Reply → Database ι → Prop
  | .ok value, t => s.Does i c value t
  | .error _, t => t = s ∨ t = s.rollback i ∨ ∃ value, s.Does i c value t

end Database

end Gateway
