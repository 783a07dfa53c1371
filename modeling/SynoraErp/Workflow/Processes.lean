import SynoraErp.Workflow.Runtime

/-!
# Processes over one store

Any number of processes run the methods of the runtime on one run, over one store. A
call of the store commits or fails, the clock and the adapter return anything, and a
process can stop at any point. Every state that was stored and every action that was
handed to the adapter is recorded with the process it came from.
-/

namespace Workflow

open Python Transition
open Governance (Uuid)

namespace Runtime

/-- An action a process handed to the adapter, for a step of a state. -/
structure Dispatch (ι : Type) where
  process : ι
  state : WorkflowState
  ready : PlanStep
  action : Action

/-- The plan version and the step an action was handed over for. -/
def Dispatch.key {ι : Type} (d : Dispatch ι) : ℕ × Text := (d.state.planVersion, d.ready.stepId)

/-- What the processes share: the database, and what was stored and dispatched, in order. -/
structure Shared (ι : Type) where
  database : Database
  saved : List (ι × WorkflowState)
  dispatched : List (Dispatch ι)

namespace Shared

variable {ι : Type}

def empty : Shared ι := ⟨.empty, [], []⟩

/-- The states that were stored, in order. -/
def states (s : Shared ι) : List WorkflowState := s.saved.map Prod.snd

/-- The state that was stored last. -/
def last? (s : Shared ι) : Option WorkflowState := s.states.getLast?

end Shared

section

variable {ι : Type} (W : Agent.WordClass) (I : Interpreter)

def unavailable (detail : String) : Exn := .checkpointError "CHECKPOINT_UNAVAILABLE" detail

/-- A call of the store commits its result and what it stores, or raises and leaves all as
it was; the database can fail whatever the call. -/
def Commits {α : Type} (s : Shared ι) (result : Result Database) (value : α)
    (stored : List (ι × WorkflowState)) (reply : Result α) (t : Shared ι) : Prop :=
  (∃ db, result = .ok db ∧ reply = .ok value ∧
    t = { s with database := db, saved := s.saved ++ stored }) ∨
  ∃ e, (result = .error e ∨ ∃ detail, e = unavailable detail) ∧ reply = .error e ∧ t = s

/-- A read of the store returns its result, or raises. -/
def Reads {α : Type} (s : Shared ι) (result reply : Result α) (t : Shared ι) : Prop :=
  (reply = result ∨ ∃ detail, reply = .error (unavailable detail)) ∧ t = s

/-- What a call of a process does. The readings of the clock, the tokens, the lease times
and what the adapter returns are arbitrary. -/
def Performs (s : Shared ι) (i : ι) : (c : Call) → c.Reply → Shared ι → Prop
  | .create state, reply, t => ∃ now seconds,
      Commits s (s.database.create W I now seconds state none) () [(i, state)] reply t
  | .load, reply, t => Reads s (s.database.load W I) reply t
  | .recoverable, reply, t => ∃ now, Reads s (.ok (s.database.recoverable W I now)) reply t
  | .acquireLease expectedRevision, reply, t => ∃ now seconds, ∃ token : LeaseToken,
      Commits s (s.database.acquireLease now seconds token expectedRevision) token.text [] reply t
  | .save state expectedRevision leaseId keepLease, reply, t => ∃ now seconds,
      Commits s (s.database.save W I now seconds state expectedRevision (some leaseId) keepLease)
        () [(i, state)] reply t
  | .releaseLease leaseId, reply, t => Commits s (.ok (s.database.releaseLease leaseId)) () [] reply t
  | .now, _, t => t = s
  | .connect, _, t => t = s
  | .execute current ready action, _, t =>
      t = { s with dispatched := s.dispatched ++ [⟨i, current, ready, action⟩] }

variable (runId : Uuid)

/-- The methods a process may enter. -/
def Entry (p : Method Outcome) : Prop := ∃ request : Request, p = request.method I runId

/-- The processes and what they share. -/
abbrev World (ι : Type) := Config ι (Shared ι) Call Call.Reply Exn Outcome

/-- No process runs and nothing is stored. -/
def World.initial : World ι := ⟨.empty, fun _ => none⟩

/-- A step of one of the processes on the run. -/
abbrev RuntimeMoves [DecidableEq ι] :=
  Moves (ι := ι) (Performs W I) (Entry I runId) (continuation I)

end

end Runtime

end Workflow
