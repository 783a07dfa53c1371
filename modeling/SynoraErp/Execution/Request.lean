import SynoraErp.Execution.P2p

/-!
# Requests

What a user asks for: to propose an action, to move it to another state, and to execute it or
to reconcile its execution. A fault is the answer of a request, so that what was written
before it is committed; any other exception rolls back.
-/

namespace Execution

open Python Governance

variable {I : Interpreter}

variable (I) in
/-- A request. The arguments of an execution have been parsed. -/
inductive Request where
  | persistProposedAction (action : ProposedAction I)
  | transitionActionState (actionId : Uuid) (move : ActionMove)
  | executeMaterialRequest (args : Arguments)
  | reconcileMaterialRequest (args : Arguments)
  | executePurchaseOrder (args : Arguments)
  | reconcilePurchaseOrder (args : Arguments)
  | executeP2pAction (args : Arguments)
  | reconcileP2pAction (args : Arguments)
  /-- A connection is lost, and its transaction with it. -/
  | abandon

/-- The program of a request. -/
def Request.program (user : Text) : Request I → Prog I Unit
  | .persistProposedAction action => Execution.persistProposedAction user action
  | .transitionActionState actionId move => Execution.transitionActionState user actionId move
  | .executeMaterialRequest args => executeDraft materialRequest user args
  | .reconcileMaterialRequest args => reconcileDraft materialRequest user args
  | .executePurchaseOrder args => executeDraft purchaseOrder user args
  | .reconcilePurchaseOrder args => reconcileDraft purchaseOrder user args
  | .executeP2pAction args => executeP2p user args
  | .reconcileP2pAction args => reconcileP2p user args
  | .abandon => call .rollback

/-- A `GatewayFault`. -/
def isFault : Raised → Bool
  | .fault _ => true
  | .other _ => false

/-- A request to its end. -/
def serve (p : Prog I Unit) : Prog I Unit :=
  tryCatch
    (do
      p
      call .commit)
    fun e => if isFault e = true then call .commit else call .rollback

/-- The programs that the connections run. -/
def Entry (p : Prog I Unit) : Prop := ∃ user request, p = serve (Request.program user request)

end Execution
