import SynoraErp.Governance.Fields
import SynoraErp.Python.Equality
import SynoraErp.Python.Except
import SynoraErp.Python.Instant

/-!
# Workflow contracts

The records of the durable workflow. A transition copies a record without checking
it again, so what a constructor requires is a predicate `Valid` beside each record
and not a field of it. A JSON mapping is kept in key order: nothing in the workflow
depends on the order of its keys.
-/

namespace Workflow

open Python
open Governance (Uuid isLowerHex)

/-- What a workflow call raises: `WorkflowError` and `CheckpointError` with a code and
a detail, the `ValueError` of a validator, and `UnicodeEncodeError`. -/
inductive Exn where
  | workflowError (code detail : String)
  | checkpointError (code detail : String)
  | valueError (message : String)
  | unicodeEncodeError
  deriving DecidableEq

abbrev Result := Except Exn

inductive WorkflowStatus where
  | ready | running | interrupted | succeeded | failed | cancelled | expired
  deriving DecidableEq

inductive StepStatus where
  | pending | ready | running | waiting | succeeded | failed | skipped | cancelled
  deriving DecidableEq

inductive ReplanReason where
  | inputClarified | toolError | observationConflict | stateDrift | noProgress
  deriving DecidableEq

inductive StepType where
  | tool | clarification | governedAction | finalize
  deriving DecidableEq

inductive AnswerType where
  | text | choice | boolean | number
  deriving DecidableEq

inductive ToolName where
  | itemLookup | supplierLookup | stockProjected | demandOpen | materialRequestOpen
  | purchaseOrderOpen
  deriving DecidableEq

/-- `_STEP_ID`: a lower case letter, then at most 63 letters, digits, `_` and `-`. -/
def isStepId (t : Text) : Bool :=
  match t with
  | [] => false
  | c :: t =>
      (0x61 ≤ c.val && c.val ≤ 0x7A) && t.length ≤ 63 && t.all fun c =>
        (0x61 ≤ c.val && c.val ≤ 0x7A) || (0x30 ≤ c.val && c.val ≤ 0x39) || c == 0x5F || c == 0x2D

/-- `_DIGEST`. -/
def isDigest (t : Text) : Bool := t.length == 64 && t.all isLowerHex

mutual

/-- What `_check_json_mapping` lets through, in the order `canonical_json` writes:
doubles, integers within the digit limit, keys in order. -/
def IsJson : Value → Bool
  | .int n => (natDigits n.natAbs).length ≤ Json.maxStrDigits
  | .float (.finite q) => isDouble q
  | .float _ => false
  | .list xs => IsJsonItems xs
  | .dict entries => decide ((Dict.keys entries).Pairwise (· < ·)) && IsJsonEntries entries
  | _ => true

def IsJsonItems : List Value → Bool
  | [] => true
  | x :: xs => IsJson x && IsJsonItems xs

def IsJsonEntries : List (Text × Value) → Bool
  | [] => true
  | (_, v) :: entries => IsJson v && IsJsonEntries entries

end

/-- `dict[str, JsonValue]`. -/
structure JsonMapping where
  entries : Dict
  isJson : IsJson (.dict entries) = true
  deriving DecidableEq

def JsonMapping.value (m : JsonMapping) : Value := .dict m.entries

/-- `{}`. -/
def JsonMapping.empty : JsonMapping := ⟨[], rfl⟩

/-- What `==` sees of a mapping. -/
def JsonMapping.normal (m : JsonMapping) : Value := m.value.normal

/-- `ClarificationRequest`. -/
structure ClarificationRequest where
  interruptId : Uuid
  question : Text
  answerType : AnswerType
  answerMaxLength : ℕ
  choices : List Text
  deriving DecidableEq

namespace ClarificationRequest

/-- `validate_answer_shape`. -/
def shapeError (r : ClarificationRequest) : Option String :=
  if r.answerType = .choice ∧ r.choices = [] then some "choice clarification requires choices"
  else if r.answerType ≠ .choice ∧ r.choices ≠ [] then
    some "choices are only valid for choice clarification"
  else none

/-- The checks of the constructor. -/
def Valid (r : ClarificationRequest) : Prop :=
  (1 ≤ r.question.length ∧ r.question.length ≤ 1000) ∧
  (∀ c ∈ r.question, c.val < 32 → c.val = 0x0A ∨ c.val = 0x09) ∧
  (1 ≤ r.answerMaxLength ∧ r.answerMaxLength ≤ 4000) ∧
  r.choices.length ≤ 32 ∧ r.choices.Nodup ∧
  (∀ choice ∈ r.choices, Text.isBlank choice = false ∧ choice.length ≤ 200) ∧
  r.shapeError = none

instance (r : ClarificationRequest) : Decidable r.Valid := inferInstanceAs (Decidable (_ ∧ _))

end ClarificationRequest

/-- `GovernedActionIntent`. -/
structure GovernedActionIntent where
  runId : Uuid
  goalVersion : ℕ
  runVersion : ℕ
  actionType : Text
  sourceDoctype : Text
  sourceName : Text
  items : List JsonMapping
  payment : Option JsonMapping
  reason : Text
  deriving DecidableEq

namespace GovernedActionIntent

def Valid (i : GovernedActionIntent) : Prop :=
  i.goalVersion ≤ 1000000 ∧ i.runVersion ≤ 1000000 ∧
  (1 ≤ i.actionType.length ∧ i.actionType.length ≤ 80) ∧
  (1 ≤ i.sourceDoctype.length ∧ i.sourceDoctype.length ≤ 80) ∧
  (1 ≤ i.sourceName.length ∧ i.sourceName.length ≤ 140) ∧
  i.items.length ≤ 100 ∧ (1 ≤ i.reason.length ∧ i.reason.length ≤ 500)

instance (i : GovernedActionIntent) : Decidable i.Valid := inferInstanceAs (Decidable (_ ∧ _))

end GovernedActionIntent

/-- `PlanStep`. -/
structure PlanStep where
  stepId : Text
  order : ℕ
  type : StepType
  dependsOn : List Text
  allowedTools : List ToolName
  toolName : Option ToolName
  clarification : Option ClarificationRequest
  governedAction : Option GovernedActionIntent
  parameters : JsonMapping
  status : StepStatus
  observationDigest : Option Text
  error : Option Text
  completedAt : Option Text
  deriving DecidableEq

namespace PlanStep

/-- The tool, clarification and intent a step of each type declares. -/
def typeError (s : PlanStep) : Option String :=
  match s.type with
  | .tool =>
      if s.toolName = none then some "tool step requires tool_name"
      else if ∀ tool ∈ s.toolName, tool ∉ s.allowedTools then
        some "tool_name must be in allowed_tools"
      else if s.clarification ≠ none ∨ s.governedAction ≠ none then
        some "tool step cannot declare a wait contract"
      else none
  | .clarification =>
      if s.clarification = none then some "clarification step requires clarification"
      else if s.toolName ≠ none ∨ s.allowedTools ≠ [] ∨ s.governedAction ≠ none then
        some "clarification step cannot declare tools or governed actions"
      else none
  | .governedAction =>
      if s.governedAction = none then some "governed action step requires an intent"
      else if s.toolName ≠ none ∨ s.allowedTools ≠ [] ∨ s.clarification ≠ none then
        some "governed action step cannot declare tools or clarification"
      else none
  | .finalize =>
      if s.toolName ≠ none ∨ s.allowedTools ≠ [] then some "only tool steps may declare tools"
      else if s.clarification ≠ none ∨ s.governedAction ≠ none then
        some "finalize steps cannot declare a wait contract"
      else none

/-- What a step of each status records. -/
def statusError (s : PlanStep) : Option String :=
  if s.status = .succeeded ∧ s.observationDigest = none then
    some "succeeded step requires observation_digest"
  else if s.status = .succeeded ∧ s.completedAt = none then
    some "succeeded step requires completed_at"
  else if (s.status = .failed ∨ s.status = .cancelled) ∧ s.error.getD [] = [] then
    some "failed or cancelled step requires error"
  else none

/-- `validate_tool_shape`. -/
def shapeError (s : PlanStep) : Option String := s.typeError.or s.statusError

/-- The checks of the constructor. -/
def Valid (s : PlanStep) : Prop :=
  isStepId s.stepId = true ∧ (1 ≤ s.order ∧ s.order ≤ 256) ∧
  (s.dependsOn.length ≤ 32 ∧ s.dependsOn.Nodup ∧ ∀ d ∈ s.dependsOn, isStepId d = true) ∧
  s.allowedTools.length ≤ 6 ∧
  (∀ r ∈ s.clarification, r.Valid) ∧ (∀ i ∈ s.governedAction, i.Valid) ∧
  (∀ d ∈ s.observationDigest, isDigest d = true) ∧
  (∀ e ∈ s.error, e.length ≤ 500) ∧ (∀ t ∈ s.completedAt, t.length ≤ 64) ∧
  s.shapeError = none

instance (s : PlanStep) : Decidable s.Valid := inferInstanceAs (Decidable (_ ∧ _))

/-- The fields `==` compares: mappings up to the order of their keys and the type of
their numbers, all else as it stands. -/
def normal (s : PlanStep) : PlanStep × Value × Option (List Value × Option Value) :=
  ({ s with
      parameters := .empty
      governedAction := s.governedAction.map fun i => { i with items := [], payment := none } },
    s.parameters.normal,
    s.governedAction.map fun i => (i.items.map JsonMapping.normal, i.payment.map JsonMapping.normal))

/-- `a == b`. -/
def Equal (a b : PlanStep) : Prop := a.normal = b.normal

instance (a b : PlanStep) : Decidable (Equal a b) := inferInstanceAs (Decidable (_ = _))

theorem Equal.refl (a : PlanStep) : Equal a a := rfl

theorem Equal.trans {a b c : PlanStep} (h : Equal a b) (h' : Equal b c) : Equal a c :=
  Eq.trans h h'

theorem Equal.symm {a b : PlanStep} (h : Equal a b) : Equal b a := Eq.symm h

theorem Equal.stepId_eq {a b : PlanStep} (h : Equal a b) : a.stepId = b.stepId :=
  congrArg (fun x => x.1.stepId) h

theorem Equal.status_eq {a b : PlanStep} (h : Equal a b) : a.status = b.status :=
  congrArg (fun x => x.1.status) h

theorem Equal.dependsOn_eq {a b : PlanStep} (h : Equal a b) : a.dependsOn = b.dependsOn :=
  congrArg (fun x => x.1.dependsOn) h

end PlanStep

end Workflow
