import SynoraErp.Python.Sha256
import SynoraErp.Transition.Program
import SynoraErp.Lab.Replay

/-!
# The live evaluation command

`_cmd_evaluate` with a live engine, from the opening of the reservation ledger to the last
record: the table and the file of the ledger, the cumulative budget, the record files of
the output directory, and the calls of `provider.complete`. The command is a program over
this world; each of its calls is atomic, since a line is appended whole, and it can be
killed before and after every call. A record is kept as far as the budget reads it. An
exception of the code around these functions, such as a record that does not validate,
ends the command as a kill does.
-/

namespace Lab

open Python

/-! ## The world -/

/-- `CallBudget`, without its ledger. -/
structure CallBudget where
  maximum : ℕ
  used : ℕ
  consecutiveBlockingFailures : ℕ
  blocked : Bool
  batchId : Text

def maxModelCalls : ℕ := 1200

/-- `ExperimentRecord`. -/
structure ExperimentRecord where
  experimentId : Text
  reservationKey : Option Text
  reservationKeys : List Text
  calls : ℕ
deriving DecidableEq

/-- What `provider.complete` comes to. -/
inductive ProviderReply where
  | response (text : Option Text)
  | providerError (failureCode : Text)
  | cancelled
  | timeout
  | connectionError
  | osError (name : Text)
  | raised

/-- The output directory, what the running command holds in memory, and the number of
calls of `provider.complete` ever made. -/
structure World where
  ledger : Option Text
  states : States
  budget : CallBudget
  files : List Text
  rows : List (Text × ExperimentRecord)
  completions : ℕ

/-- The operations a command is made of. -/
inductive Call where
  | openLedger
  | states
  | append (event : Reservation)
  | rows
  | budget
  | setBudget (budget : CallBudget)
  | complete (prompt : Text)
  | fileExists (name : Text)
  | create (name : Text)
  | appendRecord (name : Text) (record : ExperimentRecord)

abbrev Call.Reply : Call → Type
  | .openLedger => Except Error Unit
  | .states => States
  | .append _ => Unit
  | .rows => List (Text × ExperimentRecord)
  | .budget => CallBudget
  | .setBudget _ => Unit
  | .complete _ => ProviderReply
  | .fileExists _ => Bool
  | .create _ => Unit
  | .appendRecord _ _ => Unit

/-- One operation; `reply` is what the provider comes to, if it is called. -/
def respond (I : Interpreter) (w : World) (reply : ProviderReply) : (c : Call) → c.Reply × World
  | .openLedger =>
      match ReservationLedger.read I w.ledger with
      | .ok states => (.ok (), { w with states := states })
      | .error e => (.error e, w)
  | .states => (w.states, w)
  | .append event => ((), { w with
      ledger := ReservationLedger.append I w.ledger event
      states := w.states.set event })
  | .rows => (w.rows, w)
  | .budget => (w.budget, w)
  | .setBudget budget => ((), { w with budget := budget })
  | .complete _ => (reply, { w with completions := w.completions + 1 })
  | .fileExists name => (decide (name ∈ w.files), w)
  | .create name => ((), { w with files := if name ∈ w.files then w.files else w.files ++ [name] })
  | .appendRecord name record => ((), { w with rows := w.rows ++ [(name, record)] })

/-- An operation of the command, the provider coming to anything. -/
def Performs (I : Interpreter) (w : World) (_ : Unit) (c : Call) (reply : c.Reply) (w' : World) :
    Prop :=
  ∃ r, respond I w r c = (reply, w')

abbrev Command (α : Type) := Transition.Program Call Call.Reply Error α

def call (c : Call) : Command c.Reply := .call c .done

/-! ## The ledger in the world -/

/-- A method of the ledger that appends one event. -/
def appending (method : States → Except Error Reservation) : Command Unit := do
  let states ← call .states
  let event ← .ofExcept (method states)
  call (.append event)

/-- `reconcile_reserved`. -/
def reconcileReserved : Command Unit := do
  let states ← call .states
  (ReservationLedger.staleKeys states).forM fun key =>
    appending fun states => ReservationLedger.finish states key .unknown

/-- `mark_recorded`. -/
def markRecorded (keys : List Text) : Command Unit :=
  keys.forM fun key => do
    let states ← call .states
    let event ← .ofExcept (ReservationLedger.markRecorded states key)
    event.elim (pure ()) fun event => call (.append event)

/-- `mark_recorded_matching`. -/
def markRecordedMatching (wanted : List Text) : Command Unit := do
  let states ← call .states
  markRecorded (ReservationLedger.matchingKeys states wanted)

/-! ## The budget -/

def isLive (record : ExperimentRecord) : Bool :=
  (Text.ofString "phase12-exp-live-").isPrefixOf record.experimentId

/-- `_existing_calls`. -/
def existingCalls (rows : List (Text × ExperimentRecord)) : ℕ :=
  ((rows.filter fun row => isLive row.2).map fun row => row.2.calls).sum

/-- `_reservation_keys_for_record`. -/
def reservationKeysForRecord (record : ExperimentRecord) : List Text :=
  if ¬isLive record then []
  else if record.reservationKeys ≠ [] then record.reservationKeys
  else record.reservationKey.toList

/-- `_live_record_keys`. -/
def liveRecordKeys (rows : List (Text × ExperimentRecord)) : List Text :=
  (rows.filter fun row => decide (0 < row.2.calls)).flatMap fun row =>
    reservationKeysForRecord row.2

/-- `CallBudget(maximum, used, ledger, batch_id)`. -/
def CallBudget.make (maximum used : ℕ) (states : States) (batchId : Text) :
    Except Error CallBudget :=
  if maxModelCalls < maximum then
    .error (.valueError "budget maximum is outside the Phase 12 limit")
  else if maximum < used then
    .error (.valueError "budget used count is outside the configured limit")
  else if batchId = [] ∨ 120 < batchId.length ∨ Text.lineFeed ∈ batchId then
    .error (.valueError "batch id is invalid")
  else if maximum < used + states.unmaterializedCount then
    .error (.valueError "ledger reservations exceed the configured budget")
  else .ok ⟨maximum, used + states.unmaterializedCount, 0, false, batchId⟩

/-- `CallBudget.reserve`, up to the event it appends. -/
def CallBudget.reserve (budget : CallBudget) (states : States) (key : Text) :
    Except Error Reservation :=
  if budget.blocked then .error (.budgetExceeded "MODEL_BATCH_BLOCKED")
  else if budget.maximum ≤ budget.used then .error (.budgetExceeded "MODEL_CALL_BUDGET")
  else ReservationLedger.reserve states budget.batchId key

def batchBlockingFailures : List Text :=
  ["AUTHENTICATION_ERROR", "AUTH_FAILED", "CONNECTION_ERROR", "NETWORK_ERROR", "PROTOCOL_ERROR",
    "PROVIDER_UNAVAILABLE", "TRANSPORT_ERROR", "TIMEOUT", "MODEL_CALL_TIMEOUT"]

def contentFailures : List Text :=
  ["RESPONSE_SCHEMA", "RESPONSE_NO_CHOICES", "RESPONSE_CONTENT_MISSING", "RESPONSE_INCOMPLETE",
    "USAGE_MISSING", "USAGE_INVALID", "BUDGET_EXCEEDED"]

/-- `CallBudget.note`. -/
def CallBudget.note (budget : CallBudget) (failureCode : Option Text) : CallBudget :=
  if failureCode.any fun code => batchBlockingFailures.contains code then
    { budget with
      consecutiveBlockingFailures := budget.consecutiveBlockingFailures + 1
      blocked := budget.blocked || decide (3 ≤ budget.consecutiveBlockingFailures + 1) }
  else { budget with consecutiveBlockingFailures := 0 }

/-! ## A provider call -/

structure LiveCall where
  action : Option Text
  status : Text
  failureCode : Option Text
  attempted : Bool
  actions : List Text

def maxInputChars : ℕ := 4000
def maxOutputChars : ℕ := 2048

/-- The actions of a value of the response. -/
def actionValues : Value → Option (List Value)
  | .dict [(key, v)] =>
      if key = Text.ofString "action" then some [v]
      else if key = Text.ofString "actions" then
        match v with
        | .list values => some values
        | _ => none
      else none
  | _ => none

def actionText : Value → Option Text
  | .str t => if t = [] ∨ 80 < t.length then none else some t
  | _ => none

/-- `_parse_actions`, with the text of its `ValueError`. -/
def parseActions (I : Interpreter) (text : Text) : Except Text (List Text) :=
  if maxOutputChars < text.length then .error "MODEL_RESPONSE_TOO_LARGE"
  else
    match (Json.loads I .default text).bind actionValues with
    | none => .error "MODEL_RESPONSE_SCHEMA"
    | some values =>
        if values = [] ∨ 8 < values.length then .error "MODEL_RESPONSE_SCHEMA"
        else (values.mapM actionText).elim (.error "MODEL_RESPONSE_SCHEMA") .ok

/-- The call that a reply of the provider makes, and the state its reservation ends in;
`none` is an exception that `_call_provider` does not handle. -/
def settle (I : Interpreter) : ProviderReply → Option (LiveCall × LedgerState)
  | .providerError code =>
      if contentFailures.contains code then
        some (⟨none, "FAILED", some code, true, []⟩, .failed)
      else some (⟨none, "UNKNOWN", some code, true, []⟩, .unknown)
  | .cancelled =>
      some (⟨none, "UNKNOWN", some (Text.ofString "MODEL_CALL_CANCELLED"), true, []⟩, .unknown)
  | .timeout =>
      some (⟨none, "UNKNOWN", some (Text.ofString "MODEL_CALL_TIMEOUT"), true, []⟩, .unknown)
  | .connectionError =>
      some (⟨none, "UNKNOWN", some (Text.ofString "CONNECTION_ERROR"), true, []⟩, .unknown)
  | .osError name => some (⟨none, "UNKNOWN", some name, true, []⟩, .unknown)
  | .raised => none
  | .response text =>
      if text.getD [] = [] then
        some (⟨none, "UNKNOWN", some (Text.ofString "MODEL_RESPONSE_EMPTY"), true, []⟩, .unknown)
      else
        match parseActions I (text.getD []) with
        | .error code => some (⟨none, "FAILED", some code, true, []⟩, .failed)
        | .ok actions => some (⟨actions.getLast?, "SUCCEEDED", none, true, actions⟩, .completed)

/-- `_call_provider`. -/
def callProvider (I : Interpreter) (prompt key : Text) : Command LiveCall :=
  if maxInputChars < prompt.length then
    pure ⟨none, "REJECTED", some (Text.ofString "INPUT_TOO_LARGE"), false, []⟩
  else do
    let budget ← call .budget
    let states ← call .states
    match budget.reserve states key with
    | .error (.budgetExceeded code) => pure ⟨none, "UNKNOWN", some (Text.ofString code), false, []⟩
    | .error e => throw e
    | .ok event => do
        call (.append event)
        call (.setBudget { budget with used := budget.used + 1 })
        let reply ← call (.complete prompt)
        match settle I reply with
        | none => throw .provider
        | some (liveCall, state) => do
            appending fun states => ReservationLedger.finish states key state
            let budget ← call .budget
            call (.setBudget (budget.note liveCall.failureCode))
            pure liveCall

/-! ## A case -/

inductive Method where
  | baseline
  | reflection
  | bestOf3
  | promptCandidate
  | skillCandidate
deriving DecidableEq

def Method.text : Method → Text
  | .baseline => "baseline"
  | .reflection => "reflection"
  | .bestOf3 => "best-of-3"
  | .promptCandidate => "prompt-candidate"
  | .skillCandidate => "skill-candidate"

structure LiveAttempt where
  call : LiveCall
  result : Option ReplayResult
  reservationKey : Text

/-- What the attempts of one command share. -/
structure Batch where
  batchId : Text
  method : Method
  candidateContent : Option Text

/-- The reservation key of an attempt. -/
def reservationKey (batch : Batch) (repetition : ℕ) (caseId : Text) (number : ℕ) : Text :=
  batch.batchId ++ (Text.ofString ":method:" ++ (batch.method.text ++ (Text.ofString ":repeat:" ++
    (natText repetition ++ (Text.ofString ":case:" ++ (caseId ++ (Text.ofString ":call:" ++
      natText number)))))))

/-- `attempt` of `_live_method_case`. -/
def attempt (I : Interpreter) (batch : Batch) (repetition : ℕ) (case : DatasetCase) (number : ℕ)
    (draftActions draftObservations : List Text) : Command LiveAttempt := do
  let prompt ← .ofExcept (buildLivePrompt I case batch.method.text batch.candidateContent
    draftActions draftObservations)
  let key := reservationKey batch repetition case.caseId number
  let liveCall ← callProvider I prompt key
  let actions := if liveCall.actions = [] then liveCall.action.toList else liveCall.actions
  pure ⟨liveCall, if actions = [] then none else some (runActionSequence case actions), key⟩

/-- The attempts `_live_method_case` makes after the first. -/
def furtherAttempts (I : Interpreter) (batch : Batch) (repetition : ℕ) (case : DatasetCase)
    (first : LiveAttempt) : Command (List LiveAttempt) :=
  match batch.method, first.result with
  | .reflection, some result =>
      if observableActionSequence result then pure []
      else do
        let revised ← attempt I batch repetition case 2 result.actionSequence result.observations
        pure [revised]
  | .bestOf3, _ => do
      let second ← attempt I batch repetition case 2 [] []
      let third ← attempt I batch repetition case 3 [] []
      pure [second, third]
  | _, _ => pure []

/-- `digest_json` of a text. -/
def digestJson (t : Text) : Text :=
  (Text.encodeUtf8 (Json.asciiString t)).elim [] Sha256.hexdigest

/-- `_experiment_id`. -/
def experimentId (batch : Batch) (repetition : ℕ) (caseId : Text) : Text :=
  let raw := Text.ofString "phase12-exp-live-" ++ batch.batchId ++ Text.ofString "-" ++
    batch.method.text ++ Text.ofString "-" ++ natText repetition ++ Text.ofString "-" ++ caseId
  if raw.length ≤ 100 then raw
  else Text.ofString "phase12-exp-live-" ++ batch.method.text ++ Text.ofString "-" ++
    natText repetition ++ Text.ofString "-" ++ (digestJson raw).take 12

/-- `_record_live_attempts`. -/
def recordLiveAttempts (batch : Batch) (repetition : ℕ) (case : DatasetCase)
    (attempts : List LiveAttempt) : ExperimentRecord where
  experimentId := experimentId batch repetition case.caseId
  reservationKey := (attempts.map (·.reservationKey)).head?
  reservationKeys := attempts.map (·.reservationKey)
  calls := attempts.countP (·.call.attempted)

/-- `_live_method_case`. -/
def liveMethodCase (I : Interpreter) (batch : Batch) (repetition : ℕ) (case : DatasetCase) :
    Command ExperimentRecord := do
  let first ← attempt I batch repetition case 1 [] []
  let further ← furtherAttempts I batch repetition case first
  pure (recordLiveAttempts batch repetition case (first :: further))

/-! ## The command -/

/-- `append_record`. -/
def appendRecord (name : Text) (record : ExperimentRecord) : Command Unit := do
  let found ← call (.fileExists name)
  let rows ← call .rows
  if found ∧ record.experimentId ∈
      ((rows.filter fun row => decide (row.1 = name)).map fun row => row.2.experimentId) then
    throw (.fileExists record.experimentId)
  call (.create name)
  call (.appendRecord name record)

/-- `persist`. -/
def persist (name : Text) (record : ExperimentRecord) : Command Unit := do
  appendRecord name record
  markRecordedMatching record.reservationKeys

/-- The pairs of a repeat and a case, in the order of the two loops. -/
def schedule (repeats : ℕ) (cases : List DatasetCase) : List (ℕ × DatasetCase) :=
  (List.range' 1 repeats).flatMap fun repetition => cases.map fun case => (repetition, case)

/-- `run_live_methods`. -/
def runLiveMethods (I : Interpreter) (batch : Batch) (name : Text) :
    List (ℕ × DatasetCase) → Command (List ExperimentRecord)
  | [] => pure []
  | (repetition, case) :: rest => do
      let record ← liveMethodCase I batch repetition case
      persist name record
      let records ← runLiveMethods I batch name rest
      pure (record :: records)

/-- The arguments of the command; `candidate` is the content of the frozen candidate of a
candidate method, if there is exactly one. -/
structure LiveArguments where
  method : Method
  split : SplitName
  repeats : ℕ
  batchId : Option Text
  caseId : Option Text
  candidate : Option Text

/-- The content a candidate method sends. -/
def candidateContent (args : LiveArguments) : Except Error (Option Text) :=
  if args.method = .promptCandidate ∨ args.method = .skillCandidate then
    match args.candidate with
    | none => .error (.valueError "one frozen candidate artifact is required")
    | some content => .ok (some content)
  else .ok none

/-- `_validated_batch_id`. -/
def validatedBatchId (value : Option Text) : Except Error Text :=
  if isSlug 80 (value.getD []) then .ok (value.getD [])
  else .error (.valueError "live evaluation requires a lowercase explicit batch id")

def recordName (method : Method) (split : SplitName) (batchId : Text) : Text :=
  Text.ofString "evaluation-live-" ++ (method.text ++ (Text.ofString "-" ++ (split.text ++
    (Text.ofString "-" ++ (batchId ++ Text.ofString ".jsonl")))))

/-- The cases the command evaluates. -/
def selectedCases (manifest : DatasetManifest) (args : LiveArguments) : List DatasetCase :=
  (manifest.cases.filter fun case => decide (case.split = args.split)).filter fun case =>
    args.caseId.elim true fun caseId => decide (case.caseId = caseId)

/-- `_cmd_evaluate` with a live engine. -/
def evaluateLive (I : Interpreter) (manifest : DatasetManifest) (args : LiveArguments) :
    Command (List ExperimentRecord) := do
  if args.repeats < 1 ∨ 3 < args.repeats then
    throw (.valueError "evaluation repeats must be between one and three")
  let batchId ← .ofExcept (validatedBatchId args.batchId)
  let content ← .ofExcept (candidateContent args)
  let opened ← call .openLedger
  .ofExcept opened
  reconcileReserved
  let rows ← call .rows
  markRecordedMatching (liveRecordKeys rows)
  let rows ← call .rows
  let states ← call .states
  let budget ← .ofExcept (CallBudget.make maxModelCalls (existingCalls rows) states batchId)
  call (.setBudget budget)
  let cases := selectedCases manifest args
  if args.caseId ≠ none ∧ cases = [] then
    throw (.valueError "case id is missing from the requested split")
  let name := recordName args.method args.split batchId
  let found ← call (.fileExists name)
  if found then throw (.fileExists name)
  if content = some [] then
    throw (.valueError "candidate content is required for candidate methods")
  runLiveMethods I ⟨batchId, args.method, content⟩ name (schedule args.repeats cases)

end Lab
