import SynoraErp.Coach.Authority
import SynoraErp.Python.JsonLines
import SynoraErp.Transition.Alone

/-!
# Coach evidence

How the ERP stores an answer: a row for each of its claims, unless the row is there already,
and one row for the answer that names them, between savepoints. A program calls the database
and the services around it; what a row holds is read again by `serialize_coach_result`.
-/

namespace Coach.Authority

open Python Transition
open Governance (Uuid GatewayFault item strictHooks)

/-! ## Faults -/

/-- A fault, or any other exception. -/
inductive Raised where
  | fault (fault : GatewayFault)
  | other

def invalidInput (label : String) : Raised :=
  .fault ⟨"INVALID_INPUT", s!"{label} is invalid", 400⟩

/-- `_not_available`. -/
def notAvailable : Raised := .fault ⟨"COACH_CLAIM_NOT_AVAILABLE", "Coach claim is not available", 404⟩

/-- `_coach_run_not_available`. -/
def runNotAvailable : Raised := .fault ⟨"COACH_RUN_NOT_AVAILABLE", "Coach run is not available", 404⟩

/-- `_coach_response_invalid`. -/
def responseInvalid : Raised :=
  .fault ⟨"COACH_RESPONSE_INVALID", "Coach runtime returned an invalid answer", 502⟩

/-- `_coach_claims_not_persisted`. -/
def claimsNotPersisted : Raised :=
  .fault ⟨"COACH_CLAIMS_NOT_PERSISTED", "Coach claims could not be persisted", 503⟩

/-- `_coach_result_not_persisted`. -/
def resultNotPersisted : Raised :=
  .fault ⟨"COACH_RESULT_NOT_PERSISTED", "Coach result could not be persisted", 503⟩

/-! ## Rows -/

/-- The values of a `Synora Coach Claim`. -/
structure ClaimValues where
  run : Text
  correlationId : Text
  initiator : Text
  companyScope : Text
  warehouseScope : Option Text
  claimDigest : Text
  citationDigest : Text
  sourceRevision : Text
  sourceSnapshot : Text
  dedupeKey : Text

structure ClaimRow extends ClaimValues where
  name : Text

/-- `SynoraCoachClaim.validate`. -/
def ClaimValues.valid (values : ClaimValues) : Bool :=
  ([values.run, values.initiator, values.companyScope, values.claimDigest, values.citationDigest,
    values.sourceRevision, values.sourceSnapshot, values.dedupeKey].all fun t => t ≠ []) &&
    decide (values.sourceSnapshot.length ≤ maxSourceSnapshotLength)

/-- The values of a `Synora Coach Result`. -/
structure ResultValues where
  run : Text
  correlationId : Text
  purpose : Text
  answerStatus : Text
  answer : Text
  refusalReason : Option Text
  currentDoctype : Option Text
  currentName : Option Text
  claimRecordsJson : Text
  claimsJson : Text
  citationsJson : Text
  traceJson : Text
  usageJson : Text
  latencyMs : ℤ

structure ResultRow extends ResultValues where
  name : Text

/-- `MAX_JSON_LENGTH` and `_RESULT_JSON_MAX_LENGTH`. -/
def maxJsonLength : ℕ := 256000

/-- `REFUSAL_REASONS` and `_RESULT_REFUSAL_REASONS`. -/
def refusalReasons : List String :=
  ["Coach could not produce a grounded answer", "Coach declined to answer", "CONTEXT_REQUIRED"]

/-- The value of a canonical text, read as the hooks say. -/
def canonicalJson (I : Interpreter) (hooks : Json.Hooks) (raw : Text) : Option Value := do
  guard (raw ≠ [] ∧ raw.length ≤ maxJsonLength)
  let parsed ← Json.loads I hooks raw
  guard (Json.dumps I parsed = some raw)
  some parsed

def asList : Value → Option (List Value)
  | .list values => some values
  | _ => none

/-- A text column that is not empty. -/
def given (column : Option Text) : Bool := column.any fun t => t ≠ []

/-- The evidence of a row: as many records as claims, and as much as the status asks for. -/
def ResultValues.evidenceFits (I : Interpreter) (values : ResultValues) : Option Unit := do
  let records ← (canonicalJson I .default values.claimRecordsJson).bind asList
  let claims ← (canonicalJson I .default values.claimsJson).bind asList
  let citations ← (canonicalJson I .default values.citationsJson).bind asList
  let _ ← canonicalJson I .default values.traceJson
  let _ ← canonicalJson I .default values.usageJson
  guard (records.length = claims.length)
  if values.answerStatus = Text.ofString "UNKNOWN" ∨
      values.answerStatus = Text.ofString "REFUSED" then
    guard (values.answer = [] ∧ claims.isEmpty ∧ citations.isEmpty ∧ records.isEmpty ∧
      given values.refusalReason)
  else
    guard (values.answer ≠ [] ∧ ¬claims.isEmpty ∧ ¬citations.isEmpty ∧
      ¬given values.refusalReason)

/-- `SynoraCoachResult.validate`. -/
def ResultValues.valid (I : Interpreter) (values : ResultValues) : Bool :=
  decide (values.run ≠ [] ∧ values.correlationId ≠ [] ∧ values.purpose = Text.ofString "ERP_COACH") &&
    (AnswerStatus.all.any fun status => status.text = values.answerStatus) &&
    (!given values.refusalReason || values.refusalReason.any fun reason =>
      refusalReasons.any fun safe => reason = Text.ofString safe) &&
    (values.evidenceFits I).isSome &&
    (!given values.currentDoctype || given values.currentName) &&
    (!given values.currentName || values.currentDoctype.any fun doctype =>
      doctype = DocumentType.materialRequest.text ∨ doctype = DocumentType.purchaseOrder.text) &&
    decide (0 ≤ values.latencyMs)

/-! ## Calls -/

/-- What `_run_scope` tells of a run. -/
structure RunScope where
  initiator : Text
  company : Text
  warehouse : Option Text
  correlationId : Option Text

/-- What `resolve_run` tells of a run. -/
structure ResolvedRun where
  runId : Text
  initiator : Text
  company : Text
  warehouse : Option Text

inductive Call where
  | actor
  | runScope (runId : Uuid) (actor : Text)
  | resolveRun (runId : Uuid) (capability : Text)
  | callCoachRuntime (payload : Dict) (capability : Text)
  | uuid4
  | savepoint (name : Text)
  | rollback (savepoint : Text)
  | loadByDedupe (dedupeKey : Text)
  | insertClaim (values : ClaimValues)
  | insertResult (values : ResultValues)

/-- What a call gives back. An insert of a claim tells a row of its own from the error of a
duplicate. -/
abbrev Call.Value : Call → Type
  | .actor => Text
  | .runScope .. => RunScope
  | .resolveRun .. => ResolvedRun
  | .callCoachRuntime .. => Python.Value
  | .uuid4 => Text
  | .loadByDedupe _ => Option ClaimRow
  | .insertClaim _ => Option ClaimRow
  | .insertResult _ => ResultRow
  | _ => Unit

/-- A call gives a value or raises. -/
abbrev Call.Reply (c : Call) : Type := Except Raised c.Value

abbrev Action (α : Type) := Program Call Call.Reply Raised α

def request (c : Call) : Action c.Value := .call c .ofExcept

/-- A value that is there, or an exception. -/
def orRaise {α : Type} (e : Raised) : Option α → Action α
  | some a => pure a
  | none => throw e

/-- A check. -/
def require (condition : Bool) (e : Raised) : Action Unit :=
  if condition then pure () else throw e

/-! ## Claims -/

/-- `str(value or "") or None`. -/
def orNone (column : Option Text) : Option Text := column.filter fun t => t ≠ []

/-- `_dedupe_key`. -/
def dedupeKey (I : Interpreter) (package : ReadPackage) : Option Text :=
  sha256Text (Json.asciiText I .compact (Json.sortKeys (.dict
    [("run", .str package.runId.text), ("claim_digest", .str package.package.claimDigest),
      ("citation_digest", .str package.package.citationDigest),
      ("source_revision", .str package.package.sourceRevision)])))

/-- Whether a live citation is of the snapshot of its package. -/
def citesSnapshot (package : ReadPackage) : Citation → Bool
  | .live c => decide (c.runId = package.runId.text ∧
      c.documentDoctype = package.snapshot.document.doctype ∧
      c.documentName = package.snapshot.document.name ∧
      c.stateVersion = package.snapshot.stateVersion ∧
      c.capturedAt = package.snapshot.capturedAt ∧
      c.sourceModifiedAt = package.snapshot.sourceModifiedAt ∧
      c.frappeRevision = package.snapshot.frappeRevision ∧
      c.erpnextRevision = package.snapshot.erpnextRevision)
  | _ => true

/-- Whether a package is within the scope of its run. -/
def withinScope (scope : RunScope) (package : ReadPackage) : Bool :=
  decide (package.correlationId.text = scope.correlationId.getD [] ∧
      package.snapshot.company = scope.company ∧
      orNone package.snapshot.warehouse = orNone scope.warehouse) &&
    package.package.citations.all (citesSnapshot package)

/-- The values of a package. -/
def claimValues (scope : RunScope) (package : ReadPackage) (dedupeKey : Text) : ClaimValues where
  run := package.runId.text
  correlationId := package.correlationId.text
  initiator := scope.initiator
  companyScope := scope.company
  warehouseScope := scope.warehouse
  claimDigest := package.package.claimDigest
  citationDigest := package.package.citationDigest
  sourceRevision := package.package.sourceRevision
  sourceSnapshot := package.package.sourceSnapshot
  dedupeKey := dedupeKey

/-- The row of a package. When the insert finds another row of its key, that row is read. -/
def insertCoachClaim (scope : RunScope) (package : ReadPackage) (dedupeKey : Text) :
    Action ClaimRow := do
  let inserted ← request (.insertClaim (claimValues scope package dedupeKey))
  match inserted with
  | some row => pure row
  | none => do
      let winner ← request (.loadByDedupe dedupeKey)
      let winner ← orRaise (.fault
        ⟨"CONFLICT", "Coach claim duplicate race is unresolved", 409⟩) winner
      require (winner.run = package.runId.text ∧ winner.initiator = scope.initiator) notAvailable
      pure winner

/-- `persist_coach_claim`. Which fault a package that is not valid ends with makes no difference:
the only caller turns every exception into one. -/
def persistCoachClaim (I : Interpreter) (setting : Text) (validatedClaim : Value) :
    Action ClaimRow := do
  let actor ← request .actor
  let package ← orRaise .other (validatedPackage I setting validatedClaim)
  let scope ← request (.runScope package.runId actor)
  require (withinScope scope package) notAvailable
  let key ← orRaise .other (dedupeKey I package)
  let existing ← request (.loadByDedupe key)
  match existing with
  | some row => do
      require (row.run = package.runId.text ∧ row.initiator = scope.initiator ∧
        row.companyScope = scope.company ∧ orNone row.warehouseScope = orNone scope.warehouse)
        notAvailable
      pure row
  | none => insertCoachClaim scope package key

/-- A package as it is handed over. -/
def packageValue (package : ValidatedClaim) : Value :=
  .dict [("schema_version", .ofString "1"), ("run_id", .str package.runId),
    ("correlation_id", .str package.correlationId), ("claim_id", .str package.claimId),
    ("ordinal", .int package.ordinal), ("claim_type", .str package.claimType.text),
    ("claim_text", .str package.claimText), ("claim_digest", .str package.claimDigest),
    ("citation_provenance", provenance package.citations),
    ("citation_digest", .str package.citationDigest),
    ("source_revision", .str package.sourceRevision),
    ("source_snapshot", .str package.sourceSnapshot), ("signature", .str package.signature)]

/-- What an answer tells of the row of a claim. -/
structure Provenance where
  claimId : Text
  ordinal : ℤ
  claimType : ClaimType
  claimDigest : Text
  citationDigest : Text
  sourceRevision : Text
  persistedClaimId : Text

/-- `_persisted_provenance`. -/
def persistedProvenance (scope : RunScope) (row : ClaimRow) (package : ValidatedClaim) :
    Option Provenance :=
  if row.run = package.runId ∧ row.correlationId = package.correlationId ∧
      row.companyScope = scope.company ∧ orNone row.warehouseScope = orNone scope.warehouse ∧
      row.claimDigest = package.claimDigest ∧ row.citationDigest = package.citationDigest ∧
      row.sourceRevision = package.sourceRevision then
    (text 140 (.str row.name)).map fun name =>
      { claimId := package.claimId
        ordinal := package.ordinal
        claimType := package.claimType
        claimDigest := package.claimDigest
        citationDigest := package.citationDigest
        sourceRevision := package.sourceRevision
        persistedClaimId := name }
  else none

/-- The rows of the packages, one after another. -/
def persistEach (I : Interpreter) (setting : Text) (scope : RunScope) :
    List ValidatedClaim → Action (List Provenance)
  | [] => pure []
  | package :: packages => do
      let row ← persistCoachClaim I setting (packageValue package)
      let first ← orRaise .other (persistedProvenance scope row package)
      let rest ← persistEach I setting scope packages
      pure (first :: rest)

/-- `frappe.db.rollback(save_point=savepoint)`, whose own failure is passed over. -/
def rollbackTo (savepoint : Text) : Action Unit :=
  tryCatch (request (.rollback savepoint)) fun _ => pure ()

/-- What is done after a savepoint. After an exception the savepoint is restored, and what
`raising` makes of the exception is raised. -/
def restoring {α : Type} (savepoint : Text) (raising : Raised → Raised) (action : Action α) :
    Action α :=
  tryCatch (do
      request (.savepoint savepoint)
      action)
    fun e => do
      rollbackTo savepoint
      throw (raising e)

/-- `_persist_coach_claims`. -/
def persistCoachClaims (I : Interpreter) (setting : Text) (packages : List ValidatedClaim)
    (scope : RunScope) : Action (List Provenance) :=
  if packages = [] then pure []
  else do
    let hex ← request .uuid4
    restoring (Text.ofString "synora_coach_claims_" ++ hex) (fun _ => claimsNotPersisted)
      (persistEach I setting scope packages)

/-! ## Results -/

/-- A claim as it is stored. -/
def claimValue (claim : Claim) : Value :=
  .dict [("claim_id", .str claim.claimId), ("ordinal", .int claim.ordinal),
    ("claim_type", .str claim.claimType.text), ("text", .str claim.text),
    ("citation_refs", .list (claim.citationRefs.map .str))]

/-- A trace as it is stored. -/
def traceValue (trace : RetrievalTrace) : Value :=
  .dict [("selected_chunk_ids", .list (trace.selectedChunkIds.map .str)),
    ("selected_content_digests", .list (trace.selectedContentDigests.map .str)),
    ("selected_revisions", .list (trace.selectedRevisions.map .str)),
    ("live_fact_digests", .list (trace.liveFactDigests.map .str)), ("provider_tools", .list []),
    ("context_fragment_ids", .list (trace.contextFragmentIds.map .str))]

/-- A usage as it is stored. -/
def usageValue (usage : TokenUsage) : Value :=
  .dict [("prompt_tokens", .int usage.promptTokens),
    ("completion_tokens", .int usage.completionTokens),
    ("reasoning_tokens", .int usage.reasoningTokens)]

/-- `_result_json`. -/
def resultJson (I : Interpreter) (value : Value) : Except Raised Text :=
  match Json.dumps I value with
  | some encoded => if maxJsonLength < encoded.length then .error resultNotPersisted else .ok encoded
  | none => .error resultNotPersisted

/-- An exception unless the condition holds. -/
def demand (condition : Prop) [Decidable condition] (e : Raised) : Except Raised Unit :=
  if condition then .ok () else .error e

/-- The ids of the rows of the claims. -/
def claimRecordIds : List Provenance → Except Raised (List Text)
  | [] => .ok []
  | row :: rows =>
      match identifier (.str row.persistedClaimId) with
      | none => .error (invalidInput "claim record id")
      | some id => (claimRecordIds rows).map fun ids => id :: ids

/-- What the values of a status have to hold. -/
def valuesFit (validated : ValidatedAnswer) (records : List Text) : Bool :=
  if declines validated.answerStatus then
    Text.isBlank validated.answer && validated.claims.isEmpty && validated.citations.isEmpty &&
      records.isEmpty && given validated.refusalReason
  else
    !Text.isBlank validated.answer && !validated.claims.isEmpty && !validated.citations.isEmpty &&
      validated.refusalReason.isNone

/-- `_result_document_values`. The document and its name are both given or neither is. -/
def resultDocumentValues (I : Interpreter) (runId : Uuid) (correlationId : Text)
    (document : Option DocumentRef) (validated : ValidatedAnswer) (persisted : List Provenance) :
    Except Raised ResultValues := do
  demand (validated.answer.length ≤ 8000) resultNotPersisted
  demand (validated.refusalReason.all fun reason =>
    refusalReasons.any fun safe => reason = Text.ofString safe) resultNotPersisted
  demand (persisted.length = validated.claims.length) resultNotPersisted
  demand (document.all fun ref => (text 140 (.str ref.name)).isSome) (invalidInput "current_name")
  let records ← claimRecordIds persisted
  demand (valuesFit validated records) resultNotPersisted
  let claimRecordsJson ← resultJson I (.list (records.map .str))
  let claimsJson ← resultJson I (.list (validated.claims.map claimValue))
  let citationsJson ← resultJson I (.list (validated.citations.map Citation.object))
  let traceJson ← resultJson I (traceValue validated.retrievalTrace)
  let usageJson ← resultJson I (usageValue validated.tokenUsage)
  .ok
    { run := runId.text
      correlationId
      purpose := "ERP_COACH"
      answerStatus := validated.answerStatus.text
      answer := validated.answer
      refusalReason := validated.refusalReason
      currentDoctype := document.map fun ref => ref.doctype.text
      currentName := document.map DocumentRef.name
      claimRecordsJson, claimsJson, citationsJson, traceJson, usageJson
      latencyMs := validated.latencyMs }

/-- A fault is raised again, any other exception is a result that was not persisted. -/
def asFault : Raised → Raised
  | .fault fault => .fault fault
  | .other => resultNotPersisted

/-- `_persist_coach_result`; the result is the id of the row. -/
def persistCoachResult (I : Interpreter) (runId : Uuid) (correlationId : Text)
    (document : Option DocumentRef) (validated : ValidatedAnswer) (persisted : List Provenance) :
    Action Text := do
  let values ← .ofExcept (resultDocumentValues I runId correlationId document validated persisted)
  let row ← tryCatch (request (.insertResult values)) fun e => throw (asFault e)
  pure row.name

/-- What comes back of an answer that is stored. -/
structure StoredAnswer where
  resultId : Text
  validated : ValidatedAnswer
  provenance : List Provenance

/-- `_persist_coach_evidence`. -/
def persistCoachEvidence (I : Interpreter) (setting : Text) (validated : ValidatedAnswer)
    (runId : Uuid) (scope : RunScope) (document : DocumentRef) : Action StoredAnswer := do
  let hex ← request .uuid4
  restoring (Text.ofString "synora_coach_evidence_" ++ hex) asFault do
    let persisted ← persistCoachClaims I setting validated.validatedClaims scope
    let resultId ← persistCoachResult I runId (scope.correlationId.getD "None") (some document)
      validated persisted
    pure ⟨resultId, validated, persisted⟩

/-- `_context_required_answer`. -/
def contextRequiredAnswer : ValidatedAnswer where
  answerStatus := .refused
  answer := []
  refusalReason := some (Text.ofString "CONTEXT_REQUIRED")
  claims := []
  citations := []
  retrievalTrace := {}
  tokenUsage := {}
  latencyMs := 0
  validatedClaims := []

/-- `persist_context_required_coach_result`. -/
def persistContextRequiredCoachResult (I : Interpreter) (runId correlationId : Value) :
    Action StoredAnswer := do
  let actor ← request .actor
  let safeRun ← orRaise (invalidInput "run_id") (canonicalUuid runId)
  let safeCorrelation ← orRaise (invalidInput "correlation_id") (canonicalUuid correlationId)
  let scope ← request (.runScope safeRun actor)
  require (scope.correlationId.getD [] = safeCorrelation.text) runNotAvailable
  let hex ← request .uuid4
  restoring (Text.ofString "synora_coach_refusal_" ++ hex) asFault do
    let resultId ← persistCoachResult I safeRun safeCorrelation.text none contextRequiredAnswer []
    pure ⟨resultId, contextRequiredAnswer, []⟩

/-! ## The answer of a question -/

/-- `_coach_capability`. -/
def coachCapability (value : Value) : Option Text :=
  (text 43 value).filter fun t => t.length = 43 ∧ t.all fun c =>
    Governance.isAlphanumeric c || [0x5F, 0x2D].contains c.val

/-- The run a capability gives access to, which has to be the one of the scope. -/
def sameScope (runId : Uuid) (scope : RunScope) (resolved : ResolvedRun) : Bool :=
  decide (resolved.runId = runId.text ∧ resolved.initiator = scope.initiator ∧
    resolved.company = scope.company ∧ orNone resolved.warehouse = orNone scope.warehouse)

/-- The scope of a run with its correlation id, for who holds its capability. -/
def resolveScope (runId : Uuid) (capability actor : Text) : Action (RunScope × ResolvedRun × Uuid) :=
  tryCatch (do
      let scope ← request (.runScope runId actor)
      let resolved ← request (.resolveRun runId capability)
      let correlation ← orRaise .other (canonicalUuid (optionalText scope.correlationId))
      pure (scope, resolved, correlation))
    fun _ => throw runNotAvailable

/-- The payload of the question. -/
def questionPayload (runId correlationId : Uuid) (question : Text) (document : DocumentRef)
    (capability : Text) : Dict :=
  [("schema_version", .ofString "1"), ("run_id", runId.value),
    ("correlation_id", correlationId.value), ("question", .str question),
    ("current_document", .dict [("doctype", .str document.doctype.text),
      ("name", .str document.name)]), ("capability", .str capability)]

/-- `answer_contextual_coach`. -/
def answerContextualCoach (I : Interpreter) (setting : Text) (runId capability question
    currentDoctype currentName : Value) : Action StoredAnswer := do
  let actor ← request .actor
  let safeRun ← orRaise (invalidInput "run_id") (canonicalUuid runId)
  let safeCapability ← orRaise (invalidInput "capability") (coachCapability capability)
  let safeQuestion ← orRaise (invalidInput "question") (text 1000 question)
  let doctype ← orRaise (invalidInput "current_doctype") (documentType currentDoctype)
  let name ← orRaise (invalidInput "current_name") (text 140 currentName)
  let (scope, resolved, correlation) ← resolveScope safeRun safeCapability actor
  require (sameScope safeRun scope resolved) runNotAvailable
  let runtimeAnswer ← request (.callCoachRuntime
    (questionPayload safeRun correlation safeQuestion ⟨doctype, name⟩ safeCapability)
    safeCapability)
  let validated ← orRaise responseInvalid (validateCoachAnswer I
    ⟨safeRun, correlation, ⟨doctype, name⟩, scope.company, orNone scope.warehouse⟩ runtimeAnswer)
  persistCoachEvidence I setting validated safeRun scope ⟨doctype, name⟩

/-! ## Reading a result -/

/-- What `serialize_coach_result` returns. -/
structure ResultView where
  resultId : Text
  runId : Uuid
  correlationId : Uuid
  answerStatus : AnswerStatus
  answer : Text
  refusalReason : Option Text
  currentDocument : Option DocumentRef
  claims : List Claim
  citations : List Citation
  trace : RetrievalTrace
  usage : TokenUsage
  latencyMs : ℤ
  claimRecordIds : List Text

/-- The document of a row; an empty column is no document. -/
def currentDocument (doctype name : Option Text) : Option (Option DocumentRef) :=
  match orNone doctype, orNone name with
  | none, none => some none
  | some doctype, some name =>
      if name.length ≤ 140 then
        (documentType (.str doctype)).map fun doctype => some ⟨doctype, name⟩
      else none
  | _, _ => none

/-- What a row of a status has to hold. -/
def rowFits (status : AnswerStatus) (answer : Text) (claims : List Claim)
    (citations : List Citation) (records : List Text) (reason : Option Text) : Bool :=
  if declines status then
    Text.isBlank answer && claims.isEmpty && citations.isEmpty && records.isEmpty && given reason
  else
    !Text.isBlank answer && !claims.isEmpty && !citations.isEmpty && reason.isNone &&
      decide (answer = joinTexts claims)

/-- `serialize_coach_result`. -/
def serializeCoachResult (I : Interpreter) (row : ResultRow) : Option ResultView := do
  let resultId ← identifier (.str row.name)
  let runId ← canonicalUuid (.str row.run)
  let correlationId ← canonicalUuid (.str row.correlationId)
  guard (row.purpose = Text.ofString "ERP_COACH")
  let status ← answerStatus (.str row.answerStatus)
  guard (row.answer.length ≤ 8000)
  guard (row.refusalReason.all fun reason =>
    refusalReasons.any fun safe => reason = Text.ofString safe)
  let claims ← ((canonicalJson I strictHooks row.claimsJson).bind asList).bind
    (List.mapM coachOutputClaim)
  let citations ← ((canonicalJson I strictHooks row.citationsJson).bind asList).bind
    (List.mapM validateCitation)
  let records ← ((canonicalJson I strictHooks row.claimRecordsJson).bind asList).bind
    (List.mapM identifier)
  let trace ← (canonicalJson I strictHooks row.traceJson).bind coachOutputTrace
  let usage ← (canonicalJson I strictHooks row.usageJson).bind coachOutputUsage
  let latencyMs ← boundedInt 0 86400000 (.int row.latencyMs)
  guard (claims.map Claim.ordinal = ordinals claims.length)
  guard (records.length = claims.length)
  guard (graphFits claims citations)
  guard (rowFits status row.answer claims citations records row.refusalReason)
  let currentDocument ← currentDocument row.currentDoctype row.currentName
  some
    { resultId, runId, correlationId, answerStatus := status, answer := row.answer
      refusalReason := row.refusalReason
      currentDocument, claims, citations, trace, usage, latencyMs, claimRecordIds := records }

end Coach.Authority
