import SynoraErp.Coach.Context
import SynoraErp.Coach.ProviderOutput
import SynoraErp.Python.Hmac

/-!
# The Coach

`answer_coach`: the responses of the provider are read until one is an output, whose live
citations are bound to the current document, whose claims about it are written anew from
the facts cited, and whose claims are signed. The time an answer takes is left out.
-/

namespace Coach

open Python Governance

/-! ## Live citations -/

/-- The facts with their digests. -/
abbrev Facts := List (Text × CurrentFact)

/-- `facts_by_digest.get(digest)`: the last fact of a digest. -/
def Facts.get? (facts : Facts) (digest : Text) : Option CurrentFact :=
  (facts.reverse.find? fun fact => fact.1 = digest).map Prod.snd

/-- The facts with a value in every cited field. -/
def Facts.candidates (facts : Facts) (fields : List LiveFactField) : Facts :=
  facts.filter fun fact => fields.all fun field => (fact.2.value? field).isSome

/-- The digest of the only candidate. -/
def Facts.unique? : Facts → Option Text
  | [fact] => some fact.1
  | _ => none

/-- The digest of the candidate that was named, or of the only one. -/
def Facts.selected? (candidates : Facts) (digest : Text) : Option Text :=
  ((candidates.find? fun fact => fact.1 = digest).map Prod.fst).or candidates.unique?

/-- A live citation with the metadata of the snapshot. The model of a live citation takes the
metadata of a checked context. -/
def boundCitation (request : QuestionRequest) (context : CurrentDocumentContext)
    (citationId : Text) (factFields : List LiveFactField) (factDigest : Text) : Citation :=
  .live
    { citationId
      runId := request.runId
      documentDoctype := context.currentDocument.doctype
      documentName := context.currentDocument.name
      stateVersion := context.stateVersion
      capturedAt := context.capturedAt
      sourceModifiedAt := context.sourceModifiedAt
      frappeRevision := context.frappeRevision
      erpnextRevision := context.erpnextRevision
      factFields
      factDigest }

/-- A citation of an output, bound to the snapshot. -/
def materializeCitation (request : QuestionRequest) (context : CurrentDocumentContext)
    (facts : Facts) : Citation → Option Citation
  | .selector id fields => (facts.candidates fields).unique?.map (boundCitation request context id fields)
  | .live c => ((facts.candidates c.factFields).selected? c.factDigest).map
      (boundCitation request context c.citationId c.factFields)
  | citation => some citation

/-- `_materialize_live_citations`. -/
def materializeLiveCitations (request : QuestionRequest) (context : CurrentDocumentContext)
    (facts : Facts) (output : ProviderOutput) : Option ProviderOutput :=
  (output.citations.mapM (materializeCitation request context facts)).map fun citations =>
    { output with citations }

/-! ## The citation graph -/

/-- `_validate_live_citation`. -/
def validateLiveCitation (request : QuestionRequest) (context : CurrentDocumentContext)
    (facts : Facts) (c : LiveCitation) : Bool :=
  decide (c.runId = request.runId ∧ request.runId = context.runId) &&
    decide (c.documentDoctype = context.currentDocument.doctype) &&
    decide (c.documentName = context.currentDocument.name) &&
    decide (c.stateVersion = context.stateVersion) && decide (c.capturedAt = context.capturedAt) &&
    decide (c.sourceModifiedAt = context.sourceModifiedAt) &&
    decide (c.frappeRevision = context.frappeRevision) &&
    decide (c.erpnextRevision = context.erpnextRevision) &&
    (facts.map Prod.fst).contains c.factDigest

/-- `_validate_retrieval_citation`; a chunk id stands for the last selected hit that has it. -/
def validateRetrievalCitation (hits : List SearchHit) (c : RetrievalCitation) : Bool :=
  (hits.reverse.find? fun hit => hit.chunkId = c.chunkId).any fun hit =>
    decide (hit.contentDigest = c.contentDigest) && decide (hit.ordinal = c.ordinal) &&
      decide (hit.sourceType = c.sourceType) && decide (hit.revision = c.revision) &&
      decide (hit.erpVersion = c.erpVersion) && decide (hit.permissionScope = c.permissionScope)

/-- Whether a citation stands for what the Coach was given. -/
def validateCitation (request : QuestionRequest) (context : CurrentDocumentContext)
    (hits : List SearchHit) (facts : Facts) : Citation → Bool
  | .live c => validateLiveCitation request context facts c
  | .retrieval c => validateRetrievalCitation hits c
  | _ => false

/-- `_validate_citation_graph`. -/
def validateCitationGraph (request : QuestionRequest) (context : CurrentDocumentContext)
    (hits : List SearchHit) (facts : Facts) (output : ProviderOutput) : Bool :=
  output.claims.all fun claim => claim.claimType.signable &&
    claim.citationRefs.all fun id =>
      (output.citation? id).any (validateCitation request context hits facts)

/-! ## Claims about the current document -/

/-- `_LIVE_FACT_FIELDS`. -/
def liveFactFields : DocumentType → List LiveFactField
  | .materialRequest => [.company, .docstatus, .status, .transactionDate, .itemCode, .warehouse,
      .stockUom, .scheduleDate, .materialRequest, .materialRequestType, .requestedStockQty,
      .orderedStockQty, .openOrderStockQty]
  | .purchaseOrder => [.company, .docstatus, .status, .transactionDate, .itemCode, .warehouse,
      .stockUom, .scheduleDate, .purchaseOrder, .supplier, .currency, .orderedStockQty,
      .receivedStockQty, .openReceiptStockQty]

/-- `_ERP_FACT_CONTEXT`. -/
def erpFactContext : LiveFactField → Option Text
  | .openOrderStockQty => some (Text.ofString
      ("This current fact shows the requested quantity not yet covered by an order, " ++
        "which helps explain the document's remaining fulfillment gap."))
  | .openReceiptStockQty => some (Text.ofString
      ("This current fact shows the ordered quantity not yet received, " ++
        "which helps explain the document's remaining receipt gap."))
  | _ => none

/-- `_EXPLANATION_CUES`. -/
def explanationCues : List String :=
  ["why", "matter", "understand", "explain", "reason", "为什么", "为何", "意义", "理解", "原因"]

/-- `_UNSUPPORTED_QUANTITY_CUES`. -/
def unsupportedQuantityCues : List String := ["additional quantity", "额外数量"]

/-- A field of a fact and its value. -/
abbrev Atom := LiveFactField × Value

/-- `_canonical_field_atom`. A value of a fact is an integer or a string, and its canonical
form is its rendering. -/
def canonicalFieldAtom (I : Interpreter) (atom : Atom) : Text :=
  atom.1.text ++ Text.ofString "=" ++ Json.render I atom.2

/-- The atoms of the cited fields of one fact, after those there are. `none` when a field is
not one of the document, was used already or has no value. -/
def factAtoms (allowed requested : List LiveFactField) (fact : CurrentFact) :
    List LiveFactField → List Atom → Option (List Atom)
  | [], atoms => some atoms
  | field :: fields, atoms =>
      if field ∉ allowed ∨ field ∉ fact.dump.map Prod.fst then none
      else if requested ≠ [] ∧ field ∉ requested then
        factAtoms allowed requested fact fields atoms
      else if field ∈ atoms.map Prod.fst then none
      else
        (fact.value? field).bind fun value =>
          factAtoms allowed requested fact fields (atoms ++ [(field, value)])

/-- The atoms of the citations of a claim, after those there are. -/
def claimAtoms (allowed requested : List LiveFactField) (facts : Facts) (output : ProviderOutput) :
    List Text → List Atom → Option (List Atom)
  | [], atoms => some atoms
  | reference :: references, atoms =>
      match output.citation? reference with
      | some (.live c) =>
          (facts.get? c.factDigest).bind fun fact =>
            (factAtoms allowed requested fact c.factFields atoms).bind
              (claimAtoms allowed requested facts output references)
      | _ => none

/-- The atoms in the order of their fields. -/
def sortAtoms (atoms : List Atom) : List Atom :=
  SortedByKey.sortBy (fun atom => atom.1.text) atoms

/-- The text of a claim about the current document. -/
def atomsText (I : Interpreter) (includeContext : Bool) (atoms : List Atom) : Text :=
  let sorted := sortAtoms atoms
  let normalized := (Text.ofString "; ").intercalate (sorted.map (canonicalFieldAtom I))
  let explanations := sorted.filterMap fun atom => erpFactContext atom.1
  if includeContext ∧ explanations ≠ [] then
    normalized ++ Text.ofString " " ++ (Text.ofString " ").intercalate explanations
  else normalized

/-- How many fields a live citation selects. -/
def Citation.selectsSeveral : Citation → Bool
  | .live c => decide (1 < c.factFields.length)
  | _ => false

/-- `_normalize_erp_claim`. -/
def normalizeErpClaim (I : Interpreter) (context : CurrentDocumentContext) (facts : Facts)
    (output : ProviderOutput) (includeContext : Bool) (requested : List LiveFactField)
    (claim : Claim) : Option Text :=
  if requested = [] ∧ output.citations.any Citation.selectsSeveral then none
  else
    (claimAtoms (liveFactFields context.currentDocument.doctype) requested facts output
      claim.citationRefs []).bind fun atoms =>
        if atoms = [] then none else some (atomsText I includeContext atoms)

/-- A claim whose text no provider wrote when it is about the current document. -/
def normalizeClaim (I : Interpreter) (context : CurrentDocumentContext) (facts : Facts)
    (output : ProviderOutput) (includeContext : Bool) (requested : List LiveFactField)
    (claim : Claim) : Option Claim :=
  if claim.claimType.signable then
    if claim.claimType = .erpFact then
      (normalizeErpClaim I context facts output includeContext requested claim).map fun text =>
        { claim with text }
    else some claim
  else none

/-- `claim_key`. -/
def Claim.key (claim : Claim) : ClaimType × Text × List Text :=
  (claim.claimType, claim.text, claim.citationRefs)

/-- The first claim of each key that was not seen. -/
def distinctClaims : List Claim → List (ClaimType × Text × List Text) → List Claim
  | [], _ => []
  | claim :: claims, seen =>
      if claim.key ∈ seen then distinctClaims claims seen
      else claim :: distinctClaims claims (claim.key :: seen)

/-- The claims with the numbers of their places. -/
def renumber (claims : List Claim) : List Claim :=
  claims.mapIdx fun i claim => { claim with ordinal := (i : ℤ) + 1 }

/-- `_requested_live_fields`. -/
def requestedLiveFields (casefold : Text → Text) (question : Text)
    (allowed : List LiveFactField) : List LiveFactField :=
  allowed.filter fun field => decide (casefold field.text <:+: casefold question)

def includesContext (casefold : Text → Text) (question : Text) : Bool :=
  explanationCues.any fun cue => decide (Text.ofString cue <:+: casefold question)

/-- `_normalize_grounded_claims`. -/
def normalizeGroundedClaims (I : Interpreter) (casefold : Text → Text)
    (context : CurrentDocumentContext) (facts : Facts) (question : Text)
    (output : ProviderOutput) : Option ProviderOutput :=
  let requested := requestedLiveFields casefold question
    (liveFactFields context.currentDocument.doctype)
  (output.claims.mapM (normalizeClaim I context facts output (includesContext casefold question)
    requested)).bind fun normalized =>
      let claims := renumber (distinctClaims normalized [])
      let answer := (Text.ofString "\n").intercalate (claims.map Claim.text)
      if answer = [] ∨ 8000 < answer.length then none
      else ProviderOutput.validate { output with answer, claims }

/-! ## Signed claims -/

/-- What a citation dumps. -/
def Citation.object : Citation → Value
  | .live c => .dict [("citation_type", .ofString "LIVE_ERP"), ("citation_id", .str c.citationId),
      ("run_id", .str c.runId), ("document_doctype", .str c.documentDoctype.text),
      ("document_name", .str c.documentName), ("state_version", .int c.stateVersion),
      ("captured_at", .str c.capturedAt), ("source_modified_at", optionalText c.sourceModifiedAt),
      ("frappe_revision", optionalText c.frappeRevision),
      ("erpnext_revision", optionalText c.erpnextRevision),
      ("fact_fields", .list (c.factFields.map fun field => .str field.text)),
      ("fact_digest", .str c.factDigest)]
  | .selector id fields => .dict [("citation_type", .ofString "LIVE_ERP"), ("citation_id", .str id),
      ("fact_fields", .list (fields.map fun field => .str field.text))]
  | .retrieval c => .dict [("citation_type", .ofString "RETRIEVAL"),
      ("citation_id", .str c.citationId), ("chunk_id", .str c.chunkId),
      ("content_digest", .str c.contentDigest), ("ordinal", .int c.ordinal),
      ("source_type", .str c.sourceType), ("revision", .str c.revision),
      ("erp_version", .str c.erpVersion), ("permission_scope", .str c.permissionScope)]
  | .memory c => .dict [("citation_type", .ofString "MEMORY"), ("citation_id", .str c.citationId),
      ("memory_id", .str c.memoryId), ("memory_version", .int c.memoryVersion),
      ("content_digest", .str c.contentDigest), ("reviewed_at", .str c.reviewedAt),
      ("reviewer", .str c.reviewer)]

/-- `ValidatedCoachClaim`. -/
structure ValidatedClaim where
  runId : Text
  correlationId : Text
  claimId : Text
  ordinal : ℤ
  claimType : ClaimType
  claimText : Text
  claimDigest : Text
  citations : List Citation
  citationDigest : Text
  sourceRevision : Text
  sourceSnapshot : Text
  signature : Text
deriving DecidableEq

/-- `citation_provenance`. -/
def provenance (citations : List Citation) : Value :=
  .dict [("citations", .list (citations.map Citation.object))]

/-- What is signed: all of a package but its signature. -/
def ValidatedClaim.payload (package : ValidatedClaim) : Value :=
  .dict [("schema_version", .ofString "1"), ("run_id", .str package.runId),
    ("correlation_id", .str package.correlationId), ("claim_id", .str package.claimId),
    ("ordinal", .int package.ordinal), ("claim_type", .str package.claimType.text),
    ("claim_text", .str package.claimText), ("claim_digest", .str package.claimDigest),
    ("citation_provenance", provenance package.citations),
    ("citation_digest", .str package.citationDigest),
    ("source_revision", .str package.sourceRevision),
    ("source_snapshot", .str package.sourceSnapshot)]

/-- The checks of the model of a package that its claim has not passed. A snapshot is canonical
as it was written, and the digests are those of the texts. -/
def ValidatedClaim.valid (package : ValidatedClaim) : Bool :=
  decide (1 ≤ package.citations.length ∧ package.citations.length ≤ 8) &&
    decide (package.citations.map Citation.citationId).Nodup &&
    isString 1 140 package.sourceRevision && !Text.isBlank package.sourceRevision &&
    isString 2 16000 package.sourceSnapshot

/-- `_runtime_token`. -/
def runtimeToken (setting : Text) : Option Text :=
  if Text.strip setting = [] then none else some (Text.strip setting)

/-- `_claim_signature`. -/
def claimSignature (I : Interpreter) (payload : Value) (token : Text) : Option Text := do
  let canonical ← (Json.dumps I payload).bind Text.encodeUtf8
  let token ← Text.encodeUtf8 token
  some (Hmac.hexdigest (Hmac.digest token "synora-coach-claim-v1".toUTF8) canonical)

/-- `_source_snapshot`. -/
def sourceSnapshot (I : Interpreter) (context : CurrentDocumentContext) : Option (Text × Text) := do
  let snapshot ← Json.dumps I (.dict context.metadata)
  let digest ← sha256Text snapshot
  some ((context.frappeRevision.or context.erpnextRevision).getD
    (Text.ofString "snapshot-" ++ digest), snapshot)

/-- The package of a claim. -/
def validatedClaim (I : Interpreter) (output : ProviderOutput) (request : QuestionRequest)
    (source : Text × Text) (token : Text) (claim : Claim) : Option ValidatedClaim := do
  let citations ← claim.citationRefs.mapM output.citation?
  let claimDigest ← sha256Text claim.text
  let citationDigest ← (Json.dumps I (provenance citations)).bind sha256Text
  let package : ValidatedClaim :=
    { runId := request.runId
      correlationId := request.correlationId
      claimId := claim.claimId
      ordinal := claim.ordinal
      claimType := claim.claimType
      claimText := claim.text
      claimDigest
      citations
      citationDigest
      sourceRevision := source.1
      sourceSnapshot := source.2
      signature := List.replicate 64 (codePoint '0') }
  if package.valid then
    (claimSignature I package.payload token).map fun signature => { package with signature }
  else none

/-- `_validated_claims`. -/
def validatedClaims (I : Interpreter) (output : ProviderOutput) (request : QuestionRequest)
    (context : CurrentDocumentContext) (setting : Text) : Option (List ValidatedClaim) :=
  match runtimeToken setting with
  | none => some []
  | some token =>
      (sourceSnapshot I context).bind fun source =>
        (output.claims.filter fun claim => claim.claimType.signable).mapM
          (validatedClaim I output request source token)

/-! ## Answers -/

/-- The tokens a provider reports. -/
structure TokenUsage where
  promptTokens : ℤ := 0
  completionTokens : ℤ := 0
  reasoningTokens : ℤ := 0
deriving DecidableEq

/-- `_combined_usage`. -/
def TokenUsage.combined (first second : TokenUsage) : TokenUsage where
  promptTokens := first.promptTokens + second.promptTokens
  completionTokens := first.completionTokens + second.completionTokens
  reasoningTokens := first.reasoningTokens + second.reasoningTokens

/-- `_usage`; `none` when the model of a usage refuses it. -/
def TokenUsage.checked (usage : TokenUsage) : Option TokenUsage :=
  let usage : TokenUsage :=
    ⟨max 0 usage.promptTokens, max 0 usage.completionTokens, max 0 usage.reasoningTokens⟩
  if usage.promptTokens ≤ 10000000 ∧ usage.completionTokens ≤ 10000000 ∧
      usage.reasoningTokens ≤ 10000000 then some usage
  else none

/-- `CoachRetrievalTrace`. -/
structure RetrievalTrace where
  selectedChunkIds : List Text := []
  selectedContentDigests : List Text := []
  selectedRevisions : List Text := []
  liveFactDigests : List Text := []
  contextFragmentIds : List Text := []
deriving DecidableEq

def RetrievalTrace.valid (trace : RetrievalTrace) : Bool :=
  decide (trace.selectedChunkIds.length ≤ 5) && trace.selectedChunkIds.all isDigest &&
    trace.selectedContentDigests.all isDigest &&
    trace.selectedRevisions.all (fun revision => (Text.encodeUtf8 revision).isSome) &&
    decide (trace.liveFactDigests.length ≤ 50) &&
    decide (trace.contextFragmentIds.length ≤ 64)

/-- `_trace`. -/
def traceOf (hits : List SearchHit) (facts : Facts) (contextFragmentIds : List Text) :
    RetrievalTrace where
  selectedChunkIds := hits.map SearchHit.chunkId
  selectedContentDigests := hits.map SearchHit.contentDigest
  selectedRevisions := hits.map SearchHit.revision
  liveFactDigests := sortedSet (facts.map Prod.fst)
  contextFragmentIds := contextFragmentIds

/-- `CoachAnswer`. -/
structure CoachAnswer where
  answerStatus : AnswerStatus
  answer : Text
  claims : List Claim
  citations : List Citation
  refusalReason : Option Text
  retrievalTrace : RetrievalTrace
  tokenUsage : TokenUsage
  validatedClaims : List ValidatedClaim

def Citation.isSelector : Citation → Bool
  | .selector _ _ => true
  | _ => false

/-- The model of an answer: an output again, with no selector left. -/
def CoachAnswer.ofOutput (output : ProviderOutput) (trace : RetrievalTrace) (usage : TokenUsage)
    (packages : List ValidatedClaim) : Option CoachAnswer := do
  let tokenUsage ← usage.checked
  let output ← output.validate
  guard (output.citations.all fun citation => !citation.isSelector)
  some
    { answerStatus := output.answerStatus
      answer := output.answer
      claims := output.claims
      citations := output.citations
      refusalReason := output.refusalReason
      retrievalTrace := trace
      tokenUsage
      validatedClaims := packages }

/-- `_SAFE_REASONS`. -/
inductive SafeReason where
  | context
  | budget
  | provider
  | citation
  | tools

def SafeReason.text : SafeReason → Text
  | .context => "current ERP context is not available"
  | .budget => "Coach context budget is unavailable"
  | .provider => "Coach provider did not return a usable answer"
  | .citation => "the answer could not be grounded in supplied evidence"
  | .tools => "Coach provider returned an unsupported tool request"

/-- `_failed_answer`. -/
def failedAnswer (status : AnswerStatus) (reason : SafeReason) (trace : RetrievalTrace)
    (usage : TokenUsage) : Option CoachAnswer :=
  CoachAnswer.ofOutput ⟨status, [], [], [], some reason.text⟩ trace usage []

/-! ## The provider -/

/-- `ProviderResponse`, with whether it calls a tool. -/
structure ProviderResponse where
  text : Text
  callsTools : Bool
  usage : TokenUsage

/-- What the provider does next. -/
inductive ProviderEvent where
  | response (response : ProviderResponse)
  | providerError (usage : TokenUsage)
  | otherError

/-- A provider, by what it does until it stops. Only a `FailoverProvider` is asked for another
response after a poor one. -/
structure Provider where
  failover : Bool
  events : List ProviderEvent

/-- `_requires_unavailable_quantity`. -/
def requiresUnavailableQuantity (casefold : Text → Text) (question : Text) : Bool :=
  let normalized := casefold question
  (unsupportedQuantityCues.any fun cue => decide (Text.ofString cue <:+: normalized)) &&
    ["not present", "not in the supplied", "不在", "不存在"].any fun cue =>
      decide (Text.ofString cue <:+: normalized)

/-- How the loop over the responses ends. -/
inductive Consumed where
  | failed (status : AnswerStatus) (reason : SafeReason) (usage : TokenUsage)
  | parsed (output : ProviderOutput) (usage : TokenUsage)

/-- The loop over the responses; `unavailable` is whether the question asks for a quantity that
is not there. -/
def consume (I : Interpreter) (failover unavailable : Bool) (inputBudget : ℤ) :
    TokenUsage → List ProviderEvent → Consumed
  | usage, [] => .failed .unknown .provider usage
  | _, .providerError usage :: _ => .failed .refused .provider usage
  | usage, .otherError :: _ => .failed .unknown .provider usage
  | usage, .response r :: events =>
      let usage := usage.combined r.usage
      if r.usage.promptTokens < 0 then .failed .refused .provider usage
      else if inputBudget < r.usage.promptTokens then .failed .refused .budget usage
      else if r.callsTools then .failed .refused .tools usage
      else if unavailable then .failed .unknown .citation usage
      else
        match parseCoachProviderOutput I r.text with
        | none =>
            if failover then consume I failover unavailable inputBudget usage events
            else .failed .unknown .provider usage
        | some output =>
            if output.answerStatus = .unknown ∧ failover then
              consume I failover unavailable inputBudget usage events
            else .parsed output usage

/-! ## The answer -/

/-- Why a context is not built. -/
inductive ContextBuildError where
  | budget
  | other

/-- What `ContextBuilder().build` returns. -/
structure BuiltContext where
  fragmentIds : List Text
  inputBudget : ℤ

/-- What an answer depends on besides its arguments. -/
structure Surroundings where
  /-- `str.casefold`. -/
  casefold : Text → Text
  /-- `ContextBuilder().build` of the question and its reference fragments. -/
  buildContext : Text → List ContextFragment → Except ContextBuildError BuiltContext
  /-- `SYNORA_RUNTIME_TOKEN`, empty when it is not set. -/
  token : Text

/-- What is ready once the context is built. -/
structure Prepared where
  facts : Facts
  selectedHits : List SearchHit
  context : BuiltContext

/-- The context of an answer, or the reason it has none. -/
def prepare (I : Interpreter) (S : Surroundings) (request : QuestionRequest)
    (context : CurrentDocumentContext) (hits : List SearchHit) : Except SafeReason Prepared :=
  match currentContextToFragment I request context, digestFacts I context.facts,
    validSelectedHits I hits with
  | some fragment, some facts, some selected =>
      match searchHitsToContextFragments I selected with
      | none => .error .context
      | some fragments =>
          match S.buildContext request.question (fragment :: fragments) with
          | .ok built => .ok ⟨facts, selected, built⟩
          | .error .budget => .error .budget
          | .error .other => .error .context
  | _, _, _ => .error .context

/-- An output whose citations are bound and whose claims are written anew. -/
def groundOutput (I : Interpreter) (S : Surroundings) (request : QuestionRequest)
    (context : CurrentDocumentContext) (prepared : Prepared) (output : ProviderOutput) :
    Option ProviderOutput :=
  (materializeLiveCitations request context prepared.facts output).bind fun materialized =>
    if validateCitationGraph request context prepared.selectedHits prepared.facts materialized then
      normalizeGroundedClaims I S.casefold context prepared.facts request.question materialized
    else none

/-- The answer to an output. -/
def answerOutput (I : Interpreter) (S : Surroundings) (request : QuestionRequest)
    (context : CurrentDocumentContext) (prepared : Prepared) (trace : RetrievalTrace)
    (usage : TokenUsage) (output : ProviderOutput) : Option CoachAnswer :=
  if output.answerStatus = .unknown ∨ output.answerStatus = .refused then
    CoachAnswer.ofOutput output trace usage []
  else
    match groundOutput I S request context prepared output with
    | none => failedAnswer .unknown .citation trace usage
    | some normalized =>
        match validatedClaims I normalized request context S.token with
        | none => failedAnswer .unknown .citation trace usage
        | some packages => CoachAnswer.ofOutput normalized trace usage packages

/-- `answer_coach`; `none` is an error that is not caught. -/
def answerCoach (I : Interpreter) (S : Surroundings) (request : QuestionRequest)
    (context : CurrentDocumentContext) (hits : List SearchHit) (provider : Provider) :
    Option CoachAnswer :=
  match prepare I S request context hits with
  | .error reason => failedAnswer .unknown reason {} {}
  | .ok prepared =>
      let trace := traceOf prepared.selectedHits prepared.facts prepared.context.fragmentIds
      if trace.valid then
        match consume I provider.failover
          (requiresUnavailableQuantity S.casefold request.question) prepared.context.inputBudget {}
          provider.events with
        | .failed status reason usage => failedAnswer status reason trace usage
        | .parsed output usage => answerOutput I S request context prepared trace usage output
      else none

end Coach
