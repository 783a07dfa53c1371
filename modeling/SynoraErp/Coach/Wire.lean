import SynoraErp.Coach.Grounding
import SynoraErp.Coach.Readable

/-!
# What crosses the boundary

The checks a current document has passed before the Coach is asked about it, what the models of
an answer dump, and when an answer is taken over by the authority as it is.
-/

namespace Coach

open Python Governance

/-! ## The current document -/

/-- `[0-9]`. -/
def isDecimalDigit (c : CodePoint) : Bool := (asciiDigit? c).isSome

/-- `(?:\.[0-9]+)?`. -/
def isFraction : Text → Bool
  | [] => true
  | c :: digits => decide (c = codePoint '.') && !digits.isEmpty && digits.all isDecimalDigit

/-- `_QUANTITY_PATTERN`: no zero stands ahead of another digit. -/
def isQuantity (t : Text) : Bool :=
  let integer := t.takeWhile isDecimalDigit
  !integer.isEmpty && decide (integer.head? = some (codePoint '0') → integer.length = 1) &&
    isFraction (t.dropWhile isDecimalDigit)

/-- An optional quantity. -/
def isOptionalQuantity (t : Option Text) : Bool :=
  t.elim true fun t => isString 0 80 t && isQuantity t

/-- The checks of `_CurrentFact`. -/
def CommonFact.valid (fact : CommonFact) : Bool :=
  isName fact.company && decide (fact.docstatus ≤ 2) && isName fact.status &&
    isName fact.transactionDate && isOptionalName fact.itemCode && isOptionalName fact.warehouse &&
    isOptionalName fact.stockUom && isOptionalName fact.scheduleDate

namespace CurrentFact

def common : CurrentFact → CommonFact
  | materialRequest common .. => common
  | purchaseOrder common .. => common

/-- The document a fact is of. -/
def document : CurrentFact → DocumentRef
  | materialRequest _ name .. => ⟨.materialRequest, name⟩
  | purchaseOrder _ name .. => ⟨.purchaseOrder, name⟩

/-- The checks of the two models of a fact. -/
def valid : CurrentFact → Bool
  | materialRequest common name type requested ordered open_ =>
      common.valid && isName name && isName type && isOptionalQuantity requested &&
        isOptionalQuantity ordered && isOptionalQuantity open_
  | purchaseOrder common name supplier currency ordered received open_ =>
      common.valid && isName name && isName supplier && isName currency &&
        isOptionalQuantity ordered && isOptionalQuantity received && isOptionalQuantity open_

end CurrentFact

/-- `validate_scope_and_fact_identity`. -/
def CurrentDocumentContext.holds (context : CurrentDocumentContext) (fact : CurrentFact) : Bool :=
  decide (fact.document = context.currentDocument ∧ fact.common.company = context.authorizedCompany) &&
    (context.authorizedWarehouse.isNone || fact.common.warehouse.isNone ||
      decide (fact.common.warehouse = context.authorizedWarehouse))

/-- The checks of `CoachCurrentDocumentContext`. -/
def CurrentDocumentContext.valid (context : CurrentDocumentContext) : Bool :=
  isCanonicalUuid context.runId &&
    decide (1 ≤ context.stateVersion ∧ context.stateVersion ≤ 1000000) &&
    isName context.currentDocument.name && isName context.authorizedCompany &&
    isOptionalName context.authorizedWarehouse &&
    decide (context.coverage = Text.ofString
      (if context.authorizedWarehouse.isSome then "WAREHOUSE_SCOPED" else "FULL_DOCUMENT")) &&
    isName context.capturedAt && isOptionalName context.sourceModifiedAt &&
    isOptionalName context.frappeRevision && isOptionalName context.erpnextRevision &&
    decide (context.facts.length ≤ 50) && context.facts.all CurrentFact.valid &&
    context.facts.all context.holds

/-! ## What an answer dumps -/

def RetrievalTrace.object (trace : RetrievalTrace) : Value :=
  .dict [("selected_chunk_ids", .list (trace.selectedChunkIds.map .str)),
    ("selected_content_digests", .list (trace.selectedContentDigests.map .str)),
    ("selected_revisions", .list (trace.selectedRevisions.map .str)),
    ("live_fact_digests", .list (trace.liveFactDigests.map .str)), ("provider_tools", .list []),
    ("context_fragment_ids", .list (trace.contextFragmentIds.map .str))]

def TokenUsage.object (usage : TokenUsage) : Value :=
  .dict [("prompt_tokens", .int usage.promptTokens),
    ("completion_tokens", .int usage.completionTokens),
    ("reasoning_tokens", .int usage.reasoningTokens)]

def ValidatedClaim.object (package : ValidatedClaim) : Value :=
  .dict [("schema_version", .ofString "1"), ("run_id", .str package.runId),
    ("correlation_id", .str package.correlationId), ("claim_id", .str package.claimId),
    ("ordinal", .int package.ordinal), ("claim_type", .str package.claimType.text),
    ("claim_text", .str package.claimText), ("claim_digest", .str package.claimDigest),
    ("citation_provenance", provenance package.citations),
    ("citation_digest", .str package.citationDigest),
    ("source_revision", .str package.sourceRevision),
    ("source_snapshot", .str package.sourceSnapshot), ("signature", .str package.signature)]

/-- The JSON of an answer that took so long. -/
def CoachAnswer.object (latencyMs : ℤ) (answer : CoachAnswer) : Value :=
  .dict [("schema_version", .ofString "1"), ("answer_status", .str answer.answerStatus.text),
    ("answer", .str answer.answer), ("claims", .list (answer.claims.map Claim.object)),
    ("citations", .list (answer.citations.map Citation.object)),
    ("refusal_reason", optionalText answer.refusalReason),
    ("retrieval_trace", answer.retrievalTrace.object), ("token_usage", answer.tokenUsage.object),
    ("latency_ms", .int latencyMs),
    ("validated_claims", .list (answer.validatedClaims.map ValidatedClaim.object))]

/-! ## What is taken over -/

/-- The authority asked the question, for the document in the scope it is answered in. -/
structure Asked (request : QuestionRequest) (context : CurrentDocumentContext)
    (expected : Authority.Expected) : Prop where
  run : expected.run.text = request.runId
  correlation : expected.correlation.text = request.correlationId
  document : expected.document = request.currentDocument
  company : expected.company = context.authorizedCompany
  warehouse : expected.warehouse = context.authorizedWarehouse

/-- The authority accepts an answer and each of its packages, and shows the same. -/
structure TakenOver (I : Interpreter) (setting : Text) (expected : Authority.Expected)
    (latencyMs : ℤ) (answer : CoachAnswer) : Prop where
  accepted : ∃ a, Authority.validateCoachAnswer I expected (answer.object latencyMs) = some a ∧
    a.answerStatus = answer.answerStatus ∧ a.answer = answer.answer ∧ a.claims = answer.claims ∧
    a.citations = answer.citations
  signed : ∀ package ∈ answer.validatedClaims,
    (Authority.validatedPackage I setting package.object).isSome

/-- A text the authority reads: at most 140 characters, and not blank. -/
def isLegible (t : Text) : Prop := Text.isBlank t = false ∧ t.length ≤ 140

/-- What a retrieval citation tells of its hit. -/
structure RetrievalCitation.Legible (c : RetrievalCitation) : Prop where
  sourceType : isLegible c.sourceType
  revision : isLegible c.revision
  erpVersion : isLegible c.erpVersion
  permissionScope : isLegible c.permissionScope

/-- The canonical JSON of citations is not too long. -/
def IsCompact (I : Interpreter) (citations : List Citation) : Prop :=
  ∀ json, Json.dumps I (provenance citations) = some json →
    json.length ≤ Authority.maxSourceSnapshotLength

/-- What a displayed answer takes over of the output of a provider. -/
structure Presentable (I : Interpreter) (request : QuestionRequest)
    (context : CurrentDocumentContext) (facts : Facts) (output : ProviderOutput) : Prop where
  citations : ∀ c, Citation.retrieval c ∈ output.citations → c.Legible
  claims : ∀ bound, materializeLiveCitations request context facts output = some bound →
    ∀ claim ∈ output.claims, ∀ citations,
      claim.citationRefs.mapM bound.citation? = some citations → IsCompact I citations

/-- The revisions of the hits are texts the authority reads, and what is displayed of an output that
is grounded, and can be signed, is told of in such texts too. -/
structure Conveyable (I : Interpreter) (S : Surroundings) (request : QuestionRequest)
    (context : CurrentDocumentContext) (provider : Provider) (prepared : Prepared) : Prop where
  revisions : ∀ hit ∈ prepared.selectedHits, isLegible hit.revision
  output : ∀ output usage,
    consume I provider.failover (requiresUnavailableQuantity S.casefold request.question)
      prepared.context.inputBudget {} provider.events = .parsed output usage →
    output.answerStatus.displayable → (groundOutput I S request context prepared output).isSome →
      Encodes (Text.strip S.token) → Presentable I request context prepared.facts output

/-- `^[a-z0-9][a-z0-9_.:-]{0,119}$`, the ids of the fragments of a context. -/
def isFragmentId (t : Text) : Bool := isId t && decide (t.map Text.asciiLower = t)

end Coach
