import SynoraErp.Coach.Service
import SynoraErp.Gateway.Contract
import SynoraErp.Governance.ProposedAction

/-!
# The authority

How the ERP reads what the Coach answers: the citations, the claims, the signed packages and
the answer as a whole. A check that fails ends the reading, whatever the check, and the
callers turn every failure into one fault, so a reader returns an option.
-/

namespace Coach.Authority

open Python
open Governance (Uuid Digest item strictHooks isDigest)

/-! ## Values -/

/-- `_text`. -/
def text (maximum : ℕ) : Value → Option Text
  | .str t => if Text.isBlank t ∨ maximum < t.length then none else some t
  | _ => none

/-- `_digest`. -/
def digest (value : Value) : Option Text := (text 64 value).filter isDigest

/-- `_identifier`. -/
def identifier (value : Value) : Option Text := (text 120 value).filter isId

/-- `_optional_metadata`. -/
def optionalMetadata : Value → Option (Option Text)
  | .none => some none
  | value => (text 140 value).map some

/-- `_bounded_int`. -/
def boundedInt (minimum maximum : ℤ) : Value → Option ℤ
  | .int n => if minimum ≤ n ∧ n ≤ maximum then some n else none
  | _ => none

/-- `canonical_uuid`, whatever its label. -/
def canonicalUuid (value : Value) : Option Uuid := (Gateway.canonicalUuid value "").toOption

/-- A text that `canonical_uuid` accepts, as it is. -/
def uuidText : Value → Option Text
  | .str t => (canonicalUuid (.str t)).map fun _ => t
  | _ => none

/-- A list of at most so many items. -/
def listOf {α : Type} (read : Value → Option α) (maximum : ℕ) : Value → Option (List α)
  | .list values => if maximum < values.length then none else values.mapM read
  | _ => none

/-- `_strict_mapping`. -/
def strictMapping (fields : List String) : Value → Option Dict
  | .dict d =>
      if (∀ key ∈ Dict.keys d, key ∈ fields.map Text.ofString) ∧
          ∀ key ∈ fields, Text.ofString key ∈ Dict.keys d then some d
      else none
  | _ => none

/-- `_canonical_payload`. -/
def canonicalPayload (I : Interpreter) (maximum : ℕ) (value : Value) : Option Text :=
  (Json.dumps I value).filter fun payload => payload.length ≤ maximum

/-- `MAX_CLAIM_LENGTH`. -/
def maxClaimLength : ℕ := 4000

/-- `MAX_SOURCE_SNAPSHOT_LENGTH`. -/
def maxSourceSnapshotLength : ℕ := 16000

/-! ## Citations -/

def documentType : Value → Option DocumentType
  | .str t => [.materialRequest, .purchaseOrder].find? fun doctype => doctype.text = t
  | _ => none

/-- `_LIVE_FACT_FIELDS`. -/
def liveFactFields : DocumentType → List LiveFactField
  | .materialRequest => [.company, .docstatus, .status, .transactionDate, .itemCode, .warehouse,
      .stockUom, .scheduleDate, .materialRequest, .materialRequestType, .requestedStockQty,
      .orderedStockQty, .openOrderStockQty]
  | .purchaseOrder => [.company, .docstatus, .status, .transactionDate, .itemCode, .warehouse,
      .stockUom, .scheduleDate, .purchaseOrder, .supplier, .currency, .orderedStockQty,
      .receivedStockQty, .openReceiptStockQty]

def factField (doctype : DocumentType) : Value → Option LiveFactField
  | .str t => (liveFactFields doctype).find? fun field => field.text = t
  | _ => none

/-- `fact_fields`: at least one field of the document, and none twice. -/
def factFields (doctype : DocumentType) (value : Value) : Option (List LiveFactField) :=
  (listOf (factField doctype) 16 value).filter fun fields => fields ≠ [] ∧ fields.Nodup

def liveCitationFields : List String :=
  ["citation_type", "citation_id", "run_id", "document_doctype", "document_name", "state_version",
    "captured_at", "source_modified_at", "frappe_revision", "erpnext_revision", "fact_fields",
    "fact_digest"]

/-- The citation a checked mapping of a live citation stands for. -/
def liveCitation (citation : Dict) : Option LiveCitation := do
  let citationId ← identifier (item citation "citation_id")
  let runId ← uuidText (item citation "run_id")
  let documentDoctype ← documentType (item citation "document_doctype")
  let documentName ← text 140 (item citation "document_name")
  let stateVersion ← boundedInt 1 1000000 (item citation "state_version")
  let capturedAt ← text 140 (item citation "captured_at")
  let sourceModifiedAt ← optionalMetadata (item citation "source_modified_at")
  let frappeRevision ← optionalMetadata (item citation "frappe_revision")
  let erpnextRevision ← optionalMetadata (item citation "erpnext_revision")
  let factFields ← factFields documentDoctype (item citation "fact_fields")
  let factDigest ← digest (item citation "fact_digest")
  some
    { citationId, runId, documentDoctype, documentName, stateVersion, capturedAt,
      sourceModifiedAt, frappeRevision, erpnextRevision, factFields, factDigest }

def retrievalCitationFields : List String :=
  ["citation_type", "citation_id", "chunk_id", "content_digest", "ordinal", "source_type",
    "revision", "erp_version", "permission_scope"]

/-- The citation a checked mapping of a retrieval citation stands for. -/
def retrievalCitation (citation : Dict) : Option RetrievalCitation := do
  let citationId ← identifier (item citation "citation_id")
  let chunkId ← digest (item citation "chunk_id")
  let contentDigest ← digest (item citation "content_digest")
  let ordinal ← boundedInt 1 1000000 (item citation "ordinal")
  let sourceType ← text 140 (item citation "source_type")
  let revision ← text 140 (item citation "revision")
  let erpVersion ← text 140 (item citation "erp_version")
  let permissionScope ← text 140 (item citation "permission_scope")
  some
    { citationId, chunkId, contentDigest, ordinal, sourceType, revision, erpVersion,
      permissionScope }

/-- `_validate_citation`. -/
def validateCitation (value : Value) : Option Citation :=
  match value with
  | .dict d =>
      if item d "citation_type" = .ofString "LIVE_ERP" then
        ((strictMapping liveCitationFields value).bind liveCitation).map .live
      else if item d "citation_type" = .ofString "RETRIEVAL" then
        ((strictMapping retrievalCitationFields value).bind retrievalCitation).map .retrieval
      else none
  | _ => none

/-! ## The source snapshot -/

/-- The document and the scope an answer was written for. -/
structure Snapshot where
  document : DocumentRef
  company : Text
  warehouse : Option Text
  stateVersion : ℤ
  capturedAt : Text
  sourceModifiedAt : Option Text
  frappeRevision : Option Text
  erpnextRevision : Option Text

/-- `_SNAPSHOT_FIELDS`. -/
def snapshotFields : List String :=
  ["run_id", "document", "scope", "state_version", "captured_at", "source_modified_at",
    "frappe_revision", "erpnext_revision"]

/-- The snapshot a checked mapping stands for. -/
def readSnapshot (runId : Uuid) (snapshot : Dict) : Option Snapshot := do
  let run ← canonicalUuid (item snapshot "run_id")
  guard (run = runId)
  let document ← strictMapping ["doctype", "name"] (item snapshot "document")
  let doctype ← documentType (item document "doctype")
  let name ← text 140 (item document "name")
  let scope ← strictMapping ["company", "warehouse", "coverage"] (item snapshot "scope")
  let company ← text 140 (item scope "company")
  let warehouse ← optionalMetadata (item scope "warehouse")
  guard (item scope "coverage" =
    .ofString (if warehouse.isSome then "WAREHOUSE_SCOPED" else "FULL_DOCUMENT"))
  let stateVersion ← boundedInt 1 1000000 (item snapshot "state_version")
  let capturedAt ← text 140 (item snapshot "captured_at")
  let sourceModifiedAt ← optionalMetadata (item snapshot "source_modified_at")
  let frappeRevision ← optionalMetadata (item snapshot "frappe_revision")
  let erpnextRevision ← optionalMetadata (item snapshot "erpnext_revision")
  some
    { document := ⟨doctype, name⟩
      company, warehouse, stateVersion, capturedAt, sourceModifiedAt, frappeRevision,
      erpnextRevision }

/-- Whether a revision is one of the snapshot, or names its digest when it has none. -/
def revisionFits (snapshot : Snapshot) (snapshotJson sourceRevision : Text) : Bool :=
  if (snapshot.frappeRevision.or snapshot.erpnextRevision).isSome then
    decide (snapshot.frappeRevision = some sourceRevision ∨
      snapshot.erpnextRevision = some sourceRevision)
  else
    (sha256Text snapshotJson).any fun digest =>
      decide (sourceRevision = Text.ofString "snapshot-" ++ digest)

/-- `_validate_source_snapshot` of a text that is not too long. -/
def validateSourceSnapshot (I : Interpreter) (snapshotJson : Text) (runId : Uuid)
    (sourceRevision : Text) : Option Snapshot := do
  let parsed ← Json.loads I strictHooks snapshotJson
  let snapshot ← strictMapping snapshotFields parsed
  guard (Json.dumps I parsed = some snapshotJson)
  let snapshot ← readSnapshot runId snapshot
  guard (revisionFits snapshot snapshotJson sourceRevision)
  some snapshot

/-! ## Packages -/

/-- `_CLAIM_TYPES` and `_COACH_SIGNABLE_TYPES`. -/
def claimType : Value → Option ClaimType
  | .str t => [.erpFact, .retrievedKnowledge, .recommendation].find? fun type => type.text = t
  | _ => none

/-- Whether a claim of a type may cite a citation. -/
def citesProperly (type : ClaimType) (citation : Citation) : Bool :=
  (type != .erpFact || citation.citationType == Text.ofString "LIVE_ERP") &&
    (type != .retrievedKnowledge || citation.citationType == Text.ofString "RETRIEVAL")

/-- `_PACKAGE_FIELDS`. -/
def packageFields : List String :=
  ["schema_version", "run_id", "correlation_id", "claim_id", "ordinal", "claim_type", "claim_text",
    "claim_digest", "citation_provenance", "citation_digest", "source_revision", "source_snapshot",
    "signature"]

/-- A package with what its texts stand for. -/
structure ReadPackage where
  package : ValidatedClaim
  runId : Uuid
  correlationId : Uuid
  snapshot : Snapshot

/-- The citations of a package: one to eight, of different ids. -/
def packageCitations (type : ClaimType) (value : Value) : Option (List Citation) := do
  let provenance ← strictMapping ["citations"] value
  let citations ← listOf validateCitation 8 (item provenance "citations")
  guard (citations ≠ [] ∧ (citations.map Citation.citationId).Nodup ∧
    citations.all (citesProperly type))
  some citations

/-- The package a checked mapping stands for, its texts as they are. -/
def packageOf (package : Dict) : Option ValidatedClaim := do
  guard (item package "schema_version" = .ofString "1")
  let runId ← uuidText (item package "run_id")
  let correlationId ← uuidText (item package "correlation_id")
  let claimId ← identifier (item package "claim_id")
  let ordinal ← boundedInt 1 32 (item package "ordinal")
  let claimType ← claimType (item package "claim_type")
  let claimText ← text maxClaimLength (item package "claim_text")
  let claimDigest ← digest (item package "claim_digest")
  let citations ← packageCitations claimType (item package "citation_provenance")
  let citationDigest ← digest (item package "citation_digest")
  let sourceRevision ← text 140 (item package "source_revision")
  let sourceSnapshot ← text maxSourceSnapshotLength (item package "source_snapshot")
  let signature ← digest (item package "signature")
  some
    { runId, correlationId, claimId, ordinal, claimType, claimText, claimDigest, citations,
      citationDigest, sourceRevision, sourceSnapshot, signature }

/-- What `_validated_package` and `_coach_output_package` read alike. -/
def readPackage (I : Interpreter) (value : Value) : Option ReadPackage := do
  let package ← (strictMapping packageFields value).bind packageOf
  let runId ← canonicalUuid (.str package.runId)
  let correlationId ← canonicalUuid (.str package.correlationId)
  guard (sha256Text package.claimText = some package.claimDigest)
  let provenanceJson ← canonicalPayload I maxSourceSnapshotLength (provenance package.citations)
  guard (sha256Text provenanceJson = some package.citationDigest)
  let snapshot ← validateSourceSnapshot I package.sourceSnapshot runId package.sourceRevision
  some { package, runId, correlationId, snapshot }

/-- `_claim_signing_key` and `_claim_signature`. -/
def claimSignature (I : Interpreter) (payload : Value) (token : Text) : Option Text := do
  let canonical ← (Json.dumps I payload).bind Text.encodeUtf8
  let key ← (Text.encodeUtf8 token).map fun token =>
    Hmac.digest token "synora-coach-claim-v1".toUTF8
  some (Hmac.hexdigest key canonical)

/-- `_validated_package`, with the `SYNORA_RUNTIME_TOKEN` of the environment. -/
def validatedPackage (I : Interpreter) (setting : Text) (value : Value) : Option ReadPackage := do
  let read ← readPackage I value
  guard (Text.strip setting ≠ [])
  guard (claimSignature I read.package.payload (Text.strip setting) = some read.package.signature)
  some read

/-- What a request expects of the packages of its answer. -/
structure Expected where
  run : Uuid
  correlation : Uuid
  document : DocumentRef
  company : Text
  warehouse : Option Text

/-- `_coach_output_package`: the ids of the package are made canonical. -/
def coachOutputPackage (I : Interpreter) (expected : Expected) (value : Value) :
    Option ValidatedClaim := do
  let read ← readPackage I value
  guard (read.runId = expected.run ∧ read.correlationId = expected.correlation)
  guard (read.snapshot.document = expected.document ∧ read.snapshot.company = expected.company ∧
    read.snapshot.warehouse = expected.warehouse)
  some { read.package with runId := read.runId.text, correlationId := read.correlationId.text }

/-! ## The answer -/

/-- `_COACH_CLAIM_FIELDS`. -/
def claimFields : List String := ["claim_id", "ordinal", "claim_type", "text", "citation_refs"]

/-- The claim a checked mapping stands for. -/
def outputClaim (claim : Dict) : Option Claim := do
  let claimType ← claimType (item claim "claim_type")
  let citationRefs ← listOf identifier 8 (item claim "citation_refs")
  guard (citationRefs ≠ [] ∧ citationRefs.Nodup)
  let claimId ← identifier (item claim "claim_id")
  let ordinal ← boundedInt 1 32 (item claim "ordinal")
  let text ← text maxClaimLength (item claim "text")
  some { claimId, ordinal, claimType, text, citationRefs }

/-- `_coach_output_claim`. -/
def coachOutputClaim (value : Value) : Option Claim :=
  (strictMapping claimFields value).bind outputClaim

/-- `_COACH_TRACE_FIELDS`. -/
def traceFields : List String :=
  ["selected_chunk_ids", "selected_content_digests", "selected_revisions", "live_fact_digests",
    "provider_tools", "context_fragment_ids"]

/-- The trace a checked mapping stands for; no tool of a provider is allowed. -/
def outputTrace (trace : Dict) : Option RetrievalTrace := do
  let selectedChunkIds ← listOf digest 5 (item trace "selected_chunk_ids")
  let selectedContentDigests ← listOf digest 5 (item trace "selected_content_digests")
  let selectedRevisions ← listOf (text 140) 5 (item trace "selected_revisions")
  let liveFactDigests ← listOf digest 50 (item trace "live_fact_digests")
  let _ ← listOf (text 140) 0 (item trace "provider_tools")
  let contextFragmentIds ← listOf (text 140) 64 (item trace "context_fragment_ids")
  some
    { selectedChunkIds, selectedContentDigests, selectedRevisions, liveFactDigests,
      contextFragmentIds }

/-- `_coach_output_trace`. -/
def coachOutputTrace (value : Value) : Option RetrievalTrace :=
  (strictMapping traceFields value).bind outputTrace

/-- `_COACH_USAGE_FIELDS`. -/
def usageFields : List String := ["prompt_tokens", "completion_tokens", "reasoning_tokens"]

def outputUsage (usage : Dict) : Option TokenUsage := do
  let promptTokens ← boundedInt 0 10000000 (item usage "prompt_tokens")
  let completionTokens ← boundedInt 0 10000000 (item usage "completion_tokens")
  let reasoningTokens ← boundedInt 0 10000000 (item usage "reasoning_tokens")
  some { promptTokens, completionTokens, reasoningTokens }

/-- `_coach_output_usage`. -/
def coachOutputUsage (value : Value) : Option TokenUsage :=
  (strictMapping usageFields value).bind outputUsage

/-- `_COACH_STATUSES`. -/
def answerStatus : Value → Option AnswerStatus
  | .str t => AnswerStatus.all.find? fun status => status.text = t
  | _ => none

/-- Whether a status goes without an answer. -/
def declines : AnswerStatus → Bool
  | .unknown => true
  | .refused => true
  | _ => false

/-- The ids of the citations differ, every reference is to a citation the claim may cite, and no
citation is an orphan. -/
def graphFits (claims : List Claim) (citations : List Citation) : Bool :=
  decide (citations.map Citation.citationId).Nodup &&
    (claims.all fun claim => claim.citationRefs.all fun id =>
      (citations.find? fun citation => citation.citationId = id).any
        (citesProperly claim.claimType)) &&
    citations.all fun citation => claims.any fun claim =>
      claim.citationRefs.contains citation.citationId

/-- `list(range(1, n + 1))`. -/
def ordinals (n : ℕ) : List ℤ := (List.range n).map fun i : ℕ => (i : ℤ) + 1

/-- The texts of the claims, a line each. -/
def joinTexts (claims : List Claim) : Text :=
  (Text.ofString "\n").intercalate (claims.map Claim.text)

/-- Two citations of the same canonical form. -/
def sameCitation (I : Interpreter) (c d : Citation) : Bool :=
  (canonicalPayload I maxSourceSnapshotLength c.object).any fun payload =>
    decide (canonicalPayload I maxSourceSnapshotLength d.object = some payload)

/-- Whether a package is the one of a displayed claim. -/
def packageFits (I : Interpreter) (citations : List Citation) (claim : Claim)
    (package : ValidatedClaim) : Bool :=
  decide (package.ordinal = claim.ordinal ∧ package.claimType = claim.claimType ∧
      package.claimText = claim.text ∧
      package.citations.map Citation.citationId = claim.citationRefs) &&
    package.citations.all fun cited =>
      (citations.find? fun citation => citation.citationId = cited.citationId).any
        (sameCitation I cited)

/-- Every displayed claim has one package, in the order of the claims. -/
def packagesFit (I : Interpreter) (claims : List Claim) (citations : List Citation)
    (packages : List ValidatedClaim) : Bool :=
  decide (packages.length = claims.length) &&
    (packages.all fun package => (claims.map Claim.claimId).contains package.claimId) &&
    (claims.all fun claim =>
      (packages.find? fun package => package.claimId = claim.claimId).any
        (packageFits I citations claim)) &&
    decide (packages.map ValidatedClaim.ordinal = ordinals packages.length)

/-- `_COACH_SAFE_REFUSAL_REASONS`. -/
def safeRefusalReason : AnswerStatus → Option Text
  | .unknown => some (Text.ofString "Coach could not produce a grounded answer")
  | .refused => some (Text.ofString "Coach declined to answer")
  | _ => none

/-- What is left of an answer once it is checked. -/
structure ValidatedAnswer where
  answerStatus : AnswerStatus
  answer : Text
  refusalReason : Option Text
  claims : List Claim
  citations : List Citation
  retrievalTrace : RetrievalTrace
  tokenUsage : TokenUsage
  latencyMs : ℤ
  validatedClaims : List ValidatedClaim

/-- `_COACH_ANSWER_FIELDS`. -/
def answerFields : List String :=
  ["schema_version", "answer_status", "answer", "claims", "citations", "refusal_reason",
    "retrieval_trace", "token_usage", "latency_ms", "validated_claims"]

/-- `answer`: at most 8000 characters, blank or not. -/
def answerText : Value → Option Text
  | .str t => if 8000 < t.length then none else some t
  | _ => none

/-- `refusal_reason`. -/
def refusalReason : Value → Option (Option Text)
  | .none => some none
  | value => (text 500 value).map some

/-- What an answer of a status has to hold. -/
def statusFits (I : Interpreter) (status : AnswerStatus) (answer : Text) (claims : List Claim)
    (citations : List Citation) (packages : List ValidatedClaim) (reason : Option Text) : Bool :=
  if declines status then
    Text.isBlank answer && claims.isEmpty && citations.isEmpty && packages.isEmpty && reason.isSome
  else
    !Text.isBlank answer && !claims.isEmpty && !citations.isEmpty && reason.isNone &&
      decide (answer = joinTexts claims) && packagesFit I claims citations packages

/-- `_validate_coach_answer`; `none` is the fault of an invalid answer. -/
def validateCoachAnswer (I : Interpreter) (expected : Expected) (value : Value) :
    Option ValidatedAnswer := do
  let body ← strictMapping answerFields value
  guard (item body "schema_version" = .ofString "1")
  let status ← answerStatus (item body "answer_status")
  let answer ← answerText (item body "answer")
  let reason ← refusalReason (item body "refusal_reason")
  let claims ← listOf coachOutputClaim 32 (item body "claims")
  let citations ← listOf validateCitation 64 (item body "citations")
  guard ((claims.map Claim.claimId).Nodup ∧
    claims.map Claim.ordinal = ordinals claims.length)
  guard (graphFits claims citations)
  let packages ← listOf (coachOutputPackage I expected) 32 (item body "validated_claims")
  guard (packages.map ValidatedClaim.claimId).Nodup
  guard (statusFits I status answer claims citations packages reason)
  let retrievalTrace ← coachOutputTrace (item body "retrieval_trace")
  let tokenUsage ← coachOutputUsage (item body "token_usage")
  let latencyMs ← boundedInt 0 86400000 (item body "latency_ms")
  some
    { answerStatus := status
      answer
      refusalReason := reason.bind fun _ => safeRefusalReason status
      claims, citations, retrievalTrace, tokenUsage, latencyMs
      validatedClaims := packages }

end Coach.Authority
