import SynoraErp.Coach.Contracts
import SynoraErp.Python.Equality

/-!
# The provider output

How the text of a provider becomes an output: the JSON with no duplicate key and no
constant, the rewriting of the observed variants, and the strict reading of the contract.
`none` is a `ValueError` or a `TypeError`.
-/

namespace Coach

open Python Governance

/-- `_reject_duplicate_pairs` and `_reject_json_constant`. -/
def jsonHooks : Json.Hooks where
  pairs entries := if (Dict.keys entries).Nodup then some entries else none
  constant _ := none

/-! ## Compatibility -/

/-- What a loop over a value runs through. -/
def iterate : Value → Option (List Value)
  | .list xs => some xs
  | .str t => some (t.map fun c => .str [c])
  | .dict d => some (d.map fun entry => .str entry.1)
  | _ => none

/-- The strings of a list. -/
def strings (xs : List Value) : List Text :=
  xs.filterMap fun
    | .str t => some t
    | _ => none

/-- `list(d)` of an object. -/
def keyList (d : Dict) : List Value := d.map fun entry => .str entry.1

/-- `d.setdefault(key, value)`. -/
def setDefault (d : Dict) (key : String) (value : Value) : Dict :=
  if Text.ofString key ∈ Dict.keys d then d else d ++ [(Text.ofString key, value)]

/-- `selector_by_citation` and `selector_conflicts`. -/
structure Selectors where
  byCitation : List (Text × List Value) := []
  conflicts : List Text := []

/-- A claim that refers to a citation selects fields of it. -/
def Selectors.select (s : Selectors) (fields : List Value) (reference : Text) : Selectors :=
  match s.byCitation.lookup reference with
  | none => { s with byCitation := s.byCitation ++ [(reference, fields)] }
  | some previous =>
      if (Value.list previous).normal = (Value.list fields).normal then s
      else { s with conflicts := s.conflicts ++ [reference] }

/-- `raw_fields`. -/
def rawFields (raw : Dict) : Option (List Value) :=
  match item raw "fact_fields", item raw "claim" with
  | .none, .dict d => some (keyList d)
  | .dict d, _ => some (keyList d)
  | .list xs, _ => some xs
  | _, _ => none

def isErpFact : Value → Bool
  | .dict raw => item raw "claim_type" = .ofString "ERP_FACT"
  | _ => false

/-- An `ERP_FACT` claim with its known fields and its defaults. -/
def rewriteClaim (ordinal : ℕ) (raw : Dict) : Dict :=
  let claim := ["claim_id", "ordinal", "claim_type", "text", "citation_refs"].flatMap
    fun key => Dict.optional (Text.ofString key) (Dict.get? raw key)
  let claim := setDefault claim "claim_id"
    (.str (Text.ofString "claim-" ++ Json.intText ordinal))
  let claim := setDefault claim "ordinal" (.int ordinal)
  setDefault claim "text" (.ofString "server-bound ERP fact")

/-- The fields an `ERP_FACT` claim selects of the citations it refers to. -/
def selectFields (raw claim : Dict) (s : Selectors) : Selectors :=
  match rawFields raw, item claim "citation_refs" with
  | some fields, .list references =>
      (strings references).foldl (fun s reference => s.select fields reference) s
  | _, _ => s

/-- The claims, each with its number. -/
def rewriteClaims : ℕ → List Value → Selectors → List Value × Selectors
  | _, [], s => ([], s)
  | ordinal, raw :: raws, s =>
      match raw, isErpFact raw with
      | .dict d, true =>
          let claim := rewriteClaim ordinal d
          let rest := rewriteClaims (ordinal + 1) raws (selectFields d claim s)
          (.dict claim :: rest.1, rest.2)
      | raw, _ =>
          let rest := rewriteClaims (ordinal + 1) raws s
          (raw :: rest.1, rest.2)

/-- A citation of a map of citations by their ids. -/
def mappedCitation (entry : Text × Value) : Option Value :=
  match entry.2 with
  | .dict raw =>
      let embedded := item raw "citation_id"
      if embedded ≠ .none ∧ embedded ≠ .str entry.1 then none
      else some (.dict (Dict.set raw "citation_id" (.str entry.1)))
  | _ => none

/-- A list of citations stays, a map of citations becomes a list. -/
def citationList : Value → Option Value
  | .dict entries => (entries.mapM mappedCitation).map .list
  | v => some v

/-- A live citation without its fields takes those a claim selects; an object of fields
gives its keys. -/
def rewriteCitation (s : Selectors) : Value → Value
  | .dict raw =>
      if item raw "citation_type" = .ofString "LIVE_ERP" then
        let citation := match item raw "citation_id" with
          | .str id =>
              if Text.ofString "fact_fields" ∈ Dict.keys raw then raw
              else Dict.set raw "fact_fields" ((s.byCitation.lookup id).elim .none .list)
          | _ => raw
        match item citation "fact_fields" with
        | .dict fields => .dict (Dict.set citation "fact_fields" (.list (keyList fields)))
        | _ => .dict citation
      else .dict raw
  | v => v

/-- `claim_references`. -/
def claimReferences : List Value → Option (List Text)
  | [] => some []
  | .dict claim :: claims => do
      let references ← iterate ((Dict.get? claim "citation_refs").getD (.list []))
      let rest ← claimReferences claims
      some (strings references ++ rest)
  | _ :: claims => claimReferences claims

/-- The selector of a citation that was left out. -/
def selectorShell (s : Selectors) (reference : Text) : Value :=
  .dict [(Text.ofString "citation_type", .ofString "LIVE_ERP"),
    (Text.ofString "citation_id", .str reference),
    (Text.ofString "fact_fields", (s.byCitation.lookup reference).elim .none .list)]

/-- The citations, or their selectors when a whole answer of ERP facts left them out. -/
def rewriteCitations (claims : Value) (s : Selectors) (raws : List Value) :
    Option (List Value) := do
  let citations := raws.map (rewriteCitation s)
  let claimList := match claims with
    | .list xs => xs
    | _ => []
  let references ← claimReferences claimList
  if citations.isEmpty && !claimList.isEmpty && claimList.all isErpFact && !references.isEmpty &&
      decide (sortedSet references = sortedSet (s.byCitation.map Prod.fst)) &&
      references.all (fun reference => !s.conflicts.contains reference) then
    some ((sortedSet references).map (selectorShell s))
  else some citations

/-- The status, and the reason of an answer that leaves it empty. -/
def rewriteStatus (d : Dict) : Option Dict :=
  let d := if item d "answer_status" = .ofString "SUCCESS"
    then Dict.set d "answer_status" (.ofString "ANSWERED") else d
  if item d "refusal_reason" = .ofString "" then
    match item d "answer_status" with
    | .list _ => none
    | .dict _ => none
    | status =>
        if status = .ofString "ANSWERED" ∨ status = .ofString "CONFLICT" then
          some (Dict.set d "refusal_reason" .none)
        else some d
  else some d

/-- `_normalize_provider_compatibility`. -/
def normalizeProviderCompatibility (value : Dict) : Option Dict := do
  let d ← rewriteStatus value
  let (d, s) := match item d "claims" with
    | .list raws =>
        let claims := rewriteClaims 1 raws {}
        (Dict.set d "claims" (.list claims.1), claims.2)
    | _ => (d, {})
  match ← citationList ((Dict.get? d "citations").getD (.list [])) with
  | .list raws =>
      let citations ← rewriteCitations (item d "claims") s raws
      some (Dict.set d "citations" (.list citations))
  | _ => some d

/-! ## The strict reading -/

def readText : Value → Option Text
  | .str t => some t
  | _ => none

def readOptionalText : Value → Option (Option Text)
  | .none => some none
  | .str t => some (some t)
  | _ => none

def readInt : Value → Option ℤ
  | .int n => some n
  | _ => none

def readList : Value → Option (List Value)
  | .list xs => some xs
  | _ => none

/-- A field that has to be there. -/
def requiredField {α : Type} (d : Dict) (key : String) (read : Value → Option α) : Option α :=
  (Dict.get? d key).bind read

/-- A field that may be left out. -/
def defaultField {α : Type} (d : Dict) (key : String) (value : α) (read : Value → Option α) :
    Option α :=
  (Dict.get? d key).elim (some value) read

/-- `extra="forbid"`. -/
def onlyFields (d : Dict) (fields : List String) : Bool :=
  (Dict.keys d).all fun key => (fields.map Text.ofString).contains key

/-- A literal that is its own default. -/
def isLiteral (d : Dict) (key literal : String) : Bool :=
  (Dict.get? d key).elim true (· = .ofString literal)

/-- A member of an enumeration of texts. -/
def readMember {α : Type} (text : α → Text) (all : List α) (v : Value) : Option α :=
  (readText v).bind fun t => all.find? fun a => text a = t

def readFactFields (v : Value) : Option (List LiveFactField) :=
  (readList v).bind fun xs => xs.mapM (readMember LiveFactField.text LiveFactField.all)

def readLive (d : Dict) : Option Citation := do
  guard (onlyFields d ["citation_type", "citation_id", "run_id", "document_doctype",
    "document_name", "state_version", "captured_at", "source_modified_at", "frappe_revision",
    "erpnext_revision", "fact_fields", "fact_digest"] && isLiteral d "citation_type" "LIVE_ERP")
  let citationId ← requiredField d "citation_id" readText
  let runId ← requiredField d "run_id" readText
  let documentDoctype ← requiredField d "document_doctype"
    (readMember DocumentType.text [.materialRequest, .purchaseOrder])
  let documentName ← requiredField d "document_name" readText
  let stateVersion ← requiredField d "state_version" readInt
  let capturedAt ← requiredField d "captured_at" readText
  let sourceModifiedAt ← defaultField d "source_modified_at" none readOptionalText
  let frappeRevision ← defaultField d "frappe_revision" none readOptionalText
  let erpnextRevision ← defaultField d "erpnext_revision" none readOptionalText
  let factFields ← requiredField d "fact_fields" readFactFields
  let factDigest ← requiredField d "fact_digest" readText
  some (.live ⟨citationId, runId, documentDoctype, documentName, stateVersion, capturedAt,
    sourceModifiedAt, frappeRevision, erpnextRevision, factFields, factDigest⟩)

/-- `CoachProviderLiveCitation`, the one model that ignores what else is there. -/
def readSelector (d : Dict) : Option Citation := do
  guard (isLiteral d "citation_type" "LIVE_ERP")
  let citationId ← requiredField d "citation_id" readText
  let factFields ← requiredField d "fact_fields" readFactFields
  some (.selector citationId factFields)

def readRetrieval (d : Dict) : Option Citation := do
  guard (onlyFields d ["citation_type", "citation_id", "chunk_id", "content_digest", "ordinal",
    "source_type", "revision", "erp_version", "permission_scope"] &&
    isLiteral d "citation_type" "RETRIEVAL")
  let citationId ← requiredField d "citation_id" readText
  let chunkId ← requiredField d "chunk_id" readText
  let contentDigest ← requiredField d "content_digest" readText
  let ordinal ← requiredField d "ordinal" readInt
  let sourceType ← requiredField d "source_type" readText
  let revision ← requiredField d "revision" readText
  let erpVersion ← requiredField d "erp_version" readText
  let permissionScope ← requiredField d "permission_scope" readText
  some (.retrieval ⟨citationId, chunkId, contentDigest, ordinal, sourceType, revision, erpVersion,
    permissionScope⟩)

def readMemory (d : Dict) : Option Citation := do
  guard (onlyFields d ["citation_type", "citation_id", "memory_id", "memory_version",
    "content_digest", "reviewed_at", "reviewer"] && isLiteral d "citation_type" "MEMORY")
  let citationId ← requiredField d "citation_id" readText
  let memoryId ← requiredField d "memory_id" readText
  let memoryVersion ← requiredField d "memory_version" readInt
  let contentDigest ← requiredField d "content_digest" readText
  let reviewedAt ← requiredField d "reviewed_at" readText
  let reviewer ← requiredField d "reviewer" readText
  some (.memory ⟨citationId, memoryId, memoryVersion, contentDigest, reviewedAt, reviewer⟩)

/-- `CoachProviderCitation`. Of two members that accept, the one with more fields set is taken,
and only the live citation and its selector ever accept the same object. -/
def readCitation : Value → Option Citation
  | .dict d => [readLive, readSelector, readRetrieval, readMemory].findSome? fun read =>
      (read d).filter fun citation => citation.valid
  | _ => none

/-- `CoachClaim`. The default of its citations is not checked. -/
def readClaim : Value → Option Claim
  | .dict d => do
      guard (onlyFields d ["claim_id", "ordinal", "claim_type", "text", "citation_refs"])
      let claimId ← requiredField d "claim_id" readText
      let ordinal ← requiredField d "ordinal" readInt
      let claimType ← requiredField d "claim_type" (readMember ClaimType.text ClaimType.all)
      let text ← requiredField d "text" readText
      let citationRefs ← defaultField d "citation_refs" [] fun v => (readList v).bind fun xs =>
        if 1 ≤ xs.length ∧ xs.length ≤ 8 then
          xs.mapM fun x => (readText x).filter fun t => (Text.encodeUtf8 t).isSome
        else none
      let claim : Claim := ⟨claimId, ordinal, claimType, text, citationRefs⟩
      if claim.validFields then some claim else none
  | _ => none

/-- `CoachProviderOutput.model_validate` of a JSON object. -/
def readOutput (d : Dict) : Option ProviderOutput := do
  guard (onlyFields d ["schema_version", "answer_status", "answer", "claims", "citations",
    "refusal_reason"] && isLiteral d "schema_version" "1")
  let answerStatus ← requiredField d "answer_status"
    (readMember AnswerStatus.text AnswerStatus.all)
  let answer ← defaultField d "answer" [] readText
  let claims ← defaultField d "claims" [] fun v => (readList v).bind fun xs => xs.mapM readClaim
  let citations ← defaultField d "citations" [] fun v =>
    (readList v).bind fun xs => xs.mapM readCitation
  let refusalReason ← defaultField d "refusal_reason" none readOptionalText
  ProviderOutput.finish ⟨answerStatus, answer, claims, citations, refusalReason⟩

/-- `parse_coach_provider_output`. -/
def parseCoachProviderOutput (I : Interpreter) (raw : Text) : Option ProviderOutput := do
  let bytes ← Text.encodeUtf8 raw
  if bytes.size > 256000 then none
  else
    match Json.loads I jsonHooks raw with
    | some (.dict value) => do
        let d ← normalizeProviderCompatibility value
        readOutput (if item d "schema_version" = .ofString "1.0"
          then Dict.set d "schema_version" (.ofString "1") else d)
    | _ => none

/-- An output that is read was checked. -/
theorem exists_finish_of_parse {I : Interpreter} {raw : Text} {o : ProviderOutput}
    (h : parseCoachProviderOutput I raw = some o) : ∃ given : ProviderOutput, given.finish = some o := by
  obtain ⟨bytes, -, h⟩ := Option.bind_eq_some_iff.mp h
  split_ifs at h
  split at h
  · obtain ⟨d, -, h⟩ := Option.bind_eq_some_iff.mp h
    generalize (if item d "schema_version" = .ofString "1.0"
      then Dict.set d "schema_version" (.ofString "1") else d) = e at h
    simp only [readOutput, Option.bind_eq_bind, Option.bind_eq_some_iff] at h
    obtain ⟨_, -, _, -, _, -, _, -, _, -, _, -, hfinish⟩ := h
    exact ⟨_, hfinish⟩
  · cases h

/-- A text of ASCII that is read in stages. -/
theorem parse_of_stages {I : Interpreter} {raw : Text} {value d : Dict} {output : ProviderOutput}
    (hascii : raw.all (fun c => c.val < 0x80) = true) (hlength : raw.length ≤ 64000)
    (hloads : Json.loads I jsonHooks raw = some (.dict value))
    (hnormalize : normalizeProviderCompatibility value = some d)
    (hversion : item d "schema_version" ≠ .ofString "1.0") (hread : readOutput d = some output) :
    parseCoachProviderOutput I raw = some output := by
  obtain ⟨bytes, hbytes⟩ := Option.isSome_iff_exists.mp (isSome_encodeUtf8_of_ascii hascii)
  have hsize : ¬bytes.size > 256000 := by
    have hle := size_encodeUtf8_le hbytes
    omega
  simp only [parseCoachProviderOutput, hbytes, hloads, hnormalize, Option.bind_eq_bind,
    Option.bind_some]
  rw [if_neg hsize, if_neg hversion]
  exact hread

end Coach
