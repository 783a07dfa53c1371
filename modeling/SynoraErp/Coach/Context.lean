import SynoraErp.Coach.Contracts

/-!
# The context of the Coach

The fragments the provider is shown: the current document with its facts, and the
retrieval hits whose content hashes to its digest.
-/

namespace Coach

open Python Governance

/-- What a builder of the context reads of a `ContextFragment`. -/
structure ContextFragment where
  fragmentId : Text
  source : Text
  version : Text
  content : Text

/-- `ContextFragment.from_content`. The ids and the sources of this module fit their patterns. -/
def ContextFragment.fromContent (fragmentId source version content : Text) :
    Option ContextFragment :=
  if isString 1 40 version && isString 1 16000 content then
    some ⟨fragmentId, source, version, content⟩
  else none

/-! ## The current document -/

/-- `current_fact_digest` of each of the facts, beside the fact. -/
def digestFacts (I : Interpreter) (facts : List CurrentFact) : Option (List (Text × CurrentFact)) :=
  facts.mapM fun fact => (currentFactDigest I fact).map fun digest => (digest, fact)

def DocumentRef.object (document : DocumentRef) : Value :=
  .dict [("doctype", .str document.doctype.text), ("name", .str document.name)]

def CurrentDocumentContext.scope (context : CurrentDocumentContext) : Value :=
  .dict [("company", .str context.authorizedCompany),
    ("warehouse", optionalText context.authorizedWarehouse), ("coverage", .str context.coverage)]

/-- What a snapshot says of itself. -/
def CurrentDocumentContext.metadata (context : CurrentDocumentContext) : Dict :=
  [("run_id", .str context.runId), ("document", context.currentDocument.object),
    ("scope", context.scope), ("state_version", .int context.stateVersion),
    ("captured_at", .str context.capturedAt),
    ("source_modified_at", optionalText context.sourceModifiedAt),
    ("frappe_revision", optionalText context.frappeRevision),
    ("erpnext_revision", optionalText context.erpnextRevision)]

def DocumentType.slug : DocumentType → Text
  | .materialRequest => "material-request"
  | .purchaseOrder => "purchase-order"

/-- What the provider is shown of a snapshot. -/
def CurrentDocumentContext.payload (context : CurrentDocumentContext)
    (facts : List (Text × CurrentFact)) : Value :=
  .dict ([(Text.ofString "evidence_type", .ofString "LIVE_ERP")] ++ context.metadata ++
    [(Text.ofString "facts", .list (facts.map fun fact =>
      .dict [("fact_digest", .str fact.1), ("fact", fact.2.object)]))])

/-- `current_context_to_fragment`. -/
def currentContextToFragment (I : Interpreter) (request : QuestionRequest)
    (context : CurrentDocumentContext) : Option ContextFragment := do
  guard (request.runId = context.runId ∧ request.currentDocument = context.currentDocument)
  let facts ← digestFacts I context.facts
  let content ← Json.dumps I (context.payload facts)
  let digest ← sha256Text content
  let slug := context.currentDocument.doctype.slug
  ContextFragment.fromContent
    (Text.ofString "erp.current:" ++ slug ++ Text.ofString ":" ++ digest.take 16)
    (Text.ofString "erp:current:" ++ slug)
    (Text.ofString "state-" ++ Json.intText context.stateVersion) content

/-- A snapshot of the document the question is about has a fragment when its text fits in one. -/
theorem isSome_currentContextToFragment {I : Interpreter} {request : QuestionRequest}
    {context : CurrentDocumentContext} {facts : List (Text × CurrentFact)} {content : Text}
    (hrun : request.runId = context.runId)
    (hdocument : request.currentDocument = context.currentDocument)
    (hfacts : digestFacts I context.facts = some facts)
    (hcontent : Json.dumps I (context.payload facts) = some content)
    (hversion : isString 1 40 (Text.ofString "state-" ++ Json.intText context.stateVersion) = true)
    (hstring : isString 1 16000 content = true) :
    (currentContextToFragment I request context).isSome = true := by
  have hencodes : (Text.encodeUtf8 content).isSome = true := by
    rw [isString, Bool.and_eq_true] at hstring
    exact hstring.1
  obtain ⟨bytes, hbytes⟩ := Option.isSome_iff_exists.mp hencodes
  simp [currentContextToFragment, hrun, hdocument, hfacts, hcontent, sha256Text, hbytes,
    ContextFragment.fromContent, hversion, hstring]

/-! ## Retrieval hits -/

/-- `SearchHit`, but for its score, its snippet and the time it was ingested at. -/
structure SearchHit where
  title : Text
  path : Text
  sourceType : Text
  revision : Text
  erpVersion : Text
  permissionScope : Text
  chunkId : Text
  ordinal : ℤ
  sectionName : Text
  contentDigest : Text
  content : Text
deriving DecidableEq

namespace SearchHit

/-- What is asked of a hit ahead of its digest. -/
def wellFormed (hit : SearchHit) : Bool :=
  isDigest hit.chunkId && isDigest hit.contentDigest && decide (1 ≤ hit.ordinal) &&
    !hit.content.isEmpty && !hit.revision.isEmpty &&
    decide (hit.permissionScope = "public" ∨ hit.permissionScope = "internal") &&
    decide (hit.content.length ≤ 16000)

/-- The object a hit is shown as. -/
def payload (hit : SearchHit) (rank : ℕ) : Value :=
  .dict [("retrieval_provenance", .dict [("chunk_id", .str hit.chunkId), ("rank", .int rank),
      ("ordinal", .int hit.ordinal), ("title", .str hit.title), ("path", .str hit.path),
      ("section", .str hit.sectionName), ("source_type", .str hit.sourceType),
      ("revision", .str hit.revision), ("erp_version", .str hit.erpVersion),
      ("permission_scope", .str hit.permissionScope), ("content_digest", .str hit.contentDigest)]),
    ("retrieved_text", .str hit.content)]

def fragmentSource (hit : SearchHit) : Text := Text.ofString "retrieval:" ++ hit.chunkId

/-- The fragment of a hit; a text that has no UTF-8 form makes none. -/
def fragment? (I : Interpreter) (hit : SearchHit) (rank : ℕ) : Option ContextFragment :=
  (Json.dumps I (hit.payload rank)).bind fun content =>
    ContextFragment.fromContent
      (Text.ofString "retrieval:00" ++ Json.intText rank ++ Text.ofString ":" ++ hit.chunkId)
      hit.fragmentSource hit.revision content

end SearchHit

/-- The most hits that are shown. -/
def maxContextRetrievalHits : ℕ := 5

/-- The hits that are left, when the ids in `seen` have a fragment each. `none` is the content
of a hit that has no UTF-8 form, which nothing catches. -/
def fragmentsFrom (I : Interpreter) : List SearchHit → List Text → Option (List ContextFragment)
  | [], _ => some []
  | hit :: hits, seen =>
      if hit.wellFormed then
        (sha256Text hit.content).bind fun digest =>
          if digest ≠ hit.contentDigest ∨ hit.chunkId ∈ seen then fragmentsFrom I hits seen
          else
            match hit.fragment? I (seen.length + 1) with
            | none => fragmentsFrom I hits seen
            | some fragment =>
                if maxContextRetrievalHits ≤ seen.length + 1 then some [fragment]
                else (fragmentsFrom I hits (hit.chunkId :: seen)).map (fragment :: ·)
      else fragmentsFrom I hits seen

/-- `search_hits_to_context_fragments`. -/
def searchHitsToContextFragments (I : Interpreter) (hits : List SearchHit) :
    Option (List ContextFragment) :=
  fragmentsFrom I hits []

/-- `_valid_selected_hits`. -/
def validSelectedHits (I : Interpreter) (hits : List SearchHit) : Option (List SearchHit) :=
  (searchHitsToContextFragments I hits).map fun fragments =>
    let selectedIds := fragments.filterMap fun fragment =>
      Json.afterPrefix? "retrieval:" fragment.source
    hits.filter fun hit => selectedIds.contains hit.chunkId

/-- A fragment is one of a hit that is well formed and hashes to its digest. -/
theorem exists_hit_of_mem_fragments {I : Interpreter} {hits : List SearchHit} {seen : List Text}
    {fragments : List ContextFragment} (h : fragmentsFrom I hits seen = some fragments)
    {fragment : ContextFragment} (hmem : fragment ∈ fragments) :
    ∃ hit ∈ hits, fragment.source = hit.fragmentSource ∧
      sha256Text hit.content = some hit.contentDigest := by
  have htail : ∀ {hit : SearchHit} {hits : List SearchHit},
      (∃ other ∈ hits, fragment.source = other.fragmentSource ∧
        sha256Text other.content = some other.contentDigest) →
      ∃ other ∈ hit :: hits, fragment.source = other.fragmentSource ∧
        sha256Text other.content = some other.contentDigest := by
    intro hit hits hother
    obtain ⟨other, hmem, hother⟩ := hother
    exact ⟨other, List.mem_cons_of_mem hit hmem, hother⟩
  induction hits generalizing seen fragments with
  | nil =>
      rw [fragmentsFrom, Option.some.injEq] at h
      exact absurd (h ▸ hmem) List.not_mem_nil
  | cons hit hits ih =>
      rw [fragmentsFrom] at h
      by_cases hformed : hit.wellFormed
      · rw [if_pos hformed, Option.bind_eq_some_iff] at h
        obtain ⟨digest, hdigest, h⟩ := h
        by_cases hskip : digest ≠ hit.contentDigest ∨ hit.chunkId ∈ seen
        · rw [if_pos hskip] at h
          exact htail (ih h hmem)
        · rw [if_neg hskip] at h
          rw [not_or, not_ne_iff] at hskip
          rw [hskip.1] at hdigest
          cases hfragment : hit.fragment? I (seen.length + 1) with
          | none =>
              rw [hfragment] at h
              exact htail (ih h hmem)
          | some first =>
              have hsource : first.source = hit.fragmentSource := by
                rw [SearchHit.fragment?, Option.bind_eq_some_iff] at hfragment
                obtain ⟨content, -, hfragment⟩ := hfragment
                rw [ContextFragment.fromContent] at hfragment
                split_ifs at hfragment
                rw [← Option.some.inj hfragment]
              have hhead : fragment = first →
                  ∃ other ∈ hit :: hits, fragment.source = other.fragmentSource ∧
                    sha256Text other.content = some other.contentDigest := by
                intro heq
                exact ⟨hit, List.mem_cons_self, heq ▸ hsource, hdigest⟩
              rw [hfragment] at h
              by_cases hfull : maxContextRetrievalHits ≤ seen.length + 1
              · simp only [if_pos hfull, Option.some.injEq] at h
                rw [← h, List.mem_singleton] at hmem
                exact hhead hmem
              · simp only [if_neg hfull, Option.map_eq_some_iff] at h
                obtain ⟨rest, hrest, h⟩ := h
                rw [← h, List.mem_cons] at hmem
                cases hmem with
                | inl heq => exact hhead heq
                | inr hmem => exact htail (ih hrest hmem)
      · rw [if_neg hformed] at h
        exact htail (ih h hmem)

/-- A selected hit is a supplied one that shares its chunk id with one that hashes to its
digest. -/
theorem exists_hit_of_mem_selected {I : Interpreter} {hits selected : List SearchHit}
    (h : validSelectedHits I hits = some selected) {hit : SearchHit} (hmem : hit ∈ selected) :
    hit ∈ hits ∧ ∃ other ∈ hits, other.chunkId = hit.chunkId ∧
      sha256Text other.content = some other.contentDigest := by
  rw [validSelectedHits, Option.map_eq_some_iff] at h
  obtain ⟨fragments, hfragments, rfl⟩ := h
  rw [List.mem_filter, List.contains_iff_mem, List.mem_filterMap] at hmem
  obtain ⟨hhit, fragment, hfragment, hsource⟩ := hmem
  obtain ⟨other, hother, hsame, hdigest⟩ := exists_hit_of_mem_fragments hfragments hfragment
  refine ⟨hhit, other, hother, ?_, hdigest⟩
  have htake : (other.fragmentSource).take 10 = Text.ofString "retrieval:" :=
    List.take_left' rfl
  have hdrop : (other.fragmentSource).drop 10 = other.chunkId := List.drop_left' rfl
  rw [hsame, Json.afterPrefix?] at hsource
  split_ifs at hsource
  exact hdrop.symm.trans (Option.some.inj hsource)

end Coach
