import SynoraErp.Coach.Packages
import SynoraErp.Order.KeyedMatching

/-!
# What is displayed

An output that is grounded is displayed with the citations it was bound to and with one claim for
each that says the same. Its claims are signed, and the authority reads what it displays.
-/

namespace Coach

open Python Governance

variable {I : Interpreter} {S : Surroundings} {request : QuestionRequest}
  {context : CurrentDocumentContext} {facts : Facts} {hits : List SearchHit}

/-! ## What is displayed of an output -/

/-- A claim is displayed, or one of the same type, text and references is. -/
theorem exists_distinctClaim {claims : List Claim} {seen : List (ClaimType × Text × List Text)}
    {claim : Claim} (h : claim ∈ claims) :
    claim.key ∈ seen ∨ ∃ kept ∈ distinctClaims claims seen, kept.key = claim.key := by
  induction claims generalizing seen with
  | nil => cases h
  | cons first claims ih =>
      rw [distinctClaims]
      by_cases hseen : first.key ∈ seen
      · rw [if_pos hseen]
        rcases List.mem_cons.mp h with rfl | h
        · exact Or.inl hseen
        · exact ih h
      · rw [if_neg hseen]
        rcases List.mem_cons.mp h with rfl | h
        · exact Or.inr ⟨claim, List.mem_cons_self, rfl⟩
        · rcases @ih (first.key :: seen) h with hkey | ⟨kept, hkept, hkey⟩
          · rcases List.mem_cons.mp hkey with hfirst | hkey
            · exact Or.inr ⟨first, List.mem_cons_self, hfirst.symm⟩
            · exact Or.inl hkey
          · exact Or.inr ⟨kept, List.mem_cons_of_mem first hkept, hkey⟩

theorem exists_mem_renumber {claims : List Claim} {claim : Claim} (h : claim ∈ claims) :
    ∃ numbered ∈ renumber claims, numbered.citationRefs = claim.citationRefs := by
  obtain ⟨i, hi, rfl⟩ := List.mem_iff_getElem.mp h
  refine ⟨{ claims[i] with ordinal := (i : ℤ) + 1 }, ?_, rfl⟩
  exact List.mem_mapIdx.mpr ⟨i, hi, rfl⟩

theorem signable_of_normalizeClaim {output : ProviderOutput} {includeContext : Bool}
    {requested : List LiveFactField} {claim normalized : Claim}
    (h : normalizeClaim I context facts output includeContext requested claim = some normalized) :
    normalized.claimType.signable = true := by
  have htype := (normalizeClaim_eq_some h).1
  rw [htype]
  rw [normalizeClaim] at h
  exact (Option.ite_none_right_eq_some.mp h).1

/-- The fields of a fact are those of its document. -/
theorem mem_liveFactFields_of_value {fact : CurrentFact} {field : LiveFactField}
    (h : (fact.value? field).isSome) : field ∈ Authority.liveFactFields fact.document.doctype := by
  have hfields : fact.dump.map Prod.fst = Authority.liveFactFields fact.document.doctype := by
    cases fact <;> rfl
  rw [← hfields]
  obtain ⟨value, hvalue⟩ := Option.isSome_iff_exists.mp h
  obtain ⟨before, after, hdump, -⟩ :=
    List.lookup_eq_some_iff.mp (Option.filter_eq_some_iff.mp hvalue).1
  rw [hdump, List.map_append, List.map_cons]
  exact List.mem_append_right _ List.mem_cons_self

/-- A live citation of a context that was checked cites fields of its document. -/
theorem cites_of_liveGrounded (hcontext : context.valid = true) {c : LiveCitation}
    (h : LiveGrounded I context c) : Authority.Cites c := by
  obtain ⟨fact, hfact, -, hvalues⟩ := h.fact
  have hholds : context.holds fact = true := by
    rw [CurrentDocumentContext.valid, Bool.and_eq_true] at hcontext
    exact List.all_eq_true.mp hcontext.2 fact hfact
  rw [CurrentDocumentContext.holds, Bool.and_eq_true, decide_eq_true_eq] at hholds
  have hdoctype : fact.document.doctype = c.documentDoctype := by
    rw [hholds.1.1, ← h.document]
  intro field hfield
  rw [← hdoctype]
  exact mem_liveFactFields_of_value (hvalues field hfield)

/-- What is displayed of an output. -/
structure Shown (request : QuestionRequest) (context : CurrentDocumentContext) (facts : Facts)
    (output shown : ProviderOutput) : Prop where
  valid : shown.validate = some shown
  displayable : shown.answerStatus.displayable
  joined : shown.answer = Authority.joinTexts shown.claims
  bound : materializeLiveCitations request context facts output =
    some { output with citations := shown.citations }
  signable : ∀ claim ∈ shown.claims, claim.claimType.signable = true
  refs : ∀ claim ∈ shown.claims, ∃ before ∈ output.claims, claim.citationRefs = before.citationRefs
  kept : ∀ claim ∈ output.claims, ∃ kept ∈ shown.claims, kept.citationRefs = claim.citationRefs
  citations : ∀ citation ∈ shown.citations, (∃ c, citation = .live c ∧ Authority.Cites c) ∨
    ∃ c, citation = .retrieval c

theorem shown_of_groundOutput {prepared : Prepared} {output shown : ProviderOutput}
    (hcontext : context.valid = true) (hprepared : prepare I S request context hits = .ok prepared)
    (h : groundOutput I S request context prepared output = some shown)
    (hstatus : shown.answerStatus.displayable) :
    Shown request context prepared.facts output shown := by
  obtain ⟨citations, claims, answer, hmaterialized, hgraph, hnormalized, htext, hvalidate⟩ :=
    groundOutput_eq_some h
  have hshape := (ProviderOutput.finish_eq_some (ProviderOutput.validate_eq_some hvalidate).2.2).2
  obtain rfl := ProviderOutput.validate_displayable hvalidate hstatus
  refine
    { valid := hvalidate
      displayable := hstatus
      joined := htext
      bound := ?_
      signable := ?_
      refs := ?_
      kept := ?_
      citations := ?_ }
  · rw [materializeLiveCitations, hmaterialized, Option.map_some]
  · intro claim hclaim
    obtain ⟨renamed, hrenamed, ordinal, rfl⟩ := exists_of_mem_renumber hclaim
    obtain ⟨before, -, hbefore⟩ := exists_left_of_mem (forall₂_of_mapM_eq_some hnormalized)
      (mem_of_mem_distinctClaims hrenamed)
    have hsignable : renamed.claimType.signable = true := signable_of_normalizeClaim hbefore
    exact hsignable
  · intro claim hclaim
    obtain ⟨before, hbefore, hrefs, -⟩ := exists_claim_of_normalized hnormalized hclaim
    exact ⟨before, hbefore, hrefs⟩
  · intro claim hclaim
    obtain ⟨normalized, hmem, hnormalize⟩ :=
      exists_right_of_mem (forall₂_of_mapM_eq_some hnormalized) hclaim
    obtain hseen | ⟨kept, hkept, hkey⟩ := @exists_distinctClaim claims [] normalized hmem
    · cases hseen
    · obtain ⟨numbered, hnumbered, hrefs⟩ := exists_mem_renumber hkept
      refine ⟨numbered, hnumbered, ?_⟩
      rw [hrefs, ← (normalizeClaim_eq_some hnormalize).2.1]
      exact congrArg (fun key => key.2.2) hkey
  · intro citation hmem
    rcases grounded_citation hprepared h hstatus hmem with ⟨c, rfl, hlive⟩ | ⟨c, rfl, -⟩
    · exact Or.inl ⟨c, rfl, cites_of_liveGrounded hcontext hlive⟩
    · exact Or.inr ⟨c, rfl⟩

/-! ## What is read of what is displayed -/

namespace Shown

variable {output shown : ProviderOutput}

theorem graphValid (h : Shown request context facts output shown) : shown.graphValid = true :=
  (ProviderOutput.finish_eq_some (ProviderOutput.validate_eq_some h.valid).2.2).2

theorem numbered (h : Shown request context facts output shown) :
    (shown.claims.map Claim.claimId).Nodup ∧
      shown.claims.map Claim.ordinal = Authority.ordinals shown.claims.length := by
  have hgraph := h.graphValid
  simp only [ProviderOutput.graphValid, Bool.and_eq_true, decide_eq_true_eq] at hgraph
  obtain ⟨⟨⟨⟨⟨-, hids⟩, hordinals⟩, -⟩, -⟩, -⟩ := hgraph
  refine ⟨hids, hordinals.trans ?_⟩
  -- the numbers are counted in the naturals, then taken as integers
  have hcast : ∀ ns : List ℕ, (ns.flatMap fun n : ℕ => [(n : ℤ)]) = ns.map fun n : ℕ => (n : ℤ) :=
    fun ns => List.map_eq_flatMap.symm
  simp only [List.bind_eq_flatMap, List.pure_def, hcast, List.map_map, Authority.ordinals,
    Function.comp_def]

theorem claim_valid (h : Shown request context facts output shown) {claim : Claim}
    (hclaim : claim ∈ shown.claims) : claim.valid = true :=
  List.all_eq_true.mp (ProviderOutput.validate_eq_some h.valid).1 claim hclaim

theorem citation_valid (h : Shown request context facts output shown) {citation : Citation}
    (hcitation : citation ∈ shown.citations) : citation.valid = true :=
  List.all_eq_true.mp (ProviderOutput.validate_eq_some h.valid).2.1 citation hcitation

theorem materializeCitation_retrieval (c : RetrievalCitation) :
    materializeCitation request context facts (.retrieval c) = some (.retrieval c) := rfl

/-- A retrieval citation is displayed as the provider gave it. -/
theorem mem_citations (h : Shown request context facts output shown) {c : RetrievalCitation} :
    Citation.retrieval c ∈ shown.citations ↔ Citation.retrieval c ∈ output.citations := by
  obtain ⟨citations, hcitations, hbound⟩ := Option.map_eq_some_iff.mp h.bound
  have hsame : citations = shown.citations := congrArg ProviderOutput.citations hbound
  rw [hsame] at hcitations
  have hall := forall₂_of_mapM_eq_some hcitations
  constructor
  · intro hmem
    obtain ⟨given, hgiven, hmaterialize⟩ := exists_left_of_mem hall hmem
    cases given with
    | retrieval given =>
        rw [materializeCitation_retrieval, Option.some.injEq] at hmaterialize
        exact hmaterialize ▸ hgiven
    | live given =>
        obtain ⟨digest, -, hlive⟩ := Option.map_eq_some_iff.mp hmaterialize
        cases hlive
    | selector id fields =>
        obtain ⟨digest, -, hlive⟩ := Option.map_eq_some_iff.mp hmaterialize
        cases hlive
    | memory given => cases hmaterialize
  · intro hmem
    obtain ⟨bound, hbound, hmaterialize⟩ := exists_right_of_mem hall hmem
    rw [materializeCitation_retrieval, Option.some.injEq] at hmaterialize
    exact hmaterialize ▸ hbound

/-- The citations are read when those of the hits are legible. -/
theorem read_citation (h : Shown request context facts output shown)
    (hlegible : ∀ c, Citation.retrieval c ∈ output.citations → c.Legible) {citation : Citation}
    (hcitation : citation ∈ shown.citations) :
    Authority.validateCitation citation.object = some citation := by
  have hvalid := h.citation_valid hcitation
  rcases h.citations citation hcitation with ⟨c, rfl, hcites⟩ | ⟨c, rfl⟩
  · exact Authority.validateCitation_live hvalid hcites
  · exact Authority.validateCitation_retrieval hvalid (hlegible c (h.mem_citations.mp hcitation))

theorem citesProperly (h : Shown request context facts output shown) {claim : Claim}
    (hclaim : claim ∈ shown.claims) {id : Text} (hid : id ∈ claim.citationRefs) :
    ∃ citation, shown.citation? id = some citation ∧
      Authority.citesProperly claim.claimType citation = true := by
  have hgraph := h.graphValid
  simp only [ProviderOutput.graphValid, Bool.and_eq_true, List.all_eq_true] at hgraph
  have hcites := hgraph.1.1.2 claim hclaim id hid
  rw [ProviderOutput.citesProperly] at hcites
  cases hcitation : shown.citation? id with
  | none =>
      rw [hcitation] at hcites
      cases hcites
  | some citation =>
      rw [hcitation] at hcites
      exact ⟨citation, rfl, hcites⟩

theorem isId_of_mem_refs (h : Shown request context facts output shown) {claim : Claim}
    (hclaim : claim ∈ shown.claims) {id : Text} (hid : id ∈ claim.citationRefs) :
    isId id = true := by
  obtain ⟨citation, hcitation, -⟩ := h.citesProperly hclaim hid
  have hvalid := h.citation_valid (ProviderOutput.mem_of_citation? hcitation)
  rw [← ProviderOutput.citationId_of_citation? hcitation]
  rcases h.citations citation (ProviderOutput.mem_of_citation? hcitation) with
    ⟨c, rfl, -⟩ | ⟨c, rfl⟩
  · simp only [Citation.valid, Bool.and_eq_true] at hvalid
    exact hvalid.1.1.1.1.1.1.1.1.1
  · simp only [Citation.valid, Bool.and_eq_true] at hvalid
    exact hvalid.1.1.1.1.1.1.1

theorem graphFits (h : Shown request context facts output shown) :
    Authority.graphFits shown.claims shown.citations = true := by
  have hgraph := h.graphValid
  simp only [ProviderOutput.graphValid, Bool.and_eq_true, decide_eq_true_eq] at hgraph
  obtain ⟨⟨⟨⟨⟨hcitations, -⟩, -⟩, -⟩, horphans⟩, -⟩ := hgraph
  simp only [Authority.graphFits, Bool.and_eq_true, decide_eq_true_eq, List.all_eq_true]
  refine ⟨⟨hcitations, ?_⟩, List.all_eq_true.mp horphans⟩
  intro claim hclaim id hid
  obtain ⟨citation, hcitation, hproper⟩ := h.citesProperly hclaim hid
  rw [ProviderOutput.citation?] at hcitation
  rw [hcitation, Option.any_some, hproper]

/-- What is displayed has an answer and claims, and no reason. -/
theorem answered (h : Shown request context facts output shown) :
    Text.isBlank shown.answer = false ∧ shown.claims ≠ [] ∧ shown.refusalReason.isNone = true := by
  have hfits : (!Text.isBlank shown.answer && !shown.claims.isEmpty &&
      shown.refusalReason.isNone) = true := by
    have hgraph := h.graphValid
    rw [ProviderOutput.graphValid, Bool.and_eq_true] at hgraph
    cases h.displayable with
    | inl hstatus => simp_all [ProviderOutput.statusFits]
    | inr hstatus => simp_all [ProviderOutput.statusFits]
  simp only [Bool.and_eq_true, Bool.not_eq_true', List.isEmpty_eq_false_iff] at hfits
  exact ⟨hfits.1.1, hfits.1.2, hfits.2⟩

/-- What is displayed fits its status once its packages fit. -/
theorem statusFits (h : Shown request context facts output shown) {packages : List ValidatedClaim}
    (hpackages : Authority.packagesFit I shown.claims shown.citations packages = true) :
    Authority.statusFits I shown.answerStatus shown.answer shown.claims shown.citations packages
      shown.refusalReason = true := by
  have hdeclines : Authority.declines shown.answerStatus = false := by
    cases h.displayable with
    | inl hstatus => rw [hstatus]; rfl
    | inr hstatus => rw [hstatus]; rfl
  obtain ⟨hblank, hclaims, hreason⟩ := h.answered
  have hcitations : shown.citations.isEmpty = false := by
    obtain ⟨claim, hclaim⟩ := List.exists_mem_of_ne_nil _ hclaims
    have hvalid := h.claim_valid hclaim
    simp only [Claim.valid, Bool.and_eq_true, decide_eq_true_eq] at hvalid
    obtain ⟨id, hid⟩ := List.exists_mem_of_length_pos hvalid.2.1
    obtain ⟨citation, hcitation, -⟩ := h.citesProperly hclaim hid
    exact List.isEmpty_eq_false_iff.mpr
      (List.ne_nil_of_mem (ProviderOutput.mem_of_citation? hcitation))
  rw [Authority.statusFits, if_neg (by rw [hdeclines]; decide)]
  simp only [hblank, hcitations, hreason, hpackages, List.isEmpty_eq_false_iff.mpr hclaims,
    decide_eq_true h.joined, Bool.not_false, Bool.and_true]

end Shown

/-! ## Packages -/

section

variable {output shown : ProviderOutput} {source : Text × Text} {token : Text} {claim : Claim}
  {package : ValidatedClaim}

/-- A citation of a package is short when all of them are. -/
theorem sameCitation_self {citations : List Citation} (hvalid : ∀ c ∈ citations, c.valid = true)
    (hcompact : IsCompact I citations) {citation : Citation} (hcitation : citation ∈ citations) :
    Authority.sameCitation I citation citation = true := by
  obtain ⟨json, hjson, -⟩ := @exists_provenance I citations hvalid
  have hlength := hcompact json hjson
  rw [Json.eq_render_of_dumps hjson] at hlength
  have hrender : (Json.render I (Json.sortKeys citation.object)).length ≤
      (Json.render I (Json.sortKeys (provenance citations))).length := by
    rw [Authority.sortKeys_provenance]
    apply le_trans _ Json.length_render_le_dict
    exact Json.length_render_le_list (List.mem_map_of_mem (List.mem_map_of_mem hcitation))
  have hdumps : Json.dumps I citation.object =
      some (Json.render I (Json.sortKeys citation.object)) := if_pos (allFinite_citation citation)
  rw [Authority.sameCitation, Authority.canonicalPayload_of_dumps hdumps (hrender.trans hlength),
    Option.any_some]
  exact decide_eq_true rfl

/-- The package of a displayed claim fits the claim. -/
theorem Shown.packageFits_of_signed (h : Shown request context facts output shown)
    (hsigned : Signed I shown request source token claim package)
    (hcompact : IsCompact I package.citations) :
    Authority.packageFits I shown.citations claim package = true := by
  obtain ⟨hids, hmem⟩ := ids_of_refs hsigned.citations
  rw [Authority.packageFits, Bool.and_eq_true, decide_eq_true_eq, List.all_eq_true]
  refine ⟨⟨hsigned.ordinal, hsigned.claimType, hsigned.claimText, hids⟩, ?_⟩
  intro cited hcited
  have hfound := ProviderOutput.citation?_of_mem h.graphValid (hmem cited hcited)
  rw [ProviderOutput.citation?] at hfound
  rw [hfound, Option.any_some]
  exact sameCitation_self (fun c hc => h.citation_valid (hmem c hc)) hcompact hcited

theorem Shown.packagesFit_of_signed (h : Shown request context facts output shown)
    {packages : List ValidatedClaim}
    (hsigned : List.Forall₂ (Signed I shown request source token) shown.claims packages)
    (hcompact : ∀ package ∈ packages, IsCompact I package.citations) :
    Authority.packagesFit I shown.claims shown.citations packages = true := by
  obtain ⟨hnodup, hordinals⟩ := h.numbered
  have hlength := hsigned.length_eq
  have hids : shown.claims.map Claim.claimId = packages.map ValidatedClaim.claimId :=
    KeyedMatching.map_eq_of_forall₂ (fun _ _ hpackage => hpackage.claimId.symm) hsigned
  have hnumbers : shown.claims.map Claim.ordinal = packages.map ValidatedClaim.ordinal :=
    KeyedMatching.map_eq_of_forall₂ (fun _ _ hpackage => hpackage.ordinal.symm) hsigned
  simp only [Authority.packagesFit, Bool.and_eq_true, decide_eq_true_eq, List.all_eq_true]
  refine ⟨⟨⟨hlength.symm, ?_⟩, ?_⟩, ?_⟩
  · intro package hpackage
    rw [List.contains_iff_mem, hids]
    exact List.mem_map_of_mem hpackage
  · intro claim hclaim
    obtain ⟨package, hpackage, hsign⟩ := exists_right_of_mem hsigned hclaim
    have hfound := SortedByKey.find?_key ValidatedClaim.claimId (hids ▸ hnodup) hpackage
    rw [hsign.claimId] at hfound
    rw [hfound, Option.any_some]
    exact h.packageFits_of_signed hsign (hcompact package hpackage)
  · rw [← hnumbers, ← hlength]
    exact hordinals

end

/-! ## What is signed -/

/-- The snapshot that is signed, with its digest. -/
structure Sourced (I : Interpreter) (request : QuestionRequest) (context : CurrentDocumentContext)
    (json digest : Text) : Prop where
  dumps : Json.dumps I (.dict context.metadata) = some json
  sha256 : sha256Text json = some digest
  length : isString 2 16000 json = true
  blank : Text.isBlank json = false
  source : sourceSnapshot I context = some (signedRevision context digest, json)
  run : request.runId = context.runId
  document : request.currentDocument = context.currentDocument

/-- A context is built of the fragment of the current document and those of the hits. -/
theorem exists_fragment_of_prepare {prepared : Prepared}
    (h : prepare I S request context hits = .ok prepared) :
    ∃ fragment fragments, currentContextToFragment I request context = some fragment ∧
      S.buildContext request.question (fragment :: fragments) = .ok prepared.context := by
  rw [prepare] at h
  split at h
  · rename_i fragment facts selected hfragment hfacts hselected
    split at h
    · cases h
    · rename_i fragments hfragments
      split at h
      · rename_i built hbuilt
        obtain rfl := Except.ok.inj h
        exact ⟨fragment, fragments, hfragment, hbuilt⟩
      · cases h
      · cases h
  · cases h

theorem exists_sourced {prepared : Prepared}
    (h : prepare I S request context hits = .ok prepared) :
    ∃ json digest, Sourced I request context json digest := by
  obtain ⟨fragment, fragments, hfragment, -⟩ := exists_fragment_of_prepare h
  obtain ⟨hsame, facts, content, hcontent, hstring⟩ := currentContextToFragment_eq_some hfragment
  obtain ⟨json, hjson, hlength, hencodes⟩ := exists_snapshot hcontent hstring
  obtain ⟨digest, hdigest⟩ := exists_sha256Text hencodes
  obtain ⟨body, hbody⟩ : ∃ body, json = codePoint '\x7b' :: (body ++ [codePoint '\x7d']) := by
    rw [Json.eq_render_of_dumps hjson, Json.sortKeys, Json.render]
    exact ⟨_, rfl⟩
  refine ⟨json, digest,
    { dumps := hjson
      sha256 := hdigest
      length := ?_
      blank := ?_
      source := sourceSnapshot_of_dumps hjson hdigest
      run := hsame.1
      document := hsame.2 }⟩
  · rw [isString, Option.isSome_iff_ne_none.mpr (encodes_iff.mp hencodes), Bool.true_and,
      decide_eq_true_eq]
    refine ⟨?_, hlength⟩
    rw [hbody, List.length_cons, List.length_append, List.length_singleton]
    omega
  · rw [hbody]
    exact isBlank_of_mem List.mem_cons_self (by decide)

section

variable {shown output : ProviderOutput} {json digest : Text}

theorem Shown.filter_signable (h : Shown request context facts output shown) :
    shown.claims.filter (fun claim => claim.claimType.signable) = shown.claims :=
  List.filter_eq_self.mpr h.signable

/-- The packages of what is displayed are those of its claims. -/
theorem Shown.signed_of_validatedClaims (h : Shown request context facts output shown)
    (hsourced : Sourced I request context json digest) {setting token : Text}
    (htoken : runtimeToken setting = some token) {packages : List ValidatedClaim}
    (hpackages : validatedClaims I shown request context setting = some packages) :
    List.Forall₂ (Signed I shown request (signedRevision context digest, json) token) shown.claims
      packages := by
  simp only [validatedClaims, htoken, hsourced.source, Option.bind_some, h.filter_signable]
    at hpackages
  exact (forall₂_of_mapM_eq_some hpackages).imp fun _ _ => signed_of_validatedClaim

/-- A token that signs has a UTF-8 form. -/
theorem Shown.encodes_token (h : Shown request context facts output shown) {source : Text × Text}
    {token : Text} {packages : List ValidatedClaim}
    (hsigned : List.Forall₂ (Signed I shown request source token) shown.claims packages) :
    Encodes token := by
  obtain ⟨claim, hclaim⟩ := List.exists_mem_of_ne_nil _ h.answered.2.1
  obtain ⟨package, -, hsign⟩ := exists_right_of_mem hsigned hclaim
  obtain ⟨canonical, -, hsignature⟩ := Option.bind_eq_some_iff.mp hsign.signature
  obtain ⟨key, hkey, -⟩ := Option.bind_eq_some_iff.mp hsignature
  rw [encodes_iff, hkey]
  exact Option.some_ne_none key

/-- What is displayed is signed when the token has a UTF-8 form. -/
theorem Shown.exists_validatedClaims (h : Shown request context facts output shown)
    (hcontext : context.valid = true) (hsourced : Sourced I request context json digest)
    (hrun : isCanonicalUuid request.runId = true)
    (hcorrelation : isCanonicalUuid request.correlationId = true) {setting token : Text}
    (htoken : runtimeToken setting = some token) (hencodes : Encodes token) :
    ∃ packages, validatedClaims I shown request context setting = some packages := by
  obtain ⟨hclaims, hcitations, -⟩ := ProviderOutput.validate_eq_some h.valid
  simp only [validatedClaims, htoken, hsourced.source, Option.bind_some, h.filter_signable]
  apply exists_mapM_eq_some
  intro claim hclaim
  exact exists_validatedClaim h.graphValid hclaims hcitations hrun hcorrelation
    (isName_signedRevision hcontext (isDigest_of_sha256Text hsourced.sha256)) hsourced.length hencodes
    hclaim

/-- The package of a displayed claim is read when its citations are short enough. -/
theorem Shown.readPackage (h : Shown request context facts output shown)
    (hcontext : context.valid = true) (hsourced : Sourced I request context json digest)
    {token : Text} {claim : Claim} {package : ValidatedClaim} (hclaim : claim ∈ shown.claims)
    (hsigned : Signed I shown request (signedRevision context digest, json) token claim package)
    {run correlation : Uuid} (hrun : run.text = request.runId)
    (hcorrelation : correlation.text = request.correlationId)
    (hread : ∀ citation ∈ shown.citations,
      Authority.validateCitation citation.object = some citation)
    (hcompact : IsCompact I package.citations) :
    Authority.readPackage I package.object =
      some ⟨package, run, correlation, Authority.snapshotOf context⟩ := by
  obtain ⟨hids, hmem⟩ := ids_of_refs hsigned.citations
  have hsnapshot : Authority.text Authority.maxSourceSnapshotLength (.str json) = some json := by
    have hlength := hsourced.length
    rw [isString, Bool.and_eq_true, decide_eq_true_eq] at hlength
    exact Authority.text_str hsourced.blank hlength.2.2
  have hproper : package.citations.all (Authority.citesProperly claim.claimType) = true := by
    rw [List.all_eq_true]
    intro cited hcited
    have hid : cited.citationId ∈ claim.citationRefs := hids ▸ List.mem_map_of_mem hcited
    obtain ⟨citation, hcitation, hproper⟩ := h.citesProperly hclaim hid
    rw [ProviderOutput.citation?_of_mem h.graphValid (hmem cited hcited), Option.some.injEq]
      at hcitation
    rw [hcitation, hproper]
  have hpackage := Authority.packageOf_object hsigned (h.claim_valid hclaim) (h.signable claim hclaim)
    hrun hcorrelation (isName_signedRevision hcontext (isDigest_of_sha256Text hsourced.sha256))
    hsnapshot (fun c hc => hread c (hmem c hc)) hproper
  exact Authority.readPackage_object hsigned hpackage hrun hcorrelation
    (Authority.validateSourceSnapshot_metadata hcontext (hrun.trans hsourced.run) hsourced.dumps
      hsourced.sha256) hcompact

end

end Coach
