import SynoraErp.Coach.Service
import SynoraErp.Python.Model

/-!
# Grounding

What an answer that is displayed stands on. Its text is that of its claims. Its citations
are those of the snapshot and of the hits it was given. A claim about the current document
shows fields its citations select, each with the value of the fact the citation is bound to.
-/

namespace Coach

open Python Governance

variable {I : Interpreter} {S : Surroundings} {request : QuestionRequest}
  {context : CurrentDocumentContext} {facts : Facts} {hits : List SearchHit}

/-! ## What grounding asks -/

/-- A live citation of a snapshot. -/
structure LiveGrounded (I : Interpreter) (context : CurrentDocumentContext) (c : LiveCitation) :
    Prop where
  runId : c.runId = context.runId
  document : (⟨c.documentDoctype, c.documentName⟩ : DocumentRef) = context.currentDocument
  stateVersion : c.stateVersion = context.stateVersion
  capturedAt : c.capturedAt = context.capturedAt
  sourceModifiedAt : c.sourceModifiedAt = context.sourceModifiedAt
  revisions : c.frappeRevision = context.frappeRevision ∧
    c.erpnextRevision = context.erpnextRevision
  fact : ∃ fact ∈ context.facts, currentFactDigest I fact = some c.factDigest ∧
    ∀ field ∈ c.factFields, (fact.value? field).isSome

/-- A citation of a supplied hit. The content is the one of the digest when a chunk id tells
the hit. -/
def RetrievalGrounded (hits : List SearchHit) (c : RetrievalCitation) : Prop :=
  ∃ hit ∈ hits, hit.chunkId = c.chunkId ∧ hit.contentDigest = c.contentDigest ∧
    hit.ordinal = c.ordinal ∧ hit.sourceType = c.sourceType ∧ hit.revision = c.revision ∧
    hit.erpVersion = c.erpVersion ∧ hit.permissionScope = c.permissionScope ∧
    ((hits.map SearchHit.chunkId).Nodup → sha256Text hit.content = some c.contentDigest)

/-- The atoms a claim about the current document shows. -/
structure ErpGrounded (I : Interpreter) (context : CurrentDocumentContext)
    (citations : List Citation) (claim : Claim) (atoms : List Atom) : Prop where
  nonempty : atoms ≠ []
  once : (atoms.map Prod.fst).Nodup
  text : ∃ includeContext, claim.text = atomsText I includeContext atoms
  selected : ∀ atom ∈ atoms, ∃ c, Citation.live c ∈ citations ∧
    c.citationId ∈ claim.citationRefs ∧ atom.1 ∈ c.factFields
  /-- All that one citation selects is of one fact. -/
  bound : ∀ id ∈ claim.citationRefs, ∃ c, Citation.live c ∈ citations ∧ c.citationId = id ∧
    ∃ fact ∈ context.facts, currentFactDigest I fact = some c.factDigest ∧
      ∀ atom ∈ atoms, atom.1 ∈ c.factFields → fact.value? atom.1 = some atom.2

/-- An answer that stands on a snapshot and on hits. -/
structure Grounded (I : Interpreter) (context : CurrentDocumentContext) (hits : List SearchHit)
    (answer : CoachAnswer) : Prop where
  text : answer.answer = (Text.ofString "\n").intercalate (answer.claims.map Claim.text)
  citations : ∀ citation ∈ answer.citations,
    (∃ c, citation = .live c ∧ LiveGrounded I context c) ∨
      ∃ c, citation = .retrieval c ∧ RetrievalGrounded hits c
  claims : ∀ claim ∈ answer.claims, claim.claimType = .erpFact →
    ∃ atoms, ErpGrounded I context answer.citations claim atoms

/-! ## Facts and their digests -/

theorem mem_digestFacts {entries : List CurrentFact} (h : digestFacts I entries = some facts)
    {fact : Text × CurrentFact} (hmem : fact ∈ facts) :
    fact.2 ∈ entries ∧ currentFactDigest I fact.2 = some fact.1 := by
  have hall := forall₂_of_mapM_eq_some h
  clear h
  induction hall with
  | nil => cases hmem
  | @cons entry digested entries facts hentry hall ih =>
      obtain ⟨digest, hdigest, rfl⟩ := Option.map_eq_some_iff.mp hentry
      cases List.mem_cons.mp hmem with
      | inl heq =>
          subst heq
          exact ⟨List.mem_cons_self, hdigest⟩
      | inr hmem => exact ⟨List.mem_cons_of_mem _ (ih hmem).1, (ih hmem).2⟩

theorem mem_of_get? {digest : Text} {fact : CurrentFact} (h : facts.get? digest = some fact) :
    (digest, fact) ∈ facts := by
  obtain ⟨entry, hentry, rfl⟩ := Option.map_eq_some_iff.mp h
  have hdigest : entry.1 = digest := by simpa using List.find?_some hentry
  rw [← hdigest]
  exact List.mem_reverse.mp (List.mem_of_find?_eq_some hentry)

theorem exists_of_selected? {candidates : Facts} {digest named : Text}
    (h : candidates.selected? named = some digest) : ∃ fact, (digest, fact) ∈ candidates := by
  cases Option.or_eq_some_iff.mp h with
  | inl hnamed =>
      obtain ⟨entry, hentry, rfl⟩ := Option.map_eq_some_iff.mp hnamed
      exact ⟨entry.2, List.mem_of_find?_eq_some hentry⟩
  | inr honly =>
      obtain ⟨-, honly⟩ := honly
      match candidates, honly with
      | [entry], honly =>
          obtain rfl := Option.some.inj honly
          exact ⟨entry.2, List.mem_singleton_self _⟩

theorem exists_of_unique? {candidates : Facts} {digest : Text}
    (h : candidates.unique? = some digest) : ∃ fact, (digest, fact) ∈ candidates := by
  match candidates, h with
  | [entry], h =>
      obtain rfl := Option.some.inj h
      exact ⟨entry.2, List.mem_singleton_self _⟩

theorem mem_candidates {fields : List LiveFactField} {fact : Text × CurrentFact} :
    fact ∈ facts.candidates fields ↔
      fact ∈ facts ∧ ∀ field ∈ fields, (fact.2.value? field).isSome := by
  rw [Facts.candidates, List.mem_filter, List.all_eq_true]

/-- A live citation that was bound has a fact with a value in every field it cites. -/
theorem exists_fact_of_materialized {citation : Citation} {c : LiveCitation}
    (h : materializeCitation request context facts citation = some (.live c)) :
    ∃ fact, (c.factDigest, fact) ∈ facts ∧
      ∀ field ∈ c.factFields, (fact.value? field).isSome := by
  cases citation with
  | live given =>
      obtain ⟨digest, hdigest, hbound⟩ := Option.map_eq_some_iff.mp h
      obtain ⟨fact, hfact⟩ := exists_of_selected? hdigest
      rw [boundCitation, Citation.live.injEq] at hbound
      subst hbound
      exact ⟨fact, mem_candidates.mp hfact⟩
  | selector id fields =>
      obtain ⟨digest, hdigest, hbound⟩ := Option.map_eq_some_iff.mp h
      obtain ⟨fact, hfact⟩ := exists_of_unique? hdigest
      rw [boundCitation, Citation.live.injEq] at hbound
      subst hbound
      exact ⟨fact, mem_candidates.mp hfact⟩
  | retrieval c => cases h
  | memory c => cases h

/-! ## Citations -/

theorem liveGrounded_of_validate (hfacts : digestFacts I context.facts = some facts)
    {c : LiveCitation} (hvalid : validateLiveCitation request context facts c = true)
    (hfact : ∃ fact, (c.factDigest, fact) ∈ facts ∧
      ∀ field ∈ c.factFields, (fact.value? field).isSome) : LiveGrounded I context c := by
  obtain ⟨fact, hmem, hvalues⟩ := hfact
  simp only [validateLiveCitation, Bool.and_eq_true, decide_eq_true_eq] at hvalid
  obtain ⟨⟨⟨⟨⟨⟨⟨⟨hrun, hdoctype⟩, hname⟩, hversion⟩, hcaptured⟩, hmodified⟩, hfrappe⟩, herpnext⟩, -⟩ :=
    hvalid
  exact
    { runId := hrun.1.trans hrun.2
      document := by rw [hdoctype, hname]
      stateVersion := hversion
      capturedAt := hcaptured
      sourceModifiedAt := hmodified
      revisions := ⟨hfrappe, herpnext⟩
      fact := ⟨fact, (mem_digestFacts hfacts hmem).1, (mem_digestFacts hfacts hmem).2, hvalues⟩ }

theorem retrievalGrounded_of_validate {selected : List SearchHit}
    (hselected : validSelectedHits I hits = some selected) {c : RetrievalCitation}
    (hvalid : validateRetrievalCitation selected c = true) : RetrievalGrounded hits c := by
  rw [validateRetrievalCitation, Option.any_eq_true] at hvalid
  obtain ⟨hit, hfind, hfields⟩ := hvalid
  have hchunk : hit.chunkId = c.chunkId := by simpa using List.find?_some hfind
  have hmem : hit ∈ selected := List.mem_reverse.mp (List.mem_of_find?_eq_some hfind)
  obtain ⟨hhit, other, hother, hsame, hdigest⟩ := exists_hit_of_mem_selected hselected hmem
  simp only [Bool.and_eq_true, decide_eq_true_eq] at hfields
  obtain ⟨⟨⟨⟨⟨hcontent, hordinal⟩, hsource⟩, hrevision⟩, hversion⟩, hscope⟩ := hfields
  refine ⟨hit, hhit, hchunk, hcontent, hordinal, hsource, hrevision, hversion, hscope, ?_⟩
  intro hnodup
  have heq : other = hit := List.inj_on_of_nodup_map hnodup hother hhit hsame
  rw [← hcontent, ← heq, hdigest]

/-! ## The atoms of a claim -/

/-- Whether a field is shown. -/
def isShown (requested : List LiveFactField) (field : LiveFactField) : Bool :=
  decide (requested = [] ∨ field ∈ requested)

section Atoms

variable {allowed requested : List LiveFactField} {output : ProviderOutput}

/-- One citation adds the fields it selects that are shown, with the values of its fact. -/
theorem factAtoms_eq_some {fact : CurrentFact} {fields : List LiveFactField}
    {atoms all : List Atom} (h : factAtoms allowed requested fact fields atoms = some all) :
    ∃ added, all = atoms ++ added ∧ added.map Prod.fst = fields.filter (isShown requested) ∧
      (∀ atom ∈ added, fact.value? atom.1 = some atom.2) ∧
      ((atoms.map Prod.fst).Nodup → (all.map Prod.fst).Nodup) := by
  induction fields generalizing atoms with
  | nil =>
      obtain rfl := Option.some.inj h
      exact ⟨[], (List.append_nil _).symm, rfl, fun _ hatom => absurd hatom List.not_mem_nil, id⟩
  | cons field fields ih =>
      rw [factAtoms] at h
      split_ifs at h with hallowed hskip hused
      · obtain ⟨added, hall, hfields, hvalues, honce⟩ := ih h
        have hshown : isShown requested field = false := by
          simpa [isShown] using hskip
        exact ⟨added, hall, by rw [List.filter_cons_of_neg (by simp [hshown]), hfields], hvalues, honce⟩
      · obtain ⟨value, hvalue, h⟩ := Option.bind_eq_some_iff.mp h
        obtain ⟨added, hall, hfields, hvalues, honce⟩ := ih h
        have hshown : isShown requested field = true := by
          by_cases hnil : requested = []
          · simp [isShown, hnil]
          · have hmem : field ∈ requested := by
              by_contra hnot
              exact hskip ⟨hnil, hnot⟩
            simp [isShown, hmem]
        refine ⟨(field, value) :: added, ?_, ?_, ?_, ?_⟩
        · rw [hall, List.append_assoc, List.singleton_append]
        · rw [List.filter_cons_of_pos hshown, List.map_cons, hfields]
        · intro atom hatom
          cases List.mem_cons.mp hatom with
          | inl heq => rw [heq, hvalue]
          | inr hatom => exact hvalues atom hatom
        · intro hnodup
          apply honce
          rw [List.map_append, List.map_cons, List.map_nil, List.nodup_append_comm,
            List.singleton_append, List.nodup_cons]
          exact ⟨hused, hnodup⟩

/-- The atoms of a claim: every citation it refers to is live, and what it selects that is shown
is there with the values of its fact. -/
theorem claimAtoms_eq_some {references : List Text} {atoms all : List Atom}
    (h : claimAtoms allowed requested facts output references atoms = some all) :
    ∃ added, all = atoms ++ added ∧
      ((atoms.map Prod.fst).Nodup → (all.map Prod.fst).Nodup) ∧
      (∀ id ∈ references, ∃ c fact, output.citation? id = some (.live c) ∧
        facts.get? c.factDigest = some fact ∧ ∀ field ∈ c.factFields, isShown requested field →
          ∃ value, fact.value? field = some value ∧ (field, value) ∈ added) ∧
      ∀ atom ∈ added, isShown requested atom.1 ∧ ∃ id ∈ references, ∃ c,
        output.citation? id = some (.live c) ∧ atom.1 ∈ c.factFields := by
  induction references generalizing atoms with
  | nil =>
      obtain rfl := Option.some.inj h
      exact ⟨[], (List.append_nil _).symm, id, fun _ hid => absurd hid List.not_mem_nil,
        fun _ hatom => absurd hatom List.not_mem_nil⟩
  | cons reference references ih =>
      rw [claimAtoms] at h
      split at h
      · rename_i c hc
        obtain ⟨fact, hfact, h⟩ := Option.bind_eq_some_iff.mp h
        obtain ⟨middle, hmiddle, h⟩ := Option.bind_eq_some_iff.mp h
        obtain ⟨first, hfirst, hfields, hvalues, honce⟩ := factAtoms_eq_some hmiddle
        obtain ⟨rest, hrest, honce', hrefs, hcited⟩ := ih h
        have hmem : ∀ field, field ∈ first.map Prod.fst ↔
            field ∈ c.factFields ∧ isShown requested field := by
          intro field
          rw [hfields, List.mem_filter]
        refine ⟨first ++ rest, ?_, fun hnodup => honce' (honce hnodup), ?_, ?_⟩
        · rw [hrest, hfirst, List.append_assoc]
        · intro id hid
          cases List.mem_cons.mp hid with
          | inl heq =>
              refine ⟨c, fact, heq ▸ hc, hfact, ?_⟩
              intro field hfield hshown
              obtain ⟨atom, hatom, rfl⟩ := List.mem_map.mp ((hmem field).mpr ⟨hfield, hshown⟩)
              exact ⟨atom.2, hvalues atom hatom, List.mem_append_left rest hatom⟩
          | inr hid =>
              obtain ⟨c', fact', hc', hfact', hshow⟩ := hrefs id hid
              refine ⟨c', fact', hc', hfact', ?_⟩
              intro field hfield hshown
              obtain ⟨value, hvalue, hin⟩ := hshow field hfield hshown
              exact ⟨value, hvalue, List.mem_append_right first hin⟩
        · intro atom hatom
          cases List.mem_append.mp hatom with
          | inl hatom =>
              obtain ⟨hfield, hshown⟩ := (hmem atom.1).mp (List.mem_map_of_mem hatom)
              exact ⟨hshown, reference, List.mem_cons_self, c, hc, hfield⟩
          | inr hatom =>
              obtain ⟨hshown, id, hid, hcited⟩ := hcited atom hatom
              exact ⟨hshown, id, List.mem_cons_of_mem reference hid, hcited⟩
      · cases h

/-- What a claim about the current document shows is grounded in its citations. -/
theorem erpGrounded_of_claimAtoms (hfacts : digestFacts I context.facts = some facts)
    {claim : Claim} {atoms : List Atom} {citations : List Citation}
    (hcitations : output.citations = citations)
    (hids : (citations.map Citation.citationId).Nodup)
    (h : claimAtoms allowed requested facts output claim.citationRefs [] = some atoms)
    (hnonempty : atoms ≠ []) {includeContext : Bool}
    (htext : claim.text = atomsText I includeContext atoms) :
    ErpGrounded I context citations claim atoms := by
  subst hcitations
  obtain ⟨added, hall, honce, hrefs, hcited⟩ := claimAtoms_eq_some h
  rw [List.nil_append] at hall
  subst hall
  have hnodup : (atoms.map Prod.fst).Nodup := honce List.nodup_nil
  have hid : ∀ {id : Text} {c : LiveCitation}, output.citation? id = some (.live c) →
      c.citationId = id := fun hc => ProviderOutput.citationId_of_citation? hc
  refine
    { nonempty := hnonempty
      once := hnodup
      text := ⟨includeContext, htext⟩
      selected := ?_
      bound := ?_ }
  · intro atom hatom
    obtain ⟨-, id, hmem, c, hc, hfield⟩ := hcited atom hatom
    exact ⟨c, ProviderOutput.mem_of_citation? hc, (hid hc).symm ▸ hmem, hfield⟩
  · intro id hmem
    obtain ⟨c, fact, hc, hfact, hshow⟩ := hrefs id hmem
    have hin := mem_digestFacts hfacts (mem_of_get? hfact)
    refine ⟨c, ProviderOutput.mem_of_citation? hc, hid hc, fact, hin.1, hin.2, ?_⟩
    intro atom hatom hfield
    obtain ⟨value, hvalue, hpair⟩ := hshow atom.1 hfield (hcited atom hatom).1
    have heq : atom = (atom.1, value) := List.inj_on_of_nodup_map hnodup hatom hpair rfl
    rw [heq, hvalue]

end Atoms

/-! ## The claims that are written anew -/

section Normalized

variable {output : ProviderOutput} {includeContext : Bool} {requested : List LiveFactField}

/-- A claim keeps its type and its citations; the text of one about the current document is
that of its atoms. -/
theorem normalizeClaim_eq_some {claim normalized : Claim}
    (h : normalizeClaim I context facts output includeContext requested claim = some normalized) :
    normalized.claimType = claim.claimType ∧ normalized.citationRefs = claim.citationRefs ∧
      (normalized.claimType = .erpFact → ∃ atoms,
        claimAtoms (liveFactFields context.currentDocument.doctype) requested facts output
          normalized.citationRefs [] = some atoms ∧ atoms ≠ [] ∧
        normalized.text = atomsText I includeContext atoms) := by
  rw [normalizeClaim] at h
  split_ifs at h with hsignable herp
  · obtain ⟨text, htext, rfl⟩ := Option.map_eq_some_iff.mp h
    refine ⟨rfl, rfl, fun _ => ?_⟩
    rw [normalizeErpClaim] at htext
    split_ifs at htext with hseveral
    obtain ⟨atoms, hatoms, htext⟩ := Option.bind_eq_some_iff.mp htext
    split_ifs at htext with hnil
    exact ⟨atoms, hatoms, hnil, (Option.some.inj htext).symm⟩
  · obtain rfl := Option.some.inj h
    exact ⟨rfl, rfl, fun hfact => absurd hfact herp⟩

theorem mem_of_mem_distinctClaims {claims : List Claim}
    {seen : List (ClaimType × Text × List Text)} {claim : Claim}
    (h : claim ∈ distinctClaims claims seen) : claim ∈ claims := by
  induction claims generalizing seen with
  | nil => exact h
  | cons first claims ih =>
      rw [distinctClaims] at h
      split_ifs at h with hseen
      · exact List.mem_cons_of_mem first (ih h)
      · cases List.mem_cons.mp h with
        | inl heq => exact heq ▸ List.mem_cons_self
        | inr hmem => exact List.mem_cons_of_mem first (ih hmem)

/-- A number is all that changes of a claim. -/
theorem exists_of_mem_renumber {claims : List Claim} {claim : Claim}
    (h : claim ∈ renumber claims) :
    ∃ before ∈ claims, ∃ ordinal, claim = { before with ordinal } := by
  obtain ⟨i, hi, rfl⟩ := List.mem_mapIdx.mp h
  exact ⟨claims[i], List.getElem_mem hi, (i : ℤ) + 1, rfl⟩

/-- A claim of the answer is a claim of the output, but for its number and its text. -/
theorem exists_claim_of_normalized {claims normalized : List Claim}
    (h : claims.mapM (normalizeClaim I context facts output includeContext requested) =
      some normalized) {claim : Claim} (hmem : claim ∈ renumber (distinctClaims normalized [])) :
    ∃ before ∈ claims, claim.citationRefs = before.citationRefs ∧
      (claim.claimType = .erpFact → ∃ atoms,
        claimAtoms (liveFactFields context.currentDocument.doctype) requested facts output
          claim.citationRefs [] = some atoms ∧ atoms ≠ [] ∧
        claim.text = atomsText I includeContext atoms) := by
  obtain ⟨renamed, hrenamed, ordinal, rfl⟩ := exists_of_mem_renumber hmem
  obtain ⟨before, hbefore, hnormalize⟩ := exists_left_of_mem (forall₂_of_mapM_eq_some h)
    (mem_of_mem_distinctClaims hrenamed)
  obtain ⟨-, hrefs, herp⟩ := normalizeClaim_eq_some hnormalize
  exact ⟨before, hbefore, hrefs, herp⟩

end Normalized

/-! ## The answer -/

/-- What an output is that is grounded: its citations are those of the given one, bound, and all
that its claims cite is valid. -/
theorem groundOutput_eq_some {prepared : Prepared} {output normalized : ProviderOutput}
    (h : groundOutput I S request context prepared output = some normalized) :
    ∃ citations claims answer,
      output.citations.mapM (materializeCitation request context prepared.facts) = some citations ∧
      validateCitationGraph request context prepared.selectedHits prepared.facts
        { output with citations } = true ∧
      output.claims.mapM (normalizeClaim I context prepared.facts { output with citations }
        (includesContext S.casefold request.question) (requestedLiveFields S.casefold
          request.question (liveFactFields context.currentDocument.doctype))) = some claims ∧
      answer = (Text.ofString "\n").intercalate
        ((renumber (distinctClaims claims [])).map Claim.text) ∧
      ProviderOutput.validate { output with
        answer, claims := renumber (distinctClaims claims []), citations } = some normalized := by
  obtain ⟨materialized, hmaterialized, h⟩ := Option.bind_eq_some_iff.mp h
  obtain ⟨citations, hcitations, rfl⟩ := Option.map_eq_some_iff.mp hmaterialized
  obtain ⟨hgraph, h⟩ := Option.ite_none_right_eq_some.mp h
  obtain ⟨claims, hclaims, h⟩ := Option.bind_eq_some_iff.mp h
  obtain ⟨-, h⟩ := Option.ite_none_left_eq_some.mp h
  exact ⟨citations, claims, _, hcitations, hgraph, hclaims, rfl, h⟩

/-- An answer has the status, the claims and the citations of its output. -/
theorem ofOutput_eq_some {output : ProviderOutput} {trace : RetrievalTrace} {usage : TokenUsage}
    {packages : List ValidatedClaim} {answer : CoachAnswer}
    (h : CoachAnswer.ofOutput output trace usage packages = some answer) :
    ∃ checked, output.validate = some checked ∧ answer.answerStatus = checked.answerStatus ∧
      answer.answer = checked.answer ∧ answer.claims = checked.claims ∧
      answer.citations = checked.citations := by
  obtain ⟨tokenUsage, -, h⟩ := Option.bind_eq_some_iff.mp h
  obtain ⟨checked, hchecked, h⟩ := Option.bind_eq_some_iff.mp h
  obtain ⟨-, -, h⟩ := Option.bind_eq_some_iff.mp h
  obtain rfl := Option.some.inj h
  exact ⟨checked, hchecked, rfl, rfl, rfl, rfl⟩

/-- An output that is valid as it is, with no selector, is displayed as it is. -/
theorem exists_ofOutput {output : ProviderOutput} {trace : RetrievalTrace}
    {usage checked : TokenUsage} {packages : List ValidatedClaim}
    (hvalid : output.validate = some output) (husage : usage.checked = some checked)
    (hselector : (output.citations.all fun citation => !citation.isSelector) = true) :
    ∃ answer, CoachAnswer.ofOutput output trace usage packages = some answer ∧
      answer.answerStatus = output.answerStatus ∧ answer.claims = output.claims ∧
      answer.citations = output.citations := by
  rw [CoachAnswer.ofOutput, husage, hvalid]
  simp only [Option.bind_eq_bind, Option.bind_some, hselector, guard_true, Option.pure_def]
  exact ⟨_, rfl, rfl, rfl, rfl⟩

/-- Whether a status is one of those that are displayed. -/
def AnswerStatus.displayable (status : AnswerStatus) : Prop :=
  status = .answered ∨ status = .conflict

/-- An answer that is displayed is that of its output, unchanged. -/
theorem ofOutput_displayable {output : ProviderOutput} {trace : RetrievalTrace}
    {usage : TokenUsage} {packages : List ValidatedClaim} {answer : CoachAnswer}
    (h : CoachAnswer.ofOutput output trace usage packages = some answer)
    (hstatus : answer.answerStatus.displayable) :
    output.answerStatus.displayable ∧ answer.answer = output.answer ∧
      answer.claims = output.claims ∧ answer.citations = output.citations := by
  obtain ⟨checked, hchecked, hsame, hanswer, hclaims, hcitations⟩ := ofOutput_eq_some h
  rw [hsame] at hstatus
  obtain rfl := ProviderOutput.validate_displayable hchecked hstatus
  exact ⟨hstatus, hanswer, hclaims, hcitations⟩

/-- An answer that failed is not displayed. -/
theorem not_displayable_of_failed {status : AnswerStatus} {reason : SafeReason}
    {trace : RetrievalTrace} {usage : TokenUsage} {answer : CoachAnswer}
    (h : failedAnswer status reason trace usage = some answer) (hstatus : ¬status.displayable) :
    ¬answer.answerStatus.displayable := by
  intro hdisplayable
  exact hstatus (ofOutput_displayable h hdisplayable).1

theorem not_displayable_unknown : ¬AnswerStatus.unknown.displayable := by
  intro h
  cases h with
  | inl h => cases h
  | inr h => cases h

theorem not_displayable_refused : ¬AnswerStatus.refused.displayable := by
  intro h
  cases h with
  | inl h => cases h
  | inr h => cases h

/-- The loop fails with `UNKNOWN` or `REFUSED` only. -/
theorem not_displayable_of_consume {failover unavailable : Bool} {inputBudget : ℤ}
    {usage spent : TokenUsage} {events : List ProviderEvent} {status : AnswerStatus}
    {reason : SafeReason}
    (h : consume I failover unavailable inputBudget usage events = .failed status reason spent) :
    ¬status.displayable := by
  induction events generalizing usage with
  | nil =>
      rw [consume, Consumed.failed.injEq] at h
      exact h.1 ▸ not_displayable_unknown
  | cons event events ih =>
      cases event with
      | providerError usage =>
          rw [consume, Consumed.failed.injEq] at h
          exact h.1 ▸ not_displayable_refused
      | otherError =>
          rw [consume, Consumed.failed.injEq] at h
          exact h.1 ▸ not_displayable_unknown
      | response r =>
          simp only [consume] at h
          split_ifs at h with hnegative hbudget htools hunavailable
          · rw [Consumed.failed.injEq] at h
            exact h.1 ▸ not_displayable_refused
          · rw [Consumed.failed.injEq] at h
            exact h.1 ▸ not_displayable_refused
          · rw [Consumed.failed.injEq] at h
            exact h.1 ▸ not_displayable_refused
          · rw [Consumed.failed.injEq] at h
            exact h.1 ▸ not_displayable_unknown
          · cases hparse : parseCoachProviderOutput I r.text with
            | none =>
                simp only [hparse] at h
                exact ih h
            | some output =>
                simp only [hparse] at h
                split_ifs at h
                exact ih h
          · cases hparse : parseCoachProviderOutput I r.text with
            | none =>
                simp only [hparse, Consumed.failed.injEq] at h
                exact h.1 ▸ not_displayable_unknown
            | some output =>
                simp only [hparse] at h
                split_ifs at h
                exact ih h

/-- A response that is read ends the loop, unless it says `UNKNOWN`. -/
theorem consume_of_parse {failover : Bool} {inputBudget : ℤ} {usage : TokenUsage}
    {r : ProviderResponse} {events : List ProviderEvent} {output : ProviderOutput}
    (htokens : 0 ≤ r.usage.promptTokens ∧ r.usage.promptTokens ≤ inputBudget)
    (htools : r.callsTools = false) (hparse : parseCoachProviderOutput I r.text = some output)
    (hstatus : output.answerStatus ≠ .unknown) :
    consume I failover false inputBudget usage (.response r :: events) =
      .parsed output (usage.combined r.usage) := by
  simp only [consume, htools, hparse]
  rw [if_neg (not_lt.mpr htokens.1), if_neg (not_lt.mpr htokens.2), if_neg Bool.false_ne_true,
    if_neg Bool.false_ne_true, if_neg fun h => hstatus h.1]

/-- Once a response is read, the answer is the answer to its output. -/
theorem answerCoach_of_parsed {provider : Provider} {prepared : Prepared}
    {output : ProviderOutput} {usage : TokenUsage}
    (hprepared : prepare I S request context hits = .ok prepared)
    (htrace : (traceOf prepared.selectedHits prepared.facts prepared.context.fragmentIds).valid =
      true)
    (hconsume : consume I provider.failover
      (requiresUnavailableQuantity S.casefold request.question) prepared.context.inputBudget {}
      provider.events = .parsed output usage) :
    answerCoach I S request context hits provider =
      answerOutput I S request context prepared
        (traceOf prepared.selectedHits prepared.facts prepared.context.fragmentIds) usage output := by
  simp only [answerCoach, hprepared, htrace, hconsume, if_true]

/-- The answer to an output that is grounded, with its packages. -/
theorem answerOutput_of_grounded {prepared : Prepared} {trace : RetrievalTrace}
    {usage : TokenUsage} {output grounded : ProviderOutput} {packages : List ValidatedClaim}
    (hdisplayed : ¬(output.answerStatus = .unknown ∨ output.answerStatus = .refused))
    (hgrounded : groundOutput I S request context prepared output = some grounded)
    (hpackages : validatedClaims I grounded request context S.token = some packages) :
    answerOutput I S request context prepared trace usage output =
      CoachAnswer.ofOutput grounded trace usage packages := by
  rw [answerOutput, if_neg hdisplayed]
  simp only [hgrounded, hpackages]

/-- An output that is read, grounded and signed is answered. -/
theorem exists_answer_of_grounded {provider : Provider} {prepared : Prepared}
    {output grounded : ProviderOutput} {usage checked : TokenUsage} {packages : List ValidatedClaim}
    (hprepared : prepare I S request context hits = .ok prepared)
    (htrace : (traceOf prepared.selectedHits prepared.facts prepared.context.fragmentIds).valid =
      true)
    (hconsume : consume I provider.failover
      (requiresUnavailableQuantity S.casefold request.question) prepared.context.inputBudget {}
      provider.events = .parsed output usage)
    (hdisplayed : ¬(output.answerStatus = .unknown ∨ output.answerStatus = .refused))
    (hgrounded : groundOutput I S request context prepared output = some grounded)
    (hpackages : validatedClaims I grounded request context S.token = some packages)
    (hvalid : grounded.validate = some grounded) (husage : usage.checked = some checked)
    (hselector : (grounded.citations.all fun citation => !citation.isSelector) = true) :
    ∃ answer, answerCoach I S request context hits provider = some answer ∧
      answer.answerStatus = grounded.answerStatus ∧ answer.claims = grounded.claims ∧
      answer.citations = grounded.citations := by
  rw [answerCoach_of_parsed hprepared htrace hconsume,
    answerOutput_of_grounded hdisplayed hgrounded hpackages]
  exact exists_ofOutput hvalid husage hselector

/-- An answer that is displayed is that of an output that was grounded. -/
theorem exists_grounded_output {provider : Provider} {answer : CoachAnswer}
    (h : answerCoach I S request context hits provider = some answer)
    (hstatus : answer.answerStatus.displayable) :
    ∃ prepared output normalized,
      prepare I S request context hits = .ok prepared ∧
      groundOutput I S request context prepared output = some normalized ∧
      normalized.answerStatus.displayable ∧ answer.answer = normalized.answer ∧
      answer.claims = normalized.claims ∧ answer.citations = normalized.citations := by
  rw [answerCoach] at h
  split at h
  · exact absurd hstatus (not_displayable_of_failed h not_displayable_unknown)
  · rename_i prepared hprepared
    obtain ⟨htrace, h⟩ := Option.ite_none_right_eq_some.mp h
    split at h
    · rename_i hconsume
      exact absurd hstatus (not_displayable_of_failed h (not_displayable_of_consume hconsume))
    · rename_i output usage hconsume
      rw [answerOutput] at h
      split_ifs at h with hrefused
      · have hunknown := (ofOutput_displayable h hstatus).1
        cases hrefused with
        | inl heq => exact absurd (heq ▸ hunknown) not_displayable_unknown
        | inr heq => exact absurd (heq ▸ hunknown) not_displayable_refused
      · split at h
        · exact absurd hstatus (not_displayable_of_failed h not_displayable_unknown)
        · rename_i normalized hnormalized
          split at h
          · exact absurd hstatus (not_displayable_of_failed h not_displayable_unknown)
          · exact ⟨prepared, output, normalized, hprepared, hnormalized,
              ofOutput_displayable h hstatus⟩

/-- A context that is built is ready. -/
theorem prepare_of_built {fragment : ContextFragment} {selected : List SearchHit}
    {fragments : List ContextFragment} {built : BuiltContext}
    (hfragment : currentContextToFragment I request context = some fragment)
    (hfacts : digestFacts I context.facts = some facts)
    (hselected : validSelectedHits I hits = some selected)
    (hfragments : searchHitsToContextFragments I selected = some fragments)
    (hbuilt : S.buildContext request.question (fragment :: fragments) = .ok built) :
    prepare I S request context hits = .ok ⟨facts, selected, built⟩ := by
  simp only [prepare, hfragment, hfacts, hselected, hfragments, hbuilt]

/-- What is prepared is what the Coach was given. -/
theorem prepare_eq_ok {prepared : Prepared}
    (h : prepare I S request context hits = .ok prepared) :
    digestFacts I context.facts = some prepared.facts ∧
      validSelectedHits I hits = some prepared.selectedHits := by
  rw [prepare] at h
  split at h
  · rename_i fragment facts selected hfragment hfacts hselected
    split at h
    · cases h
    · split at h
      · obtain rfl := Except.ok.inj h
        exact ⟨hfacts, hselected⟩
      · cases h
      · cases h
  · cases h

/-- The citations of an output that is displayed stand on the snapshot and on the hits. -/
theorem grounded_citation {prepared : Prepared} {output normalized : ProviderOutput}
    (hprepared : prepare I S request context hits = .ok prepared)
    (hground : groundOutput I S request context prepared output = some normalized)
    (hdisplayable : normalized.answerStatus.displayable) {citation : Citation}
    (hmem : citation ∈ normalized.citations) :
    (∃ c, citation = .live c ∧ LiveGrounded I context c) ∨
      ∃ c, citation = .retrieval c ∧ RetrievalGrounded hits c := by
  obtain ⟨hfacts, hselected⟩ := prepare_eq_ok hprepared
  obtain ⟨citations, claims, text, hmaterialized, hgraph, hnormalized, -, hvalidate⟩ :=
    groundOutput_eq_some hground
  have hshape := (ProviderOutput.finish_eq_some
    (ProviderOutput.validate_eq_some hvalidate).2.2).2
  obtain rfl := ProviderOutput.validate_displayable hvalidate hdisplayable
  obtain ⟨claim, hclaim, href⟩ := ProviderOutput.exists_claim_of_mem_citations hshape hmem
  obtain ⟨before, hbefore, hrefs, -⟩ := exists_claim_of_normalized hnormalized hclaim
  have hfound : ProviderOutput.citation? { output with citations } citation.citationId =
      some citation := ProviderOutput.citation?_of_mem hshape hmem
  simp only [validateCitationGraph, List.all_eq_true, Bool.and_eq_true] at hgraph
  have hvalid := (hgraph before hbefore).2 citation.citationId (hrefs ▸ href)
  rw [hfound, Option.any_some] at hvalid
  obtain ⟨given, -, hgiven⟩ := exists_left_of_mem (forall₂_of_mapM_eq_some hmaterialized) hmem
  cases citation with
  | live c =>
      exact Or.inl ⟨c, rfl, liveGrounded_of_validate hfacts hvalid
        (exists_fact_of_materialized hgiven)⟩
  | retrieval c => exact Or.inr ⟨c, rfl, retrievalGrounded_of_validate hselected hvalid⟩
  | selector id fields => cases hvalid
  | memory c => cases hvalid

/-- An answer that is displayed stands on the snapshot and on the hits it was given. -/
theorem answerCoach_grounded {provider : Provider} {answer : CoachAnswer}
    (h : answerCoach I S request context hits provider = some answer)
    (hstatus : answer.answerStatus = .answered ∨ answer.answerStatus = .conflict) :
    Grounded I context hits answer := by
  obtain ⟨prepared, output, normalized, hprepared, hground, hdisplayable, hanswer, hclaims,
    hcitations⟩ := exists_grounded_output h hstatus
  obtain ⟨hfacts, hselected⟩ := prepare_eq_ok hprepared
  obtain ⟨citations, claims, text, hmaterialized, hgraph, hnormalized, htext, hvalidate⟩ :=
    groundOutput_eq_some hground
  have hshape := (ProviderOutput.finish_eq_some
    (ProviderOutput.validate_eq_some hvalidate).2.2).2
  obtain rfl := ProviderOutput.validate_displayable hvalidate hdisplayable
  refine
    { text := ?_
      citations := ?_
      claims := ?_ }
  · rw [hanswer, hclaims]
    exact htext
  · intro citation hmem
    rw [hcitations] at hmem
    exact grounded_citation hprepared hground hdisplayable hmem
  · intro claim hclaim herp
    rw [hclaims] at hclaim
    obtain ⟨-, -, -, hatoms⟩ := exists_claim_of_normalized hnormalized hclaim
    obtain ⟨atoms, hatoms, hnonempty, htext⟩ := hatoms herp
    have hsame : ProviderOutput.citations { output with citations } = citations := rfl
    rw [hcitations]
    exact ⟨atoms, erpGrounded_of_claimAtoms hfacts hsame
      (ProviderOutput.nodup_citationIds hshape) hatoms hnonempty htext⟩

/-! ### Two lines in one claim, two hits of one chunk id -/

/-- A question about the document `M`. -/
def plainRequest : QuestionRequest where
  runId := "00000000-0000-0000-0000-000000000001"
  correlationId := "00000000-0000-0000-0000-000000000002"
  question := "q"
  currentDocument := ⟨.materialRequest, "M"⟩

def plainContext (facts : List CurrentFact) : CurrentDocumentContext where
  runId := "00000000-0000-0000-0000-000000000001"
  stateVersion := 1
  currentDocument := ⟨.materialRequest, "M"⟩
  authorizedCompany := "C"
  authorizedWarehouse := none
  coverage := "FULL_DOCUMENT"
  capturedAt := "T"
  sourceModifiedAt := none
  frappeRevision := none
  erpnextRevision := none
  facts := facts

/-- Questions in ASCII, a budget of a hundred tokens and no runtime token. -/
def plainSurroundings : Surroundings where
  casefold := List.map Text.asciiLower
  buildContext _ _ := .ok ⟨[], 100⟩
  token := []

/-- A provider that responds once. -/
def respondsWith (output : Dict) : Provider where
  failover := false
  events := [.response ⟨Json.render Interpreter.ascii (.dict output), false, {}⟩]

/-- A line of the document with its quantities. -/
def quantityFact (requested openOrder : Option Text) : CurrentFact :=
  .materialRequest ⟨"C", 0, "D", "T", none, none, none, none⟩ "M" "P" requested none openOrder

def firstDigest : Text := "6eb488d51d732e2f389fe216714e31c4fdccf1406ac95424357d57136786b5bf"

def secondDigest : Text := "6f401b820eddc7956e51c3cd962da308f328c3a9ee2ddb5a135a8906b3e4eeac"

/-- Two lines, each with one of its quantities. -/
def twoLines : Facts :=
  [(firstDigest, quantityFact (some "3") none), (secondDigest, quantityFact none (some "7"))]

def twoLinesContext : CurrentDocumentContext := plainContext (twoLines.map Prod.snd)

def sharedChunk (content contentDigest : Text) : SearchHit where
  title := "t"
  path := "p"
  sourceType := "s"
  revision := "r"
  erpVersion := "e"
  permissionScope := "public"
  chunkId := List.replicate 64 (codePoint 'a')
  ordinal := 1
  sectionName := "n"
  contentDigest := contentDigest
  content := content

/-- Two hits of one chunk id. The content of the second does not hash to its digest. -/
def sharedHits : List SearchHit :=
  [sharedChunk "x" "2d711642b726b04401627ca9fbac32f5c8530fb1903cc4db02258717921a4881",
    sharedChunk "y" (List.replicate 64 (codePoint 'f'))]

/-- The citation of the second hit. -/
def sharedCitation : RetrievalCitation where
  citationId := "z"
  chunkId := List.replicate 64 (codePoint 'a')
  contentDigest := List.replicate 64 (codePoint 'f')
  ordinal := 1
  sourceType := "s"
  revision := "r"
  erpVersion := "e"
  permissionScope := "public"

/-- A claim that cites both lines, and one that cites the chunk. -/
def mixedOutput : ProviderOutput where
  answerStatus := .answered
  answer := "a"
  claims := [⟨"c", 1, .erpFact, "t", ["x", "y"]⟩, ⟨"d", 2, .retrievedKnowledge, "u", ["z"]⟩]
  citations := [.selector "x" [.requestedStockQty], .selector "y" [.openOrderStockQty],
    .retrieval sharedCitation]
  refusalReason := none

def Claim.object (claim : Claim) : Value :=
  .dict [("claim_id", .str claim.claimId), ("ordinal", .int claim.ordinal),
    ("claim_type", .str claim.claimType.text), ("text", .str claim.text),
    ("citation_refs", .list (claim.citationRefs.map .str))]

/-- An output that gives no reason, as a provider writes it. -/
def ProviderOutput.object (o : ProviderOutput) : Dict :=
  [("answer_status", .str o.answerStatus.text), ("answer", .str o.answer),
    ("claims", .list (o.claims.map Claim.object)),
    ("citations", .list (o.citations.map Citation.object))]

/-- What the provider responds with. -/
def mixedResponse : Dict := mixedOutput.object

/-- The claims of its answer, with the values of both lines in the first. -/
def mixedClaims : List Claim :=
  [⟨"c", 1, .erpFact, "open_order_stock_qty=\"7\"; requested_stock_qty=\"3\"", ["x", "y"]⟩,
    ⟨"d", 2, .retrievedKnowledge, "u", ["z"]⟩]

/-- The output that is displayed. -/
def mixedGrounded : ProviderOutput where
  answerStatus := .answered
  answer := (Text.ofString "\n").intercalate (mixedClaims.map Claim.text)
  claims := mixedClaims
  citations :=
    [boundCitation plainRequest twoLinesContext "x" [.requestedStockQty] firstDigest,
      boundCitation plainRequest twoLinesContext "y" [.openOrderStockQty] secondDigest,
      .retrieval sharedCitation]
  refusalReason := none

/-- What is computed of the response and of the snapshot. -/
structure MixedEvaluation : Prop where
  ascii : ((Json.render Interpreter.ascii (.dict mixedResponse)).all fun c => c.val < 0x80) = true
  length : (Json.render Interpreter.ascii (.dict mixedResponse)).length ≤ 64000
  loads : Json.loads Interpreter.ascii jsonHooks
    (Json.render Interpreter.ascii (.dict mixedResponse)) = some (.dict mixedResponse)
  normalize : normalizeProviderCompatibility mixedResponse = some mixedResponse
  version : item mixedResponse "schema_version" ≠ .ofString "1.0"
  read : readOutput mixedResponse = some mixedOutput
  firstDigest : currentFactDigest Interpreter.ascii (quantityFact (some "3") none) = some firstDigest
  secondDigest : currentFactDigest Interpreter.ascii (quantityFact none (some "7")) =
    some secondDigest
  payload : ((Json.dumps Interpreter.ascii (twoLinesContext.payload twoLines)).any fun t =>
    t.all (fun c => c.val < 0x80) && decide (1 ≤ t.length ∧ t.length ≤ 16000)) = true
  selected : validSelectedHits Interpreter.ascii sharedHits = some sharedHits
  fragments : (searchHitsToContextFragments Interpreter.ascii sharedHits).isSome = true
  available : requiresUnavailableQuantity plainSurroundings.casefold plainRequest.question = false
  trace : (traceOf sharedHits twoLines []).valid = true
  ground : groundOutput Interpreter.ascii plainSurroundings plainRequest twoLinesContext
    ⟨twoLines, sharedHits, ⟨[], 100⟩⟩ mixedOutput = some mixedGrounded
  validate : mixedGrounded.validate = some mixedGrounded

theorem mixedEvaluation : MixedEvaluation where
  ascii := by decide +kernel
  length := by decide +kernel
  loads := by decide +kernel
  normalize := by decide +kernel
  version := by decide +kernel
  read := by decide +kernel
  firstDigest := by decide +kernel
  secondDigest := by decide +kernel
  payload := by decide +kernel
  selected := by decide +kernel
  fragments := by decide +kernel
  available := by decide +kernel
  trace := by decide +kernel
  ground := by decide +kernel
  validate := by decide +kernel

theorem parse_mixedResponse :
    parseCoachProviderOutput Interpreter.ascii
      (Json.render Interpreter.ascii (.dict mixedResponse)) = some mixedOutput :=
  parse_of_stages mixedEvaluation.ascii mixedEvaluation.length mixedEvaluation.loads
    mixedEvaluation.normalize mixedEvaluation.version mixedEvaluation.read

theorem digestFacts_twoLines :
    digestFacts Interpreter.ascii twoLinesContext.facts = some twoLines := by
  simp [twoLinesContext, plainContext, twoLines, digestFacts, mixedEvaluation.firstDigest,
    mixedEvaluation.secondDigest]

theorem prepare_twoLines :
    prepare Interpreter.ascii plainSurroundings plainRequest twoLinesContext sharedHits =
      .ok ⟨twoLines, sharedHits, ⟨[], 100⟩⟩ := by
  obtain ⟨content, hdumps, hascii⟩ := Option.any_eq_true _ _ |>.mp mixedEvaluation.payload
  rw [Bool.and_eq_true] at hascii
  have hstring := isString_of_ascii hascii.1 (of_decide_eq_true hascii.2)
  obtain ⟨fragment, hfragment⟩ := Option.isSome_iff_exists.mp
    (@isSome_currentContextToFragment Interpreter.ascii plainRequest twoLinesContext twoLines
      content rfl rfl digestFacts_twoLines hdumps (by decide) hstring)
  obtain ⟨fragments, hfragments⟩ := Option.isSome_iff_exists.mp mixedEvaluation.fragments
  exact prepare_of_built hfragment digestFacts_twoLines mixedEvaluation.selected hfragments rfl

theorem consume_mixedResponse :
    consume Interpreter.ascii (respondsWith mixedResponse).failover
      (requiresUnavailableQuantity plainSurroundings.casefold plainRequest.question) 100 {}
      (respondsWith mixedResponse).events = .parsed mixedOutput {} := by
  rw [mixedEvaluation.available]
  exact consume_of_parse (by decide) rfl parse_mixedResponse (by decide)

/-- The answer that is displayed. -/
theorem exists_mixedAnswer :
    ∃ answer, answerCoach Interpreter.ascii plainSurroundings plainRequest twoLinesContext sharedHits
        (respondsWith mixedResponse) = some answer ∧
      answer.answerStatus = .answered ∧ answer.claims = mixedClaims ∧
      Citation.retrieval sharedCitation ∈ answer.citations := by
  have hmem : Citation.retrieval sharedCitation ∈ mixedGrounded.citations := by
    rw [mixedGrounded]
    simp
  obtain ⟨answer, hanswer, hstatus, hclaims, hcitations⟩ := exists_answer_of_grounded
    prepare_twoLines mixedEvaluation.trace consume_mixedResponse (by decide) mixedEvaluation.ground
    rfl mixedEvaluation.validate (show TokenUsage.checked {} = some {} by decide) rfl
  exact ⟨answer, hanswer, hstatus, hclaims, hcitations ▸ hmem⟩

theorem answerCoach_grounded_mixedAnswer :
    ∃ answer, answerCoach Interpreter.ascii plainSurroundings plainRequest twoLinesContext sharedHits
        (respondsWith mixedResponse) = some answer ∧
      Grounded Interpreter.ascii twoLinesContext sharedHits answer := by
  obtain ⟨answer, hanswer, hstatus, -, -⟩ := exists_mixedAnswer
  exact ⟨answer, hanswer, answerCoach_grounded hanswer (Or.inl hstatus)⟩

/-- The first claim shows a quantity of each of two lines. The citation of the second claim is
of no hit whose content hashes to its digest. -/
theorem mixedAnswer_two_lines :
    ∃ answer, answerCoach Interpreter.ascii plainSurroundings plainRequest twoLinesContext sharedHits
        (respondsWith mixedResponse) = some answer ∧ answer.answerStatus = .answered ∧
      (∃ claim ∈ answer.claims, claim.claimType = .erpFact ∧
        claim.text = Text.ofString "open_order_stock_qty=\"7\"; requested_stock_qty=\"3\"" ∧
        ¬∃ fact ∈ twoLinesContext.facts, fact.value? .openOrderStockQty = some (.str "7") ∧
          fact.value? .requestedStockQty = some (.str "3")) ∧
      ∃ c, Citation.retrieval c ∈ answer.citations ∧
        ¬∃ hit ∈ sharedHits, hit.contentDigest = c.contentDigest ∧
          sha256Text hit.content = some c.contentDigest := by
  obtain ⟨answer, hanswer, hstatus, hclaims, hcitation⟩ := exists_mixedAnswer
  refine ⟨answer, hanswer, hstatus, ?_, sharedCitation, hcitation, ?_⟩
  · rw [hclaims]
    refine ⟨_, List.mem_cons_self, rfl, rfl, ?_⟩
    decide
  · decide +kernel

end Coach
