import SynoraErp.Coach.Grounding

/-!
# Independence of the prose

Two runs of the Coach whose provider differs only in its prose and in the metadata it gives
live citations. What is displayed is the same: the metadata is that of the snapshot once a
citation is bound, and the text of a claim about the current document is written anew. A
memory citation is displayed by neither run.
-/

namespace Coach

open Python Governance

/-! ## Outputs that differ in their prose -/

/-- Two citations of one id and one shape; what they say of the snapshot may differ. -/
inductive Citation.Agrees : Citation → Citation → Prop
  | live {c d : LiveCitation} (citationId : c.citationId = d.citationId)
      (factFields : c.factFields = d.factFields) (factDigest : c.factDigest = d.factDigest) :
      Agrees (.live c) (.live d)
  | selector (id : Text) (fields : List LiveFactField) : Agrees (.selector id fields) (.selector id fields)
  | retrieval (c : RetrievalCitation) : Agrees (.retrieval c) (.retrieval c)
  | memory {c d : MemoryCitation} (citationId : c.citationId = d.citationId) :
      Agrees (.memory c) (.memory d)

/-- Two claims of one id, one type and the same citations; the text of one about the current
document may differ. -/
structure Claim.Agrees (c d : Claim) : Prop where
  claimId : c.claimId = d.claimId
  claimType : c.claimType = d.claimType
  citationRefs : c.citationRefs = d.citationRefs
  text : c.claimType ≠ .erpFact → c.text = d.text

/-- Two outputs that differ in their prose. -/
structure ProviderOutput.Agrees (o p : ProviderOutput) : Prop where
  answerStatus : o.answerStatus = p.answerStatus
  claims : List.Forall₂ Claim.Agrees o.claims p.claims
  citations : List.Forall₂ Citation.Agrees o.citations p.citations

/-- Two responses of one text, or of two texts that are read as outputs that differ in their
prose. -/
structure ProviderResponse.Agrees (I : Interpreter) (r s : ProviderResponse) : Prop where
  callsTools : r.callsTools = s.callsTools
  usage : r.usage = s.usage
  text : r.text = s.text ∨ ∃ o p, parseCoachProviderOutput I r.text = some o ∧
    parseCoachProviderOutput I s.text = some p ∧ o.Agrees p

inductive ProviderEvent.Agrees (I : Interpreter) : ProviderEvent → ProviderEvent → Prop
  | response {r s : ProviderResponse} (h : r.Agrees I s) : Agrees I (.response r) (.response s)
  | providerError (usage : TokenUsage) : Agrees I (.providerError usage) (.providerError usage)
  | otherError : Agrees I .otherError .otherError

/-- Two providers that do the same but for the prose of their responses. -/
structure Provider.Agrees (I : Interpreter) (p q : Provider) : Prop where
  failover : p.failover = q.failover
  events : List.Forall₂ (ProviderEvent.Agrees I) p.events q.events

/-- What is displayed of an answer, with the packages that are signed. -/
def CoachAnswer.displayed (answer : CoachAnswer) :
    AnswerStatus × Text × List Claim × List Citation × List ValidatedClaim :=
  (answer.answerStatus, answer.answer, answer.claims, answer.citations, answer.validatedClaims)

theorem Citation.Agrees.refl (c : Citation) : c.Agrees c := by
  cases c with
  | live c => exact .live rfl rfl rfl
  | selector id fields => exact .selector id fields
  | retrieval c => exact .retrieval c
  | memory c => exact .memory rfl

theorem ProviderOutput.Agrees.refl (o : ProviderOutput) : o.Agrees o where
  answerStatus := rfl
  claims := List.forall₂_same.mpr fun _ _ => ⟨rfl, rfl, rfl, fun _ => rfl⟩
  citations := List.forall₂_same.mpr fun c _ => .refl c

theorem Citation.Agrees.citationId {c d : Citation} (h : c.Agrees d) :
    c.citationId = d.citationId := by
  cases h with
  | live hid _ _ => exact hid
  | selector id fields => rfl
  | retrieval c => rfl
  | memory hid => exact hid

/-! ## Bound citations -/

/-- Two partial maps that are related at every pair of entries are related on the lists. -/
theorem mapM_rel {α β γ δ : Type} {r : α → β → Prop} {s : γ → δ → Prop} {f : α → Option γ}
    {g : β → Option δ} (hfg : ∀ a b, r a b → Option.Rel s (f a) (g b)) {xs : List α} {ys : List β}
    (h : List.Forall₂ r xs ys) : Option.Rel (List.Forall₂ s) (xs.mapM f) (ys.mapM g) := by
  induction h with
  | nil => exact .some .nil
  | @cons x y xs ys hxy _ ih =>
      have hhead := hfg x y hxy
      rw [List.mapM_cons, List.mapM_cons]
      generalize f x = a at hhead ⊢
      generalize g y = b at hhead ⊢
      cases hhead with
      | none => exact .none
      | some hab =>
          generalize xs.mapM f = as at ih ⊢
          generalize ys.mapM g = bs at ih ⊢
          cases ih with
          | none => exact .none
          | some hrest => exact .some (.cons hab hrest)

section Bound

variable {request : QuestionRequest} {context : CurrentDocumentContext} {facts : Facts}
  {hits : List SearchHit}

/-- Two bound citations: the same, or two memory citations. -/
def Citation.SameBound (c d : Citation) : Prop :=
  c = d ∨ ∃ m n, c = .memory m ∧ d = .memory n ∧ m.citationId = n.citationId

theorem Citation.SameBound.citationId {c d : Citation} (h : c.SameBound d) :
    c.citationId = d.citationId := by
  cases h with
  | inl heq => rw [heq]
  | inr hmemory =>
      obtain ⟨m, n, rfl, rfl, hid⟩ := hmemory
      exact hid

/-- Binding replaces the metadata, so two citations that agree are bound to the same. -/
theorem materializeCitation_agrees {c d : Citation} (h : c.Agrees d) :
    Option.Rel Citation.SameBound (materializeCitation request context facts c)
      (materializeCitation request context facts d) := by
  cases h with
  | @live c d hid hfields hdigest =>
      rw [materializeCitation, materializeCitation, hid, hfields, hdigest]
      cases (facts.candidates d.factFields).selected? d.factDigest with
      | none => exact .none
      | some digest => exact .some (.inl rfl)
  | selector id fields =>
      cases materializeCitation request context facts (.selector id fields) with
      | none => exact .none
      | some bound => exact .some (.inl rfl)
  | retrieval c => exact .some (.inl rfl)
  | @memory c d hid => exact .some (.inr ⟨c, d, rfl, rfl, hid⟩)

theorem citationId_of_materialize {c bound : Citation}
    (h : materializeCitation request context facts c = some bound) :
    bound.citationId = c.citationId := by
  cases c with
  | live c =>
      obtain ⟨digest, -, rfl⟩ := Option.map_eq_some_iff.mp h
      rfl
  | selector id fields =>
      obtain ⟨digest, -, rfl⟩ := Option.map_eq_some_iff.mp h
      rfl
  | retrieval c =>
      obtain rfl := Option.some.inj h
      rfl
  | memory c =>
      obtain rfl := Option.some.inj h
      rfl

/-- Neither run binds its citations, or both bind them to the same. -/
theorem mapM_materialize_agrees {cs ds : List Citation} (h : List.Forall₂ Citation.Agrees cs ds) :
    Option.Rel (List.Forall₂ Citation.SameBound)
      (cs.mapM (materializeCitation request context facts))
      (ds.mapM (materializeCitation request context facts)) :=
  mapM_rel (fun _ _ hcd => materializeCitation_agrees hcd) h

/-- Two lists of bound citations find the same citation of an id. -/
theorem find?_sameBound {cs ds : List Citation} (h : List.Forall₂ Citation.SameBound cs ds)
    (id : Text) :
    Option.Rel Citation.SameBound (cs.find? (·.citationId = id)) (ds.find? (·.citationId = id)) := by
  induction h with
  | nil => exact .none
  | @cons c d cs ds hcd _ ih =>
      by_cases hid : c.citationId = id
      · have hid' : d.citationId = id := hcd.citationId ▸ hid
        rw [List.find?_cons_of_pos (by simpa using hid),
          List.find?_cons_of_pos (by simpa using hid')]
        exact .some hcd
      · have hid' : ¬d.citationId = id := hcd.citationId ▸ hid
        rw [List.find?_cons_of_neg (by simpa using hid),
          List.find?_cons_of_neg (by simpa using hid')]
        exact ih

/-- A citation stands for what the Coach was given in both runs or in neither. -/
theorem any_validateCitation {c d : Option Citation} (h : Option.Rel Citation.SameBound c d) :
    c.any (validateCitation request context hits facts) =
      d.any (validateCitation request context hits facts) := by
  cases h with
  | none => rfl
  | some hcd =>
      cases hcd with
      | inl heq => rw [heq]
      | inr hmemory =>
          obtain ⟨m, n, rfl, rfl, -⟩ := hmemory
          rfl

/-- The graph of two runs is valid in both or in neither. -/
theorem validateCitationGraph_agrees {o p : ProviderOutput}
    (hclaims : List.Forall₂ Claim.Agrees o.claims p.claims)
    (hcitations : List.Forall₂ Citation.SameBound o.citations p.citations) :
    validateCitationGraph request context hits facts o =
      validateCitationGraph request context hits facts p := by
  unfold validateCitationGraph
  generalize o.claims = cs at hclaims ⊢
  generalize p.claims = ds at hclaims ⊢
  induction hclaims with
  | nil => rfl
  | @cons c d cs ds hcd _ ih =>
      rw [List.all_cons, List.all_cons, ih, hcd.claimType, hcd.citationRefs]
      congr 3
      funext id
      exact any_validateCitation (find?_sameBound hcitations id)

/-- Where the graph is valid and no citation is an orphan, none is a memory citation. -/
theorem not_memory_of_validateCitationGraph {o : ProviderOutput}
    (hids : (o.citations.map Citation.citationId).Nodup)
    (horphans : ∀ citation ∈ o.citations, ∃ claim ∈ o.claims,
      citation.citationId ∈ claim.citationRefs)
    (h : validateCitationGraph request context hits facts o = true) {m : MemoryCitation} :
    Citation.memory m ∉ o.citations := by
  intro hmem
  obtain ⟨claim, hclaim, href⟩ := horphans _ hmem
  simp only [validateCitationGraph, List.all_eq_true, Bool.and_eq_true] at h
  have hvalid := (h claim hclaim).2 _ href
  have hfound : o.citation? (Citation.memory m).citationId = some (.memory m) :=
    SortedByKey.find?_key Citation.citationId hids hmem
  rw [hfound] at hvalid
  cases hvalid

theorem eq_of_sameBound {cs ds : List Citation} (h : List.Forall₂ Citation.SameBound cs ds)
    (hmemory : ∀ m, Citation.memory m ∉ cs) : cs = ds := by
  induction h with
  | nil => rfl
  | @cons c d cs ds hcd _ ih =>
      rw [ih fun m hmem => hmemory m (List.mem_cons_of_mem c hmem)]
      cases hcd with
      | inl heq => rw [heq]
      | inr hshape =>
          obtain ⟨m, n, rfl, -, -⟩ := hshape
          exact absurd List.mem_cons_self (hmemory m)

end Bound

/-! ## Claims that are written anew -/

/-- The claims of a checked output have the numbers of their places. -/
theorem ordinals_of_graphValid {o : ProviderOutput} (h : o.graphValid = true) :
    o.claims.map Claim.ordinal = (List.range o.claims.length).map fun i => (i : ℤ) + 1 := by
  simp only [ProviderOutput.graphValid, Bool.and_eq_true, decide_eq_true_eq] at h
  exact h.1.1.1.2

/-- Two claims of checked outputs agree in their numbers as well. -/
theorem forall₂_ordinal {o p : ProviderOutput} (ho : o.graphValid = true) (hp : p.graphValid = true)
    (h : List.Forall₂ Claim.Agrees o.claims p.claims) :
    List.Forall₂ (fun c d => c.Agrees d ∧ c.ordinal = d.ordinal) o.claims p.claims := by
  have hordinals : o.claims.map Claim.ordinal = p.claims.map Claim.ordinal := by
    rw [ordinals_of_graphValid ho, ordinals_of_graphValid hp, h.length_eq]
  clear ho hp
  generalize o.claims = cs at h hordinals
  generalize p.claims = ds at h hordinals
  induction h with
  | nil => exact .nil
  | cons hcd _ ih =>
      rw [List.map_cons, List.map_cons, List.cons_eq_cons] at hordinals
      exact .cons ⟨hcd, hordinals.1⟩ (ih hordinals.2)

/-- What a claim is written as does not depend on its prose. -/
theorem normalizeClaim_agrees {I : Interpreter} {context : CurrentDocumentContext} {facts : Facts}
    {o p : ProviderOutput} (hcitations : o.citations = p.citations) {includeContext : Bool}
    {requested : List LiveFactField} {c d : Claim} (h : c.Agrees d) (hordinal : c.ordinal = d.ordinal) :
    normalizeClaim I context facts o includeContext requested c =
      normalizeClaim I context facts p includeContext requested d := by
  have hatoms : ∀ references atoms,
      claimAtoms (liveFactFields context.currentDocument.doctype) requested facts o references atoms =
        claimAtoms (liveFactFields context.currentDocument.doctype) requested facts p references
          atoms := by
    intro references
    induction references with
    | nil =>
        intro atoms
        rfl
    | cons reference references ih =>
        intro atoms
        have hfun := funext ih
        rw [claimAtoms, claimAtoms, ProviderOutput.citation?, ProviderOutput.citation?, hcitations,
          hfun]
  obtain ⟨claimId, ordinal, claimType, text, citationRefs⟩ := c
  obtain ⟨claimId', ordinal', claimType', text', citationRefs'⟩ := d
  obtain ⟨rfl, rfl, rfl, htext⟩ := h
  obtain rfl := hordinal
  by_cases herp : claimType = .erpFact
  · simp only [normalizeClaim, normalizeErpClaim, hatoms, hcitations, if_pos herp]
  · obtain rfl := htext herp
    simp only [normalizeClaim, if_neg herp]

theorem mapM_normalizeClaim_agrees {I : Interpreter} {context : CurrentDocumentContext}
    {facts : Facts} {o p : ProviderOutput} (hcitations : o.citations = p.citations)
    {includeContext : Bool} {requested : List LiveFactField} {cs ds : List Claim}
    (h : List.Forall₂ (fun c d => c.Agrees d ∧ c.ordinal = d.ordinal) cs ds) :
    cs.mapM (normalizeClaim I context facts o includeContext requested) =
      ds.mapM (normalizeClaim I context facts p includeContext requested) := by
  induction h with
  | nil => rfl
  | cons hcd _ ih =>
      rw [List.mapM_cons, List.mapM_cons, ih, normalizeClaim_agrees hcitations hcd.1 hcd.2]

/-- Bound outputs that differ in their prose are written anew as one and the same. -/
theorem normalizeGroundedClaims_agrees {I : Interpreter} {casefold : Text → Text}
    {context : CurrentDocumentContext} {facts : Facts} {question : Text} {o p : ProviderOutput}
    (hstatus : o.answerStatus = p.answerStatus) (hcitations : o.citations = p.citations)
    (hreason : o.refusalReason = p.refusalReason)
    (hclaims : List.Forall₂ (fun c d => c.Agrees d ∧ c.ordinal = d.ordinal) o.claims p.claims) :
    normalizeGroundedClaims I casefold context facts question o =
      normalizeGroundedClaims I casefold context facts question p := by
  simp only [normalizeGroundedClaims, mapM_normalizeClaim_agrees hcitations hclaims, hstatus,
    hcitations, hreason]

/-! ## Checked outputs -/

/-- An output that the contract has checked. -/
def ProviderOutput.Checked (o : ProviderOutput) : Prop :=
  ∃ given : ProviderOutput, given.finish = some o

theorem ProviderOutput.Checked.graphValid {o : ProviderOutput} (h : o.Checked) :
    o.graphValid = true := by
  obtain ⟨given, hgiven⟩ := h
  exact (finish_eq_some hgiven).2

/-- A checked output is checked again with no change. -/
theorem ProviderOutput.Checked.finish {o : ProviderOutput} (h : o.Checked) :
    o.finish = some o := by
  obtain ⟨given, hgiven⟩ := h
  rw [ProviderOutput.finish, Option.ite_none_right_eq_some] at hgiven
  obtain ⟨hfields, hgiven⟩ := hgiven
  obtain ⟨hgraph, hgiven⟩ := Option.ite_none_right_eq_some.mp hgiven
  have hanswer : o.answer = if Text.isBlank given.answer then [] else given.answer := by
    rw [← Option.some.inj hgiven]
  have hblank : (if Text.isBlank o.answer then [] else o.answer) = o.answer := by
    rw [hanswer]
    by_cases h : Text.isBlank given.answer
    · rw [if_pos h]
      rfl
    · rw [if_neg h, if_neg h]
  have hstring : isString 0 8000 o.answer = true := by
    rw [hanswer]
    by_cases h : Text.isBlank given.answer
    · rw [if_pos h]
      decide
    · rw [if_neg h]
      simp only [Bool.and_eq_true] at hfields
      exact hfields.1.1.1
  obtain rfl := Option.some.inj hgiven
  simp only [Bool.and_eq_true] at hfields
  rw [ProviderOutput.finish, if_pos]
  · simp only [hblank]
    rw [if_pos hgraph]
  · simp only [Bool.and_eq_true]
    exact ⟨⟨⟨hstring, hfields.1.1.2⟩, hfields.1.2⟩, hfields.2⟩

/-- A checked output that is not displayed is its status and its reason. -/
theorem ProviderOutput.Checked.refused {o : ProviderOutput} (h : o.Checked)
    (hstatus : o.answerStatus = .unknown ∨ o.answerStatus = .refused) :
    o.answer = [] ∧ o.claims = [] ∧ o.citations = [] := by
  have hgraph := h.graphValid
  rw [ProviderOutput.graphValid, Bool.and_eq_true] at hgraph
  have hfits : Text.isBlank o.answer = true ∧ o.claims = [] ∧ o.citations = [] := by
    have hfits := hgraph.2
    cases hstatus with
    | inl hstatus =>
        simp only [ProviderOutput.statusFits, hstatus, Bool.and_eq_true, List.isEmpty_iff] at hfits
        exact ⟨hfits.1.1.1, hfits.1.1.2, hfits.1.2⟩
    | inr hstatus =>
        simp only [ProviderOutput.statusFits, hstatus, Bool.and_eq_true, List.isEmpty_iff] at hfits
        exact ⟨hfits.1.1.1, hfits.1.1.2, hfits.1.2⟩
  obtain ⟨given, hgiven⟩ := h
  have hanswer := congrArg ProviderOutput.answer (ProviderOutput.finish_eq_some hgiven).1
  refine ⟨?_, hfits.2⟩
  by_cases hblank : Text.isBlank given.answer
  · rw [hanswer, if_pos hblank]
  · rw [hanswer, if_neg hblank] at hfits
    exact absurd hfits.1 hblank

/-- A checked output that is displayed gives no reason. -/
theorem ProviderOutput.Checked.refusalReason {o : ProviderOutput} (h : o.Checked)
    (hstatus : ¬(o.answerStatus = .unknown ∨ o.answerStatus = .refused)) :
    o.refusalReason = none := by
  have hgraph := h.graphValid
  rw [ProviderOutput.graphValid, Bool.and_eq_true] at hgraph
  have hfits := hgraph.2
  cases hcase : o.answerStatus with
  | answered =>
      simp only [ProviderOutput.statusFits, hcase, Bool.and_eq_true, Option.isNone_iff_eq_none] at hfits
      exact hfits.1.2
  | conflict =>
      simp only [ProviderOutput.statusFits, hcase, Bool.and_eq_true, Option.isNone_iff_eq_none] at hfits
      exact hfits.1.2
  | unknown => exact absurd (Or.inl hcase) hstatus
  | refused => exact absurd (Or.inr hcase) hstatus

/-! ## Two runs -/

section Runs

variable {I : Interpreter} {S : Surroundings} {request : QuestionRequest}
  {context : CurrentDocumentContext} {hits : List SearchHit} {prepared : Prepared}

/-- Outputs that differ in their prose are grounded as one and the same. -/
theorem groundOutput_agrees {o p : ProviderOutput} (ho : o.Checked) (hp : p.Checked)
    (h : o.Agrees p) (hstatus : ¬(o.answerStatus = .unknown ∨ o.answerStatus = .refused)) :
    groundOutput I S request context prepared o = groundOutput I S request context prepared p := by
  have hbound := @mapM_materialize_agrees request context prepared.facts _ _ h.citations
  have hids : ∀ cs, o.citations.mapM (materializeCitation request context prepared.facts) = some cs →
      cs.map Citation.citationId = o.citations.map Citation.citationId := by
    intro cs hcs
    have hall := forall₂_of_mapM_eq_some hcs
    clear hcs hbound
    generalize o.citations = given at hall ⊢
    induction hall with
    | nil => rfl
    | cons hone _ ih => rw [List.map_cons, List.map_cons, ih, citationId_of_materialize hone]
  rw [groundOutput, groundOutput, materializeLiveCitations, materializeLiveCitations]
  generalize hcs : o.citations.mapM (materializeCitation request context prepared.facts) = bound
    at hbound hids ⊢
  generalize p.citations.mapM (materializeCitation request context prepared.facts) = bound'
    at hbound ⊢
  cases hbound with
  | none => rfl
  | @some cs ds hsame =>
      have hgraph := @validateCitationGraph_agrees request context prepared.facts
        prepared.selectedHits { o with citations := cs } { p with citations := ds } h.claims hsame
      simp only [Option.map_some, Option.bind_some, hgraph]
      by_cases hvalid : validateCitationGraph request context prepared.selectedHits prepared.facts
          { p with citations := ds } = true
      · have hmemory : ∀ m, Citation.memory m ∉ cs := by
          intro m
          have hnodup : (cs.map Citation.citationId).Nodup := by
            rw [hids cs rfl]
            exact ProviderOutput.nodup_citationIds ho.graphValid
          refine not_memory_of_validateCitationGraph (o := { o with citations := cs }) hnodup ?_
            (hgraph.trans hvalid)
          intro citation hmem
          have hid : citation.citationId ∈ o.citations.map Citation.citationId := by
            rw [← hids cs rfl]
            exact List.mem_map_of_mem hmem
          obtain ⟨given, hgiven, heq⟩ := List.mem_map.mp hid
          rw [← heq]
          exact ProviderOutput.exists_claim_of_mem_citations ho.graphValid hgiven
        obtain rfl := eq_of_sameBound hsame hmemory
        have hstatus' : ¬(p.answerStatus = .unknown ∨ p.answerStatus = .refused) :=
          h.answerStatus ▸ hstatus
        have hclaims : List.Forall₂ (fun c d => c.Agrees d ∧ c.ordinal = d.ordinal) o.claims
            p.claims := forall₂_ordinal ho.graphValid hp.graphValid h.claims
        have hreason : o.refusalReason = p.refusalReason :=
          (ho.refusalReason hstatus).trans (hp.refusalReason hstatus').symm
        rw [if_pos hvalid, if_pos hvalid]
        exact normalizeGroundedClaims_agrees h.answerStatus rfl hreason hclaims
      · simp only [if_neg hvalid]

/-- What is displayed of the answer to an output does not depend on its prose. -/
theorem answerOutput_agrees {o p : ProviderOutput} (ho : o.Checked) (hp : p.Checked)
    (h : o.Agrees p) {trace : RetrievalTrace} {usage : TokenUsage} :
    (answerOutput I S request context prepared trace usage o).map CoachAnswer.displayed =
      (answerOutput I S request context prepared trace usage p).map CoachAnswer.displayed := by
  by_cases hstatus : o.answerStatus = .unknown ∨ o.answerStatus = .refused
  · have hstatus' : p.answerStatus = .unknown ∨ p.answerStatus = .refused := h.answerStatus ▸ hstatus
    have hdisplayed : ∀ {q : ProviderOutput}, q.Checked →
        q.answerStatus = .unknown ∨ q.answerStatus = .refused →
        (CoachAnswer.ofOutput q trace usage []).map CoachAnswer.displayed =
          usage.checked.map fun _ => (q.answerStatus, [], [], [], []) := by
      intro q hq hrefused
      obtain ⟨hanswer, hclaims, hcitations⟩ := hq.refused hrefused
      have hvalid : q.validate = some q := by
        rw [ProviderOutput.validate, hclaims, hcitations]
        exact hq.finish
      cases husage : usage.checked with
      | none => simp [CoachAnswer.ofOutput, husage]
      | some checked =>
          simp [CoachAnswer.ofOutput, husage, hvalid, CoachAnswer.displayed, hanswer, hclaims,
            hcitations]
    rw [answerOutput, answerOutput, if_pos hstatus, if_pos hstatus', hdisplayed ho hstatus,
      hdisplayed hp hstatus', h.answerStatus]
  · have hstatus' : ¬(p.answerStatus = .unknown ∨ p.answerStatus = .refused) :=
      h.answerStatus ▸ hstatus
    rw [answerOutput, answerOutput, if_neg hstatus, if_neg hstatus',
      groundOutput_agrees ho hp h hstatus]

/-- Two loops that end alike. -/
inductive Consumed.Agrees : Consumed → Consumed → Prop
  | failed (status : AnswerStatus) (reason : SafeReason) (usage : TokenUsage) :
      Agrees (.failed status reason usage) (.failed status reason usage)
  | parsed {o p : ProviderOutput} (ho : o.Checked) (hp : p.Checked) (h : o.Agrees p)
      (usage : TokenUsage) : Agrees (.parsed o usage) (.parsed p usage)

/-- The texts of two responses are refused both, or read as outputs that agree. -/
theorem parse_agrees {r s : ProviderResponse} (h : r.Agrees I s) :
    Option.Rel (fun o p => o.Checked ∧ p.Checked ∧ o.Agrees p)
      (parseCoachProviderOutput I r.text) (parseCoachProviderOutput I s.text) := by
  cases h.text with
  | inl heq =>
      rw [heq]
      cases hparse : parseCoachProviderOutput I s.text with
      | none => exact .none
      | some o =>
          exact .some ⟨exists_finish_of_parse hparse, exists_finish_of_parse hparse, .refl o⟩
  | inr hparsed =>
      obtain ⟨o, p, ho, hp, hagrees⟩ := hparsed
      rw [ho, hp]
      exact .some ⟨exists_finish_of_parse ho, exists_finish_of_parse hp, hagrees⟩

theorem consume_agrees {failover unavailable : Bool} {inputBudget : ℤ} {usage : TokenUsage}
    {es fs : List ProviderEvent} (h : List.Forall₂ (ProviderEvent.Agrees I) es fs) :
    (consume I failover unavailable inputBudget usage es).Agrees
      (consume I failover unavailable inputBudget usage fs) := by
  induction h generalizing usage with
  | nil => exact .failed _ _ _
  | cons hevent _ ih =>
      cases hevent with
      | providerError usage => exact .failed _ _ _
      | otherError => exact .failed _ _ _
      | @response r s hresponse =>
          have hparse := parse_agrees hresponse
          simp only [consume, hresponse.callsTools, hresponse.usage]
          generalize parseCoachProviderOutput I r.text = o at hparse ⊢
          generalize parseCoachProviderOutput I s.text = p at hparse ⊢
          split_ifs
          · exact .failed _ _ _
          · exact .failed _ _ _
          · exact .failed _ _ _
          · exact .failed _ _ _
          · cases hparse with
            | none => exact ih
            | @some o p hagrees =>
                simp only [hagrees.2.2.answerStatus]
                split_ifs
                · exact ih
                · exact .parsed hagrees.1 hagrees.2.1 hagrees.2.2 _
          · cases hparse with
            | none => exact .failed _ _ _
            | @some o p hagrees =>
                simp only [hagrees.2.2.answerStatus]
                split_ifs
                · exact ih
                · exact .parsed hagrees.1 hagrees.2.1 hagrees.2.2 _

/-- What the Coach displays and signs does not depend on the prose of its provider. -/
theorem answerCoach_prose_independent {p q : Provider} (h : p.Agrees I q) :
    (answerCoach I S request context hits p).map CoachAnswer.displayed =
      (answerCoach I S request context hits q).map CoachAnswer.displayed := by
  rw [answerCoach, answerCoach]
  cases hprepared : prepare I S request context hits with
  | error reason => rfl
  | ok prepared =>
      simp only
      split_ifs with htrace
      · have hconsume := @consume_agrees I p.failover
          (requiresUnavailableQuantity S.casefold request.question) prepared.context.inputBudget {}
          p.events q.events h.events
        rw [← h.failover]
        generalize consume I p.failover _ _ _ p.events = c at hconsume ⊢
        generalize consume I p.failover _ _ _ q.events = d at hconsume ⊢
        cases hconsume with
        | failed status reason usage => rfl
        | parsed ho hp hagrees usage => exact answerOutput_agrees ho hp hagrees
      · rfl

end Runs

/-! ### An answer told twice -/

/-- A claim about the first line, in some prose, with a live citation captured at some time. -/
def toldOutput (prose capturedAt : Text) : ProviderOutput where
  answerStatus := .answered
  answer := prose
  claims := [⟨"c", 1, .erpFact, prose, ["x"]⟩]
  citations := [.live ⟨"x", plainRequest.runId, .materialRequest, "M", 1, capturedAt, none, none,
    none, [.requestedStockQty], List.replicate 64 (codePoint 'f')⟩]
  refusalReason := none

theorem parse_toldOutput {output : ProviderOutput}
    (h : output = toldOutput "a" "T" ∨ output = toldOutput "b" "U") :
    parseCoachProviderOutput Interpreter.ascii (Json.render Interpreter.ascii (.dict output.object)) =
      some output := by
  have hstages : ∀ o ∈ [toldOutput "a" "T", toldOutput "b" "U"],
      ((Json.render Interpreter.ascii (.dict o.object)).all fun c => c.val < 0x80) = true ∧
        (Json.render Interpreter.ascii (.dict o.object)).length ≤ 64000 ∧
        Json.loads Interpreter.ascii jsonHooks (Json.render Interpreter.ascii (.dict o.object)) =
          some (.dict o.object) ∧
        normalizeProviderCompatibility o.object = some o.object ∧
        item o.object "schema_version" ≠ .ofString "1.0" ∧ readOutput o.object = some o := by
    decide +kernel
  have hmem : output ∈ [toldOutput "a" "T", toldOutput "b" "U"] := by
    simpa using h
  obtain ⟨hascii, hlength, hloads, hnormalize, hversion, hread⟩ := hstages output hmem
  exact parse_of_stages hascii hlength hloads hnormalize hversion hread

/-- The claim with the quantity of the line. -/
def toldClaims : List Claim := [⟨"c", 1, .erpFact, "requested_stock_qty=\"3\"", ["x"]⟩]

/-- What is displayed of both. -/
def toldGrounded : ProviderOutput where
  answerStatus := .answered
  answer := (Text.ofString "\n").intercalate (toldClaims.map Claim.text)
  claims := toldClaims
  citations := [boundCitation plainRequest twoLinesContext "x" [.requestedStockQty] firstDigest]
  refusalReason := none

/-- The answer that is displayed. -/
theorem exists_toldAnswer :
    ∃ answer, answerCoach Interpreter.ascii plainSurroundings plainRequest twoLinesContext sharedHits
        (respondsWith (toldOutput "a" "T").object) = some answer ∧
      answer.answerStatus = .answered ∧ answer.claims = toldClaims := by
  have hconsume : consume Interpreter.ascii (respondsWith (toldOutput "a" "T").object).failover
      (requiresUnavailableQuantity plainSurroundings.casefold plainRequest.question) 100 {}
      (respondsWith (toldOutput "a" "T").object).events = .parsed (toldOutput "a" "T") {} := by
    rw [mixedEvaluation.available]
    exact consume_of_parse (by decide) rfl (parse_toldOutput (.inl rfl)) (by decide)
  have hground : groundOutput Interpreter.ascii plainSurroundings plainRequest twoLinesContext
      ⟨twoLines, sharedHits, ⟨[], 100⟩⟩ (toldOutput "a" "T") = some toldGrounded := by
    decide +kernel
  have hvalid : toldGrounded.validate = some toldGrounded := by decide +kernel
  obtain ⟨answer, hanswer, hstatus, hclaims, -⟩ := exists_answer_of_grounded prepare_twoLines
    mixedEvaluation.trace hconsume (by decide) hground rfl hvalid
    (show TokenUsage.checked {} = some {} by decide) rfl
  exact ⟨answer, hanswer, hstatus, hclaims⟩

/-- Both are answered, with the claim that the quantity of the line makes. -/
theorem answerCoach_prose_independent_told :
    (∃ answer, answerCoach Interpreter.ascii plainSurroundings plainRequest twoLinesContext sharedHits
        (respondsWith (toldOutput "a" "T").object) = some answer ∧
      answer.answerStatus = .answered ∧ answer.claims = toldClaims) ∧
      (answerCoach Interpreter.ascii plainSurroundings plainRequest twoLinesContext sharedHits
          (respondsWith (toldOutput "a" "T").object)).map CoachAnswer.displayed =
        (answerCoach Interpreter.ascii plainSurroundings plainRequest twoLinesContext sharedHits
          (respondsWith (toldOutput "b" "U").object)).map CoachAnswer.displayed := by
  have hagrees : (toldOutput "a" "T").Agrees (toldOutput "b" "U") := by
    refine { answerStatus := rfl, claims := ?_, citations := ?_ }
    · exact .cons ⟨rfl, rfl, rfl, fun h => absurd rfl h⟩ .nil
    · exact .cons (.live rfl rfl rfl) .nil
  refine ⟨exists_toldAnswer, answerCoach_prose_independent ?_⟩
  refine { failover := rfl, events := .cons (.response ?_) .nil }
  exact
    { callsTools := rfl
      usage := rfl
      text := Or.inr ⟨_, _, parse_toldOutput (.inl rfl), parse_toldOutput (.inr rfl), hagrees⟩ }

end Coach
