import SynoraErp.Coach.Shown

/-!
# The boundary of the Coach

What the Coach answers is put to the checks of the authority. A refusal passes them when its trace
can be read. An answer that is displayed passes them when its citations can be read too, and its
claims are then taken over with the signatures they came with.
-/

namespace Coach

open Python Governance

variable {I : Interpreter} {S : Surroundings} {request : QuestionRequest}
  {context : CurrentDocumentContext} {facts : Facts} {hits : List SearchHit}

/-! ## Answers -/

namespace Authority

/-- An answer whose parts are read as they are. -/
structure Acceptable (I : Interpreter) (expected : Expected) (answer : CoachAnswer) : Prop where
  length : answer.answer.length ≤ 8000
  reason : refusalReason (optionalText answer.refusalReason) = some answer.refusalReason
  claims : ∀ claim ∈ answer.claims, coachOutputClaim claim.object = some claim
  citations : ∀ citation ∈ answer.citations, validateCitation citation.object = some citation
  packages : ∀ package ∈ answer.validatedClaims,
    coachOutputPackage I expected package.object = some package
  counts : answer.claims.length ≤ 32 ∧ answer.citations.length ≤ 64 ∧
    answer.validatedClaims.length ≤ 32
  ids : (answer.claims.map Claim.claimId).Nodup ∧
    answer.claims.map Claim.ordinal = ordinals answer.claims.length
  graph : graphFits answer.claims answer.citations = true
  packageIds : (answer.validatedClaims.map ValidatedClaim.claimId).Nodup
  status : statusFits I answer.answerStatus answer.answer answer.claims answer.citations
    answer.validatedClaims answer.refusalReason = true
  usage : coachOutputUsage answer.tokenUsage.object = some answer.tokenUsage

theorem validateCoachAnswer_object {expected : Expected} {answer : CoachAnswer}
    (h : Acceptable I expected answer) {trace : RetrievalTrace}
    (htrace : coachOutputTrace answer.retrievalTrace.object = some trace) {latencyMs : ℤ}
    (hlatency : 0 ≤ latencyMs ∧ latencyMs ≤ 86400000) :
    ∃ a, validateCoachAnswer I expected (answer.object latencyMs) = some a ∧
      a.answerStatus = answer.answerStatus ∧ a.answer = answer.answer ∧
      a.claims = answer.claims ∧ a.citations = answer.citations := by
  refine ⟨
    { answerStatus := answer.answerStatus
      answer := answer.answer
      refusalReason := answer.refusalReason.bind fun _ => safeRefusalReason answer.answerStatus
      claims := answer.claims
      citations := answer.citations
      retrievalTrace := trace
      tokenUsage := answer.tokenUsage
      latencyMs
      validatedClaims := answer.validatedClaims }, ?_, rfl, rfl, rfl, rfl⟩
  rw [validateCoachAnswer, CoachAnswer.object, strictMapping_of_keys rfl, Option.bind_eq_bind,
    Option.bind_some]
  apply guard_bind_eq_some.mpr
  refine ⟨rfl, ?_⟩
  apply Option.bind_eq_some_iff.mpr
  refine ⟨answer.answerStatus, answerStatus_text _, ?_⟩
  apply Option.bind_eq_some_iff.mpr
  refine ⟨answer.answer, if_neg (not_lt.mpr h.length), ?_⟩
  apply Option.bind_eq_some_iff.mpr
  refine ⟨answer.refusalReason, h.reason, ?_⟩
  apply Option.bind_eq_some_iff.mpr
  refine ⟨answer.claims, listOf_map h.counts.1 h.claims, ?_⟩
  apply Option.bind_eq_some_iff.mpr
  refine ⟨answer.citations, listOf_map h.counts.2.1 h.citations, ?_⟩
  apply guard_bind_eq_some.mpr
  refine ⟨h.ids, ?_⟩
  apply guard_bind_eq_some.mpr
  refine ⟨h.graph, ?_⟩
  apply Option.bind_eq_some_iff.mpr
  refine ⟨answer.validatedClaims, listOf_map h.counts.2.2 h.packages, ?_⟩
  apply guard_bind_eq_some.mpr
  refine ⟨h.packageIds, ?_⟩
  apply guard_bind_eq_some.mpr
  refine ⟨h.status, ?_⟩
  apply Option.bind_eq_some_iff.mpr
  refine ⟨trace, htrace, ?_⟩
  apply Option.bind_eq_some_iff.mpr
  refine ⟨answer.tokenUsage, h.usage, ?_⟩
  apply Option.bind_eq_some_iff.mpr
  exact ⟨latencyMs, boundedInt_eq_some.mpr ⟨rfl, hlatency⟩, rfl⟩

/-- What is read of an answer that is accepted. -/
theorem reads_of_accepted {expected : Expected} {answer : CoachAnswer} {latencyMs : ℤ}
    {a : ValidatedAnswer} (h : validateCoachAnswer I expected (answer.object latencyMs) = some a) :
    (∃ trace, coachOutputTrace answer.retrievalTrace.object = some trace) ∧
      (∀ citation ∈ answer.citations, ∃ read, validateCitation citation.object = some read) ∧
      ∀ package ∈ answer.validatedClaims,
        ∃ read, coachOutputPackage I expected package.object = some read := by
  rw [validateCoachAnswer, CoachAnswer.object, strictMapping_of_keys rfl, Option.bind_eq_bind,
    Option.bind_some] at h
  obtain ⟨-, h⟩ := guard_bind_eq_some.mp h
  obtain ⟨status, -, h⟩ := Option.bind_eq_some_iff.mp h
  obtain ⟨text, -, h⟩ := Option.bind_eq_some_iff.mp h
  obtain ⟨reason, -, h⟩ := Option.bind_eq_some_iff.mp h
  obtain ⟨claims, -, h⟩ := Option.bind_eq_some_iff.mp h
  obtain ⟨citations, hcitations, h⟩ := Option.bind_eq_some_iff.mp h
  obtain ⟨-, h⟩ := guard_bind_eq_some.mp h
  obtain ⟨-, h⟩ := guard_bind_eq_some.mp h
  obtain ⟨packages, hpackages, h⟩ := Option.bind_eq_some_iff.mp h
  obtain ⟨-, h⟩ := guard_bind_eq_some.mp h
  obtain ⟨-, h⟩ := guard_bind_eq_some.mp h
  obtain ⟨trace, htrace, -⟩ := Option.bind_eq_some_iff.mp h
  exact ⟨⟨trace, htrace⟩, fun _ hmem => exists_of_listOf_map hcitations hmem,
    fun _ hmem => exists_of_listOf_map hpackages hmem⟩

/-- A package that is read is the one of a displayed claim, as it is. -/
theorem coachOutputPackage_object {expected : Expected} (hasked : Asked request context expected)
    {output : ProviderOutput} {source : Text × Text} {json digest token : Text} {claim : Claim}
    {package : ValidatedClaim} (hsourced : Sourced I request context json digest)
    (hsigned : Signed I output request source token claim package)
    (hread : readPackage I package.object =
      some ⟨package, expected.run, expected.correlation, snapshotOf context⟩) :
    coachOutputPackage I expected package.object = some package := by
  apply Option.bind_eq_some_iff.mpr
  refine ⟨_, hread, ?_⟩
  apply guard_bind_eq_some.mpr
  refine ⟨⟨rfl, rfl⟩, ?_⟩
  apply guard_bind_eq_some.mpr
  refine ⟨⟨?_, hasked.company.symm, hasked.warehouse.symm⟩, ?_⟩
  · rw [snapshotOf, hasked.document, hsourced.document]
  · simp only [hasked.run, hasked.correlation, ← hsigned.run, ← hsigned.correlation]

end Authority

/-- The model of an answer is one of an output that was checked. -/
theorem exists_checked_of_ofOutput {output : ProviderOutput} {trace : RetrievalTrace}
    {usage : TokenUsage} {packages : List ValidatedClaim} {answer : CoachAnswer}
    (h : CoachAnswer.ofOutput output trace usage packages = some answer) :
    ∃ checked tokens, output.validate = some checked ∧ usage.checked = some tokens ∧
      answer =
        { answerStatus := checked.answerStatus
          answer := checked.answer
          claims := checked.claims
          citations := checked.citations
          refusalReason := checked.refusalReason
          retrievalTrace := trace
          tokenUsage := tokens
          validatedClaims := packages } := by
  obtain ⟨tokens, htokens, h⟩ := Option.bind_eq_some_iff.mp h
  obtain ⟨checked, hchecked, h⟩ := Option.bind_eq_some_iff.mp h
  obtain ⟨-, h⟩ := Authority.guard_bind_eq_some.mp h
  exact ⟨checked, tokens, hchecked, htokens, (Option.some.inj h).symm⟩
/-- What the model of an output keeps to. -/
theorem bounds_of_validate {output checked : ProviderOutput} (h : output.validate = some checked) :
    checked.answer.length ≤ 8000 ∧ checked.claims.length ≤ 32 ∧ checked.citations.length ≤ 64 ∧
      checked.refusalReason.all (fun reason => isString 0 500 reason && !Text.isBlank reason) =
        true := by
  have hfinish := (ProviderOutput.validate_eq_some h).2.2
  obtain ⟨hchecked, -⟩ := ProviderOutput.finish_eq_some hfinish
  rw [ProviderOutput.finish, Option.ite_none_right_eq_some] at hfinish
  simp only [Bool.and_eq_true, isString, decide_eq_true_eq] at hfinish
  obtain ⟨⟨⟨⟨⟨-, -, hanswer⟩, hclaims⟩, hcitations⟩, hreason⟩, -⟩ := hfinish
  rw [hchecked]
  refine ⟨?_, hclaims, hcitations, ?_⟩
  · by_cases hblank : Text.isBlank output.answer = true
    · rw [if_pos hblank]
      exact Nat.zero_le _
    · rw [if_neg hblank]
      exact hanswer
  · simpa [isString] using hreason

theorem refusalReason_of_bounds {reason : Option Text}
    (h : reason.all (fun reason => isString 0 500 reason && !Text.isBlank reason) = true) :
    Authority.refusalReason (optionalText reason) = some reason := by
  cases reason with
  | none => rfl
  | some reason =>
      simp only [Option.all_some, isString, Bool.and_eq_true, Bool.not_eq_true',
        decide_eq_true_eq] at h
      change (Authority.text 500 (.str reason)).map some = some (some reason)
      rw [Authority.text_str h.2 h.1.2.2, Option.map_some]

/-- A refusal has nothing to read but its reason. -/
theorem acceptable_of_declined {expected : Authority.Expected} {output : ProviderOutput}
    {trace : RetrievalTrace} {usage : TokenUsage} {answer : CoachAnswer}
    (h : CoachAnswer.ofOutput output trace usage [] = some answer)
    (hstatus : ¬answer.answerStatus.displayable) : Authority.Acceptable I expected answer := by
  obtain ⟨checked, tokens, hchecked, htokens, rfl⟩ := exists_checked_of_ofOutput h
  obtain ⟨hlength, hclaimCount, hcitationCount, hreason⟩ := bounds_of_validate hchecked
  have hgraph := (ProviderOutput.finish_eq_some (ProviderOutput.validate_eq_some hchecked).2.2).2
  rw [ProviderOutput.graphValid, Bool.and_eq_true] at hgraph
  have hdeclines : Authority.declines checked.answerStatus = true := by
    cases hcase : checked.answerStatus with
    | unknown => rfl
    | refused => rfl
    | answered => exact absurd (Or.inl hcase) hstatus
    | conflict => exact absurd (Or.inr hcase) hstatus
  have hfits : (Text.isBlank checked.answer && checked.claims.isEmpty && checked.citations.isEmpty &&
      checked.refusalReason.any fun reason => reason ≠ []) = true := by
    have hstatusFits := hgraph.2
    rw [ProviderOutput.statusFits] at hstatusFits
    cases hcase : checked.answerStatus with
    | unknown => rwa [hcase] at hstatusFits
    | refused => rwa [hcase] at hstatusFits
    | answered => exact absurd (Or.inl hcase) hstatus
    | conflict => exact absurd (Or.inr hcase) hstatus
  simp only [Bool.and_eq_true, List.isEmpty_iff] at hfits
  obtain ⟨⟨⟨hblank, hclaims⟩, hcitations⟩, hreason'⟩ := hfits
  have hsome : checked.refusalReason.isSome = true := by
    cases hcase : checked.refusalReason with
    | none =>
        rw [hcase] at hreason'
        cases hreason'
    | some reason => rfl
  exact
    { length := hlength
      reason := refusalReason_of_bounds hreason
      claims := by simp [hclaims]
      citations := by simp [hcitations]
      packages := by simp
      counts := ⟨hclaimCount, hcitationCount, Nat.zero_le _⟩
      ids := by simp [hclaims, Authority.ordinals]
      graph := by simp [hclaims, hcitations, Authority.graphFits]
      packageIds := List.nodup_nil
      status := by simp [Authority.statusFits, hdeclines, hblank, hclaims, hcitations, hsome]
      usage := Authority.coachOutputUsage_object htokens }

/-- What is displayed is read when its citations and its packages are. -/
theorem acceptable_of_shown {expected : Authority.Expected} {output shown : ProviderOutput}
    {trace : RetrievalTrace} {usage : TokenUsage} {packages : List ValidatedClaim}
    {answer : CoachAnswer} {source : Text × Text} {token : Text}
    (hshown : Shown request context facts output shown)
    (h : CoachAnswer.ofOutput shown trace usage packages = some answer)
    (hsigned : List.Forall₂ (Signed I shown request source token) shown.claims packages)
    (hcitations : ∀ citation ∈ shown.citations,
      Authority.validateCitation citation.object = some citation)
    (hcompact : ∀ package ∈ packages, IsCompact I package.citations)
    (hpackages : ∀ package ∈ packages,
      Authority.coachOutputPackage I expected package.object = some package) :
    Authority.Acceptable I expected answer := by
  obtain ⟨checked, tokens, hchecked, htokens, rfl⟩ := exists_checked_of_ofOutput h
  obtain rfl := Option.some.inj (hshown.valid.symm.trans hchecked)
  obtain ⟨hlength, hclaimCount, hcitationCount, hreason⟩ := bounds_of_validate hchecked
  have hpackageIds : packages.map ValidatedClaim.claimId = shown.claims.map Claim.claimId :=
    (KeyedMatching.map_eq_of_forall₂ (fun _ _ hpackage => hpackage.claimId.symm) hsigned).symm
  exact
    { length := hlength
      reason := refusalReason_of_bounds hreason
      claims := fun claim hclaim => Authority.coachOutputClaim_object (hshown.claim_valid hclaim)
        (hshown.signable claim hclaim) fun id hid => hshown.isId_of_mem_refs hclaim hid
      citations := hcitations
      packages := hpackages
      counts := ⟨hclaimCount, hcitationCount, hsigned.length_eq ▸ hclaimCount⟩
      ids := hshown.numbered
      graph := hshown.graphFits
      packageIds := hpackageIds ▸ hshown.numbered.1
      status := hshown.statusFits (hshown.packagesFit_of_signed hsigned hcompact)
      usage := Authority.coachOutputUsage_object htokens }

/-! ## How an answer comes about -/

section

variable {provider : Provider} {answer : CoachAnswer}

theorem status_of_groundOutput {prepared : Prepared} {output shown : ProviderOutput}
    (h : groundOutput I S request context prepared output = some shown) :
    shown.answerStatus = output.answerStatus := by
  obtain ⟨citations, claims, text, -, -, -, -, hvalidate⟩ := groundOutput_eq_some h
  rw [(ProviderOutput.finish_eq_some (ProviderOutput.validate_eq_some hvalidate).2.2).1]

/-- How the Coach comes to an answer: the context is not built, or the answer is a refusal, or it is
what is displayed of an output that was grounded. -/
inductive Reached (I : Interpreter) (S : Surroundings) (request : QuestionRequest)
    (context : CurrentDocumentContext) (hits : List SearchHit) (provider : Provider)
    (answer : CoachAnswer) : Prop where
  | unprepared {reason : SafeReason} {output : ProviderOutput}
      (hprepare : prepare I S request context hits = .error reason)
      (hanswer : CoachAnswer.ofOutput output {} {} [] = some answer)
      (hstatus : ¬answer.answerStatus.displayable)
  | declined {prepared : Prepared} {output : ProviderOutput} {usage : TokenUsage}
      (hprepare : prepare I S request context hits = .ok prepared)
      (htrace : (traceOf prepared.selectedHits prepared.facts prepared.context.fragmentIds).valid =
        true)
      (hanswer : CoachAnswer.ofOutput output
        (traceOf prepared.selectedHits prepared.facts prepared.context.fragmentIds) usage [] =
          some answer)
      (hstatus : ¬answer.answerStatus.displayable)
      (hnone : ∀ given spent shown,
        consume I provider.failover (requiresUnavailableQuantity S.casefold request.question)
          prepared.context.inputBudget {} provider.events = .parsed given spent →
        given.answerStatus.displayable → groundOutput I S request context prepared given = some shown →
          validatedClaims I shown request context S.token = none)
  | displayed {prepared : Prepared} {given shown : ProviderOutput} {usage : TokenUsage}
      {packages : List ValidatedClaim}
      (hprepare : prepare I S request context hits = .ok prepared)
      (htrace : (traceOf prepared.selectedHits prepared.facts prepared.context.fragmentIds).valid =
        true)
      (hconsume : consume I provider.failover
        (requiresUnavailableQuantity S.casefold request.question) prepared.context.inputBudget {}
        provider.events = .parsed given usage)
      (hstatus : given.answerStatus.displayable)
      (hground : groundOutput I S request context prepared given = some shown)
      (hpackages : validatedClaims I shown request context S.token = some packages)
      (hanswer : CoachAnswer.ofOutput shown
        (traceOf prepared.selectedHits prepared.facts prepared.context.fragmentIds) usage packages =
          some answer)

theorem displayable_of_not_declined {status : AnswerStatus}
    (h : ¬(status = .unknown ∨ status = .refused)) : status.displayable := by
  cases status with
  | answered => exact Or.inl rfl
  | conflict => exact Or.inr rfl
  | unknown => exact absurd (Or.inl rfl) h
  | refused => exact absurd (Or.inr rfl) h

theorem reached_of_answerCoach (h : answerCoach I S request context hits provider = some answer) :
    Reached I S request context hits provider answer := by
  rw [answerCoach] at h
  cases hprepare : prepare I S request context hits with
  | error reason =>
      simp only [hprepare] at h
      exact .unprepared hprepare h (not_displayable_of_failed h not_displayable_unknown)
  | ok prepared =>
      simp only [hprepare] at h
      obtain ⟨htrace, h⟩ := Option.ite_none_right_eq_some.mp h
      cases hconsume : consume I provider.failover
          (requiresUnavailableQuantity S.casefold request.question) prepared.context.inputBudget {}
          provider.events with
      | failed status reason usage =>
          simp only [hconsume] at h
          apply Reached.declined hprepare htrace h
          · exact not_displayable_of_failed h (not_displayable_of_consume hconsume)
          · intro given spent shown hparsed
            rw [hconsume] at hparsed
            cases hparsed
      | parsed output usage =>
          simp only [hconsume, answerOutput] at h
          have hsame : ∀ given spent, consume I provider.failover
              (requiresUnavailableQuantity S.casefold request.question)
              prepared.context.inputBudget {} provider.events = .parsed given spent →
                given = output := by
            intro given spent hparsed
            rw [hconsume, Consumed.parsed.injEq] at hparsed
            exact hparsed.1.symm
          by_cases hdeclined : output.answerStatus = .unknown ∨ output.answerStatus = .refused
          · rw [if_pos hdeclined] at h
            have hnot : ¬output.answerStatus.displayable := by
              intro hdisplayable
              cases hdeclined with
              | inl hstatus => exact not_displayable_unknown (hstatus ▸ hdisplayable)
              | inr hstatus => exact not_displayable_refused (hstatus ▸ hdisplayable)
            apply Reached.declined hprepare htrace h
            · intro hdisplayable
              exact hnot (ofOutput_displayable h hdisplayable).1
            · intro given spent shown hparsed hdisplayable
              exact absurd (hsame given spent hparsed ▸ hdisplayable) hnot
          · rw [if_neg hdeclined] at h
            have hdisplayable := displayable_of_not_declined hdeclined
            cases hground : groundOutput I S request context prepared output with
            | none =>
                simp only [hground] at h
                apply Reached.declined hprepare htrace h
                · exact not_displayable_of_failed h not_displayable_unknown
                · intro given spent shown hparsed _ hshown
                  rw [hsame given spent hparsed, hground] at hshown
                  cases hshown
            | some shown =>
                simp only [hground] at h
                cases hpackages : validatedClaims I shown request context S.token with
                | none =>
                    simp only [hpackages] at h
                    apply Reached.declined hprepare htrace h
                    · exact not_displayable_of_failed h not_displayable_unknown
                    · intro given spent other hparsed _ hother
                      rw [hsame given spent hparsed, hground, Option.some.injEq] at hother
                      rw [← hother, hpackages]
                | some packages =>
                    simp only [hpackages] at h
                    exact .displayed hprepare htrace hconsume hdisplayable hground hpackages h

end

/-! ## What is taken over -/

section

variable {provider : Provider} {answer : CoachAnswer} {expected : Authority.Expected} {latencyMs : ℤ}

/-- The trace of what was prepared is read when the revisions of the hits are legible. -/
theorem exists_trace_iff {prepared : Prepared}
    (hprepare : prepare I S request context hits = .ok prepared)
    (htrace : (traceOf prepared.selectedHits prepared.facts prepared.context.fragmentIds).valid =
      true)
    (hids : ∀ id ∈ prepared.context.fragmentIds, isFragmentId id = true) :
    (∃ read, Authority.coachOutputTrace
      (traceOf prepared.selectedHits prepared.facts prepared.context.fragmentIds).object =
        some read) ↔ ∀ hit ∈ prepared.selectedHits, isLegible hit.revision := by
  have hcount : prepared.selectedHits.length ≤ 5 := by
    simp only [RetrievalTrace.valid, Bool.and_eq_true, decide_eq_true_eq, traceOf,
      List.length_map] at htrace
    exact htrace.1.1.1.1.1
  have hdigests : ∀ digest ∈ sortedSet (prepared.facts.map Prod.fst), isDigest digest = true := by
    intro digest hdigest
    obtain ⟨fact, hfact, rfl⟩ := List.mem_map.mp (mem_sortedSet.mp hdigest)
    obtain ⟨json, -, hsha⟩ :=
      Option.bind_eq_some_iff.mp (mem_digestFacts (prepare_eq_ok hprepare).1 hfact).2
    exact isDigest_of_sha256Text hsha
  have hlength : ∀ f : SearchHit → Text, (prepared.selectedHits.map f).length ≤ 5 := by
    intro f
    rw [List.length_map]
    exact hcount
  rw [Authority.coachOutputTrace_object htrace (hlength _) (hlength _) hdigests]
  simp only [traceOf, List.forall_mem_map]
  constructor
  · intro h
    exact h.1
  · intro h
    exact ⟨h, fun id hid => Authority.isLegible_of_isFragmentId (hids id hid)⟩

/-- A refusal is taken over when its trace is read. -/
theorem takenOver_iff_of_declined {setting : Text} {output : ProviderOutput}
    {trace : RetrievalTrace} {usage : TokenUsage}
    (h : CoachAnswer.ofOutput output trace usage [] = some answer)
    (hstatus : ¬answer.answerStatus.displayable)
    (hlatency : 0 ≤ latencyMs ∧ latencyMs ≤ 86400000) :
    TakenOver I setting expected latencyMs answer ↔
      ∃ read, Authority.coachOutputTrace trace.object = some read := by
  have hacceptable : Authority.Acceptable I expected answer := acceptable_of_declined h hstatus
  obtain ⟨checked, tokens, -, -, rfl⟩ := exists_checked_of_ofOutput h
  constructor
  · intro htaken
    obtain ⟨a, haccepted, -⟩ := htaken.accepted
    exact (Authority.reads_of_accepted haccepted).1
  · intro hread
    obtain ⟨read, hread⟩ := hread
    exact
      { accepted := Authority.validateCoachAnswer_object hacceptable hread hlatency
        signed := by simp }

/-- What is displayed is taken over when its trace, its citations and its packages are read. -/
theorem takenOver_iff_of_shown {output shown : ProviderOutput} {json digest setting token : Text}
    {trace : RetrievalTrace} {usage : TokenUsage} {packages : List ValidatedClaim}
    (hcontext : context.valid = true) (hasked : Asked request context expected)
    (hlatency : 0 ≤ latencyMs ∧ latencyMs ≤ 86400000)
    (hshown : Shown request context facts output shown)
    (hsourced : Sourced I request context json digest) (htoken : runtimeToken setting = some token)
    (hpackages : validatedClaims I shown request context setting = some packages)
    (h : CoachAnswer.ofOutput shown trace usage packages = some answer) :
    TakenOver I setting expected latencyMs answer ↔
      (∃ read, Authority.coachOutputTrace trace.object = some read) ∧
        Presentable I request context facts output := by
  have hsigned := hshown.signed_of_validatedClaims hsourced htoken hpackages
  have hsame : answer.citations = shown.citations ∧ answer.validatedClaims = packages ∧
      answer.retrievalTrace = trace := by
    obtain ⟨checked, tokens, hchecked, -, rfl⟩ := exists_checked_of_ofOutput h
    obtain rfl := Option.some.inj (hshown.valid.symm.trans hchecked)
    exact ⟨rfl, rfl, rfl⟩
  constructor
  · intro htaken
    obtain ⟨a, haccepted, -⟩ := htaken.accepted
    obtain ⟨hread, hcitations, hread'⟩ := Authority.reads_of_accepted haccepted
    rw [hsame.2.2] at hread
    rw [hsame.1] at hcitations
    rw [hsame.2.1] at hread'
    have hlegible : ∀ c, Citation.retrieval c ∈ output.citations → c.Legible := by
      intro c hc
      obtain ⟨read, hread⟩ := hcitations _ (hshown.mem_citations.mpr hc)
      exact Authority.legible_of_validateCitation hread
    refine ⟨hread, ⟨hlegible, ?_⟩⟩
    intro bound hbound claim hclaim citations hrefs
    obtain rfl := Option.some.inj (hshown.bound.symm.trans hbound)
    obtain ⟨kept, hkept, hkeptRefs⟩ := hshown.kept claim hclaim
    obtain ⟨package, hpackage, hsign⟩ := exists_right_of_mem hsigned hkept
    have hcited : package.citations = citations := by
      have hcitations := hsign.citations
      rw [hkeptRefs] at hcitations
      exact Option.some.inj (hcitations.symm.trans hrefs)
    obtain ⟨read, hread⟩ := hread' package hpackage
    obtain ⟨readPackage, hreadPackage, -⟩ := Option.bind_eq_some_iff.mp hread
    rw [← hcited]
    apply Authority.isCompact_of_readPackage _ hreadPackage
    intro c hc
    exact hshown.read_citation hlegible ((ids_of_refs hsign.citations).2 c hc)
  · intro hconvey
    obtain ⟨hread, hpresentable⟩ := hconvey
    obtain ⟨read, hread⟩ := hread
    have hcitations : ∀ citation ∈ shown.citations,
        Authority.validateCitation citation.object = some citation := fun citation hcitation =>
      hshown.read_citation hpresentable.citations hcitation
    have hcompact : ∀ package ∈ packages, IsCompact I package.citations := by
      intro package hpackage
      obtain ⟨claim, hclaim, hsign⟩ := exists_left_of_mem hsigned hpackage
      obtain ⟨before, hbefore, hrefs⟩ := hshown.refs claim hclaim
      have hcited := hsign.citations
      rw [hrefs] at hcited
      exact hpresentable.claims _ hshown.bound before hbefore package.citations hcited
    have hreads : ∀ package ∈ packages, Authority.readPackage I package.object =
        some ⟨package, expected.run, expected.correlation, Authority.snapshotOf context⟩ := by
      intro package hpackage
      obtain ⟨claim, hclaim, hsign⟩ := exists_left_of_mem hsigned hpackage
      exact hshown.readPackage hcontext hsourced hclaim hsign hasked.run hasked.correlation
        hcitations (hcompact package hpackage)
    have hacceptable : Authority.Acceptable I expected answer := by
      apply acceptable_of_shown hshown h hsigned hcitations hcompact
      intro package hpackage
      obtain ⟨claim, hclaim, hsign⟩ := exists_left_of_mem hsigned hpackage
      exact Authority.coachOutputPackage_object hasked hsourced hsign (hreads package hpackage)
    rw [← hsame.2.2] at hread
    refine
      { accepted := Authority.validateCoachAnswer_object hacceptable hread hlatency
        signed := ?_ }
    intro package hpackage
    rw [hsame.2.1] at hpackage
    obtain ⟨claim, hclaim, hsign⟩ := exists_left_of_mem hsigned hpackage
    rw [Authority.validatedPackage_object hsign htoken (hreads package hpackage) rfl]
    rfl

/-- An answer of the Coach is taken over as it is exactly when what it tells of its hits and of its
citations is told in texts the authority reads. -/
theorem answer_taken_over_iff (hcontext : context.valid = true)
    (hasked : Asked request context expected) (hlatency : 0 ≤ latencyMs ∧ latencyMs ≤ 86400000)
    (htoken : Text.strip S.token ≠ [])
    (hbuild : ∀ question fragments built, S.buildContext question fragments = .ok built →
      ∀ id ∈ built.fragmentIds, isFragmentId id = true)
    (h : answerCoach I S request context hits provider = some answer) :
    TakenOver I S.token expected latencyMs answer ↔
      ∀ prepared, prepare I S request context hits = .ok prepared →
        Conveyable I S request context provider prepared := by
  have hids : ∀ prepared, prepare I S request context hits = .ok prepared →
      ∀ id ∈ prepared.context.fragmentIds, isFragmentId id = true := by
    intro prepared hprepare
    obtain ⟨fragment, fragments, -, hbuilt⟩ := exists_fragment_of_prepare hprepare
    exact hbuild _ _ _ hbuilt
  have hsetting : runtimeToken S.token = some (Text.strip S.token) := if_neg htoken
  cases reached_of_answerCoach h with
  | unprepared hprepare hanswer hstatus =>
      rw [takenOver_iff_of_declined hanswer hstatus hlatency]
      constructor
      · intro _ prepared hother
        rw [hprepare] at hother
        cases hother
      · intro _
        exact ⟨{}, by decide⟩
  | @declined prepared output usage hprepare htrace hanswer hstatus hnone =>
      rw [takenOver_iff_of_declined hanswer hstatus hlatency,
        exists_trace_iff hprepare htrace (hids prepared hprepare)]
      obtain ⟨json, digest, hsourced⟩ := exists_sourced hprepare
      constructor
      · intro hrevisions other hother
        obtain rfl := Except.ok.inj (hprepare.symm.trans hother)
        refine ⟨hrevisions, ?_⟩
        intro given spent hconsume hdisplayable hground hencodes
        obtain ⟨shown, hground⟩ := Option.isSome_iff_exists.mp hground
        have hshown := shown_of_groundOutput hcontext hprepare hground
          (status_of_groundOutput hground ▸ hdisplayable)
        obtain ⟨packages, hpackages⟩ := hshown.exists_validatedClaims hcontext hsourced
          (hasked.run ▸ expected.run.canonical) (hasked.correlation ▸ expected.correlation.canonical)
          hsetting hencodes
        rw [hnone given spent shown hconsume hdisplayable hground] at hpackages
        cases hpackages
      · intro hconvey
        exact (hconvey prepared hprepare).revisions
  | @displayed prepared given shown usage packages hprepare htrace hconsume hdisplayable hground
      hpackages hanswer =>
      obtain ⟨json, digest, hsourced⟩ := exists_sourced hprepare
      have hshown := shown_of_groundOutput hcontext hprepare hground
        (status_of_groundOutput hground ▸ hdisplayable)
      rw [takenOver_iff_of_shown hcontext hasked hlatency hshown hsourced hsetting hpackages hanswer,
        exists_trace_iff hprepare htrace (hids prepared hprepare)]
      constructor
      · intro hread other hother
        obtain rfl := Except.ok.inj (hprepare.symm.trans hother)
        refine ⟨hread.1, ?_⟩
        intro parsed spent hparsed _ _ _
        rw [hconsume, Consumed.parsed.injEq] at hparsed
        exact hparsed.1 ▸ hread.2
      · intro hconvey
        obtain ⟨hrevisions, hpresentable⟩ := hconvey prepared hprepare
        refine ⟨hrevisions, ?_⟩
        apply hpresentable given usage hconsume hdisplayable (Option.isSome_of_eq_some hground)
        exact hshown.encodes_token (hshown.signed_of_validatedClaims hsourced hsetting hpackages)

end

/-! ### An answer that is taken over, and one that is not -/

/-- The surroundings with a runtime token. -/
def signedSurroundings : Surroundings := { plainSurroundings with token := "k" }

theorem canonical_plainRun : isCanonicalUuid plainRequest.runId = true := by decide +kernel

theorem canonical_plainCorrelation : isCanonicalUuid plainRequest.correlationId = true := by
  decide +kernel

/-- What the authority expects of the answer to the question about `M`. -/
def plainExpected : Authority.Expected where
  run := ⟨plainRequest.runId, canonical_plainRun⟩
  correlation := ⟨plainRequest.correlationId, canonical_plainCorrelation⟩
  document := ⟨.materialRequest, "M"⟩
  company := "C"
  warehouse := none

theorem asked_plain (facts : List CurrentFact) :
    Asked plainRequest (plainContext facts) plainExpected where
  run := rfl
  correlation := rfl
  document := rfl
  company := rfl
  warehouse := rfl

theorem prepare_signed :
    prepare Interpreter.ascii signedSurroundings plainRequest twoLinesContext sharedHits =
      .ok ⟨twoLines, sharedHits, ⟨[], 100⟩⟩ := by
  have hsame : ∀ request context hits, prepare Interpreter.ascii signedSurroundings request context
      hits = prepare Interpreter.ascii plainSurroundings request context hits := fun _ _ _ => rfl
  rw [hsame, prepare_twoLines]

theorem groundOutput_signed :
    groundOutput Interpreter.ascii signedSurroundings plainRequest twoLinesContext
      ⟨twoLines, sharedHits, ⟨[], 100⟩⟩ mixedOutput = some mixedGrounded := by
  have hsame : ∀ request context prepared output,
      groundOutput Interpreter.ascii signedSurroundings request context prepared output =
        groundOutput Interpreter.ascii plainSurroundings request context prepared output :=
    fun _ _ _ _ => rfl
  rw [hsame, mixedEvaluation.ground]

theorem consume_signed :
    consume Interpreter.ascii (respondsWith mixedResponse).failover
      (requiresUnavailableQuantity signedSurroundings.casefold plainRequest.question) 100 {}
      (respondsWith mixedResponse).events = .parsed mixedOutput {} := by
  have hsame : signedSurroundings.casefold = plainSurroundings.casefold := rfl
  rw [hsame, consume_mixedResponse]

theorem valid_twoLinesContext : twoLinesContext.valid = true := by decide +kernel

/-- The answer with its signed claims. -/
theorem exists_signedAnswer :
    ∃ answer, answerCoach Interpreter.ascii signedSurroundings plainRequest twoLinesContext sharedHits
      (respondsWith mixedResponse) = some answer ∧ answer.answerStatus = .answered := by
  obtain ⟨json, digest, hsourced⟩ := exists_sourced prepare_signed
  have hshown := shown_of_groundOutput valid_twoLinesContext prepare_signed groundOutput_signed
    (Or.inl rfl)
  have htoken : runtimeToken signedSurroundings.token = some (Text.ofString "k") := by decide
  obtain ⟨packages, hpackages⟩ := hshown.exists_validatedClaims valid_twoLinesContext hsourced
    canonical_plainRun canonical_plainCorrelation htoken (encodes_ofString "k")
  obtain ⟨answer, hanswer, hstatus, -⟩ := exists_answer_of_grounded prepare_signed
    mixedEvaluation.trace consume_signed (by decide) groundOutput_signed hpackages
    mixedEvaluation.validate (show TokenUsage.checked {} = some {} by decide) rfl
  exact ⟨answer, hanswer, hstatus⟩

theorem conveyable_mixedOutput :
    Conveyable Interpreter.ascii signedSurroundings plainRequest twoLinesContext
      (respondsWith mixedResponse) ⟨twoLines, sharedHits, ⟨[], 100⟩⟩ := by
  have hlegible : ∀ s ∈ ["s", "r", "e", "public"],
      Text.isBlank (Text.ofString s) = false ∧ (Text.ofString s).length ≤ 140 := by decide
  have hbound : materializeLiveCitations plainRequest twoLinesContext twoLines mixedOutput =
      some { mixedOutput with citations := mixedGrounded.citations } := by decide +kernel
  have hshort : ∀ claim ∈ mixedOutput.claims,
      ((claim.citationRefs.mapM ({ mixedOutput with citations := mixedGrounded.citations } :
        ProviderOutput).citation?).bind fun citations => Json.dumps Interpreter.ascii
          (provenance citations)).all (fun json => json.length ≤ 16000) = true := by
    decide +kernel
  refine ⟨?_, ?_⟩
  · intro hit hhit
    rcases List.mem_pair.mp hhit with rfl | rfl
    · exact hlegible "r" (by decide)
    · exact hlegible "r" (by decide)
  · intro output usage hconsume _ _ _
    have hparsed := consume_mixedResponse.symm.trans hconsume
    rw [Consumed.parsed.injEq] at hparsed
    rw [← hparsed.1]
    refine ⟨?_, ?_⟩
    · intro c hc
      have hcitation : c = sharedCitation := by simpa [mixedOutput] using hc
      rw [hcitation]
      exact ⟨hlegible "s" (by decide), hlegible "r" (by decide), hlegible "e" (by decide),
        hlegible "public" (by decide)⟩
    · intro bound hboundOther claim hclaim citations hrefs json hjson
      obtain rfl := Option.some.inj (hbound.symm.trans hboundOther)
      have hlength := hshort claim hclaim
      rw [hrefs, Option.bind_some, hjson, Option.all_some, decide_eq_true_eq] at hlength
      exact hlength

/-- The answer is taken over, with its claims and their signatures. -/
theorem answer_taken_over_mixedAnswer :
    ∃ answer, answerCoach Interpreter.ascii signedSurroundings plainRequest twoLinesContext sharedHits
        (respondsWith mixedResponse) = some answer ∧ answer.answerStatus = .answered ∧
      TakenOver Interpreter.ascii signedSurroundings.token plainExpected 0 answer := by
  obtain ⟨answer, hanswer, hstatus⟩ := exists_signedAnswer
  refine ⟨answer, hanswer, hstatus, ?_⟩
  apply (answer_taken_over_iff valid_twoLinesContext (asked_plain _) (by decide) (by decide) ?_
    hanswer).mpr
  · intro prepared hprepare
    obtain rfl := Except.ok.inj (prepare_signed.symm.trans hprepare)
    exact conveyable_mixedOutput
  · intro question fragments built hbuilt id hid
    obtain rfl := Except.ok.inj hbuilt
    cases hid

/-- A provider that is gone. -/
def silentProvider : Provider where
  failover := false
  events := []

/-- A hit whose revision is blank. -/
def blankHit : SearchHit :=
  { sharedChunk "x" "2d711642b726b04401627ca9fbac32f5c8530fb1903cc4db02258717921a4881" with
    revision := " " }

theorem prepare_blankHit :
    prepare Interpreter.ascii signedSurroundings plainRequest (plainContext []) [blankHit] =
      .ok ⟨[], [blankHit], ⟨[], 100⟩⟩ := by
  have hcontent : ((Json.dumps Interpreter.ascii ((plainContext []).payload [])).any fun t =>
      t.all (fun c => c.val < 0x80) && decide (1 ≤ t.length ∧ t.length ≤ 16000)) = true := by
    decide +kernel
  have hselected : validSelectedHits Interpreter.ascii [blankHit] = some [blankHit] := by
    decide +kernel
  have hfragments : (searchHitsToContextFragments Interpreter.ascii [blankHit]).isSome = true := by
    decide +kernel
  obtain ⟨content, hdumps, hascii⟩ := Option.any_eq_true _ _ |>.mp hcontent
  rw [Bool.and_eq_true] at hascii
  obtain ⟨fragment, hfragment⟩ := Option.isSome_iff_exists.mp
    (@isSome_currentContextToFragment Interpreter.ascii plainRequest (plainContext []) [] content
      rfl rfl rfl hdumps (by decide) (isString_of_ascii hascii.1 (of_decide_eq_true hascii.2)))
  obtain ⟨fragments, hfragments⟩ := Option.isSome_iff_exists.mp hfragments
  exact prepare_of_built hfragment rfl hselected hfragments rfl

/-- The refusal of a provider that is gone is not taken over when a hit has a blank revision. -/
theorem blankRevision_not_taken_over :
    ∃ answer, answerCoach Interpreter.ascii signedSurroundings plainRequest (plainContext [])
        [blankHit] silentProvider = some answer ∧
      (plainContext []).valid = true ∧ Asked plainRequest (plainContext []) plainExpected ∧
      ∀ latencyMs, ¬TakenOver Interpreter.ascii signedSurroundings.token plainExpected latencyMs
        answer := by
  have htrace : (traceOf [blankHit] [] []).valid = true := by decide +kernel
  have hvalid : ProviderOutput.validate ⟨.unknown, [], [], [], some SafeReason.provider.text⟩ =
      some ⟨.unknown, [], [], [], some SafeReason.provider.text⟩ := by decide +kernel
  have husage : TokenUsage.checked {} = some {} := by decide
  have hconsume : consume Interpreter.ascii silentProvider.failover
      (requiresUnavailableQuantity signedSurroundings.casefold plainRequest.question) 100 {}
      silentProvider.events = .failed .unknown .provider {} := rfl
  obtain ⟨answer, hanswer, -⟩ := @exists_ofOutput _ (traceOf [blankHit] [] []) {} {} [] hvalid husage
    rfl
  refine ⟨answer, ?_, by decide +kernel, asked_plain [], ?_⟩
  · simp only [answerCoach, prepare_blankHit, htrace, hconsume, if_true]
    exact hanswer
  · intro latencyMs htaken
    obtain ⟨a, haccepted, -⟩ := htaken.accepted
    have hread := (Authority.reads_of_accepted haccepted).1
    obtain ⟨checked, tokens, -, -, rfl⟩ := exists_checked_of_ofOutput hanswer
    have hlegible := (exists_trace_iff prepare_blankHit htrace (by simp)).mp hread blankHit
      (List.mem_singleton_self _)
    exact absurd hlegible.1 (by decide)

end Coach
