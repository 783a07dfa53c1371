import SynoraErp.Coach.Readable

/-!
# What the check of an answer establishes

An answer that is accepted can be stored and read again, and it holds a package for each of its
claims, in their order, with the digests of the claim and of the citations it is displayed with.
-/

namespace Coach.Authority

open Python
open Governance (Uuid item)

/-- The digest of the citations a claim is displayed with. -/
def citationDigest (I : Interpreter) (citations : List Citation) (claim : Claim) : Option Text :=
  (claim.citationRefs.mapM fun id => citations.find? fun c => c.citationId = id).bind fun cited =>
    (Json.dumps I (provenance cited)).bind sha256Text

/-- The package of a displayed claim. -/
structure PackageOf (I : Interpreter) (run : Uuid) (citations : List Citation) (claim : Claim)
    (package : ValidatedClaim) : Prop where
  run : package.runId = run.text
  claimDigest : sha256Text claim.text = some package.claimDigest
  citationDigest : citationDigest I citations claim = some package.citationDigest

/-! ## Packages -/

/-- The digests of a package are those of its text and its citations. -/
theorem digests_of_readPackage {I : Interpreter} {value : Value} {read : ReadPackage}
    (h : readPackage I value = some read) :
    sha256Text read.package.claimText = some read.package.claimDigest ∧
      (Json.dumps I (provenance read.package.citations)).bind sha256Text =
        some read.package.citationDigest := by
  obtain ⟨package, -, h⟩ := Option.bind_eq_some_iff.mp h
  obtain ⟨runId, -, h⟩ := Option.bind_eq_some_iff.mp h
  obtain ⟨correlationId, -, h⟩ := Option.bind_eq_some_iff.mp h
  obtain ⟨hclaim, h⟩ := guard_bind_eq_some.mp h
  obtain ⟨json, hjson, h⟩ := Option.bind_eq_some_iff.mp h
  obtain ⟨hcitation, h⟩ := guard_bind_eq_some.mp h
  obtain ⟨snapshot, -, h⟩ := Option.bind_eq_some_iff.mp h
  obtain rfl := Option.some.inj h
  have hdumps := (Option.filter_eq_some_iff.mp hjson).1
  exact ⟨hclaim, by rw [hdumps, Option.bind_some, hcitation]⟩

theorem coachOutputPackage_eq_some {I : Interpreter} {expected : Expected} {value : Value}
    {package : ValidatedClaim} (h : coachOutputPackage I expected value = some package) :
    package.runId = expected.run.text ∧
      sha256Text package.claimText = some package.claimDigest ∧
      (Json.dumps I (provenance package.citations)).bind sha256Text =
        some package.citationDigest := by
  obtain ⟨read, hread, h⟩ := Option.bind_eq_some_iff.mp h
  obtain ⟨hids, h⟩ := guard_bind_eq_some.mp h
  obtain ⟨-, h⟩ := guard_bind_eq_some.mp h
  obtain rfl := Option.some.inj h
  obtain ⟨hclaim, hcitations⟩ := digests_of_readPackage hread
  exact ⟨by rw [hids.1], hclaim, hcitations⟩

/-! ## Citations -/

section

variable {I : Interpreter}

theorem sameCitation_eq_true {c d : Citation} (h : sameCitation I c d = true) :
    ∃ t, Json.dumps I c.object = some t ∧ Json.dumps I d.object = some t := by
  rw [sameCitation, Option.any_eq_true] at h
  obtain ⟨t, hc, hd⟩ := h
  exact ⟨t, (Option.filter_eq_some_iff.mp hc).1,
    (Option.filter_eq_some_iff.mp (of_decide_eq_true hd)).1⟩

theorem allFinite_of_dumps {v : Value} {t : Text} (h : Json.dumps I v = some t) :
    Json.allFinite v = true := by
  by_contra hne
  rw [Json.dumps, if_neg hne] at h
  cases h

theorem sortKeys_provenance (citations : List Citation) : Json.sortKeys (provenance citations) =
    .dict [(Text.ofString "citations", .list ((citations.map Citation.object).map Json.sortKeys))] := by
  rw [provenance, Json.sortKeys, Json.sortKeysEntries, Json.sortKeysEntries, Json.sortKeys,
    Json.sortKeysItems_eq_map]
  rfl

/-- Citations of the same canonical forms make the same provenance. -/
theorem dumps_provenance_congr {cs ds : List Citation}
    (h : List.Forall₂ (fun c d => sameCitation I c d = true) cs ds) :
    Json.dumps I (provenance cs) = Json.dumps I (provenance ds) := by
  have hitems : ∀ first, Json.renderItems I first ((cs.map Citation.object).map Json.sortKeys) =
      Json.renderItems I first ((ds.map Citation.object).map Json.sortKeys) := by
    induction h with
    | nil =>
        intro first
        rfl
    | cons hsame _ ih =>
        intro first
        obtain ⟨t, hc, hd⟩ := sameCitation_eq_true hsame
        simp only [List.map_cons, Json.renderItems, ih]
        rw [← Json.eq_render_of_dumps hc, ← Json.eq_render_of_dumps hd]
  have hfinite : ∀ {es fs : List Citation},
      List.Forall₂ (fun c d => sameCitation I c d = true) es fs →
        Json.allFiniteItems (es.map Citation.object) = true ∧
          Json.allFiniteItems (fs.map Citation.object) = true := by
    intro es fs hall
    induction hall with
    | nil => exact ⟨rfl, rfl⟩
    | cons hsame _ ih =>
        obtain ⟨t, hc, hd⟩ := sameCitation_eq_true hsame
        simp only [List.map_cons, Json.allFiniteItems, allFinite_of_dumps hc, allFinite_of_dumps hd,
          ih.1, ih.2, Bool.and_true, and_self]
  rw [Json.dumps, Json.dumps, sortKeys_provenance, sortKeys_provenance]
  simp only [provenance, Json.allFinite, Json.allFiniteEntries, (hfinite h).1, (hfinite h).2,
    Json.render, Json.renderEntries, hitems]

/-- The cited citations are found among the displayed ones, in the same order. -/
theorem exists_displayed {citations cited : List Citation}
    (h : ∀ c ∈ cited, (citations.find? fun d => d.citationId = c.citationId).any
      (sameCitation I c) = true) :
    ∃ ds, ((cited.map Citation.citationId).mapM fun id =>
        citations.find? fun d => d.citationId = id) = some ds ∧
      List.Forall₂ (fun c d => sameCitation I c d = true) cited ds := by
  induction cited with
  | nil => exact ⟨[], rfl, .nil⟩
  | cons c cited ih =>
      obtain ⟨hhead, htail⟩ := List.forall_mem_cons.mp h
      obtain ⟨ds, hds, hsame⟩ := ih htail
      rw [Option.any_eq_true] at hhead
      obtain ⟨d, hd, hsameHead⟩ := hhead
      refine ⟨d :: ds, ?_, .cons hsameHead hsame⟩
      rw [List.map_cons, List.mapM_cons, hd, hds]
      rfl

/-! ## The order of the packages -/

theorem getElem_ordinals {n i : ℕ} (h : i < (ordinals n).length) : (ordinals n)[i] = (i : ℤ) + 1 := by
  simp [ordinals]

/-- A place is known by its ordinal. -/
theorem eq_of_ordinals {α β : Type} {f : α → ℤ} {g : β → ℤ} {xs : List α} {ys : List β}
    (hxs : xs.map f = ordinals xs.length) (hys : ys.map g = ordinals ys.length) {i j : ℕ}
    (hi : i < xs.length) (hj : j < ys.length) (h : f xs[i] = g ys[j]) : i = j := by
  have hfi : f xs[i] = (i : ℤ) + 1 := by
    have hget := List.getElem_of_eq hxs (i := i) (by rwa [List.length_map])
    rwa [List.getElem_map, getElem_ordinals] at hget
  have hgj : g ys[j] = (j : ℤ) + 1 := by
    have hget := List.getElem_of_eq hys (i := j) (by rwa [List.length_map])
    rwa [List.getElem_map, getElem_ordinals] at hget
  omega

/-- The packages stand in the order of the claims. -/
theorem forall₂_of_packagesFit {claims : List Claim} {citations : List Citation}
    {packages : List ValidatedClaim} (h : packagesFit I claims citations packages = true)
    (hclaims : claims.map Claim.ordinal = ordinals claims.length) :
    List.Forall₂ (fun claim package => packageFits I citations claim package = true) claims
      packages := by
  simp only [packagesFit, Bool.and_eq_true, decide_eq_true_eq, List.all_eq_true] at h
  obtain ⟨⟨⟨hlength, -⟩, hfits⟩, hpackages⟩ := h
  apply List.forall₂_iff_get.mpr
  refine ⟨hlength.symm, ?_⟩
  intro i hi hi'
  have hclaim := hfits _ (List.get_mem claims ⟨i, hi⟩)
  rw [Option.any_eq_true] at hclaim
  obtain ⟨package, hfind, hpackage⟩ := hclaim
  obtain ⟨j, hj, hget⟩ := List.mem_iff_getElem.mp (List.mem_of_find?_eq_some hfind)
  have hordinal := hpackage
  simp only [packageFits, Bool.and_eq_true, decide_eq_true_eq] at hordinal
  have hij : i = j := by
    apply eq_of_ordinals hclaims hpackages hi hj
    rw [hget]
    exact hordinal.1.1.symm
  subst hij
  rw [List.get_eq_getElem, List.get_eq_getElem, hget]
  exact hpackage

end

/-! ## Answers -/

theorem exists_of_mem_listOf {α : Type} {read : Value → Option α} {maximum : ℕ} {value : Value}
    {items : List α} (h : listOf read maximum value = some items) :
    ∀ a ∈ items, ∃ v, read v = some a := by
  cases value with
  | list values =>
      rw [listOf, Option.ite_none_left_eq_some] at h
      intro a ha
      obtain ⟨v, -, hv⟩ := Governance.exists_left_of_mem (forall₂_of_mapM_eq_some h.2) ha
      exact ⟨v, hv⟩
  | _ => cases h

/-- The package of a claim among those of an answer. -/
theorem packageOf_of_fits {I : Interpreter} {expected : Expected} {citations : List Citation}
    {claim : Claim} {package : ValidatedClaim}
    (hpackage : ∃ value, coachOutputPackage I expected value = some package)
    (hfits : packageFits I citations claim package = true) :
    PackageOf I expected.run citations claim package := by
  obtain ⟨value, hvalue⟩ := hpackage
  obtain ⟨hrun, hclaim, hdigest⟩ := coachOutputPackage_eq_some hvalue
  simp only [packageFits, Bool.and_eq_true, decide_eq_true_eq, List.all_eq_true] at hfits
  obtain ⟨⟨-, -, htext, hrefs⟩, hcited⟩ := hfits
  obtain ⟨ds, hds, hsame⟩ := exists_displayed hcited
  refine ⟨hrun, htext ▸ hclaim, ?_⟩
  rw [citationDigest, ← hrefs, hds, Option.bind_some, ← dumps_provenance_congr hsame, hdigest]

theorem forall₂_packageOf {I : Interpreter} {expected : Expected} {citations : List Citation}
    {claims : List Claim} {packages : List ValidatedClaim}
    (hpackages : ∀ package ∈ packages, ∃ value, coachOutputPackage I expected value = some package)
    (hfits : List.Forall₂ (fun claim package => packageFits I citations claim package = true) claims
      packages) :
    List.Forall₂ (PackageOf I expected.run citations) claims packages := by
  induction hfits with
  | nil => exact .nil
  | cons hhead _ ih =>
      obtain ⟨hfirst, hrest⟩ := List.forall_mem_cons.mp hpackages
      exact .cons (packageOf_of_fits hfirst hhead) (ih hrest)

/-- What is accepted can be stored and read again, and has the packages of its claims. -/
theorem validateCoachAnswer_eq_some {I : Interpreter} {expected : Expected} {value : Value}
    {a : ValidatedAnswer} (h : validateCoachAnswer I expected value = some a) :
    a.Sound ∧ List.Forall₂ (PackageOf I expected.run a.citations) a.claims a.validatedClaims := by
  obtain ⟨body, -, h⟩ := Option.bind_eq_some_iff.mp h
  obtain ⟨-, h⟩ := guard_bind_eq_some.mp h
  obtain ⟨status, -, h⟩ := Option.bind_eq_some_iff.mp h
  obtain ⟨answer, -, h⟩ := Option.bind_eq_some_iff.mp h
  obtain ⟨reason, -, h⟩ := Option.bind_eq_some_iff.mp h
  obtain ⟨claims, hclaims, h⟩ := Option.bind_eq_some_iff.mp h
  obtain ⟨citations, hcitations, h⟩ := Option.bind_eq_some_iff.mp h
  obtain ⟨hordinals, h⟩ := guard_bind_eq_some.mp h
  obtain ⟨hgraph, h⟩ := guard_bind_eq_some.mp h
  obtain ⟨packages, hpackages, h⟩ := Option.bind_eq_some_iff.mp h
  obtain ⟨-, h⟩ := guard_bind_eq_some.mp h
  obtain ⟨hstatus, h⟩ := guard_bind_eq_some.mp h
  obtain ⟨trace, htrace, h⟩ := Option.bind_eq_some_iff.mp h
  obtain ⟨usage, husage, h⟩ := Option.bind_eq_some_iff.mp h
  obtain ⟨latency, hlatency, h⟩ := Option.bind_eq_some_iff.mp h
  obtain rfl := Option.some.inj h
  have hjoined : declines status = false → answer = joinTexts claims ∧
      packagesFit I claims citations packages = true := by
    intro hdeclines
    rw [statusFits, if_neg (by rw [hdeclines]; decide)] at hstatus
    simp only [Bool.and_eq_true, decide_eq_true_eq] at hstatus
    exact ⟨hstatus.1.2, hstatus.2⟩
  constructor
  · exact
      { claims := exists_of_mem_listOf hclaims
        citations := exists_of_mem_listOf hcitations
        ordinals := hordinals.2
        graph := hgraph
        trace := ⟨_, htrace⟩
        usage := ⟨_, husage⟩
        latency := (boundedInt_eq_some.mp hlatency).2
        joined := fun hdeclines => (hjoined hdeclines).1 }
  · cases hdeclines : declines status with
    | true =>
        rw [statusFits, if_pos hdeclines] at hstatus
        simp only [Bool.and_eq_true, List.isEmpty_iff] at hstatus
        rw [hstatus.1.1.1.2, hstatus.1.2]
        exact .nil
    | false =>
        exact forall₂_packageOf (exists_of_mem_listOf hpackages)
          (forall₂_of_packagesFit (hjoined hdeclines).2 hordinals.2)

theorem sound_contextRequiredAnswer : contextRequiredAnswer.Sound where
  claims := by simp [contextRequiredAnswer]
  citations := by simp [contextRequiredAnswer]
  ordinals := rfl
  graph := rfl
  trace := ⟨traceValue {}, by decide⟩
  usage := ⟨usageValue {}, by decide⟩
  latency := ⟨le_refl 0, by decide⟩
  joined := by
    intro h
    cases h

end Coach.Authority
