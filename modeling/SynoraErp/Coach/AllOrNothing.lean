import SynoraErp.Coach.Accepted
import SynoraErp.Coach.Savepoints

/-!
# Evidence is all or nothing

An answer is stored with one row of results, whose records name rows of claims with the digests
of what is displayed, and the row gives back the answer; or else the tables are as they were.
What each part leaves is stated by its end, and the parts are put together along the programs.
-/

namespace Coach.Authority

open Python Transition
open Governance (Uuid)

/-! ## What is stored -/

/-- The id of a record names a row of the run with the digests of a displayed claim. -/
def Records (I : Interpreter) (run : Uuid) (citations : List Citation) (t : Database)
    (claim : Claim) (id : Text) : Prop :=
  ∃ row ∈ t.claims, row.name = id ∧ row.run = run.text ∧
    sha256Text claim.text = some row.claimDigest ∧
    citationDigest I citations claim = some row.citationDigest

/-- A view gives back an answer. -/
structure GivesBack (a : ValidatedAnswer) (view : ResultView) : Prop where
  status : view.answerStatus = a.answerStatus
  answer : view.answer = a.answer
  reason : view.refusalReason = a.refusalReason
  claims : view.claims = a.claims
  citations : view.citations = a.citations
  trace : view.trace = a.retrievalTrace
  usage : view.usage = a.tokenUsage

/-- One row of results is added, which is read as the answer, and claims at most. -/
structure Stores (I : Interpreter) (run : Uuid) (s t : Database) (stored : StoredAnswer) :
    Prop where
  claims : s.tables.claims <+: t.tables.claims
  result : ∃ row view, t.tables.results = s.tables.results ++ [row] ∧
    row.name = stored.resultId ∧ serializeCoachResult I row = some view ∧ view.runId = run ∧
    GivesBack stored.validated view ∧
    List.Forall₂ (Records I run stored.validated.citations t) stored.validated.claims
      view.claimRecordIds

/-- The two ways to store a result. -/
inductive Question where
  | contextual (runId capability question currentDoctype currentName : Value)
  | contextRequired (runId correlationId : Value)

namespace Question

def runId : Question → Value
  | contextual runId _ _ _ _ => runId
  | contextRequired runId _ => runId

def action (I : Interpreter) (setting : Text) : Question → Action StoredAnswer
  | contextual runId capability question currentDoctype currentName =>
      answerContextualCoach I setting runId capability question currentDoctype currentName
  | contextRequired runId correlationId => persistContextRequiredCoachResult I runId correlationId

/-- The answer that is stored: one that was accepted for the run, or the refusal. -/
def Shows (I : Interpreter) (run : Uuid) : Question → ValidatedAnswer → Prop
  | contextual .., a => ∃ expected value, expected.run = run ∧
      validateCoachAnswer I expected value = some a
  | contextRequired .., a => a = contextRequiredAnswer

end Question

/-- An answer is stored, or the tables are as they were. -/
def AllOrNothing (I : Interpreter) (q : Question) (s : Database) :
    Except Raised StoredAnswer → Database → Prop
  | .ok stored, t => ∃ run, canonicalUuid q.runId = some run ∧ q.Shows I run stored.validated ∧
      Stores I run s t stored
  | .error _, t => t.tables = s.tables

/-! ## Claims -/

section

variable {I : Interpreter} {setting : Text} {scope : RunScope} {s t : Database}

theorem keeps_insertCoachClaim (package : ReadPackage) (key : Text) :
    Ends (Performs I) () (insertCoachClaim scope package key)
      (Keeps s fun row t => row ∈ t.claims) s := by
  unfold insertCoachClaim
  apply keeps_bind (keeps_insertClaim _)
  intro inserted t _ hinserted
  cases inserted with
  | some row => exact keeps_return (hinserted row rfl)
  | none =>
      apply keeps_bind (keeps_loadByDedupe key)
      intro winner u _ hwinner
      apply keeps_bind keeps_orRaise
      intro row u' _ hrow
      obtain ⟨hrow, rfl⟩ := hrow
      apply keeps_bind keeps_require
      intro _ u' _ hu
      obtain ⟨-, rfl⟩ := hu
      exact keeps_return (hwinner row hrow)

/-- The row of a package is there, its own or another's. -/
theorem keeps_persistCoachClaim (value : Value) :
    Ends (Performs I) () (persistCoachClaim I setting value)
      (Keeps s fun row t => row ∈ t.claims) s := by
  unfold persistCoachClaim
  apply keeps_bind (keeps_quiet (c := .actor) trivial)
  intro actor _ _ _
  apply keeps_bind keeps_orRaise
  intro package _ _ _
  apply keeps_bind (keeps_quiet (c := .runScope package.runId actor) trivial)
  intro scope _ _ _
  apply keeps_bind keeps_require
  intro _ _ _ _
  apply keeps_bind keeps_orRaise
  intro key _ _ _
  apply keeps_bind (keeps_loadByDedupe key)
  intro existing t _ hexisting
  cases existing with
  | none => exact keeps_insertCoachClaim package key
  | some row =>
      apply keeps_bind keeps_require
      intro _ u _ hu
      obtain ⟨-, rfl⟩ := hu
      exact keeps_return (hexisting row rfl)

/-- The row of a package and what an answer tells of it. -/
def Persisted (scope : RunScope) (t : Database) (package : ValidatedClaim) (row : Provenance) :
    Prop :=
  ∃ claim ∈ t.claims, persistedProvenance scope claim package = some row

theorem keeps_persistEach (packages : List ValidatedClaim) :
    Ends (Performs I) () (persistEach I setting scope packages)
      (Keeps s fun rows t => List.Forall₂ (Persisted scope t) packages rows) s := by
  induction packages generalizing s with
  | nil => exact keeps_return .nil
  | cons package packages ih =>
      apply keeps_bind (keeps_persistCoachClaim _)
      intro claim t _ hclaim
      apply keeps_bind keeps_orRaise
      intro row t' _ hrow
      obtain ⟨hrow, rfl⟩ := hrow
      apply keeps_bind ih
      intro rows u hgrows hrows
      exact keeps_return (.cons ⟨claim, hgrows.mem_claims hclaim, hrow⟩ hrows)

/-! ### Savepoints -/

/-- The names of the savepoints ahead of the claims. -/
def IsClaimsSavepoint (name : Text) : Prop :=
  ∃ hex, name = Text.ofString "synora_coach_claims_" ++ hex

theorem ne_evidence_of_isClaimsSavepoint {name : Text} (h : IsClaimsSavepoint name) (hex : Text) :
    name ≠ Text.ofString "synora_coach_evidence_" ++ hex := by
  obtain ⟨other, rfl⟩ := h
  intro heq
  have htake := congrArg (List.take 14) heq
  rw [List.take_append_of_le_length (by decide), List.take_append_of_le_length (by decide)] at htake
  exact absurd htake (by decide)

/-- A new UUID ends no savepoint. -/
theorem ends_uuid4 :
    Ends (Performs I) () (request .uuid4)
      (fun r t => (∃ rows, t = s.meanwhile rows) ∧ ∀ hex, r = .ok hex →
        ∀ label, ∀ savepoint ∈ s.savepoints, savepoint.1 ≠ label ++ hex) s := by
  apply ends_request
  intro reply t h
  obtain ⟨rows, h⟩ := h
  cases h with
  | raises e hfail => cases hfail
  | uuid4 hex hfresh =>
      refine ⟨⟨rows, rfl⟩, ?_⟩
      intro hex' hhex label savepoint hsavepoint hname
      obtain rfl := Except.ok.inj hhex
      exact hfresh savepoint hsavepoint (hname ▸ List.suffix_append label _)

/-- Between savepoints, what is done after a new one. -/
theorem ends_between {label : Text} {raising : Raised → Raised} {action : Action α}
    {Q : α → Database → Prop} (haction : ∀ hex t, t.tables = s.tables →
      t.savepoints = (label ++ hex, s.tables) :: s.savepoints →
      Ends (Performs I) () action (fun r u => Holds (label ++ hex) s.tables s.savepoints u ∧
        ∀ a, r = .ok a → Q a u) t) :
    Ends (Performs I) () (do
        let hex ← request .uuid4
        restoring (label ++ hex) raising action)
      (fun r t => (∀ a, r = .ok a → Q a t) ∧
        (∀ e, r = .error e → t.tables = s.tables ∧
          (t.savepoints = s.savepoints ∨
            ∃ hex, t.savepoints = (label ++ hex, s.tables) :: s.savepoints))) s := by
  apply ends_uuid4.bind
  · intro hex t hend
    obtain ⟨⟨rows, rfl⟩, hnew⟩ := hend
    have hrestoring : Ends (Performs I) () (restoring (label ++ hex) raising action) _
        (s.meanwhile rows) :=
      ends_restoring (Q := Q) (hnew hex rfl label)
        fun t htables hsavepoints _ => haction hex t htables hsavepoints
    apply hrestoring.mono
    intro r u hu
    refine ⟨hu.1, ?_⟩
    intro e he
    obtain ⟨htables, hsavepoints⟩ := hu.2 e he
    refine ⟨htables, ?_⟩
    rcases hsavepoints with hsame | hset
    · exact Or.inl hsame
    · exact Or.inr ⟨hex, hset⟩
  · intro e t hend
    obtain ⟨⟨rows, rfl⟩, -⟩ := hend
    refine ⟨?_, fun _ _ => ⟨rfl, Or.inl rfl⟩⟩
    intro a ha
    cases ha

/-- What `_persist_coach_claims` leaves. -/
structure ClaimsEnd (scope : RunScope) (packages : List ValidatedClaim) (s : Database)
    (r : Except Raised (List Provenance)) (t : Database) : Prop where
  stored : ∀ rows, r = .ok rows → s.tables.claims <+: t.tables.claims ∧
    t.tables.results = s.tables.results ∧ List.Forall₂ (Persisted scope t) packages rows
  savepoints : ∃ later, t.savepoints = later ++ s.savepoints ∧
    ∀ savepoint ∈ later, IsClaimsSavepoint savepoint.1

theorem ends_persistCoachClaims (packages : List ValidatedClaim) :
    Ends (Performs I) () (persistCoachClaims I setting packages scope)
      (ClaimsEnd scope packages s) s := by
  unfold persistCoachClaims
  by_cases hnone : packages = []
  · rw [if_pos hnone, hnone]
    apply ends_pure
    refine ⟨?_, [], rfl, by simp⟩
    intro rows hrows
    rw [← Except.ok.inj hrows]
    exact ⟨List.prefix_refl _, rfl, .nil⟩
  rw [if_neg hnone]
  have hbetween : Ends (Performs I) () (do
      let hex ← request .uuid4
      restoring (Text.ofString "synora_coach_claims_" ++ hex) (fun _ => claimsNotPersisted)
        (persistEach I setting scope packages)) _ s :=
    ends_between (Q := fun rows t => (s.tables.claims <+: t.tables.claims ∧
        t.tables.results = s.tables.results ∧ List.Forall₂ (Persisted scope t) packages rows) ∧
        ∃ hex, t.savepoints =
          (Text.ofString "synora_coach_claims_" ++ hex, s.tables) :: s.savepoints) <| by
      intro hex t htables hsavepoints
      apply (keeps_persistEach packages).mono
      intro r u hu
      obtain ⟨hgrows, hrows⟩ := hu
      have hsavepoints' := hgrows.savepoints.trans hsavepoints
      refine ⟨⟨[], hsavepoints', by simp⟩, ?_⟩
      intro rows hr
      refine ⟨⟨?_, ?_, hrows rows hr⟩, hex, hsavepoints'⟩
      · rw [← htables]
        exact hgrows.claims
      · rw [hgrows.results, htables]
  apply hbetween.mono
  intro r t hend
  have hone : ∀ hex, t.savepoints =
      (Text.ofString "synora_coach_claims_" ++ hex, s.tables) :: s.savepoints →
      ∃ later, t.savepoints = later ++ s.savepoints ∧
        ∀ savepoint ∈ later, IsClaimsSavepoint savepoint.1 := by
    intro hex hsavepoints
    refine ⟨[_], hsavepoints, ?_⟩
    intro savepoint hmem
    rw [List.mem_singleton.mp hmem]
    exact ⟨hex, rfl⟩
  cases r with
  | ok rows =>
      obtain ⟨hstored, hex, hsavepoints⟩ := hend.1 rows rfl
      refine ⟨?_, hone hex hsavepoints⟩
      intro rows' hrows'
      rwa [← Except.ok.inj hrows']
  | error e =>
      refine ⟨?_, ?_⟩
      · intro rows hrows
        cases hrows
      · rcases (hend.2 e rfl).2 with hsame | ⟨hex, hset⟩
        · exact ⟨[], hsame, by simp⟩
        · exact hone hex hset

/-! ## The result -/

variable {run : Uuid} {correlation : Text} {document : Option DocumentRef} {a : ValidatedAnswer}
  {persisted : List Provenance}

/-- What `_persist_coach_result` leaves. -/
structure ResultEnd (I : Interpreter) (run : Uuid) (correlation : Text)
    (document : Option DocumentRef) (a : ValidatedAnswer) (persisted : List Provenance)
    (s : Database) (r : Except Raised Text) (t : Database) : Prop where
  stored : ∀ id, r = .ok id → ∃ row : ResultRow, id = row.name ∧
    (∃ name : Uuid, row.name = name.text) ∧
    resultDocumentValues I run correlation document a persisted = .ok row.toResultValues ∧
    t.tables.claims = s.tables.claims ∧ t.tables.results = s.tables.results ++ [row]
  savepoints : t.savepoints = s.savepoints
  concurrent : s.concurrent <+: t.concurrent

theorem ends_insertResult (values : ResultValues) :
    Ends (Performs I) () (request (.insertResult values))
      (fun r t => (∀ row, r = .ok row → row.toResultValues = values ∧
        (∃ name : Uuid, row.name = name.text) ∧ t.tables.claims = s.tables.claims ∧
        t.tables.results = s.tables.results ++ [row]) ∧
        t.savepoints = s.savepoints ∧ s.concurrent <+: t.concurrent) s := by
  apply ends_request
  intro reply t h
  obtain ⟨rows, h⟩ := h
  cases h with
  | raises e _ =>
      refine ⟨?_, rfl, List.prefix_append _ _⟩
      intro row hrow
      cases hrow
  | insertResult row hadmits =>
      refine ⟨?_, rfl, List.prefix_append _ _⟩
      intro row' hrow'
      rw [← Except.ok.inj hrow']
      exact ⟨rfl, hadmits.named, rfl, rfl⟩
  | resultThenRaises row _ e =>
      refine ⟨?_, rfl, List.prefix_append _ _⟩
      intro row' hrow'
      cases hrow'

theorem ends_persistCoachResult :
    Ends (Performs I) () (persistCoachResult I run correlation document a persisted)
      (ResultEnd I run correlation document a persisted s) s := by
  unfold persistCoachResult
  cases hvalues : resultDocumentValues I run correlation document a persisted with
  | error e =>
      refine ⟨?_, rfl, List.prefix_refl _⟩
      intro id hid
      cases hid
  | ok values =>
      have hinsert := ends_insertResult (I := I) (s := s) values
      apply (hinsert.catching (Q := fun r t => (∀ row, r = .ok row →
        row.toResultValues = values ∧ (∃ name : Uuid, row.name = name.text) ∧
        t.tables.claims = s.tables.claims ∧ t.tables.results = s.tables.results ++ [row]) ∧
        t.savepoints = s.savepoints ∧ s.concurrent <+: t.concurrent) ?_ ?_).bind
      · intro row t hend
        apply ends_pure
        refine ⟨?_, hend.2.1, hend.2.2⟩
        intro id hid
        obtain ⟨hrow, hname, htables⟩ := hend.1 row rfl
        exact ⟨row, (Except.ok.inj hid).symm, hname, by rw [hvalues, hrow], htables⟩
      · intro e t hend
        refine ⟨?_, hend.2.1, hend.2.2⟩
        intro id hid
        cases hid
      · intro row t hend
        exact hend
      · intro e t hend
        apply ends_throw
        refine ⟨?_, hend.2⟩
        intro row hrow
        cases hrow

theorem persistedProvenance_eq_some {row : ClaimRow} {package : ValidatedClaim} {p : Provenance}
    (h : persistedProvenance scope row package = some p) :
    row.run = package.runId ∧ row.claimDigest = package.claimDigest ∧
      row.citationDigest = package.citationDigest ∧ p.persistedClaimId = row.name := by
  rw [persistedProvenance, Option.ite_none_right_eq_some] at h
  obtain ⟨⟨hrun, -, -, -, hclaim, hcitation, -⟩, h⟩ := h
  obtain ⟨name, hname, rfl⟩ := Option.map_eq_some_iff.mp h
  exact ⟨hrun, hclaim, hcitation, (Value.str.inj (eq_of_text hname)).symm⟩

/-- The ids of the rows of the packages are the records of the claims. -/
theorem records_of_persisted {citations : List Citation} {claims : List Claim}
    {packages : List ValidatedClaim}
    (hpackages : List.Forall₂ (PackageOf I run citations) claims packages)
    (hrows : List.Forall₂ (Persisted scope s) packages persisted)
    (hmem : ∀ row ∈ s.claims, row ∈ t.claims) :
    List.Forall₂ (Records I run citations t) claims
      (persisted.map Provenance.persistedClaimId) := by
  induction hpackages generalizing persisted with
  | nil =>
      cases hrows
      exact .nil
  | cons hpackage _ ih =>
      cases hrows with
      | cons hrow hrows =>
          obtain ⟨claim, hclaim, hp⟩ := hrow
          obtain ⟨hrun, hdigest, hcitation, hname⟩ := persistedProvenance_eq_some hp
          refine .cons ⟨claim, hmem claim hclaim, hname.symm, hrun.trans hpackage.run, ?_, ?_⟩
            (ih hrows)
          · rw [hdigest]
            exact hpackage.claimDigest
          · rw [hcitation]
            exact hpackage.citationDigest

theorem stores_of_rows {packages : List ValidatedClaim} {row : ResultRow} {u : Database}
    {correlationId : Uuid} (hsound : a.Sound)
    (hpackages : List.Forall₂ (PackageOf I run a.citations) a.claims packages)
    (hrows : List.Forall₂ (Persisted scope u) packages persisted)
    (hmem : ∀ claim ∈ u.claims, claim ∈ t.claims)
    (hcorrelation : canonicalUuid (.str correlation) = some correlationId)
    (hname : ∃ name : Uuid, row.name = name.text)
    (hvalues : resultDocumentValues I run correlation document a persisted =
      .ok row.toResultValues)
    (hclaims : s.tables.claims <+: t.tables.claims)
    (hresults : t.tables.results = s.tables.results ++ [row]) :
    Stores I run s t ⟨row.name, a, persisted⟩ := by
  obtain ⟨ids, hfits, hfilled⟩ := resultDocumentValues_eq_ok hvalues
  obtain ⟨name, hname⟩ := hname
  refine ⟨hclaims, row, _, hresults, rfl,
    serialize_of_filled hsound hfits hfilled hcorrelation hname, rfl,
    ⟨rfl, rfl, rfl, rfl, rfl, rfl, rfl⟩, ?_⟩
  change List.Forall₂ _ a.claims ids
  rw [(claimRecordIds_eq_ok hfits.records).1]
  exact records_of_persisted hpackages hrows hmem

/-- What a savepoint with an answer after it leaves. -/
def Stored (I : Interpreter) (run : Uuid) (a : ValidatedAnswer) (s : Database)
    (r : Except Raised StoredAnswer) (t : Database) : Prop :=
  (∀ stored, r = .ok stored → stored.validated = a ∧ Stores I run s t stored) ∧
    ∀ e, r = .error e → t.tables = s.tables

/-- Evidence of an answer that was checked. -/
theorem ends_persistCoachEvidence {document : DocumentRef} {correlationId : Uuid}
    (hsound : a.Sound)
    (hpackages : List.Forall₂ (PackageOf I run a.citations) a.claims a.validatedClaims)
    (hcorrelation :
      canonicalUuid (.str (scope.correlationId.getD (Text.ofString "None"))) = some correlationId) :
    Ends (Performs I) () (persistCoachEvidence I setting a run scope document)
      (Stored I run a s) s := by
  unfold persistCoachEvidence
  apply Ends.mono (ends_between
    (Q := fun stored t => stored.validated = a ∧ Stores I run s t stored) ?_)
  · intro r t hend
    exact ⟨hend.1, fun e he => (hend.2 e he).1⟩
  · intro hex t htables hsavepoints
    have hholds : ∀ {u v : Database}, (∃ later, u.savepoints = later ++ t.savepoints ∧
        ∀ savepoint ∈ later, IsClaimsSavepoint savepoint.1) → v.savepoints = u.savepoints →
        Holds (Text.ofString "synora_coach_evidence_" ++ hex) s.tables s.savepoints v := by
      intro u v hlater hsame
      obtain ⟨later, hsplit, hnames⟩ := hlater
      refine ⟨later, by rw [hsame, hsplit, hsavepoints], ?_⟩
      intro savepoint hmem
      exact ne_evidence_of_isClaimsSavepoint (hnames savepoint hmem) hex
    apply (ends_persistCoachClaims a.validatedClaims).bind
    · intro persisted u hclaimsEnd
      obtain ⟨hclaims, hresults, hrows⟩ := hclaimsEnd.stored persisted rfl
      apply ends_persistCoachResult.bind
      · intro id v hresultEnd
        apply ends_pure
        refine ⟨hholds hclaimsEnd.savepoints hresultEnd.savepoints, ?_⟩
        intro stored hstored
        obtain rfl := Except.ok.inj hstored
        obtain ⟨row, rfl, hname, hvalues, hsame, hadded⟩ := hresultEnd.stored id rfl
        refine ⟨rfl, stores_of_rows hsound hpackages hrows ?_ hcorrelation hname hvalues ?_ ?_⟩
        · intro claim hclaim
          rcases List.mem_append.mp hclaim with hown | hother
          · exact List.mem_append_left _ (hsame ▸ hown)
          · exact List.mem_append_right _ (hresultEnd.concurrent.subset hother)
        · rw [hsame, ← htables]
          exact hclaims
        · rw [hadded, hresults, htables]
      · intro e v hresultEnd
        refine ⟨hholds hclaimsEnd.savepoints hresultEnd.savepoints, ?_⟩
        intro stored hstored
        cases hstored
    · intro e u hclaimsEnd
      refine ⟨hholds hclaimsEnd.savepoints rfl, ?_⟩
      intro stored hstored
      cases hstored

/-- The refusal without a document. -/
theorem ends_refusal {correlationId : Uuid} :
    Ends (Performs I) () (do
        let hex ← request .uuid4
        restoring (Text.ofString "synora_coach_refusal_" ++ hex) asFault do
          let resultId ← persistCoachResult I run correlationId.text none contextRequiredAnswer []
          pure ⟨resultId, contextRequiredAnswer, []⟩)
      (Stored I run contextRequiredAnswer s) s := by
  apply Ends.mono (ends_between
    (Q := fun stored t => stored.validated = contextRequiredAnswer ∧ Stores I run s t stored) ?_)
  · intro r t hend
    exact ⟨hend.1, fun e he => (hend.2 e he).1⟩
  · intro hex t htables hsavepoints
    apply ends_persistCoachResult.bind
    · intro id u hresultEnd
      apply ends_pure
      refine ⟨⟨[], hresultEnd.savepoints.trans hsavepoints, by simp⟩, ?_⟩
      intro stored hstored
      obtain rfl := Except.ok.inj hstored
      obtain ⟨row, rfl, hname, hvalues, hsame, hadded⟩ := hresultEnd.stored id rfl
      have hnone : List.Forall₂ (Persisted ⟨[], [], none, none⟩ u) [] [] := .nil
      refine ⟨rfl, stores_of_rows sound_contextRequiredAnswer .nil hnone (fun _ hclaim => hclaim)
        (canonicalUuid_value correlationId) hname hvalues ?_ ?_⟩
      · rw [hsame, htables]
      · rw [hadded, htables]
    · intro e u hresultEnd
      refine ⟨⟨[], hresultEnd.savepoints.trans hsavepoints, by simp⟩, ?_⟩
      intro stored hstored
      cases hstored

end

/-! ## The questions -/

section

variable {I : Interpreter} {setting : Text} {s t : Database} {α β : Type}

/-- A program that leaves the tables, and returns as `P` says. -/
def Reads (s : Database) (P : α → Prop) (r : Except Raised α) (t : Database) : Prop :=
  t.tables = s.tables ∧ ∀ a, r = .ok a → P a

theorem reads_bind {P : α → Prop} {p : Action α} {f : α → Action β}
    {Q : Except Raised β → Database → Prop} (h : Ends (Performs I) () p (Reads s P) t)
    (hf : ∀ a u, u.tables = s.tables → P a → Ends (Performs I) () (f a) Q u)
    (herror : ∀ e u, u.tables = s.tables → Q (.error e) u) :
    Ends (Performs I) () (p >>= f) Q t := by
  apply h.bind
  · intro a u hreads
    exact hf a u hreads.1 (hreads.2 a rfl)
  · intro e u hreads
    exact herror e u hreads.1

theorem reads_quiet {c : Call} (hquiet : c.Quiet) (ht : t.tables = s.tables) :
    Ends (Performs I) () (request c) (Reads s fun _ => True) t := by
  apply ends_request
  intro reply u h
  obtain ⟨rows, rfl⟩ := meanwhile_of_quiet hquiet h
  exact ⟨ht, fun _ _ => trivial⟩

theorem reads_orRaise {value : Option α} {e : Raised} (ht : t.tables = s.tables) :
    Ends (Performs I) () (orRaise e value) (Reads s fun a => value = some a) t := by
  cases value with
  | none =>
      refine ends_throw ⟨ht, ?_⟩
      intro a ha
      cases ha
  | some a =>
      refine ends_pure ⟨ht, ?_⟩
      intro b hb
      rw [Except.ok.inj hb]

theorem reads_require {condition : Bool} {e : Raised} (ht : t.tables = s.tables) :
    Ends (Performs I) () (require condition e) (Reads s fun _ => condition = true) t := by
  cases condition with
  | true => exact ends_pure ⟨ht, fun _ _ => rfl⟩
  | false =>
      refine ends_throw ⟨ht, ?_⟩
      intro a ha
      cases ha

/-- The scope of a run has a correlation id. -/
theorem reads_resolveScope {run : Uuid} {capability actor : Text} (ht : t.tables = s.tables) :
    Ends (Performs I) () (resolveScope run capability actor)
      (Reads s fun found => canonicalUuid (optionalText found.1.correlationId) = some found.2.2)
      t := by
  unfold resolveScope
  have hbody : Ends (Performs I) () (do
      let scope ← request (.runScope run actor)
      let resolved ← request (.resolveRun run capability)
      let correlation ← orRaise .other (canonicalUuid (optionalText scope.correlationId))
      pure (scope, resolved, correlation))
      (Reads s fun found => canonicalUuid (optionalText found.1.correlationId) = some found.2.2)
      t := by
    have herror : ∀ (e : Raised) (u : Database), u.tables = s.tables →
        Reads s (fun found : RunScope × ResolvedRun × Uuid =>
          canonicalUuid (optionalText found.1.correlationId) = some found.2.2) (.error e) u := by
      intro e u hu
      refine ⟨hu, ?_⟩
      intro found hfound
      cases hfound
    apply reads_bind (reads_quiet (c := .runScope run actor) trivial ht) _ herror
    intro scope u hu _
    apply reads_bind (reads_quiet (c := .resolveRun run capability) trivial hu) _ herror
    intro resolved v hv _
    apply reads_bind (reads_orRaise hv) _ herror
    intro correlation w hw hcorrelation
    refine ends_pure ⟨hw, ?_⟩
    intro found hfound
    rw [← Except.ok.inj hfound]
    exact hcorrelation
  apply hbody.catching
  · intro a u hreads
    exact hreads
  · intro e u hreads
    refine ends_throw ⟨hreads.1, ?_⟩
    intro found hfound
    cases hfound

theorem canonicalUuid_optionalText {correlation : Option Text} {id : Uuid}
    (h : canonicalUuid (optionalText correlation) = some id) :
    canonicalUuid (.str (correlation.getD (Text.ofString "None"))) = some id := by
  cases correlation with
  | none => cases h
  | some t => exact h

/-- What is stored for a question is all or nothing for it. -/
theorem allOrNothing_of_stored {q : Question} {run : Uuid} {a : ValidatedAnswer}
    (hrun : canonicalUuid q.runId = some run) (hshows : q.Shows I run a)
    (htables : t.tables = s.tables) {r : Except Raised StoredAnswer} {u : Database}
    (h : Stored I run a t r u) : AllOrNothing I q s r u := by
  cases r with
  | ok stored =>
      obtain ⟨hvalidated, hclaims, hresult⟩ := h.1 stored rfl
      refine ⟨run, hrun, hvalidated ▸ hshows, ?_⟩
      rw [htables] at hclaims hresult
      exact ⟨hclaims, hresult⟩
  | error e => exact (h.2 e rfl).trans htables

/-- An answer is stored with the rows of its claims and is read again as it was, or the tables are
as they were. -/
theorem evidence_all_or_nothing (I : Interpreter) (setting : Text) (q : Question) (s : Database) :
    Ends (Performs I) () (q.action I setting) (AllOrNothing I q s) s := by
  have herror : ∀ (e : Raised) (t : Database), t.tables = s.tables →
      AllOrNothing I q s (.error e) t := fun _ _ ht => ht
  cases q with
  | contextual runId capability question currentDoctype currentName =>
      apply reads_bind (reads_quiet (c := .actor) trivial rfl) _ herror
      intro actor t ht _
      apply reads_bind (reads_orRaise ht) _ herror
      intro run t ht hrun
      apply reads_bind (reads_orRaise ht) _ herror
      intro safeCapability t ht _
      apply reads_bind (reads_orRaise ht) _ herror
      intro safeQuestion t ht _
      apply reads_bind (reads_orRaise ht) _ herror
      intro doctype t ht _
      apply reads_bind (reads_orRaise ht) _ herror
      intro name t ht _
      apply reads_bind (reads_resolveScope ht) _ herror
      intro found t ht hcorrelation
      apply reads_bind (reads_require ht) _ herror
      intro _ t ht _
      apply reads_bind (reads_quiet (c := .callCoachRuntime _ _) trivial ht) _ herror
      intro runtimeAnswer t ht _
      apply reads_bind (reads_orRaise ht) _ herror
      intro validated t ht hvalidated
      obtain ⟨hsound, hpackages⟩ := validateCoachAnswer_eq_some hvalidated
      apply (ends_persistCoachEvidence hsound hpackages
        (canonicalUuid_optionalText hcorrelation)).mono
      intro r u hstored
      exact allOrNothing_of_stored
        (q := .contextual runId capability question currentDoctype currentName) hrun
        ⟨_, _, rfl, hvalidated⟩ ht hstored
  | contextRequired runId correlationId =>
      apply reads_bind (reads_quiet (c := .actor) trivial rfl) _ herror
      intro actor t ht _
      apply reads_bind (reads_orRaise ht) _ herror
      intro run t ht hrun
      apply reads_bind (reads_orRaise ht) _ herror
      intro correlation t ht _
      apply reads_bind (reads_quiet (c := .runScope run actor) trivial ht) _ herror
      intro scope t ht _
      apply reads_bind (reads_require ht) _ herror
      intro _ t ht _
      apply ends_refusal.mono
      intro r u hstored
      exact allOrNothing_of_stored (q := .contextRequired runId correlationId) hrun rfl ht hstored

end

end Coach.Authority
