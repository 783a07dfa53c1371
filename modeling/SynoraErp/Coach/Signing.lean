import SynoraErp.Coach.Accepted
import SynoraErp.Coach.WireReaders
import SynoraErp.Python.JsonSize

/-!
# Every claim that is displayed is signed

The snapshot of a context that has a fragment is a part of the fragment, so it is short enough, and
the claims of an output that was checked have texts with a UTF-8 form: the package of each of them
is built and signed.
-/

namespace Coach

open Python Governance

/-! ## Texts with a UTF-8 form -/

theorem encodes_of_isSome {t : Text} (h : (Text.encodeUtf8 t).isSome = true) : Encodes t :=
  encodes_iff.mpr (Option.isSome_iff_ne_none.mp h)

theorem encodes_of_isString {low high : ℕ} {t : Text} (h : isString low high t = true) :
    Encodes t := by
  rw [isString, Bool.and_eq_true] at h
  exact encodes_of_isSome h.1

theorem encodes_of_isName {t : Text} (h : isName t = true) : Encodes t := by
  rw [isName, Bool.and_eq_true] at h
  exact encodes_of_isString h.1

theorem exists_sha256Text {t : Text} (h : Encodes t) : ∃ digest, sha256Text t = some digest := by
  obtain ⟨bytes, hbytes⟩ := Option.ne_none_iff_exists'.mp (encodes_iff.mp h)
  exact ⟨Sha256.hexdigest bytes, by rw [sha256Text, hbytes, Option.map_some]⟩

theorem isDigest_of_sha256Text {t digest : Text} (h : sha256Text t = some digest) :
    isDigest digest = true := by
  obtain ⟨bytes, -, rfl⟩ := Option.map_eq_some_iff.mp h
  exact (Governance.sha256 bytes).valid

theorem encodes_of_isDigest {t : Text} (h : isDigest t = true) : Encodes t := by
  rw [isDigest, Bool.and_eq_true, List.all_eq_true] at h
  apply encodes_of_ascii
  intro c hc
  have hhex := h.2 c hc
  simp only [isLowerHex, Bool.or_eq_true, Bool.and_eq_true, decide_eq_true_eq] at hhex
  omega

theorem encodes_of_isId {t : Text} (h : isId t = true) : Encodes t := by
  cases t with
  | nil => cases h
  | cons c t =>
      simp only [isId, Bool.and_eq_true, List.all_eq_true, Bool.or_eq_true] at h
      have halphanumeric : ∀ d : CodePoint, isAlphanumeric d = true → d.val < 0x80 := by
        intro d hd
        simp only [isAlphanumeric, Bool.or_eq_true, Bool.and_eq_true, decide_eq_true_eq] at hd
        omega
      apply encodes_of_ascii
      intro d hd
      rcases List.mem_cons.mp hd with rfl | hd
      · exact halphanumeric _ h.1.1
      · rcases h.2 d hd with hd | hd
        · exact halphanumeric _ hd
        · simp only [List.contains_eq_mem, List.mem_cons, List.not_mem_nil, or_false,
            decide_eq_true_eq] at hd
          omega

theorem encodes_of_isCanonicalUuid {t : Text} (h : isCanonicalUuid t = true) : Encodes t := by
  apply encodes_of_ascii
  intro c hc
  rcases isLowerHex_or_hyphen h hc with hhex | rfl
  · simp only [isLowerHex, Bool.or_eq_true, Bool.and_eq_true, decide_eq_true_eq] at hhex
    omega
  · decide

/-- An object in key order encodes when its keys and its values do. -/
theorem encodes_sortKeys_dict {I : Interpreter} {entries : Dict} :
    Encodes (Json.render I (Json.sortKeys (.dict entries))) ↔
      ∀ entry ∈ entries, Encodes entry.1 ∧ Encodes (Json.render I (Json.sortKeys entry.2)) := by
  rw [Json.sortKeys, encodes_render_dict, Json.sortKeysEntries_eq_map]
  simp only [List.mem_insertionSort, List.forall_mem_map]

theorem encodes_sortKeys_list {I : Interpreter} {values : List Value} :
    Encodes (Json.render I (Json.sortKeys (.list values))) ↔
      ∀ v ∈ values, Encodes (Json.render I (Json.sortKeys v)) := by
  rw [Json.sortKeys, encodes_render_list, Json.sortKeysItems_eq_map]
  simp only [List.forall_mem_map]

theorem encodes_str {I : Interpreter} {t : Text} :
    Encodes (Json.render I (Json.sortKeys (.str t))) ↔ Encodes t := by
  rw [Json.sortKeys, Json.render]
  · exact encodes_encodeString
  all_goals simp

theorem encodes_int {I : Interpreter} (n : ℤ) :
    Encodes (Json.render I (Json.sortKeys (.int n))) := encodes_intText n

theorem encodes_optionalText {I : Interpreter} {t : Option Text} (h : isOptionalName t = true) :
    Encodes (Json.render I (Json.sortKeys (optionalText t))) := by
  cases t with
  | none => exact encodes_ofString "null"
  | some t =>
      simp only [isOptionalName, Option.elim_some, Bool.and_eq_true] at h
      exact encodes_str.mpr (encodes_of_isString h.1)

/-! ## The snapshot -/

section

variable {I : Interpreter} {request : QuestionRequest} {context : CurrentDocumentContext}

/-- What the fragment of a context tells of it. -/
theorem currentContextToFragment_eq_some {fragment : ContextFragment}
    (h : currentContextToFragment I request context = some fragment) :
    (request.runId = context.runId ∧ request.currentDocument = context.currentDocument) ∧
      ∃ facts content, Json.dumps I (context.payload facts) = some content ∧
        isString 1 16000 content = true := by
  obtain ⟨hsame, h⟩ := Authority.guard_bind_eq_some.mp h
  obtain ⟨facts, -, h⟩ := Option.bind_eq_some_iff.mp h
  obtain ⟨content, hcontent, h⟩ := Option.bind_eq_some_iff.mp h
  obtain ⟨digest, -, hfragment⟩ := Option.bind_eq_some_iff.mp h
  refine ⟨hsame, facts, content, hcontent, ?_⟩
  rw [ContextFragment.fromContent, Option.ite_none_right_eq_some, Bool.and_eq_true] at hfragment
  exact hfragment.1.2

theorem allFinite_optionalText (t : Option Text) : Json.allFinite (optionalText t) = true := by
  cases t with
  | none => rfl
  | some t => rfl

/-- The snapshot is a part of the fragment. -/
theorem exists_snapshot {facts : Facts} {content : Text}
    (hcontent : Json.dumps I (context.payload facts) = some content)
    (hstring : isString 1 16000 content = true) :
    ∃ snapshot, Json.dumps I (.dict context.metadata) = some snapshot ∧
      snapshot.length ≤ 16000 ∧ Encodes snapshot := by
  have hsublist : context.metadata.Sublist
      ([(Text.ofString "evidence_type", .ofString "LIVE_ERP")] ++ context.metadata ++
        [(Text.ofString "facts", .list (facts.map fun fact =>
          .dict [("fact_digest", .str fact.1), ("fact", fact.2.object)]))]) :=
    List.sublist_append_of_sublist_left (List.sublist_append_right _ _)
  have hfinite : Json.allFinite (.dict context.metadata) = true := by
    simp [CurrentDocumentContext.metadata, DocumentRef.object, CurrentDocumentContext.scope,
      Json.allFinite, Json.allFiniteEntries, allFinite_optionalText]
  have hrender := Json.eq_render_of_dumps hcontent
  refine ⟨_, if_pos hfinite, ?_, ?_⟩
  · have hle := @Json.length_render_le_of_sublist I _ _ hsublist (List.cons_ne_nil _ _)
    rw [isString, Bool.and_eq_true, decide_eq_true_eq, hrender] at hstring
    exact hle.trans hstring.2.2
  · have hencodes := encodes_of_isString hstring
    rw [hrender, CurrentDocumentContext.payload, encodes_sortKeys_dict] at hencodes
    apply encodes_sortKeys_dict.mpr
    intro entry hentry
    exact hencodes entry (hsublist.subset hentry)

/-- The revision that is signed with a snapshot. -/
def signedRevision (context : CurrentDocumentContext) (digest : Text) : Text :=
  (context.frappeRevision.or context.erpnextRevision).getD (Text.ofString "snapshot-" ++ digest)

theorem sourceSnapshot_of_dumps {snapshot digest : Text}
    (hsnapshot : Json.dumps I (.dict context.metadata) = some snapshot)
    (hdigest : sha256Text snapshot = some digest) :
    sourceSnapshot I context = some (signedRevision context digest, snapshot) := by
  simp only [sourceSnapshot, hsnapshot, hdigest, Option.bind_eq_bind, Option.bind_some,
    signedRevision]

theorem isOptionalName_some {t : Text} (h : isOptionalName (some t) = true) : isName t = true := by
  simp only [isOptionalName, Option.elim_some, isString, Bool.and_eq_true, decide_eq_true_eq] at h
  simp only [isName, isString, Bool.and_eq_true, decide_eq_true_eq]
  have hpos : 1 ≤ t.length := by
    cases t with
    | nil => exact absurd h.2 (by decide)
    | cons c t => simp
  exact ⟨⟨h.1.1, hpos, h.1.2.2⟩, h.2⟩

/-- The revision is a name, as the digest is one. -/
theorem isName_signedRevision (hcontext : context.valid = true) {digest : Text}
    (hdigest : isDigest digest = true) : isName (signedRevision context digest) = true := by
  simp only [CurrentDocumentContext.valid, Bool.and_eq_true] at hcontext
  obtain ⟨⟨⟨⟨⟨-, hfrappe⟩, herpnext⟩, -⟩, -⟩, -⟩ := hcontext
  rw [signedRevision]
  cases hrevision : context.frappeRevision with
  | some revision =>
      rw [hrevision] at hfrappe
      exact isOptionalName_some hfrappe
  | none =>
      cases herp : context.erpnextRevision with
      | some revision =>
          rw [herp] at herpnext
          exact isOptionalName_some herpnext
      | none =>
          have hencodes : Encodes (Text.ofString "snapshot-" ++ digest) :=
            encodes_append.mpr ⟨encodes_ofString _, encodes_of_isDigest hdigest⟩
          have hlength : (Text.ofString "snapshot-" ++ digest).length = 73 := by
            rw [isDigest, Bool.and_eq_true, beq_iff_eq] at hdigest
            rw [List.length_append, hdigest.1]
            rfl
          have hblank : Text.isBlank (Text.ofString "snapshot-" ++ digest) = false :=
            isBlank_of_mem (List.mem_append_left _ List.mem_cons_self) (by decide)
          have hsome := Option.isSome_iff_ne_none.mpr (encodes_iff.mp hencodes)
          simp only [Option.or_none, Option.getD_none, isName, isString, hsome, hlength, hblank,
            Bool.true_and, Bool.not_false, Bool.and_true, decide_eq_true_eq]
          omega

end

/-! ## Citations -/

section

variable {I : Interpreter}

theorem allFinite_citation (citation : Citation) : Json.allFinite citation.object = true := by
  have htexts : ∀ fields : List LiveFactField,
      Json.allFiniteItems (fields.map fun field => .str field.text) = true := by
    intro fields
    induction fields with
    | nil => rfl
    | cons field fields ih => rw [List.map_cons, Json.allFiniteItems, ih]; rfl
  cases citation with
  | live c =>
      simp [Citation.object, Json.allFinite, Json.allFiniteEntries, allFinite_optionalText, htexts,
        Value.ofString]
  | selector id fields =>
      simp [Citation.object, Json.allFinite, Json.allFiniteEntries, htexts, Value.ofString]
  | retrieval c => simp [Citation.object, Json.allFinite, Json.allFiniteEntries, Value.ofString]
  | memory c => simp [Citation.object, Json.allFinite, Json.allFiniteEntries, Value.ofString]

theorem encodes_factFields (fields : List LiveFactField) :
    Encodes (Json.render I (Json.sortKeys (.list (fields.map fun field => .str field.text)))) := by
  apply encodes_sortKeys_list.mpr
  intro v hv
  obtain ⟨field, -, rfl⟩ := List.mem_map.mp hv
  apply encodes_str.mpr
  cases field <;> exact encodes_ofString _

/-- A citation that was checked has a JSON with a UTF-8 form. -/
theorem encodes_citation {citation : Citation} (h : citation.valid = true) :
    Encodes (Json.render I (Json.sortKeys citation.object)) := by
  have hstring : ∀ s : String, Encodes (Json.render I (Json.sortKeys (.ofString s))) := fun s =>
    encodes_str.mpr (encodes_ofString s)
  have hkey : ∀ s : String, Encodes (Text.ofString s) := encodes_ofString
  cases citation with
  | live c =>
      simp only [Citation.valid, Bool.and_eq_true] at h
      obtain ⟨⟨⟨⟨⟨⟨⟨⟨⟨hid, hrun⟩, hname⟩, -⟩, hcaptured⟩, hmodified⟩, hfrappe⟩, herpnext⟩, -⟩, hdigest⟩ := h
      apply encodes_sortKeys_dict.mpr
      simp only [List.forall_mem_cons]
      exact ⟨⟨hkey _, hstring _⟩, ⟨hkey _, encodes_str.mpr (encodes_of_isId hid)⟩,
        ⟨hkey _, encodes_str.mpr (encodes_of_isCanonicalUuid hrun)⟩,
        ⟨hkey _, by cases c.documentDoctype <;> exact hstring _⟩,
        ⟨hkey _, encodes_str.mpr (encodes_of_isName hname)⟩, ⟨hkey _, encodes_int _⟩,
        ⟨hkey _, encodes_str.mpr (encodes_of_isName hcaptured)⟩,
        ⟨hkey _, encodes_optionalText hmodified⟩, ⟨hkey _, encodes_optionalText hfrappe⟩,
        ⟨hkey _, encodes_optionalText herpnext⟩, ⟨hkey _, encodes_factFields _⟩,
        ⟨hkey _, encodes_str.mpr (encodes_of_isDigest hdigest)⟩, by simp⟩
  | selector id fields =>
      simp only [Citation.valid, Bool.and_eq_true] at h
      apply encodes_sortKeys_dict.mpr
      simp only [List.forall_mem_cons]
      exact ⟨⟨hkey _, hstring _⟩, ⟨hkey _, encodes_str.mpr (encodes_of_isId h.1)⟩,
        ⟨hkey _, encodes_factFields _⟩, by simp⟩
  | retrieval c =>
      simp only [Citation.valid, Bool.and_eq_true] at h
      obtain ⟨⟨⟨⟨⟨⟨⟨hid, hchunk⟩, hcontent⟩, -⟩, hsource⟩, hrevision⟩, hversion⟩, hscope⟩ := h
      apply encodes_sortKeys_dict.mpr
      simp only [List.forall_mem_cons]
      exact ⟨⟨hkey _, hstring _⟩, ⟨hkey _, encodes_str.mpr (encodes_of_isId hid)⟩,
        ⟨hkey _, encodes_str.mpr (encodes_of_isDigest hchunk)⟩,
        ⟨hkey _, encodes_str.mpr (encodes_of_isDigest hcontent)⟩, ⟨hkey _, encodes_int _⟩,
        ⟨hkey _, encodes_str.mpr (encodes_of_isString hsource)⟩,
        ⟨hkey _, encodes_str.mpr (encodes_of_isString hrevision)⟩,
        ⟨hkey _, encodes_str.mpr (encodes_of_isString hversion)⟩,
        ⟨hkey _, encodes_str.mpr (encodes_of_isString hscope)⟩, by simp⟩
  | memory c =>
      simp only [Citation.valid, Bool.and_eq_true] at h
      obtain ⟨⟨⟨⟨⟨hid, hmemory⟩, -⟩, hcontent⟩, hreviewed⟩, hreviewer⟩ := h
      apply encodes_sortKeys_dict.mpr
      simp only [List.forall_mem_cons]
      exact ⟨⟨hkey _, hstring _⟩, ⟨hkey _, encodes_str.mpr (encodes_of_isId hid)⟩,
        ⟨hkey _, encodes_str.mpr (encodes_of_isCanonicalUuid hmemory)⟩, ⟨hkey _, encodes_int _⟩,
        ⟨hkey _, encodes_str.mpr (encodes_of_isDigest hcontent)⟩,
        ⟨hkey _, encodes_str.mpr (encodes_of_isString hreviewed)⟩,
        ⟨hkey _, encodes_str.mpr (encodes_of_isString hreviewer)⟩, by simp⟩

/-- The provenance of citations that were checked has a text with a digest. -/
theorem exists_provenance {citations : List Citation} (h : ∀ c ∈ citations, c.valid = true) :
    ∃ json, Json.dumps I (provenance citations) = some json ∧ Encodes json := by
  have hitems : Json.allFiniteItems (citations.map Citation.object) = true := by
    clear h
    induction citations with
    | nil => rfl
    | cons c citations ih => rw [List.map_cons, Json.allFiniteItems, allFinite_citation, ih, Bool.and_true]
  have hfinite : Json.allFinite (provenance citations) = true := by
    simp only [provenance, Json.allFinite, Json.allFiniteEntries, hitems, Bool.and_true]
  refine ⟨_, if_pos hfinite, ?_⟩
  apply encodes_sortKeys_dict.mpr
  simp only [List.forall_mem_cons]
  refine ⟨⟨encodes_ofString _, ?_⟩, by simp⟩
  apply encodes_sortKeys_list.mpr
  intro v hv
  obtain ⟨c, hc, rfl⟩ := List.mem_map.mp hv
  exact encodes_citation (h c hc)

end

/-! ## Packages -/

/-- The package of a claim with its digests and its signature. -/
structure Signed (I : Interpreter) (output : ProviderOutput) (request : QuestionRequest)
    (source : Text × Text) (token : Text) (claim : Claim) (package : ValidatedClaim) : Prop where
  run : package.runId = request.runId
  correlation : package.correlationId = request.correlationId
  claimId : package.claimId = claim.claimId
  ordinal : package.ordinal = claim.ordinal
  claimType : package.claimType = claim.claimType
  claimText : package.claimText = claim.text
  claimDigest : sha256Text claim.text = some package.claimDigest
  citations : claim.citationRefs.mapM output.citation? = some package.citations
  citationDigest : (Json.dumps I (provenance package.citations)).bind sha256Text =
    some package.citationDigest
  revision : package.sourceRevision = source.1
  snapshot : package.sourceSnapshot = source.2
  signature : claimSignature I package.payload token = some package.signature

section

variable {I : Interpreter} {output : ProviderOutput} {request : QuestionRequest}
  {source : Text × Text} {token : Text} {claim : Claim} {package : ValidatedClaim}

theorem isDigest_of_claimSignature {payload : Value} {signature : Text}
    (h : claimSignature I payload token = some signature) : isDigest signature = true := by
  obtain ⟨canonical, -, h⟩ := Option.bind_eq_some_iff.mp h
  obtain ⟨key, -, h⟩ := Option.bind_eq_some_iff.mp h
  obtain rfl := Option.some.inj h
  exact (Governance.sha256 _).valid

theorem signed_of_validatedClaim
    (h : validatedClaim I output request source token claim = some package) :
    Signed I output request source token claim package := by
  obtain ⟨citations, hcitations, h⟩ := Option.bind_eq_some_iff.mp h
  obtain ⟨claimDigest, hclaimDigest, h⟩ := Option.bind_eq_some_iff.mp h
  obtain ⟨citationDigest, hcitationDigest, h⟩ := Option.bind_eq_some_iff.mp h
  obtain ⟨-, h⟩ := Option.ite_none_right_eq_some.mp h
  obtain ⟨signature, hsignature, rfl⟩ := Option.map_eq_some_iff.mp h
  exact
    { run := rfl
      correlation := rfl
      claimId := rfl
      ordinal := rfl
      claimType := rfl
      claimText := rfl
      claimDigest := hclaimDigest
      citations := hcitations
      citationDigest := hcitationDigest
      revision := rfl
      snapshot := rfl
      signature := hsignature }

/-- The citations a claim refers to have its references for ids, in their order. -/
theorem ids_of_refs {refs : List Text} {citations : List Citation}
    (h : refs.mapM output.citation? = some citations) :
    citations.map Citation.citationId = refs ∧ ∀ c ∈ citations, c ∈ output.citations := by
  have hall := forall₂_of_mapM_eq_some h
  clear h
  induction hall with
  | nil => exact ⟨rfl, by simp⟩
  | cons hhead _ ih =>
      constructor
      · rw [List.map_cons, ih.1, ProviderOutput.citationId_of_citation? hhead]
      · exact List.forall_mem_cons.mpr ⟨ProviderOutput.mem_of_citation? hhead, ih.2⟩

theorem exists_citations (hgraph : output.graphValid = true) (hclaim : claim ∈ output.claims) :
    ∃ citations, claim.citationRefs.mapM output.citation? = some citations := by
  apply exists_mapM_eq_some
  intro id hid
  exact ProviderOutput.exists_citation_of_mem_refs hgraph hclaim hid

/-- The payload of a package whose parts have UTF-8 forms is signed. -/
theorem exists_claimSignature (hrun : Encodes package.runId)
    (hcorrelation : Encodes package.correlationId) (hid : Encodes package.claimId)
    (htext : Encodes package.claimText) (hdigest : Encodes package.claimDigest)
    (hcitations : ∀ c ∈ package.citations, c.valid = true)
    (hcitationDigest : Encodes package.citationDigest) (hrevision : Encodes package.sourceRevision)
    (hsnapshot : Encodes package.sourceSnapshot) (htoken : Encodes token) :
    ∃ signature, claimSignature I package.payload token = some signature := by
  obtain ⟨json, hjson, hencodes⟩ := @exists_provenance I package.citations hcitations
  have hprovenance : Json.allFinite (provenance package.citations) = true :=
    Authority.allFinite_of_dumps hjson
  have hfinite : Json.allFinite package.payload = true := by
    simp only [ValidatedClaim.payload, Json.allFinite, Json.allFiniteEntries, hprovenance,
      Value.ofString, Bool.and_true]
  have hpayload : Encodes (Json.render I (Json.sortKeys package.payload)) := by
    have hkey : ∀ s : String, Encodes (Text.ofString s) := encodes_ofString
    rw [Json.eq_render_of_dumps hjson] at hencodes
    apply encodes_sortKeys_dict.mpr
    simp only [List.forall_mem_cons]
    exact ⟨⟨hkey _, encodes_str.mpr (hkey _)⟩, ⟨hkey _, encodes_str.mpr hrun⟩,
      ⟨hkey _, encodes_str.mpr hcorrelation⟩, ⟨hkey _, encodes_str.mpr hid⟩, ⟨hkey _, encodes_int _⟩,
      ⟨hkey _, encodes_str.mpr (by cases package.claimType <;> exact hkey _)⟩,
      ⟨hkey _, encodes_str.mpr htext⟩, ⟨hkey _, encodes_str.mpr hdigest⟩, ⟨hkey _, hencodes⟩,
      ⟨hkey _, encodes_str.mpr hcitationDigest⟩, ⟨hkey _, encodes_str.mpr hrevision⟩,
      ⟨hkey _, encodes_str.mpr hsnapshot⟩, by simp⟩
  obtain ⟨canonical, hcanonical⟩ := Option.ne_none_iff_exists'.mp (encodes_iff.mp hpayload)
  obtain ⟨key, hkey⟩ := Option.ne_none_iff_exists'.mp (encodes_iff.mp htoken)
  refine ⟨_, Option.bind_eq_some_iff.mpr ⟨canonical, ?_, Option.bind_eq_some_iff.mpr ⟨key, hkey, rfl⟩⟩⟩
  rw [Json.dumps, if_pos hfinite, Option.bind_some, hcanonical]

/-- A claim of an output that was checked is signed. -/
theorem exists_validatedClaim (hgraph : output.graphValid = true)
    (hclaims : output.claims.all Claim.valid = true)
    (hcitations : output.citations.all Citation.valid = true)
    (hrun : isCanonicalUuid request.runId = true)
    (hcorrelation : isCanonicalUuid request.correlationId = true)
    (hrevision : isName source.1 = true) (hsnapshot : isString 2 16000 source.2 = true)
    (htoken : Encodes token) (hclaim : claim ∈ output.claims) :
    ∃ package, validatedClaim I output request source token claim = some package := by
  obtain ⟨citations, hcited⟩ := exists_citations hgraph hclaim
  obtain ⟨hids, hmem⟩ := ids_of_refs hcited
  have hvalid := List.all_eq_true.mp hclaims claim hclaim
  simp only [Claim.valid, Claim.validFields, Bool.and_eq_true, decide_eq_true_eq] at hvalid
  obtain ⟨⟨⟨⟨⟨hid, hordinal⟩, htext⟩, hblank⟩, hnodup⟩, hcount⟩ := hvalid
  have hchecked : ∀ c ∈ citations, c.valid = true := fun c hc =>
    List.all_eq_true.mp hcitations c (hmem c hc)
  obtain ⟨json, hjson, hencodes⟩ := @exists_provenance I citations hchecked
  obtain ⟨claimDigest, hclaimDigest⟩ := exists_sha256Text (encodes_of_isString htext)
  obtain ⟨citationDigest, hcitationDigest⟩ := exists_sha256Text hencodes
  have hlength : citations.length = claim.citationRefs.length := by
    rw [← hids, List.length_map]
  have hpackage : ∀ package : ValidatedClaim, package.citations = citations →
      package.sourceRevision = source.1 → package.sourceSnapshot = source.2 →
      package.valid = true := by
    intro package hpackage hrev hsnap
    simp only [isName, Bool.and_eq_true] at hrevision
    simp only [ValidatedClaim.valid, hpackage, hrev, hsnap, hids, hlength, hnodup, hcount,
      hrevision.1, hrevision.2, hsnapshot, decide_true, Bool.and_true, and_self]
  obtain ⟨signature, hsignature⟩ := @exists_claimSignature I token
    { runId := request.runId
      correlationId := request.correlationId
      claimId := claim.claimId
      ordinal := claim.ordinal
      claimType := claim.claimType
      claimText := claim.text
      claimDigest
      citations
      citationDigest
      sourceRevision := source.1
      sourceSnapshot := source.2
      signature := List.replicate 64 (codePoint '0') }
    (encodes_of_isCanonicalUuid hrun) (encodes_of_isCanonicalUuid hcorrelation) (encodes_of_isId hid)
    (encodes_of_isString htext) (encodes_of_isDigest (isDigest_of_sha256Text hclaimDigest)) hchecked
    (encodes_of_isDigest (isDigest_of_sha256Text hcitationDigest)) (encodes_of_isName hrevision)
    (encodes_of_isString hsnapshot) htoken
  apply Option.isSome_iff_exists.mp
  simp only [validatedClaim, hcited, hclaimDigest, hjson, hcitationDigest, Option.bind_eq_bind,
    Option.bind_some, hpackage, if_true, hsignature, Option.map_some, Option.isSome_some]

end

end Coach
