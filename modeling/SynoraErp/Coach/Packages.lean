import SynoraErp.Coach.Signing

/-!
# The packages the authority reads

The snapshot of a context that was checked is read back as the document and the scope it is of. The
package of a claim is read when the JSON of its citations is short enough, and then as it is.
-/

namespace Coach.Authority

open Python
open Governance (Uuid item isDigest)

/-! ## Objects in key order -/

/-- In key order an object has its fields, each with its value in key order. -/
theorem strictMapping_sortKeys {fields : List String} {entries : Dict}
    (hfields : Dict.keys entries = fields.map Text.ofString) (hdistinct : fields.Nodup) :
    ∃ d, strictMapping fields (Json.sortKeys (.dict entries)) = some d ∧
      ∀ key, item d key = Json.sortKeys (item entries key) := by
  have hsorted : (Dict.keys (Json.sortKeysEntries entries)).Nodup := by
    rw [Json.keys_sortKeysEntries, hfields]
    exact nodup_map_ofString hdistinct
  have hkeys : ∀ key, key ∈ Dict.keys (Json.inOrder (Json.sortKeysEntries entries)) ↔
      key ∈ fields.map Text.ofString := by
    intro key
    rw [Json.mem_keys_inOrder, Json.keys_sortKeysEntries, hfields]
  refine ⟨Json.inOrder (Json.sortKeysEntries entries), ?_, ?_⟩
  · apply strictMapping_eq_some.mpr
    refine ⟨by rw [Json.sortKeys, Json.inOrder], ?_, ?_⟩
    · intro key hkey
      exact (hkeys key).mp hkey
    · intro key hkey
      exact (hkeys _).mpr (List.mem_map_of_mem hkey)
  · intro key
    rw [item, item, Json.get?_inOrder hsorted, Json.get?_sortKeysEntries]
    cases Dict.get? entries (Text.ofString key) with
    | none => rfl
    | some v => rfl

/-! ## The snapshot -/

/-- The snapshot of a context. -/
def snapshotOf (context : CurrentDocumentContext) : Snapshot where
  document := context.currentDocument
  company := context.authorizedCompany
  warehouse := context.authorizedWarehouse
  stateVersion := context.stateVersion
  capturedAt := context.capturedAt
  sourceModifiedAt := context.sourceModifiedAt
  frappeRevision := context.frappeRevision
  erpnextRevision := context.erpnextRevision

section

variable {I : Interpreter} {context : CurrentDocumentContext}

theorem plain_metadata (hcontext : context.valid = true) :
    Json.Plain (Json.sortKeys (.dict context.metadata)) := by
  simp only [CurrentDocumentContext.valid, Bool.and_eq_true, decide_eq_true_eq] at hcontext
  obtain ⟨⟨⟨⟨⟨⟨⟨⟨⟨⟨⟨⟨-, hversion⟩, -⟩, -⟩, -⟩, -⟩, -⟩, -⟩, -⟩, -⟩, -⟩, -⟩, -⟩ := hcontext
  have hoptional : ∀ t : Option Text, Json.Plain (Json.sortKeys (optionalText t)) := by
    intro t
    rw [flat_optionalText]
    exact plain_optionalText t
  have hdocument : Json.Plain (Json.sortKeys context.currentDocument.object) := by
    apply Json.plain_sortKeys_object
    · exact @nodup_map_ofString ["doctype", "name"] (by decide)
    · simp only [List.forall_mem_cons]
      exact ⟨Json.plain_str _, Json.plain_str _, by simp⟩
  have hscope : Json.Plain (Json.sortKeys context.scope) := by
    apply Json.plain_sortKeys_object
    · exact @nodup_map_ofString ["company", "warehouse", "coverage"] (by decide)
    · simp only [List.forall_mem_cons]
      exact ⟨Json.plain_str _, hoptional _, Json.plain_str _, by simp⟩
  apply Json.plain_sortKeys_object
  · exact @nodup_map_ofString snapshotFields (by decide)
  · simp only [CurrentDocumentContext.metadata, List.forall_mem_cons]
    exact ⟨Json.plain_str _, hdocument, hscope, Json.plain_int (by omega) (by omega),
      Json.plain_str _, hoptional _, hoptional _, hoptional _, by simp⟩

/-- The metadata of a context that was checked, in key order, is read as its snapshot. -/
theorem readSnapshot_metadata (hcontext : context.valid = true) {run : Uuid}
    (hrun : run.text = context.runId) {d : Dict}
    (hd : ∀ key, item d key = Json.sortKeys (item context.metadata key)) :
    readSnapshot run d = some (snapshotOf context) := by
  simp only [CurrentDocumentContext.valid, Bool.and_eq_true, decide_eq_true_eq] at hcontext
  obtain ⟨⟨⟨⟨⟨⟨⟨⟨⟨⟨⟨⟨-, hversion⟩, hname⟩, hcompany⟩, hwarehouse⟩, hcoverage⟩, hcaptured⟩, hmodified⟩,
    hfrappe⟩, herpnext⟩, -⟩, -⟩, -⟩ := hcontext
  obtain ⟨document, hdocument, hdocumentItem⟩ :=
    @strictMapping_sortKeys ["doctype", "name"]
      [("doctype", .str context.currentDocument.doctype.text),
        ("name", .str context.currentDocument.name)] rfl (by decide)
  obtain ⟨scope, hscope, hscopeItem⟩ :=
    @strictMapping_sortKeys ["company", "warehouse", "coverage"]
      [("company", .str context.authorizedCompany),
        ("warehouse", optionalText context.authorizedWarehouse),
        ("coverage", .str context.coverage)] rfl (by decide)
  have hoptional : ∀ t : Option Text, isOptionalName t = true →
      optionalMetadata (Json.sortKeys (optionalText t)) = some t := by
    intro t ht
    rw [flat_optionalText]
    exact optionalMetadata_of_isOptionalName ht
  apply Option.bind_eq_some_iff.mpr
  refine ⟨run, ?_, ?_⟩
  · rw [hd]
    change canonicalUuid (.str context.runId) = some run
    rw [← hrun, canonicalUuid_value]
  apply guard_bind_eq_some.mpr
  refine ⟨rfl, ?_⟩
  apply Option.bind_eq_some_iff.mpr
  refine ⟨document, by rw [hd]; exact hdocument, ?_⟩
  apply Option.bind_eq_some_iff.mpr
  refine ⟨_, by rw [hdocumentItem]; exact documentType_text _, ?_⟩
  apply Option.bind_eq_some_iff.mpr
  refine ⟨_, by rw [hdocumentItem]; exact text_of_isName hname, ?_⟩
  apply Option.bind_eq_some_iff.mpr
  refine ⟨scope, by rw [hd]; exact hscope, ?_⟩
  apply Option.bind_eq_some_iff.mpr
  refine ⟨_, by rw [hscopeItem]; exact text_of_isName hcompany, ?_⟩
  apply Option.bind_eq_some_iff.mpr
  refine ⟨_, by rw [hscopeItem]; exact hoptional _ hwarehouse, ?_⟩
  apply guard_bind_eq_some.mpr
  refine ⟨?_, ?_⟩
  · rw [hscopeItem]
    exact congrArg Value.str hcoverage
  apply Option.bind_eq_some_iff.mpr
  refine ⟨_, by rw [hd]; exact boundedInt_eq_some.mpr ⟨rfl, by omega, by omega⟩, ?_⟩
  apply Option.bind_eq_some_iff.mpr
  refine ⟨_, by rw [hd]; exact text_of_isName hcaptured, ?_⟩
  apply Option.bind_eq_some_iff.mpr
  refine ⟨_, by rw [hd]; exact hoptional _ hmodified, ?_⟩
  apply Option.bind_eq_some_iff.mpr
  refine ⟨_, by rw [hd]; exact hoptional _ hfrappe, ?_⟩
  apply Option.bind_eq_some_iff.mpr
  exact ⟨_, by rw [hd]; exact hoptional _ herpnext, rfl⟩

/-- The revision that is signed with a snapshot fits it. -/
theorem revisionFits_signedRevision {json digest : Text} (hdigest : sha256Text json = some digest) :
    revisionFits (snapshotOf context) json (signedRevision context digest) = true := by
  rw [revisionFits, signedRevision, snapshotOf]
  cases hfrappe : context.frappeRevision with
  | some revision => simp
  | none =>
      cases herpnext : context.erpnextRevision with
      | some revision => simp
      | none => simp [hdigest]

/-- A signed snapshot is read as the snapshot of its context. -/
theorem validateSourceSnapshot_metadata (hcontext : context.valid = true) {run : Uuid}
    (hrun : run.text = context.runId) {json digest : Text}
    (hjson : Json.dumps I (.dict context.metadata) = some json)
    (hdigest : sha256Text json = some digest) :
    validateSourceSnapshot I json run (signedRevision context digest) =
      some (snapshotOf context) := by
  have hplain := plain_metadata hcontext
  obtain ⟨d, hd, hitem⟩ := @strictMapping_sortKeys snapshotFields context.metadata rfl (by decide)
  apply Option.bind_eq_some_iff.mpr
  refine ⟨_, Json.loads_of_dumps Governance.strictHooks_keepDistinct hplain hjson, ?_⟩
  apply Option.bind_eq_some_iff.mpr
  refine ⟨d, hd, ?_⟩
  apply guard_bind_eq_some.mpr
  refine ⟨Json.dumps_sortKeys_of_dumps hplain hjson, ?_⟩
  apply Option.bind_eq_some_iff.mpr
  refine ⟨_, readSnapshot_metadata hcontext hrun hitem, ?_⟩
  apply guard_bind_eq_some.mpr
  exact ⟨revisionFits_signedRevision hdigest, rfl⟩

end

/-! ## Packages -/

section

variable {I : Interpreter}

/-- Both sides sign alike. -/
theorem claimSignature_eq (payload : Value) (token : Text) :
    claimSignature I payload token = Coach.claimSignature I payload token := by
  cases hkey : Text.encodeUtf8 token with
  | none =>
      simp only [claimSignature, Coach.claimSignature, hkey, Option.map_none, Option.bind_eq_bind,
        Option.bind_none]
  | some key =>
      simp only [claimSignature, Coach.claimSignature, hkey, Option.map_some, Option.bind_eq_bind,
        Option.bind_some]

theorem canonicalPayload_of_dumps {maximum : ℕ} {value : Value} {json : Text}
    (hjson : Json.dumps I value = some json) (hlength : json.length ≤ maximum) :
    canonicalPayload I maximum value = some json := by
  rw [canonicalPayload, hjson, Option.filter_some, if_pos (decide_eq_true hlength)]

/-- Citations that are read as they are. -/
theorem packageCitations_provenance {type : ClaimType} {citations : List Citation}
    (hread : ∀ c ∈ citations, validateCitation c.object = some c)
    (hlength : 1 ≤ citations.length ∧ citations.length ≤ 8)
    (hnodup : (citations.map Citation.citationId).Nodup)
    (hproper : citations.all (citesProperly type) = true) :
    packageCitations type (provenance citations) = some citations := by
  rw [packageCitations, provenance, strictMapping_of_keys rfl, Option.bind_eq_bind,
    Option.bind_some]
  apply Option.bind_eq_some_iff.mpr
  refine ⟨citations, listOf_map hlength.2 hread, ?_⟩
  apply guard_bind_eq_some.mpr
  exact ⟨⟨List.ne_nil_of_length_pos hlength.1, hnodup, hproper⟩, rfl⟩

variable {output : ProviderOutput} {request : QuestionRequest} {context : CurrentDocumentContext}
  {source : Text × Text} {token : Text} {claim : Claim} {package : ValidatedClaim}

/-- The fields of a signed package are read as they are. -/
theorem packageOf_object (hsigned : Signed I output request source token claim package)
    (hclaim : claim.valid = true) (htype : claim.claimType.signable = true)
    {run correlation : Uuid} (hrun : run.text = request.runId)
    (hcorrelation : correlation.text = request.correlationId) (hrevision : isName source.1 = true)
    (hsnapshot : text maxSourceSnapshotLength (.str source.2) = some source.2)
    (hread : ∀ c ∈ package.citations, validateCitation c.object = some c)
    (hproper : package.citations.all (citesProperly claim.claimType) = true) :
    (strictMapping packageFields package.object).bind packageOf = some package := by
  simp only [Claim.valid, Claim.validFields, isString, Bool.and_eq_true, Bool.not_eq_true',
    decide_eq_true_eq] at hclaim
  obtain ⟨⟨⟨⟨⟨hid, hordinal⟩, ⟨-, htext⟩⟩, hblank⟩, hnodup⟩, hcount⟩ := hclaim
  have hids := (ids_of_refs hsigned.citations).1
  have hlength : package.citations.length = claim.citationRefs.length := by
    rw [← hids, List.length_map]
  obtain ⟨json, -, hdigest⟩ := Option.bind_eq_some_iff.mp hsigned.citationDigest
  have hsignature : isDigest package.signature = true := isDigest_of_claimSignature hsigned.signature
  rw [ValidatedClaim.object, strictMapping_of_keys rfl, Option.bind_some]
  apply guard_bind_eq_some.mpr
  refine ⟨rfl, ?_⟩
  apply Option.bind_eq_some_iff.mpr
  refine ⟨package.runId, ?_, ?_⟩
  · change uuidText (.str package.runId) = some package.runId
    rw [hsigned.run, ← hrun, uuidText_uuid]
  apply Option.bind_eq_some_iff.mpr
  refine ⟨package.correlationId, ?_, ?_⟩
  · change uuidText (.str package.correlationId) = some package.correlationId
    rw [hsigned.correlation, ← hcorrelation, uuidText_uuid]
  apply Option.bind_eq_some_iff.mpr
  refine ⟨package.claimId, identifier_str (hsigned.claimId ▸ hid), ?_⟩
  apply Option.bind_eq_some_iff.mpr
  refine ⟨package.ordinal, boundedInt_eq_some.mpr ⟨rfl, hsigned.ordinal ▸ hordinal⟩, ?_⟩
  apply Option.bind_eq_some_iff.mpr
  refine ⟨package.claimType, claimType_text (hsigned.claimType ▸ htype), ?_⟩
  apply Option.bind_eq_some_iff.mpr
  refine ⟨package.claimText, ?_, ?_⟩
  · apply text_str
    · rw [hsigned.claimText, hblank]
    · rw [hsigned.claimText]
      exact htext.2
  apply Option.bind_eq_some_iff.mpr
  refine ⟨package.claimDigest, digest_str (isDigest_of_sha256Text hsigned.claimDigest), ?_⟩
  apply Option.bind_eq_some_iff.mpr
  refine ⟨package.citations, ?_, ?_⟩
  · apply packageCitations_provenance hread (hlength ▸ hcount) (hids ▸ hnodup)
    rw [hsigned.claimType]
    exact hproper
  apply Option.bind_eq_some_iff.mpr
  refine ⟨package.citationDigest, digest_str (isDigest_of_sha256Text hdigest), ?_⟩
  apply Option.bind_eq_some_iff.mpr
  refine ⟨package.sourceRevision, text_of_isName (hsigned.revision ▸ hrevision), ?_⟩
  apply Option.bind_eq_some_iff.mpr
  refine ⟨package.sourceSnapshot, hsigned.snapshot ▸ hsnapshot, ?_⟩
  apply Option.bind_eq_some_iff.mpr
  exact ⟨package.signature, digest_str hsignature, rfl⟩

/-- A package whose citations are short enough is read as it is. -/
theorem readPackage_object (hsigned : Signed I output request source token claim package)
    (hpackage : (strictMapping packageFields package.object).bind packageOf = some package)
    {run correlation : Uuid} (hrun : run.text = request.runId)
    (hcorrelation : correlation.text = request.correlationId) {snapshot : Snapshot}
    (hsnapshot : validateSourceSnapshot I source.2 run source.1 = some snapshot)
    (hcompact : IsCompact I package.citations) :
    readPackage I package.object = some ⟨package, run, correlation, snapshot⟩ := by
  obtain ⟨json, hjson, hdigest⟩ := Option.bind_eq_some_iff.mp hsigned.citationDigest
  apply Option.bind_eq_some_iff.mpr
  refine ⟨package, hpackage, ?_⟩
  apply Option.bind_eq_some_iff.mpr
  refine ⟨run, by rw [hsigned.run, ← hrun, canonicalUuid_value], ?_⟩
  apply Option.bind_eq_some_iff.mpr
  refine ⟨correlation, by rw [hsigned.correlation, ← hcorrelation, canonicalUuid_value], ?_⟩
  apply guard_bind_eq_some.mpr
  refine ⟨by rw [hsigned.claimText, hsigned.claimDigest], ?_⟩
  apply Option.bind_eq_some_iff.mpr
  refine ⟨json, canonicalPayload_of_dumps hjson (hcompact json hjson), ?_⟩
  apply guard_bind_eq_some.mpr
  refine ⟨hdigest, ?_⟩
  apply Option.bind_eq_some_iff.mpr
  refine ⟨snapshot, ?_, rfl⟩
  rw [hsigned.snapshot, hsigned.revision, hsnapshot]

theorem citations_of_packageOf (hread : ∀ c ∈ package.citations, validateCitation c.object = some c)
    {d : Dict} (hd : Value.dict d = package.object) {other : ValidatedClaim}
    (h : packageOf d = some other) : other.citations = package.citations := by
  obtain rfl := Value.dict.inj hd
  obtain ⟨-, h⟩ := guard_bind_eq_some.mp h
  obtain ⟨runId, -, h⟩ := Option.bind_eq_some_iff.mp h
  obtain ⟨correlationId, -, h⟩ := Option.bind_eq_some_iff.mp h
  obtain ⟨claimId, -, h⟩ := Option.bind_eq_some_iff.mp h
  obtain ⟨ordinal, -, h⟩ := Option.bind_eq_some_iff.mp h
  obtain ⟨type, -, h⟩ := Option.bind_eq_some_iff.mp h
  obtain ⟨claimText, -, h⟩ := Option.bind_eq_some_iff.mp h
  obtain ⟨claimDigest, -, h⟩ := Option.bind_eq_some_iff.mp h
  obtain ⟨citations, hcitations, h⟩ := Option.bind_eq_some_iff.mp h
  obtain ⟨citationDigest, -, h⟩ := Option.bind_eq_some_iff.mp h
  obtain ⟨sourceRevision, -, h⟩ := Option.bind_eq_some_iff.mp h
  obtain ⟨sourceSnapshot, -, h⟩ := Option.bind_eq_some_iff.mp h
  obtain ⟨signature, -, h⟩ := Option.bind_eq_some_iff.mp h
  obtain rfl := Option.some.inj h
  change packageCitations type (provenance package.citations) = some citations at hcitations
  rw [packageCitations, provenance, strictMapping_of_keys rfl, Option.bind_eq_bind,
    Option.bind_some] at hcitations
  obtain ⟨items, hitems, hcitations⟩ := Option.bind_eq_some_iff.mp hcitations
  obtain ⟨-, hcitations⟩ := guard_bind_eq_some.mp hcitations
  obtain rfl := Option.some.inj hcitations
  exact eq_of_listOf_map hitems hread

/-- A package that is read has citations that are short enough. -/
theorem isCompact_of_readPackage (hread : ∀ c ∈ package.citations, validateCitation c.object = some c)
    {read : ReadPackage} (h : readPackage I package.object = some read) :
    IsCompact I package.citations := by
  obtain ⟨other, hother, h⟩ := Option.bind_eq_some_iff.mp h
  obtain ⟨d, hd, hother⟩ := Option.bind_eq_some_iff.mp hother
  have hcitations := citations_of_packageOf hread (strictMapping_eq_some.mp hd).1.symm hother
  obtain ⟨runId, -, h⟩ := Option.bind_eq_some_iff.mp h
  obtain ⟨correlationId, -, h⟩ := Option.bind_eq_some_iff.mp h
  obtain ⟨-, h⟩ := guard_bind_eq_some.mp h
  obtain ⟨payload, hpayload, -⟩ := Option.bind_eq_some_iff.mp h
  obtain ⟨hdumps, hlength⟩ := Option.filter_eq_some_iff.mp hpayload
  intro json hjson
  rw [hcitations, hjson, Option.some.injEq] at hdumps
  rw [hdumps]
  exact of_decide_eq_true hlength

/-- The signature of a package that is read is checked. -/
theorem validatedPackage_object (hsigned : Signed I output request source token claim package)
    {setting : Text} (htoken : runtimeToken setting = some token) {read : ReadPackage}
    (hread : readPackage I package.object = some read) (hpackage : read.package = package) :
    validatedPackage I setting package.object = some read := by
  rw [runtimeToken, Option.ite_none_left_eq_some, Option.some.injEq] at htoken
  obtain ⟨hne, rfl⟩ := htoken
  apply Option.bind_eq_some_iff.mpr
  refine ⟨read, hread, ?_⟩
  apply guard_bind_eq_some.mpr
  refine ⟨hne, ?_⟩
  apply guard_bind_eq_some.mpr
  refine ⟨?_, rfl⟩
  rw [hpackage, claimSignature_eq, hsigned.signature]

end

end Coach.Authority
