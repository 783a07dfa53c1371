import SynoraErp.Coach.Wire

/-!
# What the authority reads of what the Coach writes

Each reader of the authority is put to what the model of the Coach dumps: a text, a list, a claim, a
citation, a trace and a usage are read as they are, but for the texts the authority wants legible.
-/

namespace Coach.Authority

open Python
open Governance (Uuid item isDigest isBlank_of_mem isSpace_of_isAlphanumeric)

/-! ## Texts -/

theorem text_str {maximum : ℕ} {t : Text} (hblank : Text.isBlank t = false)
    (hlength : t.length ≤ maximum) : text maximum (.str t) = some t :=
  text_eq_some.mpr ⟨rfl, hblank, hlength⟩

theorem text_eq_some_of_str {maximum : ℕ} {t u : Text} (h : text maximum (.str t) = some u) :
    u = t ∧ Text.isBlank t = false ∧ t.length ≤ maximum := by
  obtain ⟨hvalue, hblank, hlength⟩ := text_eq_some.mp h
  obtain rfl := Value.str.inj hvalue
  exact ⟨rfl, hblank, hlength⟩

theorem text_of_isLegible {t : Text} (h : isLegible t) : text 140 (.str t) = some t :=
  text_str h.1 h.2

theorem isLegible_of_isName {t : Text} (h : isName t = true) : isLegible t := by
  simp only [isName, isString, Bool.and_eq_true, Bool.not_eq_true', decide_eq_true_eq] at h
  exact ⟨h.2, h.1.2.2⟩

theorem text_of_isName {t : Text} (h : isName t = true) : text 140 (.str t) = some t :=
  text_of_isLegible (isLegible_of_isName h)

theorem optionalMetadata_of_isOptionalName {t : Option Text} (h : isOptionalName t = true) :
    optionalMetadata (optionalText t) = some t := by
  cases t with
  | none => rfl
  | some t =>
      simp only [isOptionalName, Option.elim_some, isString, Bool.and_eq_true, Bool.not_eq_true',
        decide_eq_true_eq] at h
      change (text 140 (.str t)).map some = some (some t)
      rw [text_str h.2 h.1.2.2, Option.map_some]

theorem digest_str {t : Text} (h : isDigest t = true) : digest (.str t) = some t := by
  have hparts := h
  rw [isDigest, Bool.and_eq_true, beq_iff_eq] at hparts
  have hblank : Text.isBlank t = false := by
    cases t with
    | nil => cases hparts.1
    | cons c t =>
        apply isBlank_of_mem List.mem_cons_self
        exact (Governance.asciiLower_of_isLowerHex
          (Or.inl (List.all_eq_true.mp hparts.2 c List.mem_cons_self))).2
  rw [digest, text_str hblank hparts.1.le, Option.filter_some, if_pos h]

theorem bounds_of_isId {t : Text} (h : isId t = true) :
    Text.isBlank t = false ∧ t.length ≤ 120 := by
  cases t with
  | nil => cases h
  | cons c t =>
      simp only [isId, Bool.and_eq_true, decide_eq_true_eq] at h
      constructor
      · exact isBlank_of_mem List.mem_cons_self (isSpace_of_isAlphanumeric h.1.1)
      · rw [List.length_cons]
        omega

theorem identifier_str {t : Text} (h : isId t = true) : identifier (.str t) = some t := by
  obtain ⟨hblank, hlength⟩ := bounds_of_isId h
  rw [identifier, text_str hblank hlength, Option.filter_some, if_pos h]

theorem isLegible_of_isFragmentId {t : Text} (h : isFragmentId t = true) : isLegible t := by
  rw [isFragmentId, Bool.and_eq_true] at h
  obtain ⟨hblank, hlength⟩ := bounds_of_isId h.1
  exact ⟨hblank, by omega⟩

theorem uuidText_uuid (u : Uuid) : uuidText (.str u.text) = some u.text := by
  rw [uuidText, canonicalUuid_value, Option.map_some]

/-! ## Lists -/

section

variable {α : Type} {read : Value → Option α} {write : α → Value} {maximum : ℕ}

theorem listOf_map {items : List α} (hlength : items.length ≤ maximum)
    (h : ∀ a ∈ items, read (write a) = some a) :
    listOf read maximum (.list (items.map write)) = some items := by
  have hread : (items.map write).mapM read = some items := by
    clear hlength
    induction items with
    | nil => rfl
    | cons a items ih =>
        obtain ⟨hhead, htail⟩ := List.forall_mem_cons.mp h
        rw [List.map_cons, List.mapM_cons, hhead, ih htail]
        rfl
  rw [listOf, if_neg (by rw [List.length_map]; omega), hread]

/-- A list is read item by item. -/
theorem forall_of_listOf_map {β : Type} {read : Value → Option β} {items : List α} {read' : List β}
    (h : listOf read maximum (.list (items.map write)) = some read') :
    List.Forall₂ (fun a b => read (write a) = some b) items read' := by
  rw [listOf, Option.ite_none_left_eq_some] at h
  have hall := forall₂_of_mapM_eq_some h.2
  exact List.forall₂_map_left_iff.mp hall

/-- A list of items that are read as they are. -/
theorem eq_of_listOf_map {items read' : List α}
    (h : listOf read maximum (.list (items.map write)) = some read')
    (hread : ∀ a ∈ items, read (write a) = some a) : read' = items := by
  have hall := forall_of_listOf_map h
  clear h
  induction hall with
  | nil => rfl
  | cons hhead _ ih =>
      obtain ⟨hfirst, hrest⟩ := List.forall_mem_cons.mp hread
      rw [ih hrest, Option.some.inj (hhead.symm.trans hfirst)]

theorem exists_of_listOf_map {β : Type} {read : Value → Option β} {items : List α} {read' : List β}
    (h : listOf read maximum (.list (items.map write)) = some read') {a : α} (ha : a ∈ items) :
    ∃ b, read (write a) = some b := by
  obtain ⟨b, -, hb⟩ := Governance.exists_right_of_mem (forall_of_listOf_map h) ha
  exact ⟨b, hb⟩

end

/-- A literal object of just these fields. -/
theorem strictMapping_of_keys {fields : List String} {e : Dict}
    (h : Dict.keys e = fields.map Text.ofString) : strictMapping fields (.dict e) = some e := by
  apply strictMapping_eq_some.mpr
  refine ⟨rfl, ?_, ?_⟩
  · intro key hkey
    exact h ▸ hkey
  · intro key hkey
    rw [h]
    exact List.mem_map_of_mem hkey

/-! ## Claims -/

theorem claimType_text {type : ClaimType} (h : type.signable = true) :
    claimType (.str type.text) = some type := by
  cases type with
  | erpFact => decide
  | retrievedKnowledge => decide
  | recommendation => decide
  | memory => cases h
  | unknown => cases h

/-- A claim of the Coach is read as it is. -/
theorem coachOutputClaim_object {claim : Claim} (hvalid : claim.valid = true)
    (htype : claim.claimType.signable = true)
    (hrefs : ∀ id ∈ claim.citationRefs, isId id = true) :
    coachOutputClaim claim.object = some claim := by
  simp only [Claim.valid, Claim.validFields, isString, Bool.and_eq_true, Bool.not_eq_true',
    decide_eq_true_eq] at hvalid
  obtain ⟨⟨⟨⟨⟨hid, hordinal⟩, ⟨-, htext⟩⟩, hblank⟩, hnodup⟩, hcount⟩ := hvalid
  have hne : claim.citationRefs ≠ [] := List.ne_nil_of_length_pos hcount.1
  rw [Claim.object, coachOutputClaim, strictMapping_of_keys rfl, Option.bind_some]
  apply Option.bind_eq_some_iff.mpr
  refine ⟨claim.claimType, claimType_text htype, ?_⟩
  apply Option.bind_eq_some_iff.mpr
  refine ⟨claim.citationRefs, listOf_map hcount.2 (fun id h => identifier_str (hrefs id h)), ?_⟩
  apply guard_bind_eq_some.mpr
  refine ⟨⟨hne, hnodup⟩, ?_⟩
  apply Option.bind_eq_some_iff.mpr
  refine ⟨claim.claimId, identifier_str hid, ?_⟩
  apply Option.bind_eq_some_iff.mpr
  refine ⟨claim.ordinal, boundedInt_eq_some.mpr ⟨rfl, hordinal⟩, ?_⟩
  apply Option.bind_eq_some_iff.mpr
  exact ⟨claim.text, text_str hblank htext.2, rfl⟩

/-! ## Citations -/

theorem factField_text {doctype : DocumentType} {field : LiveFactField}
    (h : field ∈ liveFactFields doctype) : factField doctype (.str field.text) = some field := by
  cases doctype with
  | materialRequest => cases field <;> first | rfl | (exact absurd h (by decide))
  | purchaseOrder => cases field <;> first | rfl | (exact absurd h (by decide))

theorem factFields_texts {doctype : DocumentType} {fields : List LiveFactField}
    (hvalid : Citation.isFactFields fields = true) (h : ∀ field ∈ fields, field ∈ liveFactFields doctype) :
    factFields doctype (.list (fields.map fun field => .str field.text)) = some fields := by
  rw [Citation.isFactFields, decide_eq_true_eq] at hvalid
  have hread : listOf (factField doctype) 16
      (.list (fields.map fun field => Value.str field.text)) = some fields :=
    listOf_map hvalid.2.1 fun field hfield => factField_text (h field hfield)
  have hne : fields ≠ [] := List.ne_nil_of_length_pos hvalid.1
  rw [factFields, hread, Option.filter_some, if_pos (decide_eq_true ⟨hne, hvalid.2.2⟩)]

/-- The fields of a live citation are those of its document. -/
def Cites (c : LiveCitation) : Prop :=
  ∀ field ∈ c.factFields, field ∈ liveFactFields c.documentDoctype

/-- A live citation is read as it is. -/
theorem validateCitation_live {c : LiveCitation} (hvalid : (Citation.live c).valid = true)
    (hfields : Cites c) : validateCitation (Citation.live c).object = some (.live c) := by
  simp only [Citation.valid, Bool.and_eq_true, decide_eq_true_eq] at hvalid
  obtain ⟨⟨⟨⟨⟨⟨⟨⟨⟨hid, hrun⟩, hname⟩, hversion⟩, hcaptured⟩, hmodified⟩, hfrappe⟩, herpnext⟩,
    hfact⟩, hdigest⟩ := hvalid
  apply validateCitation_eq_some.mpr
  refine Or.inl ⟨_, c, strictMapping_of_keys rfl, rfl, ?_, rfl⟩
  apply Option.bind_eq_some_iff.mpr
  refine ⟨c.citationId, identifier_str hid, ?_⟩
  apply Option.bind_eq_some_iff.mpr
  refine ⟨c.runId, uuidText_uuid ⟨c.runId, hrun⟩, ?_⟩
  apply Option.bind_eq_some_iff.mpr
  refine ⟨c.documentDoctype, documentType_text _, ?_⟩
  apply Option.bind_eq_some_iff.mpr
  refine ⟨c.documentName, text_of_isName hname, ?_⟩
  apply Option.bind_eq_some_iff.mpr
  refine ⟨c.stateVersion, boundedInt_eq_some.mpr ⟨rfl, hversion⟩, ?_⟩
  apply Option.bind_eq_some_iff.mpr
  refine ⟨c.capturedAt, text_of_isName hcaptured, ?_⟩
  apply Option.bind_eq_some_iff.mpr
  refine ⟨c.sourceModifiedAt, optionalMetadata_of_isOptionalName hmodified, ?_⟩
  apply Option.bind_eq_some_iff.mpr
  refine ⟨c.frappeRevision, optionalMetadata_of_isOptionalName hfrappe, ?_⟩
  apply Option.bind_eq_some_iff.mpr
  refine ⟨c.erpnextRevision, optionalMetadata_of_isOptionalName herpnext, ?_⟩
  apply Option.bind_eq_some_iff.mpr
  refine ⟨c.factFields, factFields_texts hfact hfields, ?_⟩
  apply Option.bind_eq_some_iff.mpr
  exact ⟨c.factDigest, digest_str hdigest, rfl⟩

/-- A retrieval citation that is read is legible. -/
theorem legible_of_validateCitation {c : RetrievalCitation} {d : Citation}
    (h : validateCitation (Citation.retrieval c).object = some d) : c.Legible := by
  rcases validateCitation_eq_some.mp h with ⟨e, read, he, -, -, -⟩ | ⟨e, read, he, -, hread, -⟩
  · have hcovers := (strictMapping_eq_some.mp he).2.1 (Text.ofString "chunk_id")
    rw [← Value.dict.inj (strictMapping_eq_some.mp he).1] at hcovers
    exact absurd (hcovers (by simp [Dict.keys])) (by decide)
  · have hitems := Value.dict.inj (strictMapping_eq_some.mp he).1
    rw [← hitems] at hread
    simp only [retrievalCitation, Option.bind_eq_bind, Option.bind_eq_some_iff] at hread
    obtain ⟨-, -, -, -, -, -, -, -, source, hsource, revision, hrevision, version, hversion, scope,
      hscope, -⟩ := hread
    exact ⟨(text_eq_some_of_str hsource).2, (text_eq_some_of_str hrevision).2,
      (text_eq_some_of_str hversion).2, (text_eq_some_of_str hscope).2⟩

/-- A retrieval citation that is legible is read as it is. -/
theorem validateCitation_retrieval {c : RetrievalCitation}
    (hvalid : (Citation.retrieval c).valid = true) (h : c.Legible) :
    validateCitation (Citation.retrieval c).object = some (.retrieval c) := by
  simp only [Citation.valid, isString, Bool.and_eq_true, decide_eq_true_eq] at hvalid
  obtain ⟨⟨⟨⟨⟨⟨⟨hid, hchunk⟩, hcontent⟩, hordinal⟩, -⟩, -⟩, -⟩, -⟩ := hvalid
  apply validateCitation_eq_some.mpr
  refine Or.inr ⟨_, c, strictMapping_of_keys rfl, rfl, ?_, rfl⟩
  apply Option.bind_eq_some_iff.mpr
  refine ⟨c.citationId, identifier_str hid, ?_⟩
  apply Option.bind_eq_some_iff.mpr
  refine ⟨c.chunkId, digest_str hchunk, ?_⟩
  apply Option.bind_eq_some_iff.mpr
  refine ⟨c.contentDigest, digest_str hcontent, ?_⟩
  apply Option.bind_eq_some_iff.mpr
  refine ⟨c.ordinal, boundedInt_eq_some.mpr ⟨rfl, hordinal⟩, ?_⟩
  apply Option.bind_eq_some_iff.mpr
  refine ⟨c.sourceType, text_of_isLegible h.sourceType, ?_⟩
  apply Option.bind_eq_some_iff.mpr
  refine ⟨c.revision, text_of_isLegible h.revision, ?_⟩
  apply Option.bind_eq_some_iff.mpr
  refine ⟨c.erpVersion, text_of_isLegible h.erpVersion, ?_⟩
  apply Option.bind_eq_some_iff.mpr
  exact ⟨c.permissionScope, text_of_isLegible h.permissionScope, rfl⟩

/-! ## Traces and usages -/

/-- A trace is read when its revisions and the ids of its fragments are legible, and then as it
is. -/
theorem coachOutputTrace_object {trace : RetrievalTrace} (hvalid : trace.valid = true)
    (hcontents : trace.selectedContentDigests.length ≤ 5)
    (hrevisions : trace.selectedRevisions.length ≤ 5)
    (hfacts : ∀ digest ∈ trace.liveFactDigests, isDigest digest = true) :
    (∃ read, coachOutputTrace trace.object = some read) ↔
      (∀ revision ∈ trace.selectedRevisions, isLegible revision) ∧
        ∀ id ∈ trace.contextFragmentIds, isLegible id := by
  simp only [RetrievalTrace.valid, Bool.and_eq_true, decide_eq_true_eq, List.all_eq_true] at hvalid
  obtain ⟨⟨⟨⟨⟨hchunkCount, hchunks⟩, hdigests⟩, -⟩, hfactCount⟩, hfragmentCount⟩ := hvalid
  rw [RetrievalTrace.object, coachOutputTrace, strictMapping_of_keys rfl, Option.bind_some]
  constructor
  · intro h
    obtain ⟨read, h⟩ := h
    simp only [outputTrace, Option.bind_eq_bind, Option.bind_eq_some_iff] at h
    obtain ⟨-, -, -, -, revisions, hread, -, -, -, -, fragments, hreadFragments, -⟩ := h
    constructor
    · intro revision hrevision
      obtain ⟨u, hu⟩ := exists_of_listOf_map hread hrevision
      exact (text_eq_some_of_str hu).2
    · intro id hid
      obtain ⟨u, hu⟩ := exists_of_listOf_map hreadFragments hid
      exact (text_eq_some_of_str hu).2
  · intro h
    refine ⟨trace, ?_⟩
    apply Option.bind_eq_some_iff.mpr
    refine ⟨_, listOf_map hchunkCount fun t ht => digest_str (hchunks t ht), ?_⟩
    apply Option.bind_eq_some_iff.mpr
    refine ⟨_, listOf_map hcontents fun t ht => digest_str (hdigests t ht), ?_⟩
    apply Option.bind_eq_some_iff.mpr
    refine ⟨_, listOf_map hrevisions fun t ht => text_of_isLegible (h.1 t ht), ?_⟩
    apply Option.bind_eq_some_iff.mpr
    refine ⟨_, listOf_map hfactCount fun t ht => digest_str (hfacts t ht), ?_⟩
    apply Option.bind_eq_some_iff.mpr
    refine ⟨[], rfl, ?_⟩
    apply Option.bind_eq_some_iff.mpr
    exact ⟨_, listOf_map hfragmentCount fun t ht => text_of_isLegible (h.2 t ht), rfl⟩

/-- A usage is read as it is. -/
theorem coachOutputUsage_object {usage checked : TokenUsage} (h : usage.checked = some checked) :
    coachOutputUsage checked.object = some checked := by
  rw [TokenUsage.checked, Option.ite_none_right_eq_some] at h
  obtain ⟨hbounds, h⟩ := h
  obtain rfl := Option.some.inj h
  rw [TokenUsage.object, coachOutputUsage, strictMapping_of_keys rfl, Option.bind_some]
  apply Option.bind_eq_some_iff.mpr
  refine ⟨_, boundedInt_eq_some.mpr ⟨rfl, le_max_left _ _, hbounds.1⟩, ?_⟩
  apply Option.bind_eq_some_iff.mpr
  refine ⟨_, boundedInt_eq_some.mpr ⟨rfl, le_max_left _ _, hbounds.2.1⟩, ?_⟩
  apply Option.bind_eq_some_iff.mpr
  exact ⟨_, boundedInt_eq_some.mpr ⟨rfl, le_max_left _ _, hbounds.2.2⟩, rfl⟩

end Coach.Authority
