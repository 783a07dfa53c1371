import SynoraErp.Retrieval.Coverage

/-!
# When chunks are sound

The chunks of a source are bounded and lose nothing exactly when every heading has a body and the
words ahead of every body leave room for it. The prefix is truncated to one character less than
a chunk, and not to what two line feeds and one character of a body leave of it; a heading
without a body is not in any chunk.
-/

namespace Retrieval

open Python Text

/-! ## Identities -/

section

variable {I : Interpreter} {source : CuratedSource}

theorem isLabel_chunkIdentity (source : CuratedSource) (name : Text) (ordinal : ℕ) (digest : Text) :
    ∀ entry ∈ chunkIdentity source name ordinal digest, Json.IsLabel entry.2 := by
  have hordinal : Json.IsLabel (.int (ordinal : ℤ)) := Int.natCast_nonneg ordinal
  simp only [chunkIdentity, List.forall_mem_cons, List.not_mem_nil, false_imp_iff, implies_true,
    and_true]
  exact ⟨trivial, trivial, trivial, trivial, trivial, trivial, hordinal, trivial⟩

theorem nodup_keys_chunkIdentity (source : CuratedSource) (name : Text) (ordinal : ℕ)
    (digest : Text) : (Dict.keys (chunkIdentity source name ordinal digest)).Nodup := by
  have hkeys : (["source_type", "path", "revision", "erp_version", "permission_scope", "section",
      "ordinal", "content_digest"] : List String).Nodup := by decide
  have hmap := hkeys.map (f := ofString) fun a b h => (ofString_inj a b).mp h
  exact hmap

/-- The bytes of an identity tell the ordinal. -/
theorem ordinal_eq_of_identityBytes {name name' : Text} {ordinal ordinal' : ℕ}
    {content content' : Text} {bytes : ByteArray}
    (h : identityBytes I source name ordinal content = some bytes)
    (h' : identityBytes I source name' ordinal' content' = some bytes) : ordinal = ordinal' := by
  obtain ⟨digest, -, h⟩ := Option.bind_eq_some_iff.mp h
  obtain ⟨text, htext, hbytes⟩ := Option.bind_eq_some_iff.mp h
  obtain ⟨digest', -, h'⟩ := Option.bind_eq_some_iff.mp h'
  obtain ⟨text', htext', hbytes'⟩ := Option.bind_eq_some_iff.mp h'
  rw [encodeUtf8_injective hbytes hbytes', ← htext'] at htext
  have hget := Json.get?_eq_of_dumps_eq I
    (d := chunkIdentity source name ordinal (Sha256.hexdigest digest))
    (e := chunkIdentity source name' ordinal' (Sha256.hexdigest digest'))
    (isLabel_chunkIdentity source _ _ _) (isLabel_chunkIdentity source _ _ _) rfl
    (nodup_keys_chunkIdentity source _ _ _) htext (ofString "ordinal")
  have hordinal : ∀ (name : Text) (ordinal : ℕ) (digest : Text),
      Dict.get? (chunkIdentity source name ordinal digest) (ofString "ordinal") =
        some (.int ordinal) := by
    intro name ordinal digest
    simp [chunkIdentity, Dict.get?]
  rw [hordinal, hordinal, Option.some.injEq, Value.int.injEq, Nat.cast_inj] at hget
  exact hget

theorem SourceType.encodes_text (t : SourceType) : Encodes t.text := by
  cases t <;> exact encodes_ofString _

theorem PermissionScope.encodes_text (s : PermissionScope) : Encodes s.text := by
  cases s <;> exact encodes_ofString _

theorem encodes_hexdigest (data : ByteArray) : Encodes (Sha256.hexdigest data) := by
  intro c hc
  obtain ⟨d, rfl⟩ := Sha256.exists_hexDigit_of_mem hc
  have hencodes : ∀ d : Fin 16, toChar? (Json.hexDigit d) ≠ none := by decide
  exact hencodes d

/-- A content has an identity when nothing in either is a lone surrogate. -/
theorem identityBytes_ne_none_iff {name : Text} {ordinal : ℕ} {content : Text} :
    identityBytes I source name ordinal content ≠ none ↔ Encodes content ∧
      Encodes source.path ∧ Encodes source.revision ∧ Encodes source.erpVersion ∧
        Encodes name := by
  have hidentity : ∀ digest, Json.dumps I (.dict (chunkIdentity source name ordinal
      (Sha256.hexdigest digest))) = some (Json.render I (.dict (Json.inOrder (chunkIdentity source
        name ordinal (Sha256.hexdigest digest))))) :=
    fun digest => Json.dumps_of_isLabel I (isLabel_chunkIdentity source _ _ _)
  have hrender : ∀ digest, Encodes (Json.render I (.dict (Json.inOrder (chunkIdentity source name
      ordinal (Sha256.hexdigest digest))))) ↔ Encodes source.path ∧ Encodes source.revision ∧
        Encodes source.erpVersion ∧ Encodes name := by
    intro digest
    rw [encodes_render_dict]
    have hmem : ∀ entry, entry ∈ Json.inOrder (chunkIdentity source name ordinal
        (Sha256.hexdigest digest)) ↔ entry ∈ chunkIdentity source name ordinal
          (Sha256.hexdigest digest) := fun entry => (Json.perm_inOrder _).mem_iff.symm
    simp only [hmem]
    simp only [chunkIdentity, List.forall_mem_cons, List.not_mem_nil, false_imp_iff,
      implies_true, and_true, encodes_ofString, true_and, Json.render, encodes_encodeString,
      SourceType.encodes_text, PermissionScope.encodes_text, encodes_hexdigest, encodes_intText]
  rw [identityBytes]
  cases hcontent : encodeUtf8 content with
  | none =>
      have hnot : ¬Encodes content := fun h => encodes_iff.mp h hcontent
      simp [hnot]
  | some bytes =>
      have hencodes : Encodes content := encodes_iff.mpr (by simp [hcontent])
      simp only [Option.bind_eq_bind, Option.bind_some, hidentity]
      rw [← encodes_iff, hrender]
      exact (and_iff_right hencodes).symm

/-! ## The chunks that are made -/

/-- A chunk that is made is the chunk of its own name, number and content. -/
theorem sourceChunk_of_made {named : List (Text × Text)} {ordinal : ℕ}
    {chunks : List SourceChunk} (h : List.Forall₂ (Made I source) (named.zipIdx ordinal) chunks) :
    ∀ chunk ∈ chunks,
      sourceChunk I source chunk.sectionName chunk.ordinal chunk.content = some chunk := by
  induction named generalizing ordinal chunks with
  | nil =>
      rw [List.zipIdx_nil, List.forall₂_nil_left_iff] at h
      simp [h]
  | cons pair named ih =>
      rw [List.zipIdx_cons, List.forall₂_cons_left_iff] at h
      obtain ⟨chunk, chunks, hchunk, hrest, rfl⟩ := h
      rw [List.forall_mem_cons]
      obtain ⟨hname, hcontent, hordinal, -⟩ := sourceChunk_eq_some hchunk
      refine ⟨?_, ih hrest⟩
      rw [hname, hcontent, hordinal]
      exact hchunk

theorem exists_identity_of_made {named : List (Text × Text)} {ordinal : ℕ}
    {chunks : List SourceChunk} (h : List.Forall₂ (Made I source) (named.zipIdx ordinal) chunks) :
    ∀ chunk ∈ chunks, ∃ identity,
      identityBytes I source chunk.sectionName chunk.ordinal chunk.content = some identity ∧
        chunk.chunkId = Sha256.hexdigest identity :=
  fun chunk hchunk => (sourceChunk_eq_some (sourceChunk_of_made h chunk hchunk)).2.2.2

/-- Contents that have an identity are made into chunks. -/
theorem exists_made {named : List (Text × Text)} (ordinal : ℕ)
    (h : ∀ pair ∈ named, ∀ n, identityBytes I source pair.1 n pair.2 ≠ none) :
    ∃ chunks, List.Forall₂ (Made I source) (named.zipIdx ordinal) chunks := by
  induction named generalizing ordinal with
  | nil => exact ⟨[], by rw [List.zipIdx_nil]; exact .nil⟩
  | cons pair named ih =>
      rw [List.forall_mem_cons] at h
      obtain ⟨chunks, hchunks⟩ := ih (ordinal + 1) h.2
      obtain ⟨identity, hidentity⟩ := Option.ne_none_iff_exists'.mp (h.1 ordinal)
      have hencodes := (identityBytes_ne_none_iff.mp (h.1 ordinal)).1
      obtain ⟨bytes, hbytes⟩ := Option.ne_none_iff_exists'.mp (encodes_iff.mp hencodes)
      have hmade : ∃ chunk, Made I source (pair, ordinal) chunk := by
        simp only [Made, sourceChunk, hbytes, hidentity, Option.bind_eq_bind, Option.bind_some]
        exact ⟨_, rfl⟩
      obtain ⟨chunk, hchunk⟩ := hmade
      exact ⟨chunk :: chunks, by rw [List.zipIdx_cons]; exact .cons hchunk hchunks⟩

/-- The chunks of a source fall into the groups of its sections. -/
theorem exists_isGroup {chunks : List SourceChunk} (h : chunkSource I source = some chunks) :
    ∃ groups, groups.flatten = chunks ∧
      List.Forall₂ (IsGroup source) (outline source) groups :=
  exists_groups (ordinals_of_forall₂_made (chunkSource_eq_some.mp h)).2

/-- Every piece of a section is in a chunk. -/
theorem exists_chunk {chunks : List SourceChunk} (h : chunkSource I source = some chunks)
    {s : Outlined} (hs : s ∈ outline source) {piece : Text} (hpiece : piece ∈ s.pieces source) :
    ∃ chunk ∈ chunks, chunk.sectionName = s.name source ∧
      chunk.content = chunkContent (chunkLead source (s.name source)) piece := by
  have hnamed := (ordinals_of_forall₂_made (chunkSource_eq_some.mp h)).2
  have hmem : (s.name source, chunkContent (chunkLead source (s.name source)) piece) ∈
      chunks.map fun chunk => (chunk.sectionName, chunk.content) := by
    rw [hnamed, List.mem_flatMap]
    exact ⟨s, hs, List.mem_map_of_mem hpiece⟩
  obtain ⟨chunk, hchunk, heq⟩ := List.mem_map.mp hmem
  rw [Prod.mk.injEq] at heq
  exact ⟨chunk, hchunk, heq.1, heq.2⟩

/-- Every chunk holds a piece of a section. -/
theorem exists_piece {chunks : List SourceChunk} (h : chunkSource I source = some chunks)
    {chunk : SourceChunk} (hchunk : chunk ∈ chunks) :
    ∃ s ∈ outline source, ∃ piece ∈ s.pieces source, chunk.sectionName = s.name source ∧
      chunk.content = chunkContent (chunkLead source (s.name source)) piece := by
  have hnamed := (ordinals_of_forall₂_made (chunkSource_eq_some.mp h)).2
  have hmem := List.mem_map_of_mem (f := fun chunk : SourceChunk =>
    (chunk.sectionName, chunk.content)) hchunk
  rw [hnamed, List.mem_flatMap] at hmem
  obtain ⟨s, hs, hcontents⟩ := hmem
  obtain ⟨piece, hpiece, heq⟩ := List.mem_map.mp hcontents
  rw [Prod.mk.injEq] at heq
  exact ⟨s, hs, piece, hpiece, heq.1.symm, heq.2.symm⟩

/-! ## From sound chunks to the source -/

/-- Words that leave no room make a chunk that is too long. -/
theorem length_chunkContent_of_long {lead piece : Text} (hlead : ∀ c ∈ lead.head?, isSpace c = false)
    (hne : lead ≠ []) (hpiece : piece ≠ []) (hlast : ∀ c ∈ piece.getLast?, isSpace c = false) :
    (chunkContent lead piece).length = lead.length + 2 + piece.length := by
  have hsolid : Solid (lead ++ lineFeed :: lineFeed :: piece) := by
    constructor
    · cases lead with
      | nil => exact absurd rfl hne
      | cons c lead => simpa using hlead
    · have happend : lead ++ lineFeed :: lineFeed :: piece =
          (lead ++ [lineFeed, lineFeed]) ++ piece := by simp
      rw [happend, List.getLast?_append_of_ne_nil _ hpiece]
      exact hlast
  rw [chunkContent, hsolid.strip_eq, List.length_append, List.length_cons, List.length_cons]
  omega

theorem short_of_bounded {chunks : List SourceChunk} (h : chunkSource I source = some chunks)
    (hbounded : ∀ chunk ∈ chunks, chunk.content.length ≤ maxChunkChars) {s : Outlined}
    (hs : s ∈ outline source) (hbody : bodyLines s.lines ≠ []) :
    (s.words source).length + 3 ≤ maxChunkChars := by
  by_contra hlong
  have hmax : maxChunkChars = 1200 := rfl
  have hwords : s.words source ≠ [] := by
    intro hnil
    rw [hnil, List.length_nil] at hlong
    omega
  have hlead : chunkLead source (s.name source) = (s.words source).take (maxChunkChars - 1) := by
    rw [chunkLead, sectionWords_name hs]
  have hlength : maxChunkChars - 2 ≤ (chunkLead source (s.name source)).length := by
    rw [hlead, List.length_take]
    omega
  have hlimit : bodyLimit (chunkLead source (s.name source)) = 1 := by
    rw [bodyLimit]
    omega
  have hpacking := packing_pieces hs
  obtain ⟨piece, hpiece, hsolid⟩ := hpacking.exists_head (one_le_bodyLimit _)
    (isBodyLine_of_mem hs) hbody (head_bodyLines s.lines)
  have hmem := List.mem_of_mem_head? hpiece
  obtain ⟨hne, hone⟩ := hpacking.bounded (one_le_bodyLimit _) (isBodyLine_of_mem hs) piece hmem
  rw [hlimit] at hone
  -- the piece is one character
  have hlast : ∀ c ∈ piece.getLast?, isSpace c = false := by
    cases piece with
    | nil => exact absurd rfl hne
    | cons c rest =>
        have hrest : rest = [] := by
          rw [List.length_cons] at hone
          exact List.length_eq_zero_iff.mp (by omega)
        rw [hrest] at hsolid ⊢
        simpa [isBlank] using hsolid
  have hhead : ∀ c ∈ (chunkLead source (s.name source)).head?, isSpace c = false := by
    rw [hlead]
    have hsolidWords := (@solid_words source s).head
    cases hcons : s.words source with
    | nil => exact absurd hcons hwords
    | cons c rest =>
        rw [hcons] at hsolidWords
        simpa [hmax] using hsolidWords
  have hleadne : chunkLead source (s.name source) ≠ [] := by
    intro hnil
    rw [hnil, List.length_nil] at hlength
    omega
  obtain ⟨chunk, hchunk, -, hcontent⟩ := exists_chunk h hs hmem
  have hle := hbounded chunk hchunk
  have hpos : 0 < piece.length := List.length_pos_iff.mpr hne
  rw [hcontent, length_chunkContent_of_long hhead hleadne hne hlast] at hle
  omega

/-- Every blank slice of a section without words would be a chunk without content. -/
theorem solid_of_bounded {chunks : List SourceChunk} (h : chunkSource I source = some chunks)
    (hne : ∀ chunk ∈ chunks, chunk.content ≠ []) {s : Outlined} (hs : s ∈ outline source)
    (hwords : s.words source = []) {line : Text} (hline : line ∈ bodyLines s.lines) {slice : Text}
    (hslice : slice ∈ slices (maxChunkChars - 2) line) : isBlank slice = false := by
  have hmax : maxChunkChars = 1200 := rfl
  have hbody := isBodyLine_of_mem hs line hline
  have hlead : chunkLead source (s.name source) = [] := by
    rw [chunkLead, sectionWords_name hs, hwords, List.take_nil]
  have hlimit : bodyLimit (chunkLead source (s.name source)) = maxChunkChars - 2 := by
    rw [hlead, bodyLimit, List.length_nil]
    omega
  have hpacking := packing_pieces hs
  by_cases hlong : maxChunkChars - 2 < line.length
  · rw [← hlimit] at hlong hslice
    have hpiece := hpacking.slices_subset hline hlong hslice
    obtain ⟨chunk, hchunk, -, hcontent⟩ := exists_chunk h hs hpiece
    rw [Bool.eq_false_iff]
    intro hblank
    apply hne chunk hchunk
    rw [hcontent, hlead, chunkContent, List.nil_append, strip_eq_nil_iff, isBlank_iff]
    have hfeed : isSpace lineFeed = true := by decide
    simp only [List.forall_mem_cons, hfeed, true_and]
    exact isBlank_iff.mp hblank
  · have hslices : slices (maxChunkChars - 2) line = [line] := by
      rw [slices_of_ne_nil (by omega) hbody.ne_nil, List.drop_of_length_le (by omega),
        slices_nil _ (by omega), List.take_of_length_le (by omega)]
    rw [hslices, List.mem_singleton] at hslice
    rw [hslice]
    exact hbody.not_isBlank

theorem encodes_of_isSpace {c : CodePoint} (h : isSpace c = true) : toChar? c ≠ none := by
  have hvalid : c.val.isValidChar := by
    simp only [isSpace, Bool.or_eq_true, Bool.and_eq_true, decide_eq_true_eq, List.contains_eq_mem,
      List.mem_cons, List.not_mem_nil, or_false] at h
    left
    omega
  rw [toChar?, dif_pos hvalid]
  exact Option.some_ne_none _

/-- The chunks hold all of a section, so nothing in it is a lone surrogate. -/
theorem encodes_of_chunks {chunks : List SourceChunk} (h : chunkSource I source = some chunks)
    {s : Outlined} (hs : s ∈ outline source) (hbody : bodyLines s.lines ≠ []) :
    Encodes source.path ∧ Encodes source.revision ∧ Encodes source.erpVersion ∧
      Encodes (s.name source) ∧ ∀ line ∈ bodyLines s.lines, Encodes line := by
  have hidentities := exists_identity_of_made (chunkSource_eq_some.mp h)
  have hpacking := packing_pieces hs
  have hchunks : ∀ piece ∈ s.pieces source, Encodes (chunkContent
      (chunkLead source (s.name source)) piece) ∧ Encodes source.path ∧ Encodes source.revision ∧
        Encodes source.erpVersion ∧ Encodes (s.name source) := by
    intro piece hpiece
    obtain ⟨chunk, hchunk, hname, hcontent⟩ := exists_chunk h hs hpiece
    obtain ⟨identity, hidentity, -⟩ := hidentities chunk hchunk
    rw [hname, hcontent] at hidentity
    exact identityBytes_ne_none_iff.mp (by rw [hidentity]; exact Option.some_ne_none _)
  obtain ⟨piece, hpiece, -⟩ := hpacking.exists_last (one_le_bodyLimit _) (isBodyLine_of_mem hs) hbody
  obtain ⟨-, hpath, hrevision, hversion, hname⟩ := hchunks piece (List.mem_of_getLast? hpiece)
  refine ⟨hpath, hrevision, hversion, hname, ?_⟩
  intro line hline c hc
  by_cases hspace : isSpace c = true
  · exact encodes_of_isSpace hspace
  · have hsolid : isSpace c = false := by simpa using hspace
    obtain ⟨piece, hpiece, hcp⟩ := hpacking.exists_mem (one_le_bodyLimit _) hline hc hsolid
    refine (hchunks piece hpiece).1 c (mem_strip ?_ hsolid)
    exact List.mem_append_right _ (List.mem_cons_of_mem _ (List.mem_cons_of_mem _ hcp))

theorem chunkable_of_sound (h : Sound I source) : Chunkable source := by
  obtain ⟨chunks, hchunks, hsound⟩ := h
  have hshort : ∀ s ∈ outline source, bodyLines s.lines ≠ [] →
      (s.words source).length + 3 ≤ maxChunkChars :=
    fun s hs => short_of_bounded hchunks (fun chunk hchunk => (hsound.bounded chunk hchunk).2) hs
  refine ⟨?_, hshort, ?_, fun s hs => encodes_of_chunks hchunks hs⟩
  · -- the groups that cover the sections are those of the code
    obtain ⟨groups, hgroups, hmade⟩ := exists_isGroup hchunks
    obtain ⟨others, hothers, hcovers⟩ := hsound.covered
    obtain rfl := groups_eq_of_covers hshort hgroups hmade hothers hcovers
    intro s hs hheading hbody
    obtain ⟨i, hi, rfl⟩ := List.mem_iff_getElem.mp hs
    have hlength := hmade.length_eq
    have hgroup := List.Forall₂.get hmade hi (hlength ▸ hi)
    have hcover := List.Forall₂.get hcovers hi (hlength ▸ hi)
    exact hcover.headed hheading ((isGroup_eq_nil_iff hs hgroup).mpr hbody)
  · intro s hs hwords line hline slice hslice
    exact solid_of_bounded hchunks (fun chunk hchunk => (hsound.bounded chunk hchunk).1) hs hwords
      hline hslice

/-! ## From the source to sound chunks -/

theorem encodes_words {s : Outlined} (h : Encodes (s.name source)) : Encodes (s.words source) := by
  intro c hc
  rcases mem_of_mem_unwords_words hc with rfl | hc
  · exact encodes_of_isSpace (by decide)
  · exact h c hc

theorem bodyLines_ne_nil_of_mem {s : Outlined} (hs : s ∈ outline source) {piece : Text}
    (h : piece ∈ s.pieces source) : bodyLines s.lines ≠ [] := by
  intro hnil
  rw [(pieces_eq_nil_iff hs).mpr hnil] at h
  simp at h

theorem encodes_contents (h : Chunkable source) {pair : Text × Text}
    (hpair : pair ∈ (outline source).flatMap fun s => s.contents source) (ordinal : ℕ) :
    identityBytes I source pair.1 ordinal pair.2 ≠ none := by
  obtain ⟨s, hs, hcontents⟩ := List.mem_flatMap.mp hpair
  obtain ⟨piece, hpiece, rfl⟩ := List.mem_map.mp hcontents
  have hbody := bodyLines_ne_nil_of_mem hs hpiece
  obtain ⟨hpath, hrevision, hversion, hname, hlines⟩ := h.encodes s hs hbody
  refine identityBytes_ne_none_iff.mpr ⟨?_, hpath, hrevision, hversion, hname⟩
  have hfeed : toChar? lineFeed ≠ none := encodes_of_isSpace (by decide)
  intro c hc
  rw [chunkLead_of_short hs (h.short s hs hbody)] at hc
  have hmem := mem_of_mem_strip hc
  rw [List.mem_append, List.mem_cons, List.mem_cons] at hmem
  rcases hmem with hmem | rfl | rfl | hmem
  · exact encodes_words hname c hmem
  · exact hfeed
  · exact hfeed
  · rcases (packing_pieces hs).mem_of_mem_piece hpiece hmem with rfl | ⟨line, hline, hcl⟩
    · exact hfeed
    · exact hlines line hline c hcl

/-- A chunk has a content, and it fits. -/
theorem bounded_of_chunkable (h : Chunkable source) {s : Outlined} (hs : s ∈ outline source)
    {piece : Text} (hpiece : piece ∈ s.pieces source) :
    chunkContent (chunkLead source (s.name source)) piece ≠ [] ∧
      (chunkContent (chunkLead source (s.name source)) piece).length ≤ maxChunkChars := by
  have hmax : maxChunkChars = 1200 := rfl
  have hshort := h.short s hs (bodyLines_ne_nil_of_mem hs hpiece)
  have hlead := chunkLead_of_short hs hshort
  have hpacking := packing_pieces hs
  rw [hlead, bodyLimit_of_short hshort] at hpacking
  have hroom : 1 ≤ s.room source := by
    rw [← bodyLimit_of_short hshort]
    exact one_le_bodyLimit _
  obtain ⟨hne, hfits⟩ := hpacking.bounded hroom (isBodyLine_of_mem hs) piece hpiece
  rw [hlead]
  constructor
  · by_cases hwords : s.words source = []
    · have hsolid : isBlank piece = false := by
        rw [Bool.eq_false_iff]
        intro hblank
        obtain ⟨line, hline, -, hslice⟩ := hpacking.exists_of_isBlank (isBodyLine_of_mem hs) hpiece
          hblank
        have hsroom : s.room source = maxChunkChars - 2 := by
          rw [Outlined.room, hwords, List.length_nil]
        rw [hsroom] at hslice
        rw [h.solid s hs hwords line hline piece hslice] at hblank
        cases hblank
      rw [hwords, chunkContent, List.nil_append, ne_eq, strip_eq_nil_iff, isBlank_iff]
      intro hall
      rw [List.forall_mem_cons, List.forall_mem_cons] at hall
      rw [isBlank_iff.mpr hall.2.2] at hsolid
      cases hsolid
    · rw [chunkContent, (solid_words s).strip_append hwords]
      exact List.append_ne_nil_of_left_ne_nil hwords _
  · refine (length_chunkContent_le _ _).trans ?_
    rw [Outlined.room] at hfits
    omega

/-- No two identities of a source's chunks have one SHA-256 digest. -/
def DigestsApart (I : Interpreter) (source : CuratedSource) : Prop :=
  ∀ chunks, chunkSource I source = some chunks → ∀ chunk ∈ chunks, ∀ other ∈ chunks,
    ∀ bytes bytes',
      identityBytes I source chunk.sectionName chunk.ordinal chunk.content = some bytes →
      identityBytes I source other.sectionName other.ordinal other.content = some bytes' →
      Sha256.hexdigest bytes = Sha256.hexdigest bytes' → bytes = bytes'

/-- Chunks with different ordinals have different ids. -/
theorem nodup_chunkIds (hdigests : DigestsApart I source) {chunks : List SourceChunk}
    (h : chunkSource I source = some chunks) : (chunks.map SourceChunk.chunkId).Nodup := by
  have hmade := chunkSource_eq_some.mp h
  have hordinals := (ordinals_of_forall₂_made hmade).1
  have hnodup : (chunks.map SourceChunk.ordinal).Nodup := by
    rw [hordinals]
    exact List.nodup_range'
  refine List.Nodup.map_on ?_ hnodup.of_map
  intro chunk hchunk other hother hid
  obtain ⟨bytes, hbytes, hdigest⟩ := exists_identity_of_made hmade chunk hchunk
  obtain ⟨bytes', hbytes', hdigest'⟩ := exists_identity_of_made hmade other hother
  rw [hdigest, hdigest'] at hid
  have heq := hdigests chunks h chunk hchunk other hother bytes bytes' hbytes hbytes' hid
  rw [← heq] at hbytes'
  exact List.inj_on_of_nodup_map hnodup hchunk hother (ordinal_eq_of_identityBytes hbytes hbytes')

/-- A chunkable source is chunked. -/
theorem exists_chunkSource (h : Chunkable source) : ∃ chunks, chunkSource I source = some chunks := by
  obtain ⟨chunks, hmade⟩ := @exists_made I source _ 1
    fun pair hpair n => encodes_contents h hpair n
  exact ⟨chunks, chunkSource_eq_some.mpr hmade⟩

theorem sound_of_chunkable (hdigests : DigestsApart I source) (h : Chunkable source) :
    Sound I source := by
  obtain ⟨chunks, hchunks⟩ := @exists_chunkSource I source h
  have hmade := chunkSource_eq_some.mp hchunks
  refine ⟨chunks, hchunks, ?_, (ordinals_of_forall₂_made hmade).1,
    nodup_chunkIds hdigests hchunks, ?_⟩
  · intro chunk hchunk
    obtain ⟨s, hs, piece, hpiece, -, hcontent⟩ := exists_piece hchunks hchunk
    rw [hcontent]
    exact bounded_of_chunkable h hs hpiece
  · obtain ⟨groups, hgroups, hall⟩ := exists_isGroup hchunks
    refine ⟨groups, hgroups, ?_⟩
    have hcovers : ∀ s ∈ outline source, ∀ group, IsGroup source s group →
        Covers source s group := by
      intro s hs group hgroup
      obtain ⟨hopened, hkept⟩ := kept_of_isGroup hs hgroup (h.short s hs)
      refine ⟨fun hheading hnil => ?_, hopened, hkept⟩
      exact h.headed s hs hheading ((isGroup_eq_nil_iff hs hgroup).mp hnil)
    refine List.forall₂_iff_get.mpr ⟨hall.length_eq, fun i hi hi' => ?_⟩
    exact hcovers _ (List.get_mem _ _) _ (hall.get hi hi')

end

end Retrieval
