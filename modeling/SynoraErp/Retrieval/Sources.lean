import SynoraErp.Python.Model
import SynoraErp.Retrieval.SoundChunks

/-!
# Chunks of several sources

Sources are chunked in the order of their sort keys. A key tells its source, so that the order
the sources come in does not matter.
-/

namespace Retrieval

open Python Text

/-! ## The order of the sources -/

/-- The contents of no two sources have one SHA-256 digest. -/
def ContentsApart (sources : List CuratedSource) : Prop :=
  ∀ source ∈ sources, ∀ other ∈ sources, ∀ bytes bytes',
    encodeUtf8 source.content = some bytes → encodeUtf8 other.content = some bytes' →
    Sha256.hexdigest bytes = Sha256.hexdigest bytes' → bytes = bytes'

/-- A sort key tells the source. -/
theorem eq_of_sourceSortKey {sources : List CuratedSource} (h : ContentsApart sources)
    {source other : CuratedSource} (hsource : source ∈ sources) (hother : other ∈ sources)
    {key : List Text} (hkey : sourceSortKey source = some key)
    (hkey' : sourceSortKey other = some key) : source = other := by
  obtain ⟨bytes, hbytes, hkey⟩ := Option.bind_eq_some_iff.mp hkey
  obtain ⟨bytes', hbytes', hkey'⟩ := Option.bind_eq_some_iff.mp hkey'
  have heq := (Option.some.inj hkey).trans (Option.some.inj hkey').symm
  simp only [List.cons.injEq, and_true] at heq
  obtain ⟨hpath, hrevision, htype, hversion, hscope, htitle, hingested, hdigest⟩ := heq
  have hcontent : source.content = other.content := by
    have hsame := h source hsource other hother bytes bytes' hbytes hbytes' hdigest
    rw [← hsame] at hbytes'
    exact encodeUtf8_injective hbytes hbytes'
  have htypes : source.sourceType = other.sourceType := by
    revert htype
    cases source.sourceType <;> cases other.sourceType <;> simp [SourceType.text]
  have hscopes : source.permissionScope = other.permissionScope := by
    revert hscope
    cases source.permissionScope <;> cases other.permissionScope <;> simp [PermissionScope.text]
  obtain ⟨⟩ := source
  obtain ⟨⟩ := other
  simp only [CuratedSource.mk.injEq]
  exact ⟨htypes, hpath, hrevision, hversion, hscopes, hingested, htitle, hcontent⟩

theorem exists_perm_of_mapM {α β : Type} {f : α → Option β} {l l' : List α} (h : l.Perm l')
    {results : List β} (hresults : l.mapM f = some results) :
    ∃ results', l'.mapM f = some results' ∧ results.Perm results' := by
  induction h generalizing results with
  | nil => exact ⟨results, hresults, .refl _⟩
  | cons x _ ih =>
      rw [List.mapM_cons] at hresults
      obtain ⟨y, hy, hresults⟩ := Option.bind_eq_some_iff.mp hresults
      obtain ⟨rest, hrest, hresults⟩ := Option.bind_eq_some_iff.mp hresults
      obtain ⟨rest', hrest', hperm⟩ := ih hrest
      obtain rfl := Option.some.inj hresults
      refine ⟨y :: rest', ?_, hperm.cons y⟩
      rw [List.mapM_cons, hy, hrest']
      rfl
  | swap x y l =>
      rw [List.mapM_cons, List.mapM_cons] at hresults
      obtain ⟨a, ha, hresults⟩ := Option.bind_eq_some_iff.mp hresults
      obtain ⟨more, hmore, hresults⟩ := Option.bind_eq_some_iff.mp hresults
      obtain ⟨b, hb, hmore⟩ := Option.bind_eq_some_iff.mp hmore
      obtain ⟨rest, hrest, hmore⟩ := Option.bind_eq_some_iff.mp hmore
      obtain rfl := Option.some.inj hmore
      obtain rfl := Option.some.inj hresults
      refine ⟨b :: a :: rest, ?_, .swap b a rest⟩
      rw [List.mapM_cons, List.mapM_cons, ha, hb, hrest]
      rfl
  | trans _ _ ih ih' =>
      obtain ⟨middle, hmiddle, hperm⟩ := ih hresults
      obtain ⟨last, hlast, hperm'⟩ := ih' hmiddle
      exact ⟨last, hlast, hperm.trans hperm'⟩

theorem chunkSources_le_of_perm {I : Interpreter} {sources others : List CuratedSource}
    (h : sources.Perm others) (hcontents : ContentsApart sources) {chunks : List SourceChunk}
    (hchunks : chunkSources I sources = some chunks) : chunkSources I others = some chunks := by
  obtain ⟨keyed, hkeyed, hrest⟩ := Option.bind_eq_some_iff.mp hchunks
  obtain ⟨keyed', hkeyed', hperm⟩ := exists_perm_of_mapM h hkeyed
  have hkeys : ∀ entry ∈ keyed, entry.2 ∈ sources ∧ sourceSortKey entry.2 = some entry.1 := by
    have hall := forall₂_of_mapM_eq_some hkeyed
    clear hrest hperm hkeyed hkeyed' hchunks hcontents h
    induction hall with
    | nil => simp
    | cons hentry _ ih =>
        obtain ⟨key, hkey, rfl⟩ := Option.map_eq_some_iff.mp hentry
        rw [List.forall_mem_cons]
        exact ⟨⟨List.mem_cons_self, hkey⟩, fun entry hentry =>
          ⟨List.mem_cons_of_mem _ (ih entry hentry).1, (ih entry hentry).2⟩⟩
  have hsort := SortedByKey.sortBy_eq_of_perm_of_injOn Prod.fst hperm (by
    intro a ha b hb hab
    obtain ⟨hsource, hkey⟩ := hkeys a ha
    obtain ⟨hother, hkey'⟩ := hkeys b hb
    rw [← hab] at hkey'
    exact Prod.ext hab (eq_of_sourceSortKey hcontents hsource hother hkey hkey'))
  refine Option.bind_eq_some_iff.mpr ⟨keyed', hkeyed', ?_⟩
  rw [← hsort]
  exact hrest

/-- The chunks of several sources do not depend on their order. -/
theorem chunkSources_eq_of_perm (I : Interpreter) {sources others : List CuratedSource}
    (h : sources.Perm others) (hcontents : ContentsApart sources) :
    chunkSources I sources = chunkSources I others := by
  have hcontents' : ContentsApart others := fun source hsource other hother =>
    hcontents source (h.mem_iff.mpr hsource) other (h.mem_iff.mpr hother)
  refine Option.ext fun chunks => ⟨fun hchunks => ?_, fun hchunks => ?_⟩
  · exact chunkSources_le_of_perm h hcontents hchunks
  · exact chunkSources_le_of_perm h.symm hcontents' hchunks

/-! ## Which sources are chunked soundly -/

/-- The chunks of a source are bounded and lose nothing exactly when the source is chunkable, and
the chunks of several sources do not depend on their order. -/
theorem sound_iff_chunkable (I : Interpreter) (source : CuratedSource)
    (hdigests : DigestsApart I source) (sources others : List CuratedSource)
    (hperm : sources.Perm others) (hcontents : ContentsApart sources) :
    (Sound I source ↔ Chunkable source) ∧ chunkSources I sources = chunkSources I others :=
  ⟨⟨chunkable_of_sound, sound_of_chunkable hdigests⟩, chunkSources_eq_of_perm I hperm hcontents⟩

/-- The identities of a source's chunks have different digests when its chunks have different
ids. -/
theorem digestsApart_of_nodup {I : Interpreter} {source : CuratedSource} {chunks : List SourceChunk}
    (hchunks : chunkSource I source = some chunks)
    (hnodup : (chunks.map SourceChunk.chunkId).Nodup) : DigestsApart I source := by
  intro made hmade chunk hchunk other hother bytes bytes' hbytes hbytes' hdigest
  obtain rfl : chunks = made := Option.some.inj (hchunks.symm.trans hmade)
  have hidentities := exists_identity_of_made (chunkSource_eq_some.mp hchunks)
  obtain ⟨identity, hidentity, hid⟩ := hidentities chunk hchunk
  obtain ⟨identity', hidentity', hid'⟩ := hidentities other hother
  obtain rfl : identity = bytes := Option.some.inj (hidentity.symm.trans hbytes)
  obtain rfl : identity' = bytes' := Option.some.inj (hidentity'.symm.trans hbytes')
  have hsame : chunk = other := List.inj_on_of_nodup_map hnodup hchunk hother
    (hid.trans (hdigest.trans hid'.symm))
  subst hsame
  exact Option.some.inj (hidentity.symm.trans hidentity')

theorem contentsApart_pair {source other : CuratedSource}
    (h : ∀ bytes ∈ encodeUtf8 source.content, ∀ bytes' ∈ encodeUtf8 other.content,
      Sha256.hexdigest bytes ≠ Sha256.hexdigest bytes') : ContentsApart [source, other] := by
  intro s hs t ht bytes bytes' hbytes hbytes' hdigest
  rw [List.mem_pair] at hs ht
  rcases hs with rfl | rfl <;> rcases ht with rfl | rfl
  · exact Option.some.inj (hbytes.symm.trans hbytes')
  · exact absurd hdigest (h bytes hbytes bytes' hbytes')
  · exact absurd hdigest.symm (h bytes' hbytes' bytes hbytes)
  · exact Option.some.inj (hbytes.symm.trans hbytes')

/-- A note under a title. -/
def note (title content : Text) (htitle : title ≠ []) (hcontent : strip content ≠ []) :
    CuratedSource where
  sourceType := .sop
  path := "a"
  revision := "v1"
  erpVersion := "e"
  permissionScope := .internal
  ingestedAt := "i"
  title := title
  content := content
  path_ne_nil := by decide
  title_ne_nil := htitle
  content_ne_nil := hcontent

def shortNote : CuratedSource := note "t" "x" (by decide) (by decide)

/-- A note of two sections. -/
def buyingNote : CuratedSource :=
  note "t" "# A\n采购 x\n# B\n公开采购政策" (by decide) (by decide)

theorem outline_buyingNote :
    outline buyingNote = [⟨[], []⟩, ⟨"A", ["采购 x"]⟩, ⟨"B", ["公开采购政策"]⟩] := by rfl

theorem chunkable_buyingNote : Chunkable buyingNote where
  headed := by
    rw [outline_buyingNote]
    decide
  short := by
    rw [outline_buyingNote]
    decide
  solid := by
    rw [outline_buyingNote]
    decide
  encodes := by
    have hbody : ∀ line : String, bodyLines [ofString line] = [ofString line] →
        ∀ l ∈ bodyLines [ofString line], Encodes l := by
      intro line hline l hl
      rw [hline, List.mem_singleton] at hl
      exact hl ▸ encodes_ofString line
    rw [outline_buyingNote]
    simp only [List.forall_mem_cons]
    refine ⟨fun h => absurd rfl h, fun _ => ?_, fun _ => ?_, by simp⟩
    · exact ⟨encodes_ofString "a", encodes_ofString "v1", encodes_ofString "e",
        encodes_ofString "A", hbody "采购 x" (by decide)⟩
    · exact ⟨encodes_ofString "a", encodes_ofString "v1", encodes_ofString "e",
        encodes_ofString "B", hbody "公开采购政策" (by decide)⟩

theorem chunks_buyingNote : ∀ chunks ∈ chunkSource Interpreter.ascii buyingNote,
    chunks.map (fun chunk => (chunk.content, chunk.permissionScope)) =
      [(ofString "A\n\n采购 x", .internal), (ofString "B\n\n公开采购政策", .internal)] ∧
      (chunks.map SourceChunk.chunkId).Nodup := by
  decide +kernel

theorem sound_iff_chunkable_buyingNote :
    Sound Interpreter.ascii buyingNote ∧
      chunkSources Interpreter.ascii [buyingNote, shortNote] =
        chunkSources Interpreter.ascii [shortNote, buyingNote] := by
  obtain ⟨chunks, hchunks⟩ := @exists_chunkSource Interpreter.ascii _ chunkable_buyingNote
  have hdigests := digestsApart_of_nodup hchunks (chunks_buyingNote chunks hchunks).2
  have hsources := sound_iff_chunkable Interpreter.ascii buyingNote hdigests
    [buyingNote, shortNote] [shortNote, buyingNote] (.swap _ _ _)
    (contentsApart_pair (by decide +kernel))
  exact ⟨hsources.1.mpr chunkable_buyingNote, hsources.2⟩

/-- A title of 1198 letters. -/
def longTitle : Text := List.replicate 1198 0x78

theorem longTitle_ne_nil : longTitle ≠ [] := List.cons_ne_nil _ _

def longNote : CuratedSource := note longTitle "x" longTitle_ne_nil (by decide)

/-- Two headings, one right below the other. -/
def bareNote : CuratedSource := note "t" "# A\n# B\nx" (by decide) (by decide)

/-- The chunk of a body below a prefix of 1198 characters has 1201; a heading without a body is
in no chunk. -/
theorem not_sound_notes :
    ¬Sound Interpreter.ascii longNote ∧ ¬Sound Interpreter.ascii bareNote := by
  constructor
  · intro h
    have hspace : ∀ c ∈ longTitle, isSpace c = false := by
      intro c hc
      rw [List.eq_of_mem_replicate hc]
      decide
    have hsolid : Solid longTitle :=
      ⟨fun c hc => hspace c (List.mem_of_mem_head? hc), fun c hc =>
        hspace c (List.mem_of_getLast? hc)⟩
    have hwords : Outlined.words longNote ⟨[], ["x"]⟩ = longTitle := by
      have hname : Outlined.name longNote ⟨[], ["x"]⟩ = longTitle := hsolid.strip_eq
      have hsplit : longTitle.splitOnP isSpace = [longTitle] := List.splitOnP_eq_singleton hspace
      have hfilter : Text.words longTitle = [longTitle] := by
        rw [words, hsplit, List.filter_cons_of_pos (by simp [longTitle_ne_nil]), List.filter_nil]
      rw [Outlined.words, hname, hfilter, unwords, List.intercalate_singleton]
    have hshort := (chunkable_of_sound h).short ⟨[], ["x"]⟩
      (show (⟨[], ["x"]⟩ : Outlined) ∈ [(⟨[], ["x"]⟩ : Outlined)] from List.mem_singleton_self _)
      (by decide)
    rw [hwords, longTitle, List.length_replicate, maxChunkChars] at hshort
    omega
  · intro h
    have houtline : outline bareNote = [⟨[], []⟩, ⟨"A", []⟩, ⟨"B", ["x"]⟩] := by rfl
    have hheaded := (chunkable_of_sound h).headed ⟨"A", []⟩ (by rw [houtline]; simp) (by decide)
    exact hheaded rfl

end Retrieval
