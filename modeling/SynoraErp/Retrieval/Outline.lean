import SynoraErp.Python.Labels
import SynoraErp.Retrieval.Pieces

/-!
# Outline of a source

The sections a source has by its headings, and what chunks of it are good for: they are bounded,
numbered and apart, and they cover the sections one after the other.
-/

namespace Retrieval

open Python Text

/-- A heading and the lines below it; the heading is empty above the first one. -/
structure Outlined where
  heading : Text
  lines : List Text

def outlineFrom : Text → List Text → List Text → List Outlined
  | heading, lines, [] => [⟨heading, lines⟩]
  | heading, lines, line :: rest =>
      match heading? line with
      | some next => ⟨heading, lines⟩ :: outlineFrom next [] rest
      | none => outlineFrom heading (lines ++ [line]) rest

/-- The sections of a source. -/
def outline (source : CuratedSource) : List Outlined := outlineFrom [] [] (splitlines source.content)

/-- A section without a heading goes by the title. -/
def Outlined.name (source : CuratedSource) (s : Outlined) : Text :=
  if s.heading = [] then strip source.title else s.heading

/-- The words that stand ahead of a section's chunks. -/
def Outlined.words (source : CuratedSource) (s : Outlined) : Text :=
  unwords (Text.words (s.name source))

/-- What is left of a chunk below the words. -/
def Outlined.room (source : CuratedSource) (s : Outlined) : ℕ :=
  maxChunkChars - ((s.words source).length + 2)

/-- Consecutive chunks cover a section: its heading stands ahead of each of them, and below it
they hold every line of the section in order and once, a line that has no room in consecutive
fragments, white space at their ends aside. -/
structure Covers (source : CuratedSource) (s : Outlined) (group : List SourceChunk) : Prop where
  headed : s.heading ≠ [] → group ≠ []
  opened : ∀ chunk ∈ group, chunk.sectionName = s.name source ∧ s.words source <+: chunk.content
  kept : ∃ cuts, List.Forall₂ (IsCut (s.room source)) (bodyLines s.lines) cuts ∧
    bare cuts.flatten =
      group.flatMap fun chunk => bareLines (chunk.content.drop (s.words source).length)

/-- The chunks of a source are bounded and lose nothing. -/
structure SoundChunks (source : CuratedSource) (chunks : List SourceChunk) : Prop where
  bounded : ∀ chunk ∈ chunks, chunk.content ≠ [] ∧ chunk.content.length ≤ maxChunkChars
  ordinals : chunks.map SourceChunk.ordinal = List.range' 1 chunks.length
  ids : (chunks.map SourceChunk.chunkId).Nodup
  covered : ∃ groups, groups.flatten = chunks ∧
    List.Forall₂ (Covers source) (outline source) groups

def Sound (I : Interpreter) (source : CuratedSource) : Prop :=
  ∃ chunks, chunkSource I source = some chunks ∧ SoundChunks source chunks

/-- What a source has to be for its chunks to be sound. -/
structure Chunkable (source : CuratedSource) : Prop where
  /-- A heading has a body. -/
  headed : ∀ s ∈ outline source, s.heading ≠ [] → bodyLines s.lines ≠ []
  /-- The words ahead of a body leave room for one character below a blank line. -/
  short : ∀ s ∈ outline source, bodyLines s.lines ≠ [] →
    (s.words source).length + 3 ≤ maxChunkChars
  /-- Without words ahead of it no slice of a line is blank. -/
  solid : ∀ s ∈ outline source, s.words source = [] → ∀ line ∈ bodyLines s.lines,
    ∀ slice ∈ slices (maxChunkChars - 2) line, isBlank slice = false
  /-- No text of a chunk holds a lone surrogate. -/
  encodes : ∀ s ∈ outline source, bodyLines s.lines ≠ [] → Encodes source.path ∧
    Encodes source.revision ∧ Encodes source.erpVersion ∧ Encodes (s.name source) ∧
      ∀ line ∈ bodyLines s.lines, Encodes line

/-! ## The loop follows the outline -/

theorem blocksFrom_eq (source : CuratedSource) (heading : Text) (lines rest : List Text) :
    blocksFrom source.title (Outlined.name source ⟨heading, lines⟩) (lines.map rstrip) rest =
      (outlineFrom heading lines rest).flatMap fun s =>
        sectionBlock (s.name source) (s.lines.map rstrip) := by
  induction rest generalizing heading lines with
  | nil => rw [blocksFrom, outlineFrom, List.flatMap_singleton]
  | cons line rest ih =>
      rw [blocksFrom, outlineFrom]
      cases heading? line with
      | some next =>
          have hnext := ih next []
          rw [Outlined.name] at hnext
          simp only [List.map_nil] at hnext
          simp only [List.flatMap_cons, hnext]
      | none =>
          have hnext := ih heading (lines ++ [line])
          rw [List.map_append] at hnext
          exact hnext

theorem sectionBlocks_eq (source : CuratedSource) :
    sectionBlocks source = (outline source).flatMap fun s =>
      sectionBlock (s.name source) (s.lines.map rstrip) :=
  blocksFrom_eq source [] [] _

theorem isLine_of_mem_outlineFrom {heading : Text} {lines rest : List Text}
    (hlines : ∀ line ∈ lines, IsLine line) (hrest : ∀ line ∈ rest, IsLine line) :
    ∀ s ∈ outlineFrom heading lines rest, ∀ line ∈ s.lines, IsLine line := by
  induction rest generalizing heading lines with
  | nil =>
      rw [outlineFrom]
      simpa using hlines
  | cons line rest ih =>
      rw [List.forall_mem_cons] at hrest
      rw [outlineFrom]
      cases heading? line with
      | some next =>
          simp only [List.forall_mem_cons]
          exact ⟨hlines, ih (by simp) hrest.2⟩
      | none =>
          refine ih ?_ hrest.2
          rw [List.forall_mem_append]
          exact ⟨hlines, by simpa using hrest.1⟩

theorem isLine_of_mem_outline {source : CuratedSource} {s : Outlined} (h : s ∈ outline source) :
    ∀ line ∈ s.lines, IsLine line :=
  isLine_of_mem_outlineFrom (by simp) (fun _ hline => isLine_of_mem_splitlines hline) s h

theorem solid_heading? {line heading : Text} (h : heading? line = some heading) :
    Solid heading := by
  rw [heading?] at h
  cases hdrop : line.drop ((line.takeWhile isSpace).length +
      ((line.drop (line.takeWhile isSpace).length).takeWhile (· == 0x23)).length) with
  | nil =>
      simp only [hdrop] at h
      cases h
  | cons c rest =>
      simp only [hdrop] at h
      split_ifs at h
      · rw [← Option.some.inj h]
        exact solid_strip rest

theorem solid_of_mem_outlineFrom {heading : Text} {lines rest : List Text}
    (hheading : Solid heading) : ∀ s ∈ outlineFrom heading lines rest, Solid s.heading := by
  induction rest generalizing heading lines with
  | nil =>
      rw [outlineFrom]
      simpa using hheading
  | cons line rest ih =>
      rw [outlineFrom]
      cases hnext : heading? line with
      | some next =>
          simp only [List.forall_mem_cons]
          exact ⟨hheading, ih (solid_heading? hnext)⟩
      | none => exact ih hheading

theorem solid_heading {source : CuratedSource} {s : Outlined} (h : s ∈ outline source) :
    Solid s.heading := by
  refine solid_of_mem_outlineFrom ?_ s h
  exact ⟨by simp, by simp⟩

theorem solid_name {source : CuratedSource} {s : Outlined} (h : s ∈ outline source) :
    Solid (s.name source) := by
  rw [Outlined.name]
  split_ifs
  · exact solid_strip _
  · exact solid_heading h

/-- The title stands in for a section without words only where it has none either. -/
theorem sectionWords_name {source : CuratedSource} {s : Outlined} (h : s ∈ outline source) :
    sectionWords source (s.name source) = s.words source := by
  rw [sectionWords, Outlined.words]
  split_ifs with hwords
  · rw [hwords]
    rw [unwords_words_eq_nil_iff] at hwords
    have hsolid := solid_name h
    rw [← strip_eq_nil_iff, hsolid.strip_eq] at hwords
    rw [Outlined.name] at hwords
    split_ifs at hwords with hheading
    · exact hwords
    · exact absurd hwords hheading
  · rfl

end Retrieval
