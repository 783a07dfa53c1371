import SynoraErp.Order.SortedByKey
import SynoraErp.Python.Encodes
import SynoraErp.Python.Lines
import SynoraErp.Python.Sha256

/-!
# Chunks

The heading-aware chunks of the local retrieval baseline: a source is split into sections at its
headings, a section into pieces that fit under its prefix, and every piece becomes a chunk with
the metadata of its source.
-/

namespace Retrieval

open Python

/-- `MAX_CHUNK_CHARS`. -/
def maxChunkChars : ℕ := 1200

inductive SourceType
  | erpDocs
  | sourceMap
  | baseline
  | sop
  deriving DecidableEq, Repr

def SourceType.text : SourceType → Text
  | .erpDocs => "erp-docs"
  | .sourceMap => "source-map"
  | .baseline => "baseline"
  | .sop => "sop"

inductive PermissionScope
  | «public»
  | internal
  deriving DecidableEq, Repr

def PermissionScope.text : PermissionScope → Text
  | .public => "public"
  | .internal => "internal"

/-- A curated source; `__post_init__` refuses an empty path or title and a blank content. -/
structure CuratedSource where
  sourceType : SourceType
  path : Text
  revision : Text
  erpVersion : Text
  permissionScope : PermissionScope
  ingestedAt : Text
  title : Text
  content : Text
  path_ne_nil : path ≠ []
  title_ne_nil : title ≠ []
  content_ne_nil : Text.strip content ≠ []

/-- One bounded chunk with all citation and scope metadata attached. -/
structure SourceChunk where
  chunkId : Text
  ordinal : ℕ
  sectionName : Text
  content : Text
  contentDigest : Text
  title : Text
  path : Text
  sourceType : SourceType
  revision : Text
  erpVersion : Text
  permissionScope : PermissionScope
  ingestedAt : Text
  deriving DecidableEq

/-! ## Sections -/

/-- `_HEADING.match(line)`, `^\s{0,3}#{1,6}\s+(.+?)\s*$`, and `group(1).strip()`. -/
def heading? (line : Text) : Option Text :=
  let indent := line.takeWhile Text.isSpace
  let marks := (line.drop indent.length).takeWhile (· == 0x23)
  match line.drop (indent.length + marks.length) with
  | [] => none
  | c :: rest =>
      -- the group takes one character, the last space when nothing else is left
      if indent.length ≤ 3 ∧ 1 ≤ marks.length ∧ marks.length ≤ 6 ∧ Text.isSpace c ∧ rest ≠ [] then
        some (Text.strip rest)
      else none

/-- The section that is left behind, unless it has no body. -/
def sectionBlock (name : Text) (lines : List Text) : List (Text × Text) :=
  let body := Text.strip (Text.joinWithLineFeeds lines)
  if body = [] then [] else [(name, body)]

/-- The loop of `_section_blocks`. -/
def blocksFrom (title name : Text) : List Text → List Text → List (Text × Text)
  | lines, [] => sectionBlock name lines
  | lines, line :: rest =>
      match heading? line with
      | some heading =>
          sectionBlock name lines ++
            blocksFrom title (if heading = [] then Text.strip title else heading) [] rest
      | none => blocksFrom title name (lines ++ [Text.rstrip line]) rest

/-- `_section_blocks`. -/
def sectionBlocks (source : CuratedSource) : List (Text × Text) :=
  blocksFrom source.title (Text.strip source.title) [] (Text.splitlines source.content)

/-! ## Pieces -/

/-- `flush` of `_split_block`. -/
def flush (current : List Text) : List Text :=
  let value := Text.strip (Text.joinWithLineFeeds current)
  if value = [] then [] else [value]

/-- `line[offset : offset + limit] for offset in range(0, len(line), limit)`. -/
def slices (limit : ℕ) (line : Text) : List Text :=
  (List.range ((line.length + limit - 1) / limit)).map fun i =>
    (line.drop (i * limit)).take limit

/-- The loop of `_split_block`. -/
def packLines (limit : ℕ) : List Text → ℕ → List Text → List Text
  | current, _, [] => flush current
  | current, currentLength, rawLine :: rest =>
      let line := Text.rstrip rawLine
      if Text.isBlank line then packLines limit current currentLength rest
      else if limit < line.length then
        flush current ++ (slices limit line ++ packLines limit [] 0 rest)
      else
        let candidateLength :=
          if current = [] then line.length else currentLength + 1 + line.length
        if current ≠ [] ∧ limit < candidateLength then
          flush current ++ packLines limit [line] line.length rest
        else packLines limit (current ++ [line]) candidateLength rest

/-- `_split_block`. -/
def splitBlock (text : Text) (limit : ℕ) : List Text :=
  packLines limit [] 0 (Text.splitlines text)

/-! ## Chunks -/

/-- `" ".join(section.split()) or source.title.strip()`. -/
def sectionWords (source : CuratedSource) (name : Text) : Text :=
  if Text.unwords (Text.words name) = [] then Text.strip source.title
  else Text.unwords (Text.words name)

/-- `prefix[: MAX_CHUNK_CHARS - 1]`. -/
def chunkLead (source : CuratedSource) (name : Text) : Text :=
  (sectionWords source name).take (maxChunkChars - 1)

def bodyLimit (lead : Text) : ℕ := max 1 (maxChunkChars - lead.length - 2)

/-- `f"{prefix}\n\n{piece}".strip()`. -/
def chunkContent (lead piece : Text) : Text :=
  Text.strip (lead ++ Text.lineFeed :: Text.lineFeed :: piece)

/-- The contents of a section's chunks. -/
def blockContents (source : CuratedSource) (block : Text × Text) : List Text :=
  let lead := chunkLead source block.1
  (splitBlock block.2 (bodyLimit lead)).map (chunkContent lead)

section

variable (I : Interpreter) (source : CuratedSource)

/-- The identity a chunk id is the digest of. -/
def chunkIdentity (name : Text) (ordinal : ℕ) (contentDigest : Text) : Dict :=
  [("source_type", .str source.sourceType.text), ("path", .str source.path),
    ("revision", .str source.revision), ("erp_version", .str source.erpVersion),
    ("permission_scope", .str source.permissionScope.text), ("section", .str name),
    ("ordinal", .int ordinal), ("content_digest", .str contentDigest)]

/-- The bytes of the identity; `none` is the `UnicodeEncodeError` of a lone surrogate. -/
def identityBytes (name : Text) (ordinal : ℕ) (content : Text) : Option ByteArray := do
  let bytes ← Text.encodeUtf8 content
  let identity ← Json.dumps I (.dict (chunkIdentity source name ordinal (Sha256.hexdigest bytes)))
  Text.encodeUtf8 identity

/-- The chunk of a content; `_chunk_id` digests the content and its identity. -/
def sourceChunk (name : Text) (ordinal : ℕ) (content : Text) : Option SourceChunk := do
  let bytes ← Text.encodeUtf8 content
  let identity ← identityBytes I source name ordinal content
  some {
    chunkId := Sha256.hexdigest identity
    ordinal := ordinal
    sectionName := name
    content := content
    contentDigest := Sha256.hexdigest bytes
    title := source.title
    path := source.path
    sourceType := source.sourceType
    revision := source.revision
    erpVersion := source.erpVersion
    permissionScope := source.permissionScope
    ingestedAt := source.ingestedAt }

/-- The chunks of a section, numbered from `ordinal` on. -/
def chunkContents (name : Text) : ℕ → List Text → Option (List SourceChunk)
  | _, [] => some []
  | ordinal, content :: rest => do
      let chunk ← sourceChunk I source name ordinal content
      let chunks ← chunkContents name (ordinal + 1) rest
      some (chunk :: chunks)

/-- The loop of `chunk_source`. -/
def chunkBlocks : ℕ → List (Text × Text) → Option (List SourceChunk)
  | _, [] => some []
  | ordinal, block :: rest => do
      let contents := blockContents source block
      let chunks ← chunkContents I source block.1 ordinal contents
      let more ← chunkBlocks (ordinal + contents.length) rest
      some (chunks ++ more)

/-- `chunk_source`. -/
def chunkSource : Option (List SourceChunk) :=
  chunkBlocks I source 1 (sectionBlocks source)

end

/-! ## The chunks of several sources -/

/-- `_source_sort_key`. -/
def sourceSortKey (source : CuratedSource) : Option (List Text) := do
  let bytes ← Text.encodeUtf8 source.content
  some [source.path, source.revision, source.sourceType.text, source.erpVersion,
    source.permissionScope.text, source.title, source.ingestedAt, Sha256.hexdigest bytes]

/-- The chunks whose id has not been seen. -/
def unseen (seen : List Text) : List SourceChunk → List SourceChunk
  | [] => []
  | chunk :: rest =>
      if chunk.chunkId ∈ seen then unseen seen rest
      else chunk :: unseen (chunk.chunkId :: seen) rest

/-- `chunk_sources`. -/
def chunkSources (I : Interpreter) (sources : List CuratedSource) : Option (List SourceChunk) := do
  let keyed ← sources.mapM fun source => (sourceSortKey source).map fun key => (key, source)
  let chunks ← (SortedByKey.sortBy Prod.fst keyed).mapM fun entry => chunkSource I entry.2
  some (unseen [] chunks.flatten)

end Retrieval
