import Mathlib.Data.Prod.Lex
import SynoraErp.Agent.Secrets
import SynoraErp.Order.TopUp
import SynoraErp.Python.Masked
import SynoraErp.Retrieval.Chunks

/-!
# The retrieval index

The chunks of the curated sources in a SQLite table, a full-text index over it, and the search:
the phrases the full-text index matches, and for a query with a CJK character the chunks that hold
it literally, since the index has no words inside a run of such characters.
-/

namespace Retrieval

open Python
open Agent (WordClass)

/-! ## The table -/

/-- What a statement raises: a `sqlite3.DatabaseError`, or the `UnicodeEncodeError` of a parameter
with a lone surrogate. -/
inductive StatementError
  | databaseError
  | unicodeEncodeError
  deriving DecidableEq, Repr

/-- A row of `chunks`. -/
structure ChunkRow where
  id : ℕ
  chunk : SourceChunk
  deriving DecidableEq

def ChunkRow.chunkId (row : ChunkRow) : Text := row.chunk.chunkId

/-- The table `chunks`: `id` is its primary key and `chunk_id` is unique. -/
structure ChunkTable where
  rows : List ChunkRow
  ids : (rows.map ChunkRow.id).Nodup
  chunkIds : (rows.map ChunkRow.chunkId).Nodup

namespace ChunkTable

def empty : ChunkTable := ⟨[], List.nodup_nil, List.nodup_nil⟩

/-- The id of the next row is one more than the largest. -/
def nextId (table : ChunkTable) : ℕ := (table.rows.map ChunkRow.id).foldr max 0 + 1

theorem id_lt_nextId (table : ChunkTable) : ∀ id ∈ table.rows.map ChunkRow.id, id < table.nextId := by
  have hmax : ∀ l : List ℕ, ∀ n ∈ l, n ≤ l.foldr max 0 := by
    intro l
    induction l with
    | nil => simp
    | cons m l ih =>
        rw [List.foldr_cons, List.forall_mem_cons]
        exact ⟨le_max_left _ _, fun n hn => (ih n hn).trans (le_max_right _ _)⟩
  exact fun id hid => Nat.lt_succ_of_le (hmax _ id hid)

/-- The columns of a chunk that are bound as texts. -/
def textColumns (chunk : SourceChunk) : List Text :=
  [chunk.chunkId, chunk.title, chunk.sectionName, chunk.path, chunk.sourceType.text,
    chunk.revision, chunk.erpVersion, chunk.permissionScope.text, chunk.ingestedAt,
    chunk.contentDigest, chunk.content]

/-- `INSERT INTO chunks`. -/
def insert (table : ChunkTable) (chunk : SourceChunk) : Except StatementError ChunkTable :=
  if ∃ t ∈ textColumns chunk, Text.encodeUtf8 t = none then .error .unicodeEncodeError
  else if h : chunk.chunkId ∈ table.rows.map ChunkRow.chunkId then .error .databaseError
  else
    .ok {
      rows := table.rows ++ [⟨table.nextId, chunk⟩]
      ids := by
        rw [List.map_append, List.map_singleton, List.nodup_append]
        refine ⟨table.ids, List.nodup_singleton _, ?_⟩
        intro id hid next hnext
        rw [List.mem_singleton] at hnext
        exact hnext ▸ (table.id_lt_nextId id hid).ne
      chunkIds := by
        rw [List.map_append, List.map_singleton, List.nodup_append]
        refine ⟨table.chunkIds, List.nodup_singleton _, ?_⟩
        intro id hid next hnext
        rw [List.mem_singleton] at hnext
        exact hnext ▸ ne_of_mem_of_not_mem hid h }

/-- `executemany` of the insertion; the rows ahead of the one that raises stay. -/
def insertMany (table : ChunkTable) : List SourceChunk → ChunkTable × Option StatementError
  | [] => (table, none)
  | chunk :: rest =>
      match table.insert chunk with
      | .error e => (table, some e)
      | .ok table => insertMany table rest

/-- The row of an id. -/
def row? (table : ChunkTable) (id : ℕ) : Option ChunkRow := table.rows.find? fun row => row.id = id

end ChunkTable

/-- The database of an index: the table, and the rows `chunks_fts` was last rebuilt from. -/
structure Database where
  chunks : ChunkTable
  indexed : List ChunkRow

/-- The index; its connection is `none` once it is closed. -/
structure RetrievalIndex where
  connection : Option Database

/-- A row of the full-text index that matches, its `bm25` and its `snippet`. -/
structure FtsMatch where
  rowid : ℕ
  score : ℚ
  snippet : Option Text

/-- The full-text index: the rows `chunks_fts MATCH ?` finds, each of them once. `none` is a
`DatabaseError`. -/
structure FullText where
  matching : Database → Text → Option (List FtsMatch)
  nodup : ∀ db phrase found, matching db phrase = some found →
    (found.map FtsMatch.rowid).Nodup

/-- A full-text index that has no word of the query. -/
def FullText.unmatched : FullText where
  matching _ _ := some []
  nodup := by
    intro db phrase found h
    cases h
    exact List.nodup_nil

namespace RetrievalIndex

/-- The index on an empty database. -/
def opened : RetrievalIndex := ⟨some ⟨.empty, []⟩⟩

/-- The rows of the table. -/
def rows (index : RetrievalIndex) : List ChunkRow :=
  match index.connection with
  | none => []
  | some db => db.chunks.rows

/-- `ingest`. The chunks are made before the old ones are deleted; a row that raises leaves those
ahead of it in the table, and the full-text index as it was. -/
def ingest (I : Interpreter) (index : RetrievalIndex) (sources : List CuratedSource) :
    RetrievalIndex × Except StatementError ℕ :=
  match chunkSources I sources, index.connection with
  | none, _ => (index, .error .unicodeEncodeError)
  | some _, none => (index, .error .databaseError)
  | some chunks, some db =>
      match ChunkTable.empty.insertMany chunks with
      | (table, some e) => (⟨some { db with chunks := table }⟩, .error e)
      | (table, none) => (⟨some ⟨table, table.rows⟩⟩, .ok chunks.length)

/-- `rebuild`. -/
def rebuild (I : Interpreter) (index : RetrievalIndex) (sources : List CuratedSource) :
    RetrievalIndex × Except StatementError ℕ :=
  match index.connection with
  | none => (index, .error .databaseError)
  | some _ => opened.ingest I sources

/-- `close`. -/
def close (_ : RetrievalIndex) : RetrievalIndex := ⟨none⟩

end RetrievalIndex

/-! ## The call -/

/-- The arguments of `search`. -/
structure SearchCall where
  query : Value
  limit : Value := .int 5
  permissionScope : Value := .ofString "internal"
  sourceType : Value := .none
  revision : Value := .none
  erpVersion : Value := .none

/-- `_MAX_QUERY_LENGTH`. -/
def maxQueryLength : ℕ := 500

/-- `PERMISSION_SCOPES`. -/
def permissionScopes : List Text := ["public", "internal"]

/-- A character of `\u4e00-\u9fff`. -/
def isCjk (c : CodePoint) : Bool := 0x4E00 ≤ c.val && c.val ≤ 0x9FFF

/-- `_contains_cjk`. -/
def containsCjk (text : Text) : Bool := text.any isCjk

/-- `max(1, min(limit, 20))`. -/
def safeLimit (limit : ℤ) : ℕ := (max 1 (min limit 20)).toNat

section

variable (W : WordClass)

/-- The class of `_FTS5_PUNCTUATION`, `[^\w\u4e00-\u9fff]`. -/
def isPunctuation (c : CodePoint) : Bool := !(W.isWord c || isCjk c)

/-- What `_FTS5_PUNCTUATION` takes at the head of a text: a run of its class. -/
def punctuationRun (text : Text) : Option Text :=
  match text.takeWhile (isPunctuation W) with
  | [] => none
  | run => some run

/-- `_normalize_query`. -/
def normalizeQuery (query : Text) : Text :=
  Text.strip (substitute " " (fun _ text => punctuationRun W text) none 0 query)

/-- `f'"{normalized}"'`. -/
def ftsPhrase (query : Text) : Text :=
  Text.ofString "\"" ++ normalizeQuery W query ++ Text.ofString "\""

end

/-- The columns of a metadata filter. -/
inductive Column
  | permissionScope
  | sourceType
  | revision
  | erpVersion
  deriving DecidableEq, Repr

/-- The value of a column. -/
def Column.value (chunk : SourceChunk) : Column → Text
  | permissionScope => chunk.permissionScope.text
  | sourceType => chunk.sourceType.text
  | revision => chunk.revision
  | erpVersion => chunk.erpVersion

/-- `c.{column} = ?` with the values of the parameters. -/
abbrev Clauses := List (Column × Text)

/-- `" AND ".join(clauses)`. -/
def Clauses.accept (clauses : Clauses) (chunk : SourceChunk) : Bool :=
  clauses.all fun clause => clause.1.value chunk = clause.2

/-- The clause of a filter that may be left out; a value that is no text, or an empty one, is
refused. -/
def filterClause (column : Column) : Value → Option Clauses
  | .none => some []
  | .str [] => none
  | .str value => some [(column, value)]
  | _ => none

/-- `_metadata_filter`. -/
def metadataFilter (call : SearchCall) : Option Clauses :=
  match call.permissionScope with
  | .str scope =>
      if scope ∈ permissionScopes then do
        let sourceType ← filterClause .sourceType call.sourceType
        let revision ← filterClause .revision call.revision
        let erpVersion ← filterClause .erpVersion call.erpVersion
        some ((.permissionScope, scope) :: (sourceType ++ revision ++ erpVersion))
      else none
  | _ => none

/-! ## The hits -/

structure SearchHit where
  title : Text
  path : Text
  sourceType : Text
  revision : Text
  erpVersion : Text
  permissionScope : Text
  ingestedAt : Text
  score : Float64
  snippet : Text
  chunkId : Text
  ordinal : ℕ
  sectionName : Text
  contentDigest : Text
  content : Text
  deriving DecidableEq

/-- `_hit_from_row`. -/
def hitFromRow (row : ChunkRow) (score : ℚ) (snippet : Text) : SearchHit where
  title := row.chunk.title
  path := row.chunk.path
  sourceType := row.chunk.sourceType.text
  revision := row.chunk.revision
  erpVersion := row.chunk.erpVersion
  permissionScope := row.chunk.permissionScope.text
  ingestedAt := row.chunk.ingestedAt
  score := .finite score
  snippet := snippet
  chunkId := row.chunk.chunkId
  ordinal := row.chunk.ordinal
  sectionName := row.chunk.sectionName
  contentDigest := row.chunk.contentDigest
  content := row.chunk.content

/-- `content.find(query)`; `none` is `-1`. -/
def find (content query : Text) : Option ℕ :=
  (content.dropInfix? query).map fun parts => parts.1.length

/-- `instr(content, query)`. -/
def instr (content query : Text) : ℕ :=
  match find content query with
  | none => 0
  | some index => index + 1

/-- `_substring_snippet`. -/
def substringSnippet (content query : Text) (radius : ℕ) : Text :=
  match find content query with
  | none => content.take (radius * 2)
  | some index =>
      let start := index - radius
      let stop := min content.length (index + query.length + radius)
      let before : Text := if 0 < start then "…" else ""
      let behind : Text := if stop < content.length then "…" else ""
      before ++ (content.take stop).drop start ++ behind

/-! ## The search -/

namespace RetrievalIndex

/-- A statement with its text parameters: the database it reads. -/
def execute (index : RetrievalIndex) (parameters : List Text) : Except StatementError Database :=
  match index.connection with
  | none => .error .databaseError
  | some db =>
      if ∃ t ∈ parameters, Text.encodeUtf8 t = none then .error .unicodeEncodeError else .ok db

/-- `JOIN chunks c ON c.id = chunks_fts.rowid`. -/
def joinChunks (table : ChunkTable) (found : List FtsMatch) : List (FtsMatch × ChunkRow) :=
  found.filterMap fun m => (table.row? m.rowid).map fun row => (m, row)

/-- `ORDER BY bm25(chunks_fts), c.chunk_id`. -/
def rankKey (entry : FtsMatch × ChunkRow) : ℚ ×ₗ Text :=
  toLex (entry.1.score, entry.2.chunk.chunkId)

/-- The full-text statement. -/
def selectMatches (F : FullText) (index : RetrievalIndex) (phrase : Text) (clauses : Clauses)
    (cap : ℕ) : Except StatementError (List (FtsMatch × ChunkRow)) := do
  let db ← index.execute (phrase :: clauses.map Prod.snd)
  match F.matching db phrase with
  | none => .error .databaseError
  | some found =>
      let entries := (joinChunks db.chunks found).filter fun entry => clauses.accept entry.2.chunk
      .ok ((SortedByKey.sortBy rankKey entries).take cap)

/-- `ORDER BY c.path, c.ordinal, c.chunk_id`. -/
def placeKey (row : ChunkRow) : Text ×ₗ ℕ ×ₗ Text :=
  toLex (row.chunk.path, toLex (row.chunk.ordinal, row.chunk.chunkId))

/-- The statement for the chunks that hold the query. -/
def selectSubstring (index : RetrievalIndex) (query : Text) (clauses : Clauses) (cap : ℕ) :
    Except StatementError (List ChunkRow) := do
  let db ← index.execute (query :: clauses.map Prod.snd)
  let found := db.chunks.rows.filter fun row =>
    0 < instr row.chunk.content query && clauses.accept row.chunk
  .ok ((SortedByKey.sortBy placeKey found).take cap)

/-- The hit of a row of the full-text statement. -/
def matchHit (entry : FtsMatch × ChunkRow) : SearchHit :=
  hitFromRow entry.2 entry.1.score (entry.1.snippet.getD [])

/-- The hit of a row that holds the query. -/
def substringHit (query : Text) (row : ChunkRow) : SearchHit :=
  hitFromRow row 0 (substringSnippet row.chunk.content query 40)

/-- `_append_substring_hits`. -/
def appendSubstringHits (index : RetrievalIndex) (call : SearchCall) (query : Text) (limit : ℕ)
    (hits : List SearchHit) : Except StatementError (List SearchHit) :=
  match metadataFilter call with
  | none => .ok hits
  | some clauses =>
      match index.selectSubstring query clauses (limit * 4) with
      | .error .databaseError => .ok hits
      | .error e => .error e
      | .ok rows =>
          .ok (TopUp.fill ChunkRow.chunkId (substringHit query) limit hits
            (hits.map SearchHit.chunkId) rows)

/-- The hits of the full-text statement; a `DatabaseError` is no hit. -/
def matchHits (W : WordClass) (F : FullText) (index : RetrievalIndex) (query : Text)
    (clauses : Clauses) (cap : ℕ) : Except StatementError (List SearchHit) :=
  match index.selectMatches F (ftsPhrase W query) clauses cap with
  | .error .databaseError => .ok []
  | .error e => .error e
  | .ok entries => .ok (entries.map matchHit)

/-- `search`. -/
def search (W : WordClass) (F : FullText) (index : RetrievalIndex) (call : SearchCall) :
    Except StatementError (List SearchHit) :=
  match call.query with
  | .str query =>
      if maxQueryLength < query.length ∨ normalizeQuery W query = [] then .ok []
      else
        match metadataFilter call, call.limit with
        | some clauses, .int limit => do
            let hits ← index.matchHits W F query clauses (safeLimit limit * 4)
            let hits ←
              (if containsCjk query then
                index.appendSubstringHits call query (safeLimit limit) hits
              else .ok hits)
            .ok (hits.take (safeLimit limit))
        | _, _ => .ok []
  | _ => .ok []

end RetrievalIndex

end Retrieval
