import SynoraErp.Retrieval.Index
import SynoraErp.Retrieval.Sources
import SynoraErp.Transition.Path

/-!
# What is indexed

An ingestion puts the chunks of its sources into the table, each once: chunks with one id are
left out before, so that no insertion breaks the unique key. What stops it is a text without a
UTF-8 form. In every run of an index its rows are chunks of sources that were ingested.
-/

namespace Retrieval

open Python Text Transition

/-! ## The chunks that are inserted -/

theorem unseen_eq_fresh (seen : List Text) (chunks : List SourceChunk) :
    unseen seen chunks = TopUp.fresh SourceChunk.chunkId seen chunks := by
  induction chunks generalizing seen with
  | nil => rfl
  | cons chunk chunks ih =>
      by_cases hseen : chunk.chunkId ∈ seen
      · rw [unseen, if_pos hseen, TopUp.fresh_cons_of_mem _ hseen, ih]
      · rw [unseen, if_neg hseen, TopUp.fresh_cons_of_not_mem _ hseen, ih]

/-- The chunks of several sources have different ids. -/
theorem nodup_chunkIds_chunkSources {I : Interpreter} {sources : List CuratedSource}
    {chunks : List SourceChunk} (h : chunkSources I sources = some chunks) :
    (chunks.map SourceChunk.chunkId).Nodup := by
  obtain ⟨keyed, -, h⟩ := Option.bind_eq_some_iff.mp h
  obtain ⟨groups, -, h⟩ := Option.bind_eq_some_iff.mp h
  rw [← Option.some.inj h, unseen_eq_fresh]
  exact TopUp.nodup_keys_fresh SourceChunk.chunkId [] _

/-- All columns of a chunk have a UTF-8 form. -/
def isBindable (chunk : SourceChunk) : Bool :=
  (ChunkTable.textColumns chunk).all fun text => (encodeUtf8 text).isSome

theorem isBindable_iff {chunk : SourceChunk} :
    isBindable chunk = true ↔ ∀ text ∈ ChunkTable.textColumns chunk, Encodes text := by
  simp only [isBindable, List.all_eq_true, encodes_iff, Option.isSome_iff_ne_none]

/-- The identity of a chunk holds its texts but for the title and the time of the ingestion, so
these are what can fail to be bound. -/
theorem isBindable_of_sourceChunk {I : Interpreter} {source : CuratedSource} {name content : Text}
    {ordinal : ℕ} {chunk : SourceChunk}
    (h : sourceChunk I source name ordinal content = some chunk) :
    isBindable chunk = true ↔ Encodes source.title ∧ Encodes source.ingestedAt := by
  obtain ⟨bytes, -, h⟩ := Option.bind_eq_some_iff.mp h
  obtain ⟨identity, hidentity, h⟩ := Option.bind_eq_some_iff.mp h
  obtain rfl := Option.some.inj h
  have hbytes : identityBytes I source name ordinal content ≠ none := by
    rw [hidentity]
    exact Option.some_ne_none identity
  obtain ⟨hcontent, hpath, hrevision, hversion, hname⟩ := identityBytes_ne_none_iff.mp hbytes
  rw [isBindable_iff]
  simp only [ChunkTable.textColumns, List.forall_mem_cons, List.not_mem_nil, false_imp_iff,
    implies_true, and_true, encodes_hexdigest, SourceType.encodes_text,
    PermissionScope.encodes_text, hcontent, hpath, hrevision, hversion, hname, true_and]

namespace ChunkTable

variable {table : ChunkTable} {chunk : SourceChunk}

theorem insert_of_not_bindable (h : isBindable chunk = false) :
    table.insert chunk = .error .unicodeEncodeError := by
  have hfails : ∃ t ∈ textColumns chunk, encodeUtf8 t = none := by
    obtain ⟨text, htext, hnone⟩ := List.all_eq_false.mp h
    exact ⟨text, htext, by simpa using hnone⟩
  exact if_pos hfails

theorem exists_insert (h : isBindable chunk = true)
    (hnew : chunk.chunkId ∉ table.rows.map ChunkRow.chunkId) :
    ∃ after, table.insert chunk = .ok after ∧
      after.rows = table.rows ++ [⟨table.nextId, chunk⟩] := by
  have hencodes : ¬∃ t ∈ textColumns chunk, encodeUtf8 t = none := by
    rintro ⟨text, htext, hnone⟩
    exact encodes_iff.mp (isBindable_iff.mp h text htext) hnone
  rw [insert, if_neg hencodes, dif_neg hnew]
  exact ⟨_, rfl, rfl⟩

/-- Chunks with new ids go into the table in their order, up to the first one with a text that
has no UTF-8 form, and nothing else stops them. -/
theorem insertMany_eq (chunks : List SourceChunk)
    (hnew : (table.rows.map ChunkRow.chunkId ++ chunks.map SourceChunk.chunkId).Nodup) :
    (table.insertMany chunks).1.rows.map ChunkRow.chunk =
        table.rows.map ChunkRow.chunk ++ chunks.takeWhile isBindable ∧
      (table.insertMany chunks).2 =
        if chunks.all isBindable then none else some .unicodeEncodeError := by
  induction chunks generalizing table with
  | nil => exact ⟨by simp [insertMany], rfl⟩
  | cons chunk chunks ih =>
      cases hbindable : isBindable chunk with
      | false =>
          rw [insertMany, insert_of_not_bindable hbindable, List.takeWhile_cons_of_neg (by simp
            [hbindable]), List.all_cons, hbindable, Bool.false_and, List.append_nil]
          exact ⟨rfl, rfl⟩
      | true =>
          have hfirst : chunk.chunkId ∉ table.rows.map ChunkRow.chunkId := by
            intro hmem
            exact (List.nodup_append.mp hnew).2.2 _ hmem _ (by simp) rfl
          obtain ⟨after, hafter, hrows⟩ := exists_insert hbindable hfirst
          have hids : after.rows.map ChunkRow.chunkId ++ chunks.map SourceChunk.chunkId =
              table.rows.map ChunkRow.chunkId ++ (chunk :: chunks).map SourceChunk.chunkId := by
            rw [hrows, List.map_append, List.append_assoc]
            rfl
          obtain ⟨hinserted, herror⟩ := @ih after (hids ▸ hnew)
          rw [insertMany, hafter, List.takeWhile_cons_of_pos hbindable, List.all_cons, hbindable,
            Bool.true_and]
          refine ⟨?_, herror⟩
          rw [hinserted, hrows, List.map_append, List.append_assoc]
          rfl

end ChunkTable

/-! ## Ingestions -/

namespace RetrievalIndex

variable {I : Interpreter} {index : RetrievalIndex} {sources : List CuratedSource}

/-- What an ingestion leaves in the table: nothing has changed when the chunks could not be made
or the connection is closed; else the chunks are there up to the first that cannot be bound, and
the ingestion has succeeded when all of them can. -/
theorem ingest_cases (I : Interpreter) (index : RetrievalIndex) (sources : List CuratedSource) :
    ((chunkSources I sources = none ∨ index.connection = none) ∧
        (index.ingest I sources).1 = index ∧ ∃ e, (index.ingest I sources).2 = .error e) ∨
      ∃ chunks, chunkSources I sources = some chunks ∧
        (index.ingest I sources).1.rows.map ChunkRow.chunk = chunks.takeWhile isBindable ∧
        (index.ingest I sources).2 =
          if chunks.all isBindable then .ok chunks.length else .error .unicodeEncodeError := by
  cases hchunks : chunkSources I sources with
  | none =>
      left
      rw [ingest, hchunks]
      exact ⟨.inl rfl, rfl, _, rfl⟩
  | some chunks =>
      cases hconnection : index.connection with
      | none =>
          left
          rw [ingest, hchunks, hconnection]
          exact ⟨.inr rfl, rfl, _, rfl⟩
      | some db =>
          refine .inr ⟨chunks, rfl, ?_⟩
          have hnew : (ChunkTable.empty.rows.map ChunkRow.chunkId ++
              chunks.map SourceChunk.chunkId).Nodup := nodup_chunkIds_chunkSources hchunks
          obtain ⟨hrows, herror⟩ := ChunkTable.insertMany_eq chunks hnew
          simp only [ingest, hchunks, hconnection]
          cases hinsert : ChunkTable.empty.insertMany chunks with
          | mk table error =>
              rw [hinsert] at hrows herror
              have hempty : ChunkTable.empty.rows.map ChunkRow.chunk = [] := rfl
              rw [hempty, List.nil_append] at hrows
              by_cases hall : chunks.all isBindable = true
              · rw [if_pos hall] at herror ⊢
                subst herror
                exact ⟨hrows, rfl⟩
              · rw [if_neg hall] at herror ⊢
                subst herror
                exact ⟨hrows, rfl⟩

/-- A successful ingestion indexes the chunks of its sources and no others. -/
theorem rows_of_ingest {n : ℕ} (h : (index.ingest I sources).2 = .ok n) :
    ∃ chunks, chunkSources I sources = some chunks ∧ n = chunks.length ∧
      (index.ingest I sources).1.rows.map ChunkRow.chunk = chunks := by
  rcases ingest_cases I index sources with ⟨-, -, e, herror⟩ | ⟨chunks, hchunks, hrows, hresult⟩
  · rw [herror] at h
    cases h
  · rw [hresult] at h
    split_ifs at h with hall
    refine ⟨chunks, hchunks, (Except.ok.inj h).symm, ?_⟩
    rw [hrows, List.takeWhile_eq_self_iff]
    exact List.all_eq_true.mp hall

theorem chunkSources_singleton {source : CuratedSource} (hcontent : Encodes source.content)
    {chunks : List SourceChunk} (hchunks : chunkSource I source = some chunks)
    (hnodup : (chunks.map SourceChunk.chunkId).Nodup) : chunkSources I [source] = some chunks := by
  obtain ⟨bytes, hbytes⟩ := Option.ne_none_iff_exists'.mp (encodes_iff.mp hcontent)
  have hfresh : unseen [] chunks = chunks := by
    rw [unseen_eq_fresh]
    exact TopUp.fresh_eq_self SourceChunk.chunkId hnodup (by simp)
  simp [chunkSources, sourceSortKey, hbytes, SortedByKey.sortBy, hchunks, hfresh]

/-- A source whose chunks have different ids is indexed as these. -/
theorem ingest_singleton {source : CuratedSource} {chunks : List SourceChunk}
    (hchunks : chunkSource I source = some chunks) (hnodup : (chunks.map SourceChunk.chunkId).Nodup)
    (hcontent : Encodes source.content) (htitle : Encodes source.title)
    (hingested : Encodes source.ingestedAt) :
    ∃ table : ChunkTable, table.rows.map ChunkRow.chunk = chunks ∧
      opened.ingest I [source] = (⟨some ⟨table, table.rows⟩⟩, .ok chunks.length) := by
  have hsources := chunkSources_singleton hcontent hchunks hnodup
  have hall : chunks.all isBindable = true := by
    rw [List.all_eq_true]
    intro chunk hchunk
    have hmade := sourceChunk_of_made (chunkSource_eq_some.mp hchunks) chunk hchunk
    exact (isBindable_of_sourceChunk hmade).mpr ⟨htitle, hingested⟩
  obtain ⟨hrows, herror⟩ := @ChunkTable.insertMany_eq .empty chunks (by simpa [ChunkTable.empty])
  rw [if_pos hall] at herror
  rw [List.takeWhile_eq_self_iff.mpr (List.all_eq_true.mp hall)] at hrows
  refine ⟨(ChunkTable.empty.insertMany chunks).1, hrows, ?_⟩
  simp only [ingest, hsources, opened]
  cases hinsert : ChunkTable.empty.insertMany chunks with
  | mk table error =>
      rw [hinsert] at herror
      subst herror
      rfl

/-- A source with one content is indexed as one row. -/
theorem exists_row_of_ingest {source : CuratedSource} {name content : Text}
    (hcontents : ((outline source).flatMap fun s => s.contents source) = [(name, content)])
    (hidentity : identityBytes I source name 1 content ≠ none) (hcontent : Encodes source.content)
    (htitle : Encodes source.title) (hingested : Encodes source.ingestedAt) :
    ∃ row, (opened.ingest I [source]).1.rows = [row] ∧ row.chunk.content = content ∧
      row.chunk.sourceType = source.sourceType ∧ row.chunk.revision = source.revision ∧
      row.chunk.erpVersion = source.erpVersion ∧
      row.chunk.permissionScope = source.permissionScope := by
  obtain ⟨bytes, hbytes⟩ := Option.ne_none_iff_exists'.mp
    (encodes_iff.mp (identityBytes_ne_none_iff.mp hidentity).1)
  obtain ⟨identity, hmade⟩ := Option.ne_none_iff_exists'.mp hidentity
  have hexists : ∃ chunk, sourceChunk I source name 1 content = some chunk ∧
      chunk.content = content ∧ chunk.sourceType = source.sourceType ∧
      chunk.revision = source.revision ∧ chunk.erpVersion = source.erpVersion ∧
      chunk.permissionScope = source.permissionScope := by
    simp [sourceChunk, hbytes, hmade]
  obtain ⟨chunk, hchunk, hmetadata⟩ := hexists
  have hsource : chunkSource I source = some [chunk] := by
    rw [chunkSource_eq_some, hcontents]
    exact .cons hchunk .nil
  obtain ⟨table, hrows, hingest⟩ := ingest_singleton hsource (List.nodup_singleton _) hcontent
    htitle hingested
  obtain ⟨row, hrow, hchunkOf⟩ := List.map_eq_singleton_iff.mp hrows
  refine ⟨row, ?_, by rw [hchunkOf]; exact hmetadata⟩
  rw [hingest]
  exact hrow

/-! ## Runs -/

/-- What is done with an index. -/
inductive Operation
  | ingest (sources : List CuratedSource)
  | rebuild (sources : List CuratedSource)
  | close

/-- The sources an operation is given. -/
def Operation.given : Operation → Option (List CuratedSource)
  | .ingest sources => some sources
  | .rebuild sources => some sources
  | .close => none

/-- The index after an operation, whether it raises or not. -/
def perform (I : Interpreter) (index : RetrievalIndex) : Operation → RetrievalIndex
  | .ingest sources => (index.ingest I sources).1
  | .rebuild sources => (index.rebuild I sources).1
  | .close => index.close

def Performs (I : Interpreter) (index : RetrievalIndex) (operation : Operation)
    (after : RetrievalIndex) : Prop := index.perform I operation = after

theorem performs_ingest (index : RetrievalIndex) (sources : List CuratedSource) :
    Performs I index (.ingest sources) (index.ingest I sources).1 := rfl

/-- An operation keeps a row or indexes a chunk of its sources. -/
theorem mem_rows_perform {operation : Operation} {row : ChunkRow}
    (h : row ∈ (index.perform I operation).rows) :
    row ∈ index.rows ∨ ∃ sources chunks, operation.given = some sources ∧
      chunkSources I sources = some chunks ∧ row.chunk ∈ chunks := by
  have hingest : ∀ (index : RetrievalIndex) sources, row ∈ (index.ingest I sources).1.rows →
      row ∈ index.rows ∨ ∃ chunks, chunkSources I sources = some chunks ∧ row.chunk ∈ chunks := by
    intro index sources hrow
    rcases ingest_cases I index sources with ⟨-, hsame, -⟩ | ⟨chunks, hchunks, hrows, -⟩
    · exact .inl (hsame ▸ hrow)
    · refine .inr ⟨chunks, hchunks, (List.takeWhile_prefix isBindable).subset ?_⟩
      rw [← hrows]
      exact List.mem_map_of_mem hrow
  cases operation with
  | ingest sources =>
      refine (hingest index sources h).imp_right ?_
      rintro ⟨chunks, hchunks, hmem⟩
      exact ⟨sources, chunks, rfl, hchunks, hmem⟩
  | rebuild sources =>
      rw [perform, rebuild] at h
      cases hconnection : index.connection with
      | none =>
          rw [hconnection] at h
          exact .inl h
      | some db =>
          rw [hconnection] at h
          cases hingest opened sources h with
          | inl hopened => cases hopened
          | inr hchunks =>
              obtain ⟨chunks, hchunks, hmem⟩ := hchunks
              exact .inr ⟨sources, chunks, rfl, hchunks, hmem⟩
  | close => cases h

/-- In every run a row of the index is a chunk of sources that were given to it. -/
theorem chunk_of_path {trace : List (Step RetrievalIndex Operation)}
    (h : Path (Performs I) opened trace index) :
    ∀ row ∈ index.rows, ∃ step ∈ trace, ∃ sources chunks, step.event.given = some sources ∧
      chunkSources I sources = some chunks ∧ row.chunk ∈ chunks := by
  refine Path.snoc_induction (P := fun trace index => ∀ row ∈ index.rows, ∃ step ∈ trace,
    ∃ sources chunks, step.event.given = some sources ∧ chunkSources I sources = some chunks ∧
      row.chunk ∈ chunks) (fun row hrow => by cases hrow) ?_ h
  intro trace before operation after _ ih hstep row hrow
  have hperform : before.perform I operation = after := hstep
  rw [← hperform] at hrow
  cases mem_rows_perform hrow with
  | inl hkept =>
      obtain ⟨step, hstep, hfrom⟩ := ih row hkept
      exact ⟨step, List.mem_append_left _ hstep, hfrom⟩
  | inr hindexed =>
      exact ⟨⟨before, operation, after⟩, List.mem_append_right _ List.mem_cons_self, hindexed⟩

end RetrievalIndex

end Retrieval
