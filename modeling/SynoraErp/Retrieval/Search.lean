import SynoraErp.Python.Except
import SynoraErp.Retrieval.Ingest

/-!
# What a search finds

The hits of a search are different chunks of the scope and the filters it is asked for, and a
query with a CJK character that is answered with fewer hits than the limit has every chunk there
that holds it literally. A query that is too long, and a filter that is the empty text, are
answered with no hit.
-/

namespace Retrieval

open Python Text
open Agent (WordClass)

/-! ## Texts inside texts -/

section

variable {content query : Text}

theorem find_eq_some {index : ℕ} (h : find content query = some index) :
    ∃ before behind, content = before ++ query ++ behind ∧ before.length = index := by
  obtain ⟨parts, hparts, hlength⟩ := Option.map_eq_some_iff.mp h
  obtain ⟨⟨found, hcontent, hfound⟩, -⟩ := List.dropInfix?_eq_some_iff.mp hparts
  rw [eq_of_beq hfound] at hcontent
  exact ⟨parts.1, parts.2, hcontent, hlength⟩

theorem find_ne_none_iff : find content query ≠ none ↔ query <:+: content := by
  constructor
  · intro h
    obtain ⟨index, hindex⟩ := Option.ne_none_iff_exists'.mp h
    obtain ⟨before, behind, hcontent, -⟩ := find_eq_some hindex
    exact ⟨before, behind, hcontent.symm⟩
  · rintro ⟨before, behind, hcontent⟩
    -- of all the places the query is at, the first one is found
    have hexists : ∃ n, ∃ before behind, before ++ query ++ behind = content ∧ before.length = n :=
      ⟨_, before, behind, hcontent, rfl⟩
    classical
    obtain ⟨first, last, hfirst, hlength⟩ := Nat.find_spec hexists
    have hfound : content.dropInfix? query = some (first, last) := by
      refine List.dropInfix?_eq_some_iff.mpr ⟨⟨query, hfirst.symm, by simp⟩, ?_⟩
      intro other found rest hother hquery
      rw [eq_of_beq hquery] at hother
      rw [hlength]
      exact Nat.find_min' hexists ⟨other, rest, hother.symm, rfl⟩
    simp [find, hfound]

theorem instr_pos_iff : 0 < instr content query ↔ query <:+: content := by
  rw [← find_ne_none_iff, instr]
  cases find content query with
  | none => simp
  | some index => simp

end

/-! ## The phrase -/

/-- No surrogate is a word character. -/
def WordsEncode (W : WordClass) : Prop := ∀ c, W.isWord c = true → toChar? c ≠ none

theorem wordsEncode_ascii : WordsEncode WordClass.ascii := by
  intro c hc
  have hsmall : c.val < 0x80 := by
    simp only [WordClass.ascii, Governance.isAlphanumeric, Bool.or_eq_true, Bool.and_eq_true,
      decide_eq_true_eq, beq_iff_eq] at hc
    rcases hc with hc | rfl
    · omega
    · decide
  exact encodes_of_ascii (t := [c]) (by simpa using hsmall) c List.mem_cons_self

theorem isSpace_of_isCjk {c : CodePoint} (h : isCjk c = true) : isSpace c = false := by
  simp only [isCjk, Bool.and_eq_true, decide_eq_true_eq] at h
  have hne : ∀ n ∈ [0x85, 0xA0, 0x1680, 0x2028, 0x2029, 0x202F, 0x205F, 0x3000], c.val ≠ n := by
    intro n hn heq
    simp only [List.mem_cons, List.not_mem_nil, or_false] at hn
    omega
  simp [isSpace] at hne ⊢
  omega

theorem encodes_of_isCjk {c : CodePoint} (h : isCjk c = true) : toChar? c ≠ none := by
  simp only [isCjk, Bool.and_eq_true, decide_eq_true_eq] at h
  have hvalid : c.val.isValidChar := by
    left
    omega
  rw [toChar?, dif_pos hvalid]
  exact Option.some_ne_none _

section

variable {W : WordClass} {query : Text}

theorem punctuationRun_eq_some {text run : Text} (h : punctuationRun W text = some run) :
    run ≠ [] ∧ run <+: text ∧ ∀ c ∈ run, isPunctuation W c = true := by
  rw [punctuationRun] at h
  cases hrun : text.takeWhile (isPunctuation W) with
  | nil =>
      rw [hrun] at h
      cases h
  | cons c rest =>
      rw [hrun] at h
      obtain rfl := Option.some.inj h
      refine ⟨List.cons_ne_nil c rest, hrun ▸ List.takeWhile_prefix _, ?_⟩
      rw [← hrun]
      exact fun d hd => List.mem_takeWhile_imp hd

theorem isPunctuation_of_punctuationRun {c : CodePoint} {rest : Text}
    (h : punctuationRun W (c :: rest) = none) : isPunctuation W c = false := by
  by_contra hc
  rw [Bool.not_eq_false] at hc
  rw [punctuationRun, List.takeWhile_cons_of_pos hc] at h
  cases h

/-- A CJK character of the query is in what the index is asked for. -/
theorem normalizeQuery_ne_nil (h : containsCjk query = true) : normalizeQuery W query ≠ [] := by
  obtain ⟨c, hc, hcjk⟩ := List.any_eq_true.mp h
  have hkept : isPunctuation W c = false := by simp [isPunctuation, hcjk]
  have hmem := mem_substitute " " (fun _ text => punctuationRun W text) (by
    intro left text run hrun
    obtain ⟨hne, hprefix, hall⟩ := punctuationRun_eq_some hrun
    refine ⟨hne, hprefix, fun hmem => ?_⟩
    rw [hall c hmem] at hkept
    cases hkept) none hc
  exact List.ne_nil_of_mem (mem_strip hmem (isSpace_of_isCjk hcjk))

theorem encodes_ftsPhrase (hW : WordsEncode W) (query : Text) : Encodes (ftsPhrase W query) := by
  have hnormalized : Encodes (normalizeQuery W query) := by
    intro c hc
    cases mem_of_mem_substitute " " _ none (mem_of_mem_strip hc) with
    | inl hspace => exact encodes_ofString " " c hspace
    | inr hkept =>
        obtain ⟨-, left, rest, hnone⟩ := hkept
        have hclass := isPunctuation_of_punctuationRun hnone
        simp only [isPunctuation, Bool.not_eq_false', Bool.or_eq_true] at hclass
        cases hclass with
        | inl hword => exact hW c hword
        | inr hcjk => exact encodes_of_isCjk hcjk
  rw [ftsPhrase, encodes_append, encodes_append]
  exact ⟨⟨encodes_ofString _, hnormalized⟩, encodes_ofString _⟩

end

/-! ## The scope -/

/-- The chunks a search is about: those of the permission scope, and of every filter given. -/
structure SearchCall.InScope (call : SearchCall) (chunk : SourceChunk) : Prop where
  permissionScope : call.permissionScope = .str chunk.permissionScope.text
  sourceType : call.sourceType = .none ∨ call.sourceType = .str chunk.sourceType.text
  revision : call.revision = .none ∨ call.revision = .str chunk.revision
  erpVersion : call.erpVersion = .none ∨ call.erpVersion = .str chunk.erpVersion

/-- The texts that are bound to a statement have a UTF-8 form; the query is bound as it is only
when it has a CJK character. -/
structure SearchCall.Bindable (call : SearchCall) : Prop where
  query : ∀ query, call.query = .str query → containsCjk query = true → Encodes query
  filters : ∀ value ∈ [call.sourceType, call.revision, call.erpVersion], ∀ text,
    value = .str text → Encodes text

/-- The most hits of a call; a limit that is no integer is answered with none. -/
def SearchCall.cap (call : SearchCall) : ℕ :=
  match call.limit with
  | .int limit => safeLimit limit
  | _ => 0

/-- A query is looked up when it is short enough and no filter is the empty text. -/
structure SearchCall.LooksUp (call : SearchCall) (query : Text) : Prop where
  asked : call.query = .str query
  short : query.length ≤ maxQueryLength
  revision : call.revision ≠ .str []
  erpVersion : call.erpVersion ≠ .str []

/-- A filter that may be left out is left out, or a text of its column that is not empty. -/
theorem filterClause_eq_some {column : Column} {value : Value} {clauses : Clauses} :
    filterClause column value = some clauses ↔ (value = .none ∧ clauses = []) ∨
      ∃ text, text ≠ [] ∧ value = .str text ∧ clauses = [(column, text)] := by
  rw [filterClause.eq_def]
  cases value with
  | none => simp [eq_comm]
  | str text =>
      cases text with
      | nil => simp
      | cons c text => simp [eq_comm]
  | bool | int | float | list | dict => simp

theorem accept_of_filterClause {column : Column} {value : Value} {clauses : Clauses}
    (h : filterClause column value = some clauses) (chunk : SourceChunk) :
    clauses.accept chunk = true ↔ value = .none ∨ value = .str (column.value chunk) := by
  rcases filterClause_eq_some.mp h with ⟨rfl, rfl⟩ | ⟨text, -, rfl, rfl⟩
  · simp [Clauses.accept]
  · simp [Clauses.accept, eq_comm]

theorem encodes_of_filterClause {column : Column} {value : Value} {clauses : Clauses}
    (h : filterClause column value = some clauses)
    (hvalue : ∀ text, value = .str text → Encodes text) : ∀ clause ∈ clauses, Encodes clause.2 := by
  rcases filterClause_eq_some.mp h with ⟨-, rfl⟩ | ⟨text, -, htext, rfl⟩
  · simp
  · simpa using hvalue text htext

theorem exists_filterClause (column : Column) {value : Value} {chunk : SourceChunk}
    (h : value = .none ∨ value = .str (column.value chunk)) (hne : value ≠ .str []) :
    ∃ clauses, filterClause column value = some clauses := by
  cases h with
  | inl hnone => exact ⟨[], filterClause_eq_some.mpr (.inl ⟨hnone, rfl⟩)⟩
  | inr hvalue =>
      have htext : column.value chunk ≠ [] := fun hnil => hne (hnil ▸ hvalue)
      exact ⟨_, filterClause_eq_some.mpr (.inr ⟨_, htext, hvalue, rfl⟩)⟩

theorem accept_cons (column : Column) (text : Text) (clauses : Clauses) (chunk : SourceChunk) :
    Clauses.accept ((column, text) :: clauses) chunk = true ↔
      column.value chunk = text ∧ clauses.accept chunk = true := by
  rw [Clauses.accept, List.all_cons, Bool.and_eq_true, decide_eq_true_eq]
  rfl

theorem accept_append (clauses others : Clauses) (chunk : SourceChunk) :
    Clauses.accept (clauses ++ others) chunk = true ↔
      clauses.accept chunk = true ∧ others.accept chunk = true := by
  rw [Clauses.accept, List.all_append, Bool.and_eq_true]
  rfl

/-- A filter is taken apart into its clauses. -/
theorem metadataFilter_eq_some {call : SearchCall} {clauses : Clauses}
    (h : metadataFilter call = some clauses) :
    ∃ scope sourceType revision erpVersion, call.permissionScope = .str scope ∧
      scope ∈ permissionScopes ∧ filterClause .sourceType call.sourceType = some sourceType ∧
      filterClause .revision call.revision = some revision ∧
      filterClause .erpVersion call.erpVersion = some erpVersion ∧
      clauses = (.permissionScope, scope) :: (sourceType ++ revision ++ erpVersion) := by
  unfold metadataFilter at h
  split at h
  case h_1 scope hscope =>
    split_ifs at h with hmem
    simp only [Option.bind_eq_bind, Option.bind_eq_some_iff, Option.some.injEq] at h
    obtain ⟨sourceType, htype, revision, hrevision, erpVersion, hversion, hclauses⟩ := h
    exact ⟨scope, sourceType, revision, erpVersion, hscope, hmem, htype, hrevision, hversion,
      hclauses.symm⟩
  case h_2 => cases h

theorem accept_iff_inScope {call : SearchCall} {clauses : Clauses}
    (h : metadataFilter call = some clauses) (chunk : SourceChunk) :
    clauses.accept chunk = true ↔ call.InScope chunk := by
  obtain ⟨scope, sourceType, revision, erpVersion, hscope, -, htype, hrevision, hversion, rfl⟩ :=
    metadataFilter_eq_some h
  rw [accept_cons, accept_append, accept_append, accept_of_filterClause htype,
    accept_of_filterClause hrevision, accept_of_filterClause hversion]
  constructor
  · rintro ⟨rfl, ⟨htype, hrevision⟩, hversion⟩
    exact ⟨hscope, htype, hrevision, hversion⟩
  · intro hin
    have heq := hscope.symm.trans hin.permissionScope
    rw [Value.str.injEq] at heq
    exact ⟨heq.symm, ⟨hin.sourceType, hin.revision⟩, hin.erpVersion⟩

/-- A search about some chunk has a filter, unless one of its texts is empty. -/
theorem exists_metadataFilter {call : SearchCall} {chunk : SourceChunk} (h : call.InScope chunk)
    (hrevision : call.revision ≠ .str []) (hversion : call.erpVersion ≠ .str []) :
    ∃ clauses, metadataFilter call = some clauses := by
  have hscope : ∀ scope : PermissionScope, scope.text ∈ permissionScopes := by
    intro scope
    cases scope <;> decide
  have htype : call.sourceType ≠ .str [] := by
    intro hnil
    cases h.sourceType with
    | inl hnone => rw [hnone] at hnil; cases hnil
    | inr htext =>
        rw [htext, Value.str.injEq] at hnil
        cases hchunk : chunk.sourceType <;> rw [hchunk] at hnil <;> cases hnil
  obtain ⟨types, htypes⟩ := exists_filterClause .sourceType h.sourceType htype
  obtain ⟨revisions, hrevisions⟩ := exists_filterClause .revision h.revision hrevision
  obtain ⟨versions, hversions⟩ := exists_filterClause .erpVersion h.erpVersion hversion
  rw [metadataFilter, h.permissionScope]
  simp only [if_pos (hscope chunk.permissionScope), htypes, hrevisions, hversions,
    Option.bind_eq_bind, Option.bind_some]
  exact ⟨_, rfl⟩

theorem encodes_clauses {call : SearchCall} (hcall : call.Bindable) {clauses : Clauses}
    (h : metadataFilter call = some clauses) : ∀ text ∈ clauses.map Prod.snd, Encodes text := by
  obtain ⟨scope, sourceType, revision, erpVersion, -, hscope, htype, hrevision, hversion, rfl⟩ :=
    metadataFilter_eq_some h
  have hscopes : ∀ scope ∈ permissionScopes, Encodes scope := by
    simp only [permissionScopes, List.forall_mem_cons, encodes_ofString, List.not_mem_nil,
      false_imp_iff, implies_true, and_true]
  have hfilters := hcall.filters
  simp only [List.forall_mem_cons] at hfilters
  simp only [List.forall_mem_map, List.forall_mem_cons, List.forall_mem_append]
  exact ⟨hscopes scope hscope, ⟨encodes_of_filterClause htype hfilters.1,
    encodes_of_filterClause hrevision hfilters.2.1⟩,
    encodes_of_filterClause hversion hfilters.2.2.1⟩

/-! ## The statements -/

/-- A hit shows a row when it carries its chunk. -/
def SearchHit.Shows (hit : SearchHit) (row : ChunkRow) : Prop :=
  ∃ score snippet, hit = hitFromRow row score snippet

theorem SearchHit.Shows.chunkId_eq {hit : SearchHit} {row : ChunkRow} (h : hit.Shows row) :
    hit.chunkId = row.chunkId := by
  obtain ⟨score, snippet, rfl⟩ := h
  rfl

namespace RetrievalIndex

variable {index : RetrievalIndex}

/-- The ids of the rows tell the rows. -/
theorem nodup_chunkIds_rows (index : RetrievalIndex) :
    (index.rows.map ChunkRow.chunkId).Nodup := by
  rw [rows]
  cases index.connection with
  | none => exact List.nodup_nil
  | some db => exact db.chunks.chunkIds

theorem execute_eq_ok {db : Database} (h : index.connection = some db) {parameters : List Text}
    (hencodes : ∀ text ∈ parameters, Encodes text) : index.execute parameters = .ok db := by
  have hnone : ¬∃ t ∈ parameters, encodeUtf8 t = none := by
    rintro ⟨text, htext, hfails⟩
    exact encodes_iff.mp (hencodes text htext) hfails
  rw [execute, h]
  exact if_neg hnone

theorem mem_joinChunks {table : ChunkTable} {found : List FtsMatch} {entry : FtsMatch × ChunkRow}
    (h : entry ∈ joinChunks table found) : entry.2 ∈ table.rows ∧ entry.2.id = entry.1.rowid := by
  obtain ⟨m, -, hm⟩ := List.mem_filterMap.mp h
  obtain ⟨row, hrow, rfl⟩ := Option.map_eq_some_iff.mp hm
  exact ⟨List.mem_of_find?_eq_some hrow, by simpa using List.find?_some hrow⟩

/-- Rows that are matched once are joined with different chunks. -/
theorem nodup_joinChunks (table : ChunkTable) {found : List FtsMatch}
    (h : (found.map FtsMatch.rowid).Nodup) :
    ((joinChunks table found).map fun entry => entry.2.chunkId).Nodup := by
  rw [List.Nodup, List.pairwise_map] at h ⊢
  refine List.Pairwise.filterMap _ ?_ h
  intro m other hne entry hentry entry' hentry' heq
  obtain ⟨row, hrow, rfl⟩ := Option.map_eq_some_iff.mp hentry
  obtain ⟨row', hrow', rfl⟩ := Option.map_eq_some_iff.mp hentry'
  have hsame : row = row' := List.inj_on_of_nodup_map table.chunkIds
    (List.mem_of_find?_eq_some hrow) (List.mem_of_find?_eq_some hrow') heq
  have hid : row.id = m.rowid := by simpa using List.find?_some hrow
  have hid' : row'.id = other.rowid := by simpa using List.find?_some hrow'
  exact hne (by rw [← hid, ← hid', hsame])

variable {W : WordClass} {F : FullText} {query : Text} {clauses : Clauses}

/-- The full-text statement raises a `DatabaseError` or finds different chunks the filter accepts,
whatever the full-text index makes of the phrase. -/
theorem selectMatches_cases (index : RetrievalIndex) {phrase : Text} (hphrase : Encodes phrase)
    (hclauses : ∀ text ∈ clauses.map Prod.snd, Encodes text) (cap : ℕ) :
    index.selectMatches F phrase clauses cap = .error .databaseError ∨
      ∃ entries, index.selectMatches F phrase clauses cap = .ok entries ∧
        (entries.map fun entry => entry.2.chunkId).Nodup ∧
        ∀ entry ∈ entries, entry.2 ∈ index.rows ∧ clauses.accept entry.2.chunk = true := by
  cases hconnection : index.connection with
  | none => exact .inl (by simp [selectMatches, execute, hconnection])
  | some db =>
      have hexecute : index.execute (phrase :: clauses.map Prod.snd) = .ok db :=
        execute_eq_ok hconnection (List.forall_mem_cons.mpr ⟨hphrase, hclauses⟩)
      cases hfound : F.matching db phrase with
      | none => exact .inl (by simp [selectMatches, hexecute, hfound])
      | some found =>
          have hselect : index.selectMatches F phrase clauses cap =
              .ok ((SortedByKey.sortBy rankKey ((joinChunks db.chunks found).filter fun entry =>
                clauses.accept entry.2.chunk)).take cap) := by
            simp [selectMatches, hexecute, hfound]
          refine .inr ⟨_, hselect, ?_, ?_⟩
          · have hjoined := nodup_joinChunks db.chunks (F.nodup db phrase found hfound)
            rw [List.map_take]
            refine List.Pairwise.take ((SortedByKey.nodup_map_sortBy rankKey _).mpr ?_)
            exact hjoined.sublist (List.filter_sublist.map _)
          · intro entry hentry
            have hmem := (SortedByKey.mem_sortBy rankKey).mp (List.mem_of_mem_take hentry)
            obtain ⟨hjoin, haccept⟩ := List.mem_filter.mp hmem
            rw [rows, hconnection]
            exact ⟨(mem_joinChunks hjoin).1, haccept⟩

/-- The full-text part is a list of different chunks the filter accepts. -/
theorem exists_matchHits (index : RetrievalIndex) (hphrase : Encodes (ftsPhrase W query))
    (hclauses : ∀ text ∈ clauses.map Prod.snd, Encodes text) (cap : ℕ) :
    ∃ hits, index.matchHits W F query clauses cap = .ok hits ∧
      (hits.map SearchHit.chunkId).Nodup ∧
      ∀ hit ∈ hits, ∃ row ∈ index.rows, clauses.accept row.chunk = true ∧ hit.Shows row := by
  cases selectMatches_cases (F := F) index hphrase hclauses cap with
  | inl herror =>
      refine ⟨[], ?_, List.nodup_nil, by simp⟩
      rw [matchHits, herror]
  | inr hentries =>
      obtain ⟨entries, hselect, hnodup, hrows⟩ := hentries
      refine ⟨entries.map matchHit, ?_, ?_, ?_⟩
      · rw [matchHits, hselect]
      · rw [List.map_map]
        exact hnodup
      · intro hit hhit
        obtain ⟨entry, hentry, rfl⟩ := List.mem_map.mp hhit
        obtain ⟨hrow, haccept⟩ := hrows entry hentry
        exact ⟨entry.2, hrow, haccept, _, _, rfl⟩

/-- The rows of the table that hold a query and that a filter accepts. -/
def substringRows (index : RetrievalIndex) (query : Text) (clauses : Clauses) : List ChunkRow :=
  SortedByKey.sortBy placeKey (index.rows.filter fun row =>
    0 < instr row.chunk.content query && clauses.accept row.chunk)

theorem mem_substringRows {row : ChunkRow} :
    row ∈ index.substringRows query clauses ↔
      row ∈ index.rows ∧ query <:+: row.chunk.content ∧ clauses.accept row.chunk = true := by
  rw [substringRows, SortedByKey.mem_sortBy, List.mem_filter, Bool.and_eq_true,
    decide_eq_true_eq, instr_pos_iff]

theorem nodup_substringRows (index : RetrievalIndex) (query : Text) (clauses : Clauses) :
    ((index.substringRows query clauses).map ChunkRow.chunkId).Nodup := by
  rw [substringRows, SortedByKey.nodup_map_sortBy]
  exact (nodup_chunkIds_rows index).sublist (List.filter_sublist.map _)

/-- The literal part fills the hits up with the first rows that hold the query. -/
theorem appendSubstringHits_eq {call : SearchCall} (hfilter : metadataFilter call = some clauses)
    (hquery : Encodes query) (hclauses : ∀ text ∈ clauses.map Prod.snd, Encodes text) (limit : ℕ)
    (hits : List SearchHit) :
    index.appendSubstringHits call query limit hits =
      .ok (TopUp.fill ChunkRow.chunkId (substringHit query) limit hits
        (hits.map SearchHit.chunkId) ((index.substringRows query clauses).take (limit * 4))) := by
  cases hconnection : index.connection with
  | none =>
      have hrows : index.substringRows query clauses = [] := by
        rw [substringRows, rows, hconnection, List.filter_nil, SortedByKey.sortBy_eq_nil]
      rw [hrows, List.take_nil, TopUp.fill]
      simp [appendSubstringHits, hfilter, selectSubstring, execute, hconnection]
  | some db =>
      have hexecute : index.execute (query :: clauses.map Prod.snd) = .ok db :=
        execute_eq_ok hconnection (List.forall_mem_cons.mpr ⟨hquery, hclauses⟩)
      simp [appendSubstringHits, hfilter, selectSubstring, hexecute, substringRows, rows,
        hconnection]

end RetrievalIndex

/-! ## What a search answers -/

/-- The ids of the chunks a call is about. -/
def SearchCall.scopeIds (call : SearchCall) (index : RetrievalIndex) : Set Text :=
  {id | ∃ row ∈ index.rows, call.InScope row.chunk ∧ row.chunkId = id}

/-- The ids of the chunks a call asks for literally: those it is about that hold its query, when
that is looked up and has a CJK character. -/
def SearchCall.literalIds (call : SearchCall) (index : RetrievalIndex) : Set Text :=
  {id | ∃ query, call.LooksUp query ∧ containsCjk query = true ∧ ∃ row ∈ index.rows,
    call.InScope row.chunk ∧ query <:+: row.chunk.content ∧ row.chunkId = id}

namespace RetrievalIndex

variable {W : WordClass} {F : FullText} {index : RetrievalIndex} {call : SearchCall}

/-- A query that is too long, or has nothing to look for, and a filter that is refused ask for
nothing. -/
theorem literalIds_eq_empty {query : Text} (hquery : call.query = .str query)
    (h : maxQueryLength < query.length ∨ normalizeQuery W query = [] ∨ metadataFilter call = none) :
    call.literalIds index = ∅ := by
  refine Set.eq_empty_of_forall_notMem ?_
  rintro id ⟨asked, hlooks, hcjk, row, -, hin, -⟩
  obtain rfl : query = asked := Value.str.inj (hquery.symm.trans hlooks.asked)
  rcases h with hlong | hempty | hnone
  · exact absurd hlooks.short (by omega)
  · exact normalizeQuery_ne_nil hcjk hempty
  · obtain ⟨clauses, hclauses⟩ := exists_metadataFilter hin hlooks.revision hlooks.erpVersion
    rw [hnone] at hclauses
    cases hclauses

/-- A call that is not refused takes a prefix of the full-text hits, filled up for a query with a
CJK character. -/
theorem search_eq {query : Text} (hquery : call.query = .str query)
    (hlooks : ¬(maxQueryLength < query.length ∨ normalizeQuery W query = [])) {clauses : Clauses}
    (hfilter : metadataFilter call = some clauses) {limit : ℤ} (hlimit : call.limit = .int limit)
    (hclauses : ∀ text ∈ clauses.map Prod.snd, Encodes text)
    (hencodes : containsCjk query = true → Encodes query) {hits : List SearchHit}
    (hhits : index.matchHits W F query clauses (safeLimit limit * 4) = .ok hits) :
    index.search W F call = .ok ((if containsCjk query then
      TopUp.fill ChunkRow.chunkId (substringHit query) (safeLimit limit) hits
        (hits.map SearchHit.chunkId)
        ((index.substringRows query clauses).take (safeLimit limit * 4))
      else hits).take (safeLimit limit)) := by
  rw [search, hquery]
  simp only [if_neg hlooks, hfilter, hlimit, hhits, Except.ok_bind]
  by_cases hcjk : containsCjk query = true
  · rw [if_pos hcjk, if_pos hcjk, appendSubstringHits_eq hfilter (hencodes hcjk) hclauses]
    rfl
  · rw [if_neg hcjk, if_neg hcjk]
    rfl

/-- A call that is refused has no limit or asks for nothing; any other one is answered from its
filter. -/
theorem search_cases (W : WordClass) (F : FullText) (index : RetrievalIndex) (call : SearchCall) :
    (index.search W F call = .ok [] ∧ (call.cap = 0 ∨ call.literalIds index = ∅)) ∨
      ∃ query clauses limit, call.query = .str query ∧
        ¬(maxQueryLength < query.length ∨ normalizeQuery W query = []) ∧
        metadataFilter call = some clauses ∧ call.limit = .int limit := by
  cases hquery : call.query with
  | str query =>
      by_cases hrefused : maxQueryLength < query.length ∨ normalizeQuery W query = []
      · refine .inl ⟨by simp only [search, hquery, if_pos hrefused], .inr ?_⟩
        exact literalIds_eq_empty hquery (hrefused.imp_right .inl)
      · cases hfilter : metadataFilter call with
        | none =>
            refine .inl ⟨by simp only [search, hquery, if_neg hrefused, hfilter], .inr ?_⟩
            exact literalIds_eq_empty (W := W) hquery (.inr (.inr hfilter))
        | some clauses =>
            cases hlimit : call.limit with
            | int limit => exact .inr ⟨query, clauses, limit, rfl, hrefused, rfl, rfl⟩
            | none | bool | float | str | list | dict =>
                left
                simp only [search, hquery, if_neg hrefused, hfilter, hlimit, SearchCall.cap,
                  true_or, and_self]
  | none | bool | int | float | list | dict =>
      refine .inl ⟨by simp only [search, hquery], .inr (Set.eq_empty_of_forall_notMem ?_)⟩
      rintro id ⟨query, hlooks, -⟩
      have hasked := hlooks.asked
      rw [hquery] at hasked
      cases hasked

/-- Hits that show rows a call is about, filled up with rows that hold its query, answer it. -/
theorem answers_fill {query : Text} (hquery : call.query = .str query) {clauses : Clauses}
    (hfilter : metadataFilter call = some clauses) {hits : List SearchHit}
    (hnodup : (hits.map SearchHit.chunkId).Nodup)
    (hscope : ∀ hit ∈ hits, hit.chunkId ∈ call.scopeIds index) {limit cap : ℕ} (hcap : limit ≤ cap) :
    TopUp.Answers limit (call.scopeIds index) (call.literalIds index)
      (((TopUp.fill ChunkRow.chunkId (substringHit query) limit hits (hits.map SearchHit.chunkId)
        ((index.substringRows query clauses).take cap)).take limit).map SearchHit.chunkId) := by
  have hrows : ∀ row ∈ index.substringRows query clauses, row.chunkId ∈ call.scopeIds index := by
    intro row hrow
    obtain ⟨hmem, -, haccept⟩ := mem_substringRows.mp hrow
    exact ⟨row, hmem, (accept_iff_inScope hfilter row.chunk).mp haccept, rfl⟩
  have hanswers := TopUp.answers_take_fill ChunkRow.chunkId (substringHit query) limit
    SearchHit.chunkId (fun _ => rfl) hnodup (nodup_substringRows index query clauses) hscope hrows
    hcap
  refine ⟨hanswers.bounded, hanswers.nodup, hanswers.within, ?_⟩
  rintro hshort id ⟨asked, hlooks, -, row, hrow, hin, hholds, rfl⟩
  obtain rfl : query = asked := Value.str.inj (hquery.symm.trans hlooks.asked)
  exact hanswers.complete hshort _ (List.mem_map_of_mem (mem_substringRows.mpr
    ⟨hrow, hholds, (accept_iff_inScope hfilter row.chunk).mpr hin⟩))

/-- The hits of a search show chunks it is about, and answer for those it asks for literally. -/
theorem exists_search (hW : WordsEncode W) (hcall : call.Bindable) :
    ∃ hits, index.search W F call = .ok hits ∧
      (∀ hit ∈ hits, ∃ row ∈ index.rows, call.InScope row.chunk ∧ hit.Shows row) ∧
      TopUp.Answers call.cap (call.scopeIds index) (call.literalIds index)
        (hits.map SearchHit.chunkId) := by
  rcases search_cases W F index call with
    ⟨hsearch, hnothing⟩ | ⟨query, clauses, limit, hquery, hlooks, hfilter, hlimit⟩
  · refine ⟨[], hsearch, by simp, Nat.zero_le _, List.nodup_nil, by simp, ?_⟩
    intro hshort id hid
    rcases hnothing with hzero | hempty
    · rw [hzero] at hshort
      cases hshort
    · rw [hempty] at hid
      cases hid
  · have hclauses := encodes_clauses hcall hfilter
    have haccept := accept_iff_inScope hfilter
    have hcap : call.cap = safeLimit limit := by rw [SearchCall.cap, hlimit]
    obtain ⟨hits, hhits, hnodup, hrows⟩ := exists_matchHits (F := F) index
      (encodes_ftsPhrase hW query) hclauses (safeLimit limit * 4)
    have hshown : ∀ hit ∈ hits, ∃ row ∈ index.rows, call.InScope row.chunk ∧ hit.Shows row := by
      intro hit hhit
      obtain ⟨row, hrow, hin, hshows⟩ := hrows hit hhit
      exact ⟨row, hrow, (haccept row.chunk).mp hin, hshows⟩
    have hscope : ∀ hit ∈ hits, hit.chunkId ∈ call.scopeIds index := by
      intro hit hhit
      obtain ⟨row, hrow, hin, hshows⟩ := hshown hit hhit
      exact ⟨row, hrow, hin, hshows.chunkId_eq.symm⟩
    rw [hcap]
    refine ⟨_, search_eq hquery hlooks hfilter hlimit hclauses (hcall.query query hquery) hhits, ?_⟩
    by_cases hcjk : containsCjk query = true
    · rw [if_pos hcjk]
      refine ⟨TopUp.forall_mem_take_fill _ _ _ hshown ?_, answers_fill hquery hfilter hnodup hscope
        (Nat.le_mul_of_pos_right _ (by decide))⟩
      intro row hrow
      obtain ⟨hmem, -, hin⟩ := mem_substringRows.mp (List.mem_of_mem_take hrow)
      exact ⟨row, hmem, (haccept row.chunk).mp hin, _, _, rfl⟩
    · rw [if_neg hcjk, List.map_take]
      have hscopeIds : ∀ id ∈ hits.map SearchHit.chunkId, id ∈ call.scopeIds index := by
        rw [List.forall_mem_map]
        exact hscope
      have hanswers := TopUp.answers_take (safeLimit limit) hnodup hscopeIds
      refine ⟨fun hit hhit => hshown hit (List.mem_of_mem_take hhit), hanswers.bounded,
        hanswers.nodup, hanswers.within, ?_⟩
      rintro - id ⟨asked, hasked, hcontains, -⟩
      obtain rfl : query = asked := Value.str.inj (hquery.symm.trans hasked.asked)
      exact absurd hcontains hcjk

/-- Hits that answer a call and are fewer than its limit show every row it asks for. -/
theorem exists_shows_of_answers {hits : List SearchHit}
    (hshown : ∀ hit ∈ hits, ∃ row ∈ index.rows, call.InScope row.chunk ∧ hit.Shows row)
    (hanswers : TopUp.Answers call.cap (call.scopeIds index) (call.literalIds index)
      (hits.map SearchHit.chunkId)) (hshort : hits.length < call.cap) {row : ChunkRow}
    (hrow : row ∈ index.rows) (hid : row.chunkId ∈ call.literalIds index) :
    ∃ hit ∈ hits, hit.Shows row := by
  have hmem := hanswers.complete (by rwa [List.length_map]) row.chunkId hid
  obtain ⟨hit, hhit, heq⟩ := List.mem_map.mp hmem
  obtain ⟨other, hother, -, hshows⟩ := hshown hit hhit
  have hsame : other = row := List.inj_on_of_nodup_map (nodup_chunkIds_rows index) hother hrow
    (hshows.chunkId_eq.symm.trans heq)
  exact ⟨hit, hhit, hsame ▸ hshows⟩

/-- Different hits are no more than the rows they show. -/
theorem length_le_length_rows {hits : List SearchHit} (hnodup : (hits.map SearchHit.chunkId).Nodup)
    (hshown : ∀ hit ∈ hits, ∃ row ∈ index.rows, call.InScope row.chunk ∧ hit.Shows row) :
    hits.length ≤ index.rows.length := by
  have hsubset : hits.map SearchHit.chunkId ⊆ index.rows.map ChunkRow.chunkId := by
    intro id hid
    obtain ⟨hit, hhit, rfl⟩ := List.mem_map.mp hid
    obtain ⟨row, hrow, -, hshows⟩ := hshown hit hhit
    rw [hshows.chunkId_eq]
    exact List.mem_map_of_mem hrow
  have hle := (List.subperm_of_subset hnodup hsubset).length_le
  rwa [List.length_map, List.length_map] at hle

/-- What was ingested is found: after a successful ingestion a search that has room left shows
every chunk of the sources that it is about and that holds its query. -/
theorem search_finds_ingested (hW : WordsEncode W) (hcall : call.Bindable) {I : Interpreter}
    {sources : List CuratedSource} {n : ℕ} (hingest : (index.ingest I sources).2 = .ok n) :
    ∃ chunks hits, chunkSources I sources = some chunks ∧
      (index.ingest I sources).1.search W F call = .ok hits ∧
      ∀ query, call.LooksUp query → containsCjk query = true → hits.length < call.cap →
        ∀ chunk ∈ chunks, call.InScope chunk → query <:+: chunk.content →
          ∃ hit ∈ hits, ∃ row, row.chunk = chunk ∧ hit.Shows row := by
  obtain ⟨chunks, hchunks, -, hrows⟩ := rows_of_ingest hingest
  obtain ⟨hits, hsearch, hshown, hanswers⟩ :=
    @exists_search W F (index.ingest I sources).1 call hW hcall
  refine ⟨chunks, hits, hchunks, hsearch, ?_⟩
  intro query hlooks hcjk hshort chunk hchunk hin hholds
  rw [← hrows] at hchunk
  obtain ⟨row, hrow, rfl⟩ := List.mem_map.mp hchunk
  obtain ⟨hit, hhit, hshows⟩ := exists_shows_of_answers hshown hanswers hshort hrow
    ⟨query, hlooks, hcjk, row, hrow, hin, hholds, rfl⟩
  exact ⟨hit, hhit, row, rfl, hshows⟩

/-- In every run a search shows only chunks of sources that were given to the index, of the scope
and the filters it is asked for. -/
theorem search_shows_given (hW : WordsEncode W) (hcall : call.Bindable) {I : Interpreter}
    {trace : List (Transition.Step RetrievalIndex Operation)}
    (h : Transition.Path (Performs I) opened trace index) :
    ∃ hits, index.search W F call = .ok hits ∧ ∀ hit ∈ hits, ∃ row, hit.Shows row ∧
      call.InScope row.chunk ∧ ∃ step ∈ trace, ∃ sources chunks, step.event.given = some sources ∧
        chunkSources I sources = some chunks ∧ row.chunk ∈ chunks := by
  obtain ⟨hits, hsearch, hshown, -⟩ := @exists_search W F index call hW hcall
  refine ⟨hits, hsearch, ?_⟩
  intro hit hhit
  obtain ⟨row, hrow, hin, hshows⟩ := hshown hit hhit
  exact ⟨row, hshows, hin, chunk_of_path h row hrow⟩

/-- The hits of a search are different chunks of the scope and the filters asked for, no more than
the limit, and a query with a CJK character that is looked up and has fewer hits than that has
every chunk there that holds it. -/
theorem search_finds_literal_matches (W : WordClass) (hW : WordsEncode W) (F : FullText)
    (index : RetrievalIndex) (call : SearchCall) (hcall : call.Bindable) :
    ∃ hits, index.search W F call = .ok hits ∧ hits.length ≤ call.cap ∧
      (hits.map SearchHit.chunkId).Nodup ∧
      (∀ hit ∈ hits, ∃ row ∈ index.rows, call.InScope row.chunk ∧ hit.Shows row) ∧
      ∀ query, call.LooksUp query → containsCjk query = true → hits.length < call.cap →
        ∀ row ∈ index.rows, call.InScope row.chunk → query <:+: row.chunk.content →
          ∃ hit ∈ hits, hit.Shows row := by
  obtain ⟨hits, hsearch, hshown, hanswers⟩ := @exists_search W F index call hW hcall
  have hbounded := hanswers.bounded
  rw [List.length_map] at hbounded
  refine ⟨hits, hsearch, hbounded, hanswers.nodup, hshown, ?_⟩
  intro query hlooks hcjk hshort row hrow hin hholds
  exact exists_shows_of_answers hshown hanswers hshort hrow
    ⟨query, hlooks, hcjk, row, hrow, hin, hholds, rfl⟩

end RetrievalIndex

/-! ## One chunk -/

theorem letter_ne_nil : ofString "t" ≠ [] := by decide

/-- A note of one line. -/
def lineNote (revision line : Text) (hline : strip line ≠ []) : CuratedSource :=
  { note "t" line letter_ne_nil hline with revision := revision }

/-- The index of a note of one line. -/
def noteIndex (revision line : Text) (hline : strip line ≠ []) : RetrievalIndex :=
  (RetrievalIndex.opened.ingest Interpreter.ascii [lineNote revision line hline]).1

/-- A note of one line is indexed as its title and the line. -/
theorem exists_row_of_note {revision line : Text} (hline : strip line ≠ [])
    (hcontents : ((outline (lineNote revision line hline)).flatMap fun s =>
      s.contents (lineNote revision line hline)) = [(ofString "t", "t\n\n" ++ line)])
    (hrevision : Encodes revision) (hencodes : Encodes line) :
    ∃ row, (noteIndex revision line hline).rows = [row] ∧ row.chunk.content = "t\n\n" ++ line ∧
      row.chunk.revision = revision ∧ row.chunk.permissionScope = .internal := by
  have hidentity : identityBytes Interpreter.ascii (lineNote revision line hline) "t" 1
      ("t\n\n" ++ line) ≠ none :=
    identityBytes_ne_none_iff.mpr ⟨encodes_append.mpr ⟨encodes_ofString "t\n\n", hencodes⟩,
      encodes_ofString "a", hrevision, encodes_ofString "e", encodes_ofString "t"⟩
  obtain ⟨row, hrow, hcontent, -, hof, -, hscope⟩ := RetrievalIndex.exists_row_of_ingest hcontents
    hidentity hencodes (encodes_ofString "t") (encodes_ofString "i")
  exact ⟨row, hrow, hcontent, hof, hscope⟩

/-- A search without filters is about the chunks of the scope of its default. -/
theorem inScope_internal (query : Value) {chunk : SourceChunk}
    (h : chunk.permissionScope = .internal) : SearchCall.InScope { query := query } chunk where
  permissionScope := by
    rw [h]
    rfl
  sourceType := .inl rfl
  revision := .inl rfl
  erpVersion := .inl rfl

def policyLine : Text := "公开采购政策"

theorem policyLine_ne_blank : strip policyLine ≠ [] := by decide

theorem exists_row_of_policy {revision : Text} (hrevision : Encodes revision) :
    ∃ row, (noteIndex revision policyLine policyLine_ne_blank).rows = [row] ∧
      row.chunk.content = "t\n\n" ++ policyLine ∧ row.chunk.revision = revision ∧
      row.chunk.permissionScope = .internal :=
  exists_row_of_note policyLine_ne_blank (by rfl) hrevision (encodes_ofString _)

/-! ## Two chunks -/

/-- The words of a text. -/
def tokens (W : WordClass) (text : Text) : List Text := Text.words (normalizeQuery W text)

/-- A content with the query marked. -/
def marked (content query : Text) : Text :=
  match find content query with
  | none => content
  | some index => content.take index ++ "<b>" ++ query ++ "</b>" ++
      content.drop (index + query.length)

/-- A full-text index of words: a row is found by words that its content has one after another. -/
def FullText.ofWords (W : WordClass) : FullText where
  matching db phrase :=
    some ((db.chunks.rows.filter fun row =>
      row ∈ db.indexed ∧ tokens W phrase <:+: tokens W row.chunk.content).map fun row =>
        ⟨row.id, -1 / 10 ^ 6, some (marked row.chunk.content (normalizeQuery W phrase))⟩)
  nodup := by
    intro db phrase found h
    rw [← Option.some.inj h, List.map_map]
    exact db.chunks.ids.sublist (List.filter_sublist.map ChunkRow.id)

/-- The index of the note of two sections. -/
def buyingIndex : RetrievalIndex :=
  (RetrievalIndex.opened.ingest Interpreter.ascii [buyingNote]).1

def buyingCall : SearchCall := { query := .ofString "采购" }

theorem bindable_buyingCall : buyingCall.Bindable where
  query := by
    intro query hquery _
    rw [← Value.str.inj hquery]
    exact encodes_ofString "采购"
  filters := by
    intro value hvalue text htext
    simp only [buyingCall, List.mem_cons, List.not_mem_nil, or_false, or_self] at hvalue
    rw [hvalue] at htext
    cases htext

theorem looksUp_buyingCall : buyingCall.LooksUp "采购" := ⟨rfl, by decide, nofun, nofun⟩

/-- The note is indexed as its two sections. -/
theorem ingest_buyingNote :
    ∃ (table : ChunkTable) (first second : ChunkRow), table.rows = [first, second] ∧
      RetrievalIndex.opened.ingest Interpreter.ascii [buyingNote] =
        (⟨some ⟨table, table.rows⟩⟩, .ok 2) ∧
      chunkSources Interpreter.ascii [buyingNote] = some [first.chunk, second.chunk] ∧
      first.chunk.content = "A\n\n采购 x" ∧ second.chunk.content = "B\n\n公开采购政策" ∧
      first.chunk.permissionScope = .internal ∧ second.chunk.permissionScope = .internal := by
  obtain ⟨chunks, hchunks⟩ := @exists_chunkSource Interpreter.ascii _ chunkable_buyingNote
  obtain ⟨hcontents, hnodup⟩ := chunks_buyingNote chunks hchunks
  have hencodes : Encodes buyingNote.content := encodes_ofString "# A\n采购 x\n# B\n公开采购政策"
  obtain ⟨table, hrows, hingest⟩ := RetrievalIndex.ingest_singleton hchunks hnodup hencodes
    (encodes_ofString "t") (encodes_ofString "i")
  have hsources := RetrievalIndex.chunkSources_singleton hencodes hchunks hnodup
  obtain ⟨first, second, htable⟩ : ∃ first second, table.rows = [first, second] := by
    rw [← List.length_eq_two]
    simpa [← hrows] using congrArg List.length hcontents
  rw [htable] at hrows
  subst hrows
  simp only [List.map_cons, List.map_nil, List.cons.injEq, Prod.mk.injEq, and_true] at hcontents
  obtain ⟨⟨hfirst, hscope⟩, hsecond, hscope'⟩ := hcontents
  exact ⟨table, first, second, htable, hingest, hsources, hfirst, hsecond, hscope, hscope'⟩

theorem length_le_of_search_buyingIndex {hits : List SearchHit}
    (h : buyingIndex.search .ascii (FullText.ofWords .ascii) buyingCall = .ok hits) :
    hits.length ≤ 2 := by
  obtain ⟨table, first, second, htable, hingest, -⟩ := ingest_buyingNote
  obtain ⟨hits', hsearch, hshown, hanswers⟩ := @RetrievalIndex.exists_search .ascii
    (FullText.ofWords .ascii) buyingIndex buyingCall wordsEncode_ascii bindable_buyingCall
  obtain rfl := Except.ok.inj (h.symm.trans hsearch)
  have hrows : buyingIndex.rows = [first, second] := by
    rw [buyingIndex, hingest, ← htable]
    rfl
  have hlength := RetrievalIndex.length_le_length_rows hanswers.nodup hshown
  rwa [hrows] at hlength

/-- The full-text index finds the first section, and both hold the query. -/
theorem search_finds_literal_matches_buyingNote :
    ∃ db first second hits, buyingIndex.connection = some db ∧ db.chunks.rows = [first, second] ∧
      ((FullText.ofWords .ascii).matching db (ftsPhrase .ascii "采购")).map
        (List.map FtsMatch.rowid) = some [first.id] ∧
      buyingIndex.search .ascii (FullText.ofWords .ascii) buyingCall = .ok hits ∧
      hits.length ≤ 2 ∧ (hits.map SearchHit.chunkId).Nodup ∧ (∃ hit ∈ hits, hit.Shows first) ∧
      ∃ hit ∈ hits, hit.Shows second := by
  obtain ⟨table, first, second, htable, hingest, -, hfirst, hsecond, hscope, hscope'⟩ :=
    ingest_buyingNote
  have hindex : buyingIndex = ⟨some ⟨table, table.rows⟩⟩ := by rw [buyingIndex, hingest]
  have hrows : buyingIndex.rows = [first, second] := by rw [hindex, ← htable]; rfl
  have hmatching : ((FullText.ofWords .ascii).matching ⟨table, table.rows⟩
      (ftsPhrase .ascii "采购")).map (List.map FtsMatch.rowid) = some [first.id] := by
    have hone : tokens .ascii (ftsPhrase .ascii "采购") <:+: tokens .ascii (ofString "A\n\n采购 x") := by
      decide
    have hnone : ¬tokens .ascii (ftsPhrase .ascii "采购") <:+:
        tokens .ascii (ofString "B\n\n公开采购政策") := by
      decide
    rw [← hfirst] at hone
    rw [← hsecond] at hnone
    simp [FullText.ofWords, htable, hone, hnone]
  obtain ⟨hits, hsearch, -, hnodup, hshown, hfinds⟩ :=
    RetrievalIndex.search_finds_literal_matches .ascii wordsEncode_ascii (FullText.ofWords .ascii)
      buyingIndex buyingCall bindable_buyingCall
  have hlength := length_le_of_search_buyingIndex hsearch
  have hfound := hfinds "采购" looksUp_buyingCall (by decide)
    (Nat.lt_of_le_of_lt hlength (by decide))
  refine ⟨⟨table, table.rows⟩, first, second, hits, by rw [hindex], htable, hmatching, hsearch,
    hlength, hnodup, ?_, ?_⟩
  · refine hfound first (by simp [hrows]) (inScope_internal _ hscope) ?_
    rw [hfirst]
    decide
  · refine hfound second (by simp [hrows]) (inScope_internal _ hscope') ?_
    rw [hsecond]
    decide

/-- After the ingestion of the note both of its sections are found. -/
theorem search_finds_ingested_buyingNote :
    ∃ hits, (RetrievalIndex.opened.ingest Interpreter.ascii [buyingNote]).1.search .ascii
        (FullText.ofWords .ascii) buyingCall = .ok hits ∧
      (∃ hit ∈ hits, hit.content = "A\n\n采购 x") ∧
      ∃ hit ∈ hits, hit.content = "B\n\n公开采购政策" := by
  obtain ⟨table, first, second, -, hingest, hsources, hfirst, hsecond, hscope, hscope'⟩ :=
    ingest_buyingNote
  obtain ⟨chunks, hits, hchunks, hsearch, hfinds⟩ := @RetrievalIndex.search_finds_ingested .ascii
    (FullText.ofWords .ascii) .opened buyingCall wordsEncode_ascii bindable_buyingCall
    Interpreter.ascii [buyingNote] 2 (by rw [hingest])
  obtain rfl := Option.some.inj (hchunks.symm.trans hsources)
  have hlength : hits.length ≤ 2 := by
    apply length_le_of_search_buyingIndex
    rw [buyingIndex]
    exact hsearch
  have hfound := hfinds "采购" looksUp_buyingCall (by decide) (Nat.lt_of_le_of_lt hlength (by decide))
  refine ⟨hits, hsearch, ?_, ?_⟩
  · obtain ⟨hit, hhit, row, hrow, score, snippet, rfl⟩ := hfound first.chunk (by simp)
      (inScope_internal _ hscope) (by rw [hfirst]; decide)
    exact ⟨_, hhit, by rw [← hfirst, ← hrow]; rfl⟩
  · obtain ⟨hit, hhit, row, hrow, score, snippet, rfl⟩ := hfound second.chunk (by simp)
      (inScope_internal _ hscope') (by rw [hsecond]; decide)
    exact ⟨_, hhit, by rw [← hsecond, ← hrow]; rfl⟩

/-- What is found after two ingestions is a chunk of their notes. -/
theorem search_shows_given_buyingNote :
    ∃ hits, ((RetrievalIndex.opened.ingest Interpreter.ascii [shortNote]).1.ingest Interpreter.ascii
        [buyingNote]).1.search .ascii (FullText.ofWords .ascii) buyingCall = .ok hits ∧
      ∀ hit ∈ hits, ∃ row, hit.Shows row ∧ buyingCall.InScope row.chunk ∧
        ∃ sources ∈ [[shortNote], [buyingNote]], ∃ chunks,
          chunkSources Interpreter.ascii sources = some chunks ∧ row.chunk ∈ chunks := by
  obtain ⟨hits, hsearch, hshown⟩ := @RetrievalIndex.search_shows_given .ascii
    (FullText.ofWords .ascii) _ buyingCall wordsEncode_ascii bindable_buyingCall Interpreter.ascii
    _ (.cons (RetrievalIndex.performs_ingest _ [shortNote])
      (.cons (RetrievalIndex.performs_ingest _ [buyingNote]) (.nil _)))
  refine ⟨hits, hsearch, fun hit hhit => ?_⟩
  obtain ⟨row, hshows, hin, step, hstep, sources, chunks, hgiven, hchunks, hmem⟩ := hshown hit hhit
  refine ⟨row, hshows, hin, sources, ?_, chunks, hchunks, hmem⟩
  simp only [List.mem_cons, List.not_mem_nil, or_false] at hstep ⊢
  rcases hstep with rfl | rfl
  · exact .inl (Option.some.inj hgiven).symm
  · exact .inr (Option.some.inj hgiven).symm

/-- A search with room left that does not show a chunk it is about, though that holds the query. -/
def LeavesOut (index : RetrievalIndex) (call : SearchCall) (query : Text) : Prop :=
  call.query = .str query ∧ containsCjk query = true ∧
    ∃ hits, index.search WordClass.ascii FullText.unmatched call = .ok hits ∧
      hits.length < call.cap ∧ ∃ row ∈ index.rows, call.InScope row.chunk ∧
        query <:+: row.chunk.content ∧ ∀ hit ∈ hits, ¬hit.Shows row

/-- A line of 501 characters. -/
def longLine : Text := List.replicate 501 0x6599

theorem longLine_ne_blank : strip longLine ≠ [] := by decide +kernel

/-- A query of more than 500 characters and the empty text as a revision are answered with no hit,
and a lone surrogate makes the search raise. -/
theorem not_search_finds_literal_matches :
    LeavesOut (noteIndex "v1" longLine longLine_ne_blank) { query := .str longLine } longLine ∧
      LeavesOut (noteIndex [] policyLine policyLine_ne_blank)
        { query := .ofString "采购", revision := .str [] } "采购" ∧
      RetrievalIndex.opened.search WordClass.ascii FullText.unmatched
        { query := .str [0x6599, 0xD800] } = .error .unicodeEncodeError := by
  refine ⟨?_, ?_, by rfl⟩
  · have hcontents : ((outline (lineNote "v1" longLine longLine_ne_blank)).flatMap fun s =>
        s.contents (lineNote "v1" longLine longLine_ne_blank)) =
          [(ofString "t", "t\n\n" ++ longLine)] := by
      decide +kernel
    have hencodes : Encodes longLine := by
      intro c hc
      rw [List.eq_of_mem_replicate hc]
      decide
    obtain ⟨row, hrows, hcontent, -, hscope⟩ := exists_row_of_note longLine_ne_blank hcontents
      (encodes_ofString "v1") hencodes
    refine ⟨rfl, by decide, [], ?_, by decide, row, by rw [hrows]; simp,
      inScope_internal _ hscope, ?_, by simp⟩
    · have hlong : maxQueryLength < longLine.length := by
        rw [longLine, List.length_replicate]
        decide
      simp only [RetrievalIndex.search, if_pos (Or.inl hlong)]
    · rw [hcontent]
      exact List.infix_append_of_infix_right (List.infix_refl _)
  · obtain ⟨row, hrows, hcontent, hrevision, hscope⟩ := @exists_row_of_policy [] (by simp [Encodes])
    refine ⟨rfl, by decide, [], by rfl, by decide, row, by rw [hrows]; simp, ?_, ?_, by simp⟩
    · have hin := inScope_internal (.ofString "采购") hscope
      exact ⟨hin.permissionScope, hin.sourceType, .inr (by rw [hrevision]), hin.erpVersion⟩
    · rw [hcontent]
      decide

end Retrieval
