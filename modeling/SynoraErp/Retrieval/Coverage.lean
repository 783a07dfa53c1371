import SynoraErp.Retrieval.Outline

/-!
# What the chunks of a source cover

The chunks `chunk_source` makes fall into one group for each section of the outline, and a
grouping that covers the sections can only be this one: the first and the last chunk of a group
hold something of the section's body.
-/

namespace Retrieval

open Python Text

/-! ## Groups of a list -/

theorem exists_head_of_flatten {α : Type*} {groups : List (List α)} {x : α} {rest : List α}
    (h : groups.flatten = x :: rest) : ∃ g ∈ groups, x ∈ g.head? := by
  induction groups with
  | nil => simp at h
  | cons g groups ih =>
      cases g with
      | nil =>
          obtain ⟨k, hk, hx⟩ := ih h
          exact ⟨k, List.mem_cons_of_mem _ hk, hx⟩
      | cons y g =>
          rw [List.flatten_cons, List.cons_append, List.cons.injEq] at h
          exact ⟨y :: g, List.mem_cons_self, by simp [h.1]⟩

/-- A list that reads as the lists of some elements falls into groups that do. -/
theorem exists_groups {α β γ : Type*} {key : β → γ} {f : α → List γ} {l : List α} {chunks : List β}
    (h : chunks.map key = l.flatMap f) :
    ∃ groups, groups.flatten = chunks ∧ List.Forall₂ (fun a g => g.map key = f a) l groups := by
  induction l generalizing chunks with
  | nil =>
      rw [List.flatMap_nil, List.map_eq_nil_iff] at h
      exact ⟨[], h.symm, .nil⟩
  | cons a l ih =>
      rw [List.flatMap_cons, List.map_eq_append_iff] at h
      obtain ⟨g, rest, rfl, hg, hrest⟩ := h
      obtain ⟨groups, hgroups, hall⟩ := ih hrest
      exact ⟨g :: groups, by rw [List.flatten_cons, hgroups], .cons hg hall⟩

theorem exists_of_forall₂_append {α β : Type*} {R : α → β → Prop} {l more : List α} {chunks : List β}
    (h : List.Forall₂ R (l ++ more) chunks) :
    ∃ first rest, List.Forall₂ R l first ∧ List.Forall₂ R more rest ∧ chunks = first ++ rest := by
  induction l generalizing chunks with
  | nil => exact ⟨[], chunks, .nil, h, rfl⟩
  | cons a l ih =>
      rw [List.cons_append, List.forall₂_cons_left_iff] at h
      obtain ⟨b, chunks, hb, hchunks, rfl⟩ := h
      obtain ⟨first, rest, hfirst, hrest, rfl⟩ := ih hchunks
      exact ⟨b :: first, rest, .cons hb hfirst, hrest, rfl⟩

/-- Two groupings of a list are the same when their groups weigh the same and no group of one of
them begins or ends with something that weighs nothing. -/
theorem groups_unique {α : Type*} {weight : α → ℕ} {groups others : List (List α)}
    (hweight : List.Forall₂ (fun g h => (g.map weight).sum = (h.map weight).sum) groups others)
    (hends : ∀ g ∈ groups, (∀ x ∈ g.head?, 0 < weight x) ∧ ∀ x ∈ g.getLast?, 0 < weight x)
    (hflatten : groups.flatten = others.flatten) : groups = others := by
  induction hweight with
  | nil => rfl
  | @cons g h groups others hsum _ ih =>
      rw [List.forall_mem_cons] at hends
      obtain ⟨⟨-, hlast⟩, hrest⟩ := hends
      rw [List.flatten_cons, List.flatten_cons, List.append_eq_append_iff] at hflatten
      rcases hflatten with ⟨more, hmore, hgroups⟩ | ⟨more, hmore, hothers⟩
      · -- what `others` takes too many is the beginning of a later group
        have hzero : (more.map weight).sum = 0 := by
          rw [hmore, List.map_append, List.sum_append] at hsum
          omega
        have hnil : more = [] := by
          cases more with
          | nil => rfl
          | cons x more =>
              obtain ⟨k, hk, hx⟩ := exists_head_of_flatten hgroups
              have hpos := (hrest k hk).1 x hx
              rw [List.map_cons, List.sum_cons] at hzero
              omega
        rw [hnil, List.append_nil] at hmore
        rw [hnil, List.nil_append] at hgroups
        rw [hmore, ih hrest hgroups]
      · -- what `others` leaves is the end of the group
        have hzero : (more.map weight).sum = 0 := by
          rw [hmore, List.map_append, List.sum_append] at hsum
          omega
        have hnil : more = [] := by
          induction more using List.reverseRecOn with
          | nil => rfl
          | append_singleton front x _ =>
              have hpos := hlast x (by rw [hmore]; simp)
              rw [List.map_append, List.sum_append, List.map_singleton, List.sum_singleton] at hzero
              omega
        rw [hnil, List.append_nil] at hmore
        rw [hnil, List.nil_append] at hothers
        rw [hmore, ih hrest hothers.symm]

/-! ## The chunks of a source -/

section

variable {I : Interpreter} {source : CuratedSource}

/-- A chunk is made of a numbered content. -/
def Made (I : Interpreter) (source : CuratedSource) (numbered : (Text × Text) × ℕ)
    (chunk : SourceChunk) : Prop :=
  sourceChunk I source numbered.1.1 numbered.2 numbered.1.2 = some chunk

theorem chunkContents_eq_some {name : Text} {ordinal : ℕ} {contents : List Text}
    {chunks : List SourceChunk} :
    chunkContents I source name ordinal contents = some chunks ↔
      List.Forall₂ (Made I source) ((contents.map (Prod.mk name)).zipIdx ordinal) chunks := by
  induction contents generalizing ordinal chunks with
  | nil =>
      rw [chunkContents, List.map_nil, List.zipIdx_nil, List.forall₂_nil_left_iff]
      exact ⟨fun h => (Option.some.inj h).symm, fun h => by rw [h]⟩
  | cons content contents ih =>
      rw [chunkContents, List.map_cons, List.zipIdx_cons, List.forall₂_cons_left_iff]
      constructor
      · intro h
        obtain ⟨chunk, hchunk, h⟩ := Option.bind_eq_some_iff.mp h
        obtain ⟨more, hmore, h⟩ := Option.bind_eq_some_iff.mp h
        exact ⟨chunk, more, hchunk, ih.mp hmore, (Option.some.inj h).symm⟩
      · rintro ⟨chunk, more, hchunk, hmore, rfl⟩
        exact Option.bind_eq_some_iff.mpr ⟨chunk, hchunk, Option.bind_eq_some_iff.mpr
          ⟨more, ih.mpr hmore, rfl⟩⟩

/-- The contents of a block under its section. -/
def named (source : CuratedSource) (block : Text × Text) : List (Text × Text) :=
  (blockContents source block).map (Prod.mk block.1)

theorem chunkBlocks_eq_some {ordinal : ℕ} {blocks : List (Text × Text)}
    {chunks : List SourceChunk} :
    chunkBlocks I source ordinal blocks = some chunks ↔
      List.Forall₂ (Made I source) ((blocks.flatMap (named source)).zipIdx ordinal) chunks := by
  induction blocks generalizing ordinal chunks with
  | nil =>
      rw [chunkBlocks, List.flatMap_nil, List.zipIdx_nil, List.forall₂_nil_left_iff]
      exact ⟨fun h => (Option.some.inj h).symm, fun h => by rw [h]⟩
  | cons block blocks ih =>
      have hlength : (named source block).length = (blockContents source block).length :=
        List.length_map _
      rw [chunkBlocks, List.flatMap_cons, List.zipIdx_append, hlength]
      constructor
      · intro h
        obtain ⟨first, hfirst, h⟩ := Option.bind_eq_some_iff.mp h
        obtain ⟨more, hmore, h⟩ := Option.bind_eq_some_iff.mp h
        rw [← Option.some.inj h]
        exact List.rel_append (chunkContents_eq_some.mp hfirst) (ih.mp hmore)
      · intro h
        obtain ⟨first, more, hfirst, hmore, rfl⟩ := exists_of_forall₂_append h
        exact Option.bind_eq_some_iff.mpr ⟨first, chunkContents_eq_some.mpr hfirst,
          Option.bind_eq_some_iff.mpr ⟨more, ih.mpr hmore, rfl⟩⟩

theorem sourceChunk_eq_some {name : Text} {ordinal : ℕ} {content : Text} {chunk : SourceChunk}
    (h : sourceChunk I source name ordinal content = some chunk) :
    chunk.sectionName = name ∧ chunk.content = content ∧ chunk.ordinal = ordinal ∧
      ∃ identity, identityBytes I source name ordinal content = some identity ∧
        chunk.chunkId = Sha256.hexdigest identity := by
  obtain ⟨bytes, -, h⟩ := Option.bind_eq_some_iff.mp h
  obtain ⟨identity, hidentity, h⟩ := Option.bind_eq_some_iff.mp h
  obtain rfl := Option.some.inj h
  exact ⟨rfl, rfl, rfl, identity, hidentity, rfl⟩

/-- The pieces of a section. -/
def Outlined.pieces (source : CuratedSource) (s : Outlined) : List Text :=
  packLines (bodyLimit (chunkLead source (s.name source))) [] 0 (bodyLines s.lines)

/-- The contents of a section's chunks, under its name. -/
def Outlined.contents (source : CuratedSource) (s : Outlined) : List (Text × Text) :=
  (s.pieces source).map fun piece =>
    (s.name source, chunkContent (chunkLead source (s.name source)) piece)

theorem flatMap_named_sectionBlock {s : Outlined} (h : s ∈ outline source) :
    (sectionBlock (s.name source) (s.lines.map rstrip)).flatMap (named source) =
      s.contents source := by
  have hlines := isLine_of_mem_outline h
  have hsplit := splitBlock_body hlines (bodyLimit (chunkLead source (s.name source)))
  rw [sectionBlock]
  split_ifs with hbody
  · rw [hbody] at hsplit
    rw [Outlined.contents, Outlined.pieces, ← hsplit]
    rfl
  · rw [List.flatMap_singleton, named, blockContents, hsplit, List.map_map, Outlined.contents,
      Outlined.pieces]
    rfl

theorem flatMap_named_sectionBlocks :
    (sectionBlocks source).flatMap (named source) =
      (outline source).flatMap fun s => s.contents source := by
  rw [sectionBlocks_eq, List.flatMap_assoc]
  exact List.flatMap_congr fun s hs => flatMap_named_sectionBlock hs

/-- The chunks of a source are numbered and read as the contents of its sections. -/
theorem chunkSource_eq_some {chunks : List SourceChunk} :
    chunkSource I source = some chunks ↔ List.Forall₂ (Made I source)
      (((outline source).flatMap fun s => s.contents source).zipIdx 1) chunks := by
  rw [chunkSource, chunkBlocks_eq_some, flatMap_named_sectionBlocks]

theorem ordinals_of_forall₂_made {named : List (Text × Text)} {ordinal : ℕ}
    {chunks : List SourceChunk} (h : List.Forall₂ (Made I source) (named.zipIdx ordinal) chunks) :
    chunks.map SourceChunk.ordinal = List.range' ordinal chunks.length ∧
      chunks.map (fun chunk => (chunk.sectionName, chunk.content)) = named := by
  induction named generalizing ordinal chunks with
  | nil =>
      rw [List.zipIdx_nil, List.forall₂_nil_left_iff] at h
      rw [h]
      exact ⟨rfl, rfl⟩
  | cons pair named ih =>
      rw [List.zipIdx_cons, List.forall₂_cons_left_iff] at h
      obtain ⟨chunk, chunks, hchunk, hrest, rfl⟩ := h
      obtain ⟨hordinals, hnamed⟩ := ih hrest
      obtain ⟨hname, hcontent, hordinal, -⟩ := sourceChunk_eq_some hchunk
      constructor
      · rw [List.map_cons, List.length_cons, List.range'_succ, hordinal, hordinals]
      · rw [List.map_cons, hname, hcontent, hnamed]

/-! ## What a group holds -/

theorem one_le_bodyLimit (lead : Text) : 1 ≤ bodyLimit lead := le_max_left _ _

theorem isBodyLine_of_mem {s : Outlined} (h : s ∈ outline source) :
    ∀ line ∈ bodyLines s.lines, IsBodyLine line :=
  fun _ hline => isBodyLine_of_mem_bodyLines (isLine_of_mem_outline h) hline

theorem packing_pieces {s : Outlined} (h : s ∈ outline source) :
    Packing (bodyLimit (chunkLead source (s.name source))) (bodyLines s.lines)
      (s.pieces source) := by
  have hempty : (joinWithLineFeeds []).length ≤ bodyLimit (chunkLead source (s.name source)) := by
    simp
  have hpacking := packing_packLines [] (bodyLines s.lines) 0 (by simp) (isBodyLine_of_mem h)
    (by simp) hempty
  exact hpacking

theorem pieces_eq_nil_iff {s : Outlined} (h : s ∈ outline source) :
    s.pieces source = [] ↔ bodyLines s.lines = [] := by
  constructor
  · intro hpieces
    by_contra hlines
    obtain ⟨piece, hpiece, -⟩ := (packing_pieces h).exists_last (one_le_bodyLimit _)
      (isBodyLine_of_mem h) hlines
    simp [hpieces] at hpiece
  · exact (packing_pieces h).eq_nil_of_nil

/-- Words that leave room are not truncated. -/
theorem chunkLead_of_short {s : Outlined} (h : s ∈ outline source)
    (hshort : (s.words source).length + 3 ≤ maxChunkChars) :
    chunkLead source (s.name source) = s.words source := by
  rw [chunkLead, sectionWords_name h]
  exact List.take_of_length_le (by omega)

theorem bodyLimit_of_short {s : Outlined}
    (hshort : (s.words source).length + 3 ≤ maxChunkChars) :
    bodyLimit (s.words source) = s.room source := by
  rw [bodyLimit, Outlined.room]
  omega

theorem solid_words (s : Outlined) : Solid (s.words source) := solid_unwords_words _

/-- Below the words a content has the lines of the piece. -/
theorem bareLines_drop_chunkContent {lead : Text} (hlead : Solid lead) (piece : Text) :
    lead <+: chunkContent lead piece ∧
      bareLines ((chunkContent lead piece).drop lead.length) = bareLines piece := by
  have hfeed : isLineBreak lineFeed = true := by decide
  have hpiece : bareLines (lineFeed :: lineFeed :: piece) = bareLines piece := by
    rw [bareLines_cons_of_isLineBreak hfeed, bareLines_cons_of_isLineBreak hfeed]
  rw [chunkContent]
  by_cases hnil : lead = []
  · rw [hnil, List.nil_append, List.length_nil, List.drop_zero, bareLines_strip, hpiece]
    exact ⟨List.nil_prefix, rfl⟩
  · rw [hlead.strip_append hnil, List.drop_left, bareLines_rstrip, hpiece]
    exact ⟨List.prefix_append _ _, rfl⟩

theorem length_chunkContent_le (lead piece : Text) :
    (chunkContent lead piece).length ≤ lead.length + 2 + piece.length := by
  rw [chunkContent]
  refine (length_strip_le _).trans ?_
  rw [List.length_append, List.length_cons, List.length_cons]
  omega

/-- What a chunk holds below the words of its section. -/
def weight (source : CuratedSource) (pair : Text × Text) : ℕ :=
  solidCount (pair.2.drop (sectionWords source pair.1).length)

theorem weight_eq {s : Outlined} (h : s ∈ outline source) (content : Text) :
    weight source (s.name source, content) = ((bareLines (content.drop (s.words source).length)).map
      solidCount).sum := by
  rw [weight, sectionWords_name h, sum_solidCount_bareLines]

/-- Chunks that keep the lines of a section weigh what its lines do. -/
theorem sum_weight_of_kept {s : Outlined} (h : s ∈ outline source) {group : List SourceChunk}
    (hname : ∀ chunk ∈ group, chunk.sectionName = s.name source) {room : ℕ}
    {cuts : List (List Text)} (hcuts : List.Forall₂ (IsCut room) (bodyLines s.lines) cuts)
    (hbare : bare cuts.flatten =
      group.flatMap fun chunk => bareLines (chunk.content.drop (s.words source).length)) :
    (group.map fun chunk => weight source (chunk.sectionName, chunk.content)).sum =
      ((bodyLines s.lines).map solidCount).sum := by
  have hgroup : (group.map fun chunk => weight source (chunk.sectionName, chunk.content)).sum =
      ((bare cuts.flatten).map solidCount).sum := by
    rw [hbare]
    clear hbare
    induction group with
    | nil => rfl
    | cons chunk group ih =>
        rw [List.forall_mem_cons] at hname
        rw [List.map_cons, List.sum_cons, ih hname.2, List.flatMap_cons, List.map_append,
          List.sum_append, hname.1, weight_eq h]
  rw [hgroup, sum_solidCount_bare]
  clear hgroup hbare
  generalize bodyLines s.lines = lines at hcuts
  induction hcuts with
  | nil => rfl
  | cons hcut _ ih =>
      rw [List.flatten_cons, List.map_append, List.sum_append, ih, List.map_cons, List.sum_cons,
        ← solidCount_flatten, hcut.whole]

/-- The chunks of a section, as the code makes them. -/
def IsGroup (source : CuratedSource) (s : Outlined) (group : List SourceChunk) : Prop :=
  group.map (fun chunk => (chunk.sectionName, chunk.content)) = s.contents source

theorem name_of_isGroup {s : Outlined} {group : List SourceChunk} (h : IsGroup source s group) :
    ∀ chunk ∈ group, chunk.sectionName = s.name source ∧ ∃ piece ∈ s.pieces source,
      chunk.content = chunkContent (chunkLead source (s.name source)) piece := by
  intro chunk hchunk
  have hmem := List.mem_map_of_mem (f := fun chunk => (chunk.sectionName, chunk.content)) hchunk
  rw [h, Outlined.contents, List.mem_map] at hmem
  obtain ⟨piece, hpiece, heq⟩ := hmem
  rw [Prod.mk.injEq] at heq
  exact ⟨heq.1.symm, piece, hpiece, heq.2.symm⟩

theorem isGroup_eq_nil_iff {s : Outlined} (hs : s ∈ outline source) {group : List SourceChunk}
    (h : IsGroup source s group) : group = [] ↔ bodyLines s.lines = [] := by
  rw [← pieces_eq_nil_iff hs, ← List.map_eq_nil_iff (f := fun chunk : SourceChunk =>
    (chunk.sectionName, chunk.content)), h, Outlined.contents, List.map_eq_nil_iff]

/-- Chunks of a section whose words leave room keep its lines. -/
theorem kept_of_isGroup {s : Outlined} (hs : s ∈ outline source) {group : List SourceChunk}
    (h : IsGroup source s group)
    (hshort : bodyLines s.lines ≠ [] → (s.words source).length + 3 ≤ maxChunkChars) :
    (∀ chunk ∈ group, chunk.sectionName = s.name source ∧ s.words source <+: chunk.content) ∧
      ∃ cuts, List.Forall₂ (IsCut (s.room source)) (bodyLines s.lines) cuts ∧
        bare cuts.flatten =
          group.flatMap fun chunk => bareLines (chunk.content.drop (s.words source).length) := by
  by_cases hnil : bodyLines s.lines = []
  · rw [(isGroup_eq_nil_iff hs h).mpr hnil, hnil]
    exact ⟨by simp, [], .nil, rfl⟩
  have hlead := chunkLead_of_short hs (hshort hnil)
  have hlimit := bodyLimit_of_short (hshort hnil)
  have hpacking := packing_pieces hs
  rw [hlead, hlimit] at hpacking
  have hroom : 1 ≤ s.room source := by
    rw [← hlimit]
    exact one_le_bodyLimit _
  constructor
  · intro chunk hchunk
    obtain ⟨hname, piece, -, hcontent⟩ := name_of_isGroup h chunk hchunk
    rw [hcontent, hlead]
    exact ⟨hname, (bareLines_drop_chunkContent (solid_words s) piece).1⟩
  · obtain ⟨cuts, hcuts, hbare⟩ := hpacking.exists_cuts hroom (isBodyLine_of_mem hs)
    refine ⟨cuts, hcuts, ?_⟩
    have hcontents : group.map SourceChunk.content =
        (s.pieces source).map (chunkContent (s.words source)) := by
      have hmap := congrArg (List.map Prod.snd) h
      rw [Outlined.contents, List.map_map, List.map_map, hlead] at hmap
      exact hmap
    have hgroup : (group.flatMap fun chunk =>
        bareLines (chunk.content.drop (s.words source).length)) =
          (group.map SourceChunk.content).flatMap fun content =>
            bareLines (content.drop (s.words source).length) := by
      rw [List.flatMap_map]
    rw [hbare, hgroup, hcontents, List.flatMap_map]
    refine List.flatMap_congr ?_
    intro piece _
    exact (bareLines_drop_chunkContent (solid_words s) piece).2.symm

/-- The first and the last chunk of a section hold something of its body. -/
theorem weight_pos_of_isGroup {s : Outlined} (hs : s ∈ outline source) {group : List SourceChunk}
    (h : IsGroup source s group)
    (hshort : bodyLines s.lines ≠ [] → (s.words source).length + 3 ≤ maxChunkChars) :
    (∀ chunk ∈ group.head?, 0 < weight source (chunk.sectionName, chunk.content)) ∧
      ∀ chunk ∈ group.getLast?, 0 < weight source (chunk.sectionName, chunk.content) := by
  by_cases hnil : bodyLines s.lines = []
  · rw [(isGroup_eq_nil_iff hs h).mpr hnil]
    simp
  have hlead := chunkLead_of_short hs (hshort hnil)
  have hpacking := packing_pieces hs
  have hbody := isBodyLine_of_mem hs
  have hweight : ∀ piece, isBlank piece = false → 0 < weight source
      (s.name source, chunkContent (chunkLead source (s.name source)) piece) := by
    intro piece hpiece
    rw [weight_eq hs, hlead, (bareLines_drop_chunkContent (solid_words s) piece).2,
      sum_solidCount_bareLines, Nat.pos_iff_ne_zero, ne_eq, solidCount_eq_zero_iff, hpiece]
    exact Bool.false_ne_true
  constructor
  · intro chunk hchunk
    obtain ⟨piece, hpiece, hsolid⟩ := hpacking.exists_head (one_le_bodyLimit _) hbody hnil
      (head_bodyLines s.lines)
    have hhead := congrArg List.head? h
    rw [Outlined.contents, List.head?_map, List.head?_map, Option.mem_def.mp hchunk,
      Option.mem_def.mp hpiece, Option.map_some, Option.map_some, Option.some.injEq] at hhead
    rw [hhead]
    exact hweight piece hsolid
  · intro chunk hchunk
    obtain ⟨piece, hpiece, hsolid⟩ := hpacking.exists_last (one_le_bodyLimit _) hbody hnil
    have hlast := congrArg List.getLast? h
    rw [Outlined.contents, List.getLast?_map, List.getLast?_map, Option.mem_def.mp hchunk,
      Option.mem_def.mp hpiece, Option.map_some, Option.map_some, Option.some.injEq] at hlast
    rw [hlast]
    exact hweight piece hsolid

/-- The groups of the code are the only ones that cover the sections. -/
theorem groups_eq_of_covers {chunks : List SourceChunk} {groups others : List (List SourceChunk)}
    (hshort : ∀ s ∈ outline source, bodyLines s.lines ≠ [] →
      (s.words source).length + 3 ≤ maxChunkChars)
    (hgroups : groups.flatten = chunks) (hmade : List.Forall₂ (IsGroup source) (outline source) groups)
    (hothers : others.flatten = chunks)
    (hcovers : List.Forall₂ (Covers source) (outline source) others) : groups = others := by
  have hall : ∀ (sections : List Outlined) (gs hs : List (List SourceChunk)),
      (∀ s ∈ sections, s ∈ outline source) → List.Forall₂ (IsGroup source) sections gs →
      List.Forall₂ (Covers source) sections hs →
      List.Forall₂ (fun g h => (g.map fun chunk =>
        weight source (chunk.sectionName, chunk.content)).sum = (h.map fun chunk =>
          weight source (chunk.sectionName, chunk.content)).sum) gs hs ∧
        ∀ g ∈ gs, (∀ chunk ∈ g.head?, 0 < weight source (chunk.sectionName, chunk.content)) ∧
          ∀ chunk ∈ g.getLast?, 0 < weight source (chunk.sectionName, chunk.content) := by
    intro sections gs hs hmem hgs hhs
    induction hgs generalizing hs with
    | nil =>
        rw [List.forall₂_nil_left_iff] at hhs
        rw [hhs]
        exact ⟨.nil, by simp⟩
    | @cons s g sections gs hg _ ih =>
        obtain ⟨other, rest, hother, hrest, rfl⟩ := List.forall₂_cons_left_iff.mp hhs
        rw [List.forall_mem_cons] at hmem
        obtain ⟨hsums, hends⟩ := ih rest hmem.2 hrest
        obtain ⟨hopened, cuts, hcuts, hbare⟩ := kept_of_isGroup hmem.1 hg (hshort s hmem.1)
        obtain ⟨cuts', hcuts', hbare'⟩ := hother.kept
        have hsum := sum_weight_of_kept hmem.1 (fun chunk hchunk => (hopened chunk hchunk).1)
          hcuts hbare
        have hsum' := sum_weight_of_kept hmem.1
          (fun chunk hchunk => (hother.opened chunk hchunk).1) hcuts' hbare'
        refine ⟨.cons (hsum.trans hsum'.symm) hsums, ?_⟩
        rw [List.forall_mem_cons]
        exact ⟨weight_pos_of_isGroup hmem.1 hg (hshort s hmem.1), hends⟩
  obtain ⟨hsums, hends⟩ := hall _ _ _ (fun _ h => h) hmade hcovers
  exact groups_unique hsums hends (hgroups.trans hothers.symm)

end

end Retrieval
