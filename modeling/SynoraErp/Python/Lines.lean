import Mathlib.Data.List.DropRight
import SynoraErp.Python.JsonLines

/-!
# Lines of a text

`str.splitlines`, `str.rstrip` and `"\n".join`, and what they keep of a text up to white space:
its trimmed lines.
-/

namespace Python

namespace Text

/-! ## Trimming -/

/-- `t.rstrip()`. -/
def rstrip (t : Text) : Text := t.rdropWhile isSpace

theorem strip_eq (t : Text) : strip t = rstrip (t.dropWhile isSpace) := rfl

theorem isBlank_iff {t : Text} : isBlank t = true ↔ ∀ c ∈ t, isSpace c = true := List.all_eq_true

theorem rstrip_eq_nil_iff {t : Text} : rstrip t = [] ↔ isBlank t = true := by
  rw [rstrip, List.rdropWhile_eq_nil_iff, isBlank_iff]

theorem isBlank_append {s t : Text} : isBlank (s ++ t) = (isBlank s && isBlank t) :=
  List.all_append

theorem isBlank_dropWhile (t : Text) : isBlank (t.dropWhile isSpace) = isBlank t := by
  induction t with
  | nil => rfl
  | cons c t ih =>
      by_cases hc : isSpace c = true
      · rw [List.dropWhile_cons_of_pos hc, ih]
        simp [isBlank, hc]
      · rw [List.dropWhile_cons_of_neg hc]

theorem strip_eq_nil_iff {t : Text} : strip t = [] ↔ isBlank t = true := by
  rw [strip_eq, rstrip_eq_nil_iff, isBlank_dropWhile]

/-- A text is its trimmed form between two runs of white space. -/
theorem rstrip_append (t : Text) : ∃ s, isBlank s = true ∧ rstrip t ++ s = t :=
  ⟨t.rtakeWhile isSpace, isBlank_iff.mpr fun _ hc => List.mem_rtakeWhile_imp hc,
    List.rdropWhile_append_rtakeWhile⟩

theorem rstrip_append_of_isBlank (t : Text) {s : Text} (hs : isBlank s = true) :
    rstrip (t ++ s) = rstrip t := by
  induction s using List.reverseRecOn with
  | nil => rw [List.append_nil]
  | append_singleton s c ih =>
      rw [isBlank_append, Bool.and_eq_true] at hs
      have hc : isSpace c = true := isBlank_iff.mp hs.2 c (List.mem_singleton_self c)
      rw [← List.append_assoc, rstrip, List.rdropWhile_concat_pos _ _ _ hc]
      exact ih hs.1

theorem rstrip_append_of_not_isBlank (s : Text) {t : Text} (ht : isBlank t = false) :
    rstrip (s ++ t) = s ++ rstrip t := by
  induction t using List.reverseRecOn with
  | nil => cases ht
  | append_singleton t c ih =>
      by_cases hc : isSpace c = true
      · have ht' : isBlank t = false := by
          rw [isBlank_append] at ht
          simpa [isBlank, hc] using ht
        rw [← List.append_assoc, rstrip, rstrip, List.rdropWhile_concat_pos _ _ _ hc,
          List.rdropWhile_concat_pos _ _ _ hc]
        exact ih ht'
      · rw [← List.append_assoc, rstrip, rstrip, List.rdropWhile_concat_neg _ _ _ hc,
          List.rdropWhile_concat_neg _ _ _ hc, List.append_assoc]

theorem strip_append_of_isBlank (t : Text) {s : Text} (hs : isBlank s = true) :
    strip (t ++ s) = strip t := by
  by_cases ht : isBlank t = true
  · rw [strip_eq_nil_iff.mpr ht, strip_eq_nil_iff, isBlank_append, ht, hs]
    rfl
  · have hdrop : t.dropWhile isSpace ≠ [] := by
      intro hnil
      exact ht (isBlank_iff.mpr (List.dropWhile_eq_nil_iff.mp hnil))
    have hcons : ((t.dropWhile isSpace).isEmpty) = false := by simpa using hdrop
    rw [strip_eq, List.dropWhile_append, hcons, if_neg Bool.false_ne_true,
      rstrip_append_of_isBlank _ hs, strip_eq]

theorem strip_rstrip (t : Text) : strip (rstrip t) = strip t := by
  obtain ⟨s, hs, ht⟩ := rstrip_append t
  conv_rhs => rw [← ht, strip_append_of_isBlank _ hs]

theorem isBlank_rstrip (t : Text) : isBlank (rstrip t) = isBlank t := by
  obtain ⟨s, hs, ht⟩ := rstrip_append t
  conv_rhs => rw [← ht, isBlank_append, hs, Bool.and_true]

theorem isBlank_strip (t : Text) : isBlank (strip t) = isBlank t := by
  rw [strip_eq, isBlank_rstrip, isBlank_dropWhile]

theorem mem_of_mem_strip {t : Text} {c : CodePoint} (h : c ∈ strip t) : c ∈ t :=
  (List.dropWhile_suffix isSpace).subset ((List.rdropWhile_prefix isSpace _).subset h)

theorem length_rstrip_le (t : Text) : (rstrip t).length ≤ t.length :=
  (List.rdropWhile_prefix isSpace t).length_le

theorem length_strip_le (t : Text) : (strip t).length ≤ t.length :=
  (length_rstrip_le _).trans (List.dropWhile_suffix isSpace).length_le

theorem mem_rstrip {t : Text} {c : CodePoint} (hc : c ∈ t) (hsolid : isSpace c = false) :
    c ∈ rstrip t := by
  obtain ⟨s, hs, ht⟩ := rstrip_append t
  rw [← ht, List.mem_append] at hc
  rcases hc with hc | hc
  · exact hc
  · rw [isBlank_iff.mp hs c hc] at hsolid
    cases hsolid

theorem mem_dropWhile {t : Text} {c : CodePoint} (hc : c ∈ t) (hsolid : isSpace c = false) :
    c ∈ t.dropWhile isSpace := by
  induction t with
  | nil => simp at hc
  | cons a t ih =>
      by_cases ha : isSpace a = true
      · rw [List.dropWhile_cons_of_pos ha]
        rcases List.mem_cons.mp hc with rfl | hc
        · rw [ha] at hsolid
          cases hsolid
        · exact ih hc
      · rwa [List.dropWhile_cons_of_neg ha]

/-- Only white space is trimmed. -/
theorem mem_strip {t : Text} {c : CodePoint} (hc : c ∈ t) (hsolid : isSpace c = false) :
    c ∈ strip t := by
  rw [strip_eq]
  exact mem_rstrip (mem_dropWhile hc hsolid) hsolid

/-- A text that neither begins nor ends with white space. -/
structure Solid (t : Text) : Prop where
  head : ∀ c ∈ t.head?, isSpace c = false
  last : ∀ c ∈ t.getLast?, isSpace c = false

theorem dropWhile_of_head {t : Text} (h : ∀ c ∈ t.head?, isSpace c = false) :
    t.dropWhile isSpace = t := by
  cases t with
  | nil => rfl
  | cons c t => exact List.dropWhile_cons_of_neg (by simp [h c rfl])

theorem rstrip_of_last {t : Text} (h : ∀ c ∈ t.getLast?, isSpace c = false) : rstrip t = t := by
  induction t using List.reverseRecOn with
  | nil => rfl
  | append_singleton t c ih =>
      exact List.rdropWhile_concat_neg _ _ _ (by simp [h c (by simp)])

theorem Solid.strip_eq {t : Text} (h : Solid t) : strip t = t := by
  rw [Text.strip_eq, dropWhile_of_head h.head, rstrip_of_last h.last]

theorem last_rstrip (t : Text) : ∀ c ∈ (rstrip t).getLast?, isSpace c = false := by
  induction t using List.reverseRecOn with
  | nil => simp [rstrip]
  | append_singleton t c ih =>
      by_cases hc : isSpace c = true
      · rw [rstrip, List.rdropWhile_concat_pos _ _ _ hc]
        exact ih
      · rw [rstrip, List.rdropWhile_concat_neg _ _ _ hc]
        simpa using hc

theorem head_dropWhile (t : Text) : ∀ c ∈ (t.dropWhile isSpace).head?, isSpace c = false := by
  induction t with
  | nil => simp
  | cons c t ih =>
      by_cases hc : isSpace c = true
      · rw [List.dropWhile_cons_of_pos hc]
        exact ih
      · rw [List.dropWhile_cons_of_neg hc]
        simpa using hc

/-- What is left of a text ends with something solid, and begins as the text does. -/
theorem head_rstrip {t : Text} (h : ∀ c ∈ t.head?, isSpace c = false) :
    ∀ c ∈ (rstrip t).head?, isSpace c = false := by
  obtain ⟨s, -, ht⟩ := rstrip_append t
  cases hrstrip : rstrip t with
  | nil => simp
  | cons a u =>
      rw [hrstrip, List.cons_append] at ht
      rw [← ht] at h
      simpa using h

theorem rstrip_dropWhile (t : Text) :
    rstrip (t.dropWhile isSpace) = (rstrip t).dropWhile isSpace := by
  induction t with
  | nil => rfl
  | cons c t ih =>
      by_cases hc : isSpace c = true
      · rw [List.dropWhile_cons_of_pos hc, ih]
        by_cases ht : isBlank t = true
        · have hcons : isBlank (c :: t) = true := by simpa [isBlank, hc] using ht
          rw [rstrip_eq_nil_iff.mpr ht, rstrip_eq_nil_iff.mpr hcons]
        · have hrstrip := rstrip_append_of_not_isBlank [c] (t := t) (by simpa using ht)
          rw [List.singleton_append, List.singleton_append] at hrstrip
          rw [hrstrip, List.dropWhile_cons_of_pos hc]
      · have hhead : ∀ a ∈ (c :: t).head?, isSpace a = false := by simpa using hc
        rw [List.dropWhile_cons_of_neg hc, dropWhile_of_head (head_rstrip hhead)]

theorem solid_strip (t : Text) : Solid (strip t) :=
  ⟨head_rstrip (head_dropWhile t), last_rstrip _⟩

theorem not_isBlank_of_head {t : Text} (hne : t ≠ []) (h : ∀ c ∈ t.head?, isSpace c = false) :
    isBlank t = false := by
  cases t with
  | nil => exact absurd rfl hne
  | cons c t => simp [isBlank, h c rfl]

theorem not_isBlank_of_last {t : Text} (hne : t ≠ []) (h : ∀ c ∈ t.getLast?, isSpace c = false) :
    isBlank t = false := by
  rw [Bool.eq_false_iff]
  intro hblank
  have hnil := rstrip_eq_nil_iff.mpr hblank
  rw [rstrip_of_last h] at hnil
  exact hne hnil

/-- Behind a solid text only what ends the whole is white space. -/
theorem Solid.strip_append {s : Text} (h : Solid s) (hne : s ≠ []) (t : Text) :
    strip (s ++ t) = s ++ rstrip t := by
  have hhead : ∀ c ∈ (s ++ t).head?, isSpace c = false := by
    cases s with
    | nil => exact absurd rfl hne
    | cons c s => simpa using h.head
  rw [Text.strip_eq, dropWhile_of_head hhead]
  by_cases ht : isBlank t = true
  · rw [rstrip_append_of_isBlank _ ht, rstrip_of_last h.last, rstrip_eq_nil_iff.mpr ht,
      List.append_nil]
  · rw [rstrip_append_of_not_isBlank s (by simpa using ht)]

/-! ## Words -/

/-- `t.split()`. -/
def words (t : Text) : List Text := (t.splitOnP isSpace).filter (· ≠ [])

/-- `" ".join(words)`. -/
def unwords (words : List Text) : Text := [(0x20 : CodePoint)].intercalate words

theorem forall_mem_splitOnP {α : Type*} {p : α → Bool} {l piece : List α}
    (h : piece ∈ l.splitOnP p) : ∀ a ∈ piece, p a = false := by
  induction l generalizing piece with
  | nil =>
      rw [List.splitOnP_nil, List.mem_singleton] at h
      simp [h]
  | cons a l ih =>
      rw [List.splitOnP_cons_eq_if_modifyHead] at h
      by_cases ha : p a = true
      · rw [if_pos ha, List.mem_cons] at h
        rcases h with rfl | h
        · simp
        · exact ih h
      · rw [if_neg ha] at h
        obtain ⟨first, rest, hsplit⟩ := List.exists_cons_of_ne_nil (List.splitOnP_ne_nil p l)
        rw [hsplit, List.modifyHead_cons, List.mem_cons] at h
        rcases h with rfl | h
        · rw [List.forall_mem_cons]
          exact ⟨by simpa using ha, ih (by rw [hsplit]; exact List.mem_cons_self)⟩
        · exact ih (by rw [hsplit]; exact List.mem_cons_of_mem _ h)

theorem mem_words {word t : Text} (h : word ∈ words t) :
    word ≠ [] ∧ ∀ c ∈ word, isSpace c = false := by
  rw [words, List.mem_filter, decide_eq_true_eq] at h
  exact ⟨h.2, forall_mem_splitOnP h.1⟩

theorem mem_of_mem_unwords {texts : List Text} {c : CodePoint} (hc : c ∈ unwords texts) :
    c = 0x20 ∨ ∃ word ∈ texts, c ∈ word := by
  induction texts with
  | nil => simp [unwords] at hc
  | cons word texts ih =>
      cases texts with
      | nil =>
          rw [unwords, List.intercalate_singleton] at hc
          exact .inr ⟨word, List.mem_cons_self, hc⟩
      | cons next texts =>
          rw [unwords, List.intercalate_cons_cons, ← unwords, List.append_assoc,
            List.singleton_append, List.mem_append, List.mem_cons] at hc
          rcases hc with hc | rfl | hc
          · exact .inr ⟨word, List.mem_cons_self, hc⟩
          · exact .inl rfl
          · rcases ih hc with rfl | ⟨other, hother, hcw⟩
            · exact .inl rfl
            · exact .inr ⟨other, List.mem_cons_of_mem _ hother, hcw⟩

theorem mem_of_mem_splitOnP {α : Type*} {p : α → Bool} {l piece : List α}
    (h : piece ∈ l.splitOnP p) : ∀ a ∈ piece, a ∈ l := by
  induction l generalizing piece with
  | nil =>
      rw [List.splitOnP_nil, List.mem_singleton] at h
      simp [h]
  | cons a l ih =>
      rw [List.splitOnP_cons_eq_if_modifyHead] at h
      by_cases ha : p a = true
      · rw [if_pos ha, List.mem_cons] at h
        rcases h with rfl | h
        · simp
        · exact fun b hb => List.mem_cons_of_mem _ (ih h b hb)
      · rw [if_neg ha] at h
        obtain ⟨first, rest, hsplit⟩ := List.exists_cons_of_ne_nil (List.splitOnP_ne_nil p l)
        rw [hsplit, List.modifyHead_cons, List.mem_cons] at h
        rcases h with rfl | h
        · rw [List.forall_mem_cons]
          refine ⟨List.mem_cons_self, fun b hb => List.mem_cons_of_mem _ (ih ?_ b hb)⟩
          rw [hsplit]
          exact List.mem_cons_self
        · refine fun b hb => List.mem_cons_of_mem _ (ih ?_ b hb)
          rw [hsplit]
          exact List.mem_cons_of_mem _ h

/-- Joining the words of a text adds nothing but spaces. -/
theorem mem_of_mem_unwords_words {t : Text} {c : CodePoint} (hc : c ∈ unwords (words t)) :
    c = 0x20 ∨ c ∈ t := by
  rcases mem_of_mem_unwords hc with rfl | ⟨word, hword, hcw⟩
  · exact .inl rfl
  · rw [words, List.mem_filter] at hword
    exact .inr (mem_of_mem_splitOnP hword.1 c hcw)

/-- Words joined by spaces neither begin nor end with one. -/
theorem solid_unwords {texts : List Text}
    (h : ∀ word ∈ texts, word ≠ [] ∧ ∀ c ∈ word, isSpace c = false) : Solid (unwords texts) := by
  induction texts with
  | nil => exact ⟨by simp [unwords], by simp [unwords]⟩
  | cons word texts ih =>
      rw [List.forall_mem_cons] at h
      obtain ⟨⟨hne, hword⟩, htexts⟩ := h
      have hsolid : Solid word :=
        ⟨fun c hc => hword c (List.mem_of_mem_head? hc), fun c hc =>
          hword c (List.mem_of_getLast? hc)⟩
      cases texts with
      | nil => rwa [unwords, List.intercalate_singleton]
      | cons next texts =>
          obtain ⟨-, hlast⟩ := ih htexts
          have hrest : unwords (next :: texts) ≠ [] := by
            intro hnil
            have hnext := (htexts next List.mem_cons_self).1
            cases texts with
            | nil => simp [unwords, hnext] at hnil
            | cons a texts =>
                rw [unwords, List.intercalate_cons_cons] at hnil
                simp [hnext] at hnil
          rw [unwords, List.intercalate_cons_cons, ← unwords]
          refine ⟨?_, ?_⟩
          · cases word with
            | nil => exact absurd rfl hne
            | cons c word => simpa using hword c List.mem_cons_self
          · rwa [List.getLast?_append_of_ne_nil _ hrest]

theorem solid_unwords_words (t : Text) : Solid (unwords (words t)) :=
  solid_unwords fun _ => mem_words

theorem unwords_eq_nil_iff {texts : List Text} (h : ∀ word ∈ texts, word ≠ []) :
    unwords texts = [] ↔ texts = [] := by
  cases texts with
  | nil => simp [unwords]
  | cons word texts =>
      have hword := h word List.mem_cons_self
      cases texts with
      | nil => simp [unwords, hword]
      | cons next texts =>
          rw [unwords, List.intercalate_cons_cons]
          simp [hword]

theorem words_eq_nil_iff {t : Text} : words t = [] ↔ isBlank t = true := by
  induction t with
  | nil => simp [words, isBlank]
  | cons c t ih =>
      by_cases hc : isSpace c = true
      · rw [words, List.splitOnP_cons_eq_if_modifyHead, if_pos hc]
        rw [words] at ih
        simpa [isBlank, hc] using ih
      · obtain ⟨first, rest, hsplit⟩ := List.exists_cons_of_ne_nil
          (List.splitOnP_ne_nil isSpace t)
        rw [words, List.splitOnP_cons_eq_if_modifyHead, if_neg hc, hsplit, List.modifyHead_cons]
        simp [isBlank, hc]

/-- A text has words unless it is blank. -/
theorem unwords_words_eq_nil_iff {t : Text} : unwords (words t) = [] ↔ isBlank t = true := by
  rw [unwords_eq_nil_iff fun word hword => (mem_words hword).1, words_eq_nil_iff]

/-! ## Lines -/

theorem isSpace_of_isLineBreak {c : CodePoint} (h : isLineBreak c = true) : isSpace c = true := by
  simp only [isLineBreak, Bool.or_eq_true, Bool.and_eq_true, decide_eq_true_eq, beq_iff_eq] at h
  simp only [isSpace, Bool.or_eq_true, Bool.and_eq_true, decide_eq_true_eq, List.contains_eq_mem,
    List.mem_cons, List.not_mem_nil, or_false]
  omega

/-- `"\n".join(lines)`. -/
def joinWithLineFeeds (lines : List Text) : Text := [(0x0A : CodePoint)].intercalate lines

theorem joinWithLineFeeds_cons_cons (line next : Text) (lines : List Text) :
    joinWithLineFeeds (line :: next :: lines) =
      line ++ lineFeed :: joinWithLineFeeds (next :: lines) := by
  rw [joinWithLineFeeds, List.intercalate_cons_cons, List.append_assoc, List.singleton_append,
    joinWithLineFeeds]

@[simp] theorem joinWithLineFeeds_nil : joinWithLineFeeds [] = [] := rfl

@[simp] theorem joinWithLineFeeds_singleton (line : Text) : joinWithLineFeeds [line] = line :=
  List.intercalate_singleton

/-- A line has no break in it. -/
def IsLine (line : Text) : Prop := ∀ c ∈ line, isLineBreak c = false

theorem IsLine.rstrip {line : Text} (h : IsLine line) : IsLine (rstrip line) :=
  fun c hc => h c ((List.rdropWhile_prefix isSpace line).subset hc)

/-! ## What is kept -/

/-- The lines of a text that are not blank, without white space at their right ends. -/
def trimmed (lines : List Text) : List Text := (lines.filter fun line => !isBlank line).map rstrip

/-- The trimmed lines of a text. -/
def trimmedLines (t : Text) : List Text := trimmed (t.splitOnP isLineBreak)

/-- The lines of a text that are not blank, without white space at their ends. -/
def bare (lines : List Text) : List Text := (lines.filter fun line => !isBlank line).map strip

/-- The bare lines of a text. -/
def bareLines (t : Text) : List Text := bare (t.splitOnP isLineBreak)

@[simp] theorem trimmed_nil : trimmed [] = [] := rfl

@[simp] theorem bare_nil : bare [] = [] := rfl

theorem bare_eq (lines : List Text) : bare lines = (trimmed lines).map strip := by
  rw [bare, trimmed, List.map_map]
  congr 1
  funext line
  exact (strip_rstrip line).symm

theorem bareLines_eq (t : Text) : bareLines t = (trimmedLines t).map strip := bare_eq _

theorem trimmed_cons (line : Text) (lines : List Text) :
    trimmed (line :: lines) =
      if isBlank line then trimmed lines else rstrip line :: trimmed lines := by
  by_cases h : isBlank line = true
  · simp [trimmed, h]
  · simp [trimmed, h]

theorem bare_append (lines more : List Text) : bare (lines ++ more) = bare lines ++ bare more := by
  rw [bare, List.filter_append, List.map_append, bare, bare]

theorem trimmed_map_rstrip (lines : List Text) : trimmed (lines.map rstrip) = trimmed lines := by
  induction lines with
  | nil => rfl
  | cons line lines ih =>
      rw [List.map_cons, trimmed_cons, trimmed_cons, isBlank_rstrip, rstrip_of_last
        (last_rstrip line), ih]

/-- Lines that differ in white space at their right ends have the same trimmed form. -/
theorem trimmed_congr {s t : Text} (h : rstrip s = rstrip t) (lines : List Text) :
    trimmed (s :: lines) = trimmed (t :: lines) := by
  rw [trimmed_cons, trimmed_cons, ← isBlank_rstrip s, h, isBlank_rstrip]

theorem trimmed_blank_cons {line : Text} (h : isBlank line = true) (lines : List Text) :
    trimmed (line :: lines) = trimmed lines := by
  rw [trimmed_cons, if_pos h]

theorem modifyHead_nil_append (lines : List Text) : lines.modifyHead ([] ++ ·) = lines := by
  cases lines <;> rfl

/-- White space ahead of a text is lost from its first line. -/
theorem trimmedLines_cons {c : CodePoint} (hc : isSpace c = true) (t : Text) :
    (trimmedLines (c :: t)).modifyHead (List.dropWhile isSpace) =
      (trimmedLines t).modifyHead (List.dropWhile isSpace) := by
  rw [trimmedLines, trimmedLines, List.splitOnP_cons_eq_if_modifyHead]
  by_cases hbreak : isLineBreak c = true
  · rw [if_pos hbreak, trimmed_blank_cons rfl]
  · rw [if_neg hbreak]
    obtain ⟨line, lines, hlines⟩ := List.exists_cons_of_ne_nil (List.splitOnP_ne_nil isLineBreak t)
    have hblank : isBlank (c :: line) = isBlank line := by simp [isBlank, hc]
    rw [hlines, List.modifyHead_cons, trimmed_cons, trimmed_cons, hblank]
    by_cases hline : isBlank line = true
    · rw [if_pos hline, if_pos hline]
    · have hrstrip := rstrip_append_of_not_isBlank [c] (t := line) (by simpa using hline)
      rw [List.singleton_append, List.singleton_append] at hrstrip
      rw [if_neg hline, if_neg hline, List.modifyHead_cons, List.modifyHead_cons, hrstrip,
        List.dropWhile_cons_of_pos hc]

theorem trimmedLines_dropWhile (t : Text) :
    trimmedLines (t.dropWhile isSpace) =
      (trimmedLines t).modifyHead (List.dropWhile isSpace) := by
  induction t with
  | nil => rfl
  | cons c t ih =>
      by_cases hc : isSpace c = true
      · rw [List.dropWhile_cons_of_pos hc, ih, trimmedLines_cons hc]
      · have hbreak : ¬isLineBreak c = true := fun h => hc (isSpace_of_isLineBreak h)
        obtain ⟨line, lines, hlines⟩ := List.exists_cons_of_ne_nil
          (List.splitOnP_ne_nil isLineBreak t)
        have hhead : ∀ a ∈ (c :: line).head?, isSpace a = false := by simpa using hc
        have hline : ¬isBlank (c :: line) = true := by
          simpa using not_isBlank_of_head (List.cons_ne_nil _ _) hhead
        rw [List.dropWhile_cons_of_neg hc, trimmedLines, List.splitOnP_cons_eq_if_modifyHead,
          if_neg hbreak, hlines, List.modifyHead_cons, trimmed_cons, if_neg hline,
          List.modifyHead_cons, dropWhile_of_head (head_rstrip hhead)]

/-- White space behind a text is not kept, whatever the first line begins with. -/
theorem trimmed_modifyHead_concat {c : CodePoint} (hc : isSpace c = true) (start t : Text) :
    trimmed (((t ++ [c]).splitOnP isLineBreak).modifyHead (start ++ ·)) =
      trimmed ((t.splitOnP isLineBreak).modifyHead (start ++ ·)) := by
  induction t generalizing start with
  | nil =>
      have hblank : isBlank [c] = true := by simp [isBlank, hc]
      rw [List.nil_append, List.splitOnP_cons_eq_if_modifyHead, List.splitOnP_nil]
      by_cases hbreak : isLineBreak c = true
      · rw [if_pos hbreak]
        simp only [List.modifyHead_cons]
        rw [List.append_nil, trimmed_cons start, trimmed_cons start, trimmed_blank_cons rfl]
      · rw [if_neg hbreak]
        simp only [List.modifyHead_cons, List.append_nil]
        exact trimmed_congr (rstrip_append_of_isBlank start hblank) []
  | cons a t ih =>
      rw [List.cons_append, List.splitOnP_cons_eq_if_modifyHead, List.splitOnP_cons_eq_if_modifyHead]
      by_cases hbreak : isLineBreak a = true
      · rw [if_pos hbreak, if_pos hbreak]
        simp only [List.modifyHead_cons, List.append_nil]
        have hrest := ih []
        rw [modifyHead_nil_append, modifyHead_nil_append] at hrest
        rw [trimmed_cons, trimmed_cons]
        rw [hrest]
      · rw [if_neg hbreak, if_neg hbreak, List.modifyHead_modifyHead, List.modifyHead_modifyHead]
        have hrest := ih (start ++ [a])
        have hfun : (fun line : Text => start ++ [a] ++ line) = (start ++ ·) ∘ List.cons a := by
          funext line
          simp
        rw [hfun] at hrest
        exact hrest

theorem trimmedLines_concat {c : CodePoint} (hc : isSpace c = true) (t : Text) :
    trimmedLines (t ++ [c]) = trimmedLines t := by
  have h := trimmed_modifyHead_concat hc [] t
  rwa [modifyHead_nil_append, modifyHead_nil_append] at h

theorem trimmedLines_rstrip (t : Text) : trimmedLines (rstrip t) = trimmedLines t := by
  induction t using List.reverseRecOn with
  | nil => rfl
  | append_singleton t c ih =>
      by_cases hc : isSpace c = true
      · rw [rstrip, List.rdropWhile_concat_pos _ _ _ hc, trimmedLines_concat hc]
        exact ih
      · rw [rstrip, List.rdropWhile_concat_neg _ _ _ hc]

/-- Trimming a text trims its first line on the left. -/
theorem trimmedLines_strip (t : Text) :
    trimmedLines (strip t) = (trimmedLines t).modifyHead (List.dropWhile isSpace) := by
  rw [strip_eq, trimmedLines_rstrip, trimmedLines_dropWhile]

theorem strip_dropWhile (t : Text) : strip (t.dropWhile isSpace) = strip t := by
  rw [strip_eq, List.dropWhile_idempotent, strip_eq]

theorem bareLines_rstrip (t : Text) : bareLines (rstrip t) = bareLines t := by
  rw [bareLines_eq, trimmedLines_rstrip, bareLines_eq]

theorem bareLines_strip (t : Text) : bareLines (strip t) = bareLines t := by
  rw [bareLines_eq, trimmedLines_strip, bareLines_eq]
  cases trimmedLines t with
  | nil => rfl
  | cons line lines => rw [List.modifyHead_cons, List.map_cons, strip_dropWhile, List.map_cons]

theorem bareLines_cons_of_isLineBreak {c : CodePoint} (hc : isLineBreak c = true) (t : Text) :
    bareLines (c :: t) = bareLines t := by
  rw [bareLines, List.splitOnP_cons_eq_if_modifyHead, if_pos hc, bare, List.filter_cons_of_neg,
    bareLines, bare]
  simp [isBlank]

/-- The trimmed lines of joined lines are those of the lines. -/
theorem trimmedLines_join {lines : List Text} (h : ∀ line ∈ lines, IsLine line) :
    trimmedLines (joinWithLineFeeds lines) = trimmed lines := by
  induction lines with
  | nil => rfl
  | cons line lines ih =>
      rw [List.forall_mem_cons] at h
      cases lines with
      | nil => rw [joinWithLineFeeds_singleton, trimmedLines, List.splitOnP_eq_singleton h.1]
      | cons next lines =>
          have hrest := ih h.2
          rw [trimmedLines] at hrest
          rw [joinWithLineFeeds_cons_cons, trimmedLines,
            List.splitOnP_append_cons_of_forall_mem h.1 _ (by decide), trimmed_cons, trimmed_cons,
            hrest]

theorem bareLines_join {lines : List Text} (h : ∀ line ∈ lines, IsLine line) :
    bareLines (joinWithLineFeeds lines) = bare lines := by
  rw [bareLines_eq, trimmedLines_join h, bare_eq]

theorem bareLines_of_isLine {line : Text} (h : IsLine line) : bareLines line = bare [line] := by
  have hline : ∀ l ∈ [line], IsLine l := by simpa using h
  have hjoin := bareLines_join hline
  rwa [joinWithLineFeeds_singleton] at hjoin

theorem bare_of_isLine {lines : List Text} (h : ∀ line ∈ lines, IsLine line) :
    bare lines = lines.flatMap bareLines := by
  induction lines with
  | nil => rfl
  | cons line lines ih =>
      rw [List.forall_mem_cons] at h
      rw [List.flatMap_cons, bareLines_of_isLine h.1, ← ih h.2, ← bare_append,
        List.singleton_append]

/-- The lines that are read, with the beginning of the first. -/
theorem trimmed_breakLines (line t : Text) :
    trimmed (breakLines line t) = trimmed ((t.splitOnP isLineBreak).modifyHead (line ++ ·)) := by
  induction t generalizing line with
  | nil =>
      rw [breakLines, List.splitOnP_nil, List.modifyHead_cons, List.append_nil]
      by_cases hline : line = []
      · rw [if_pos hline, hline]
        rfl
      · rw [if_neg hline]
  | cons c t ih =>
      rw [breakLines, List.splitOnP_cons_eq_if_modifyHead]
      by_cases hbreak : isLineBreak c = true
      · rw [if_pos hbreak, if_pos hbreak, List.modifyHead_cons, List.append_nil, trimmed_cons,
          trimmed_cons, ih [], modifyHead_nil_append]
      · rw [if_neg hbreak, if_neg hbreak, ih, List.modifyHead_modifyHead]
        congr 2
        funext rest
        simp

/-- Reading carriage returns as line feeds keeps the trimmed lines; behind a carriage return
nothing has been read of the line. -/
theorem trimmed_universalNewlines (afterReturn : Bool) (start t : Text)
    (hstart : afterReturn = true → start = []) :
    trimmed (((universalNewlines afterReturn t).splitOnP isLineBreak).modifyHead (start ++ ·)) =
      trimmed ((t.splitOnP isLineBreak).modifyHead (start ++ ·)) := by
  induction t generalizing afterReturn start with
  | nil => rfl
  | cons c t ih =>
      have hempty := ih false [] (by simp)
      have hreturn := ih true [] (by simp)
      rw [modifyHead_nil_append, modifyHead_nil_append] at hempty hreturn
      have hfeed : isLineBreak lineFeed = true := by decide
      rw [universalNewlines, List.splitOnP_cons_eq_if_modifyHead c t]
      by_cases hc : c = carriageReturn
      · have hbreak : isLineBreak c = true := by rw [hc]; decide
        rw [if_pos hc, List.splitOnP_cons_eq_if_modifyHead, if_pos hfeed, if_pos hbreak,
          List.modifyHead_cons, List.modifyHead_cons, trimmed_cons, trimmed_cons, hreturn]
      · rw [if_neg hc]
        by_cases hdropped : c = lineFeed ∧ afterReturn = true
        · have hbreak : isLineBreak c = true := by rw [hdropped.1, hfeed]
          rw [if_pos hdropped, if_pos hbreak, hstart hdropped.2, modifyHead_nil_append,
            modifyHead_nil_append, hempty, trimmed_blank_cons rfl]
        · rw [if_neg hdropped, List.splitOnP_cons_eq_if_modifyHead]
          by_cases hbreak : isLineBreak c = true
          · rw [if_pos hbreak, if_pos hbreak, List.modifyHead_cons, List.modifyHead_cons,
              trimmed_cons, trimmed_cons, hempty]
          · have hrest := ih false (start ++ [c]) (by simp)
            have hfun : (fun line : Text => start ++ [c] ++ line) = (start ++ ·) ∘ List.cons c := by
              funext line
              simp
            rw [hfun] at hrest
            rw [if_neg hbreak, if_neg hbreak, List.modifyHead_modifyHead, List.modifyHead_modifyHead]
            exact hrest

/-- Splitting into lines keeps the trimmed lines. -/
theorem trimmed_splitlines (t : Text) : trimmed (splitlines t) = trimmedLines t := by
  have h := trimmed_universalNewlines false [] t (by simp)
  rw [modifyHead_nil_append, modifyHead_nil_append] at h
  rw [splitlines, trimmed_breakLines, modifyHead_nil_append, h, trimmedLines]

theorem isLine_of_mem_breakLines {start line t : Text} (hstart : IsLine start)
    (h : line ∈ breakLines start t) : IsLine line := by
  induction t generalizing start with
  | nil =>
      rw [breakLines] at h
      by_cases hnil : start = []
      · simp [hnil] at h
      · rw [if_neg hnil, List.mem_singleton] at h
        exact h ▸ hstart
  | cons c t ih =>
      rw [breakLines] at h
      by_cases hbreak : isLineBreak c = true
      · rw [if_pos hbreak, List.mem_cons] at h
        rcases h with rfl | h
        · exact hstart
        · exact ih (by simp [IsLine]) h
      · rw [if_neg hbreak] at h
        refine ih ?_ h
        intro a ha
        rw [List.mem_append, List.mem_singleton] at ha
        rcases ha with ha | rfl
        · exact hstart a ha
        · simpa using hbreak

/-- What a text is split into are lines. -/
theorem isLine_of_mem_splitlines {line t : Text} (h : line ∈ splitlines t) : IsLine line :=
  isLine_of_mem_breakLines (by simp [IsLine]) h

/-! ## What is not white space -/

/-- How much of a text is not white space. -/
def solidCount (t : Text) : ℕ := t.countP fun c => !isSpace c

theorem solidCount_append (s t : Text) : solidCount (s ++ t) = solidCount s + solidCount t :=
  List.countP_append

theorem solidCount_eq_zero_iff {t : Text} : solidCount t = 0 ↔ isBlank t = true := by
  rw [solidCount, List.countP_eq_zero, isBlank_iff]
  simp

theorem solidCount_strip (t : Text) : solidCount (strip t) = solidCount t := by
  have hdrop : solidCount (t.dropWhile isSpace) = solidCount t := by
    induction t with
    | nil => rfl
    | cons c t ih =>
        by_cases hc : isSpace c = true
        · rw [List.dropWhile_cons_of_pos hc, ih]
          simp [solidCount, hc]
        · rw [List.dropWhile_cons_of_neg hc]
  obtain ⟨s, hs, ht⟩ := rstrip_append (t.dropWhile isSpace)
  rw [← hdrop, ← ht, solidCount_append, solidCount_eq_zero_iff.mpr hs, Nat.add_zero, strip_eq]

theorem sum_solidCount_bare (lines : List Text) :
    ((bare lines).map solidCount).sum = (lines.map solidCount).sum := by
  induction lines with
  | nil => rfl
  | cons line lines ih =>
      rw [← List.singleton_append, bare_append, List.map_append, List.sum_append, ih,
        List.map_append, List.sum_append]
      congr 1
      by_cases hblank : isBlank line = true
      · simp [bare, hblank, solidCount_eq_zero_iff.mpr hblank]
      · simp [bare, hblank, solidCount_strip]

theorem solidCount_flatten (lines : List Text) :
    solidCount lines.flatten = (lines.map solidCount).sum := by
  induction lines with
  | nil => rfl
  | cons line lines ih =>
      rw [List.flatten_cons, solidCount_append, ih, List.map_cons, List.sum_cons]

/-- The bare lines of a text keep all of it that is not white space. -/
theorem sum_solidCount_bareLines (t : Text) :
    ((bareLines t).map solidCount).sum = solidCount t := by
  rw [bareLines, sum_solidCount_bare]
  induction t with
  | nil => rfl
  | cons c t ih =>
      have hcons : ∀ u, solidCount (c :: u) = solidCount [c] + solidCount u :=
        solidCount_append [c]
      rw [List.splitOnP_cons_eq_if_modifyHead, hcons, ← ih]
      by_cases hbreak : isLineBreak c = true
      · have hc := isSpace_of_isLineBreak hbreak
        rw [if_pos hbreak, List.map_cons, List.sum_cons]
        simp [solidCount, hc]
      · obtain ⟨line, lines, hlines⟩ := List.exists_cons_of_ne_nil
          (List.splitOnP_ne_nil isLineBreak t)
        rw [if_neg hbreak, hlines, List.modifyHead_cons, List.map_cons, List.sum_cons,
          List.map_cons, List.sum_cons, hcons, Nat.add_assoc]

end Text

end Python
