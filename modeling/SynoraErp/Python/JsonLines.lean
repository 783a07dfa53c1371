import SynoraErp.Python.JsonRoundTrip

/-!
# JSON lines

`json.dumps` with `ensure_ascii=True` and any separators, the reader of a file in text
mode, `str.splitlines`, and the file of JSON objects, one in a line, that is read back
line by line.
-/

namespace Python

namespace Json

/-! ## The ASCII writer -/

/-- The escape of a UTF-16 code unit. -/
def unitEscape (u : ℕ) : Text :=
  [backslash, 0x75, hexDigit ⟨u / 4096 % 16, by omega⟩, hexDigit ⟨u / 256 % 16, by omega⟩,
    hexDigit ⟨u / 16 % 16, by omega⟩, hexDigit ⟨u % 16, by omega⟩]

/-- One code point of a JSON string with `ensure_ascii=True`; past the basic plane it is
written as a pair of surrogates. -/
def escapeAscii (c : CodePoint) : Text :=
  if c.val ≤ 0x7E then escape c
  else if c.val < 0x10000 then unitEscape c.val
  else unitEscape (0xD800 + (c.val - 0x10000) / 0x400) ++
    unitEscape (0xDC00 + (c.val - 0x10000) % 0x400)

/-- A JSON string with `ensure_ascii=True`. -/
def asciiString (t : Text) : Text := quote :: (t.flatMap escapeAscii ++ [quote])

/-- What a writer puts between two items and after a key. -/
structure Separators where
  item : Text
  key : Text

/-- The separators a writer has by default. -/
def Separators.spaced : Separators := ⟨", ", ": "⟩

def Separators.compact : Separators := ⟨",", ":"⟩

mutual

/-- The ASCII text of a value, in the order its entries have. -/
def asciiText (I : Interpreter) (separators : Separators) : Value → Text
  | .none => "null"
  | .bool true => "true"
  | .bool false => "false"
  | .int n => intText n
  | .float x => I.floatRepr x
  | .str t => asciiString t
  | .list xs => openBracket :: (asciiItems I separators true xs ++ [closeBracket])
  | .dict entries => openBrace :: (asciiEntries I separators true entries ++ [closeBrace])

def asciiItems (I : Interpreter) (separators : Separators) : Bool → List Value → Text
  | _, [] => []
  | first, x :: xs => (if first then [] else separators.item) ++
      (asciiText I separators x ++ asciiItems I separators false xs)

def asciiEntries (I : Interpreter) (separators : Separators) :
    Bool → List (Text × Value) → Text
  | _, [] => []
  | first, (k, v) :: entries => (if first then [] else separators.item) ++
      (asciiString k ++ (separators.key ++
        (asciiText I separators v ++ asciiEntries I separators false entries)))

end

/-! ## Objects of strings -/

/-- Nothing but printable ASCII characters. -/
def Printable (t : Text) : Prop := ∀ c ∈ t, 0x20 ≤ c.val ∧ c.val ≤ 0x7E

instance instDecidablePrintable (t : Text) : Decidable (Printable t) :=
  List.decidableBAll (fun c : CodePoint => 0x20 ≤ c.val ∧ c.val ≤ 0x7E) t

theorem Printable.append {s t : Text} (hs : Printable s) (ht : Printable t) :
    Printable (s ++ t) := by
  intro c hc
  rcases List.mem_append.mp hc with h | h
  · exact hs c h
  · exact ht c h

theorem printable_cons {c : CodePoint} {t : Text} :
    Printable (c :: t) ↔ (0x20 ≤ c.val ∧ c.val ≤ 0x7E) ∧ Printable t := List.forall_mem_cons

theorem Printable.flatMap {t : Text} {f : CodePoint → Text} (h : ∀ c ∈ t, Printable (f c)) :
    Printable (t.flatMap f) := by
  intro d hd
  obtain ⟨c, hc, hdc⟩ := List.mem_flatMap.mp hd
  exact h c hc d hdc

theorem printable_escape {c : CodePoint} (h : 0x20 ≤ c.val ∧ c.val ≤ 0x7E) :
    Printable (escape c) := by
  unfold escape
  split
  case h_1 letter hletter =>
    have hmem : (c, letter) ∈ shortEscapes := by
      rw [List.lookup_eq_some_iff] at hletter
      obtain ⟨l₁, l₂, hsplit, -⟩ := hletter
      simp [hsplit]
    simp only [shortEscapes, List.mem_cons, List.not_mem_nil, or_false, Prod.mk.injEq] at hmem
    rcases hmem with ⟨-, rfl⟩ | ⟨-, rfl⟩ | ⟨-, rfl⟩ | ⟨-, rfl⟩ | ⟨-, rfl⟩ | ⟨-, rfl⟩ | ⟨-, rfl⟩ <;>
      decide
  case h_2 =>
    rw [if_neg (by omega)]
    intro d hd
    rw [List.mem_singleton.mp hd]
    exact h

/-- On printable text the two writers of strings agree. -/
theorem asciiString_of_printable {t : Text} (h : Printable t) : asciiString t = encodeString t := by
  rw [asciiString, encodeString]
  have hflat : t.flatMap escapeAscii = t.flatMap escape := by
    apply List.flatMap_congr
    intro c hc
    rw [escapeAscii, if_pos (h c hc).2]
  rw [hflat]

theorem printable_encodeString {t : Text} (h : Printable t) : Printable (encodeString t) := by
  have hflat : Printable (t.flatMap escape) := Printable.flatMap fun c hc => printable_escape (h c hc)
  have hquote : Printable [quote] := by decide
  rw [encodeString, ← List.singleton_append]
  exact hquote.append (hflat.append hquote)

/-- An object whose values are strings. -/
def stringEntries (entries : List (Text × Text)) : List (Text × Value) :=
  entries.map fun entry => (entry.1, .str entry.2)

/-- All keys and values are printable. -/
def PrintableEntries (entries : List (Text × Text)) : Prop :=
  ∀ entry ∈ entries, Printable entry.1 ∧ Printable entry.2

section Spaced

variable (I : Interpreter) {hooks : Hooks}

theorem skipSpace_space (t : Text) : skipSpace (0x20 :: t) = skipSpace t := by
  simp [skipSpace, isJsonSpace]

theorem skipSpace_encodeString (s t : Text) :
    skipSpace (encodeString s ++ t) = encodeString s ++ t :=
  skipSpace_cons _ (by decide)

/-- All but the first entry follow a comma and a space. -/
theorem asciiEntries_false_cons (entry : Text × Value) (entries : List (Text × Value)) :
    asciiEntries I .spaced false (entry :: entries) =
      comma :: 0x20 :: asciiEntries I .spaced true (entry :: entries) := by
  obtain ⟨k, v⟩ := entry
  have hitem : Separators.spaced.item = [comma, 0x20] := by decide
  simp [asciiEntries, hitem]

theorem asciiEntries_true_cons {k s : Text} (hk : Printable k) (hs : Printable s)
    (entries : List (Text × Value)) :
    asciiEntries I .spaced true ((k, .str s) :: entries) =
      encodeString k ++ (colon :: 0x20 :: (encodeString s ++
        asciiEntries I .spaced false entries)) := by
  have hkey : Separators.spaced.key = [colon, 0x20] := by decide
  rw [asciiEntries, if_pos rfl, asciiText, asciiString_of_printable hk,
    asciiString_of_printable hs, hkey]
  rfl

/-- The reader inverts the writer on the entries of an object of strings. -/
theorem scanEntries_asciiEntries (entry : Text × Text) (entries : List (Text × Text)) (fuel : ℕ)
    (t : Text) (h : PrintableEntries (entry :: entries))
    (hfuel : (asciiEntries I .spaced true (stringEntries (entry :: entries))).length < fuel) :
    scanEntries I hooks fuel
        (asciiEntries I .spaced true (stringEntries (entry :: entries)) ++ closeBrace :: t) =
      some (stringEntries (entry :: entries), t) := by
  obtain ⟨k, s⟩ := entry
  obtain ⟨fuel, rfl⟩ : ∃ n, fuel = n + 1 := ⟨fuel - 1, by omega⟩
  obtain ⟨hk, hs⟩ := h (k, s) List.mem_cons_self
  have hsplit : stringEntries ((k, s) :: entries) = (k, .str s) :: stringEntries entries := rfl
  rw [hsplit, asciiEntries_true_cons I hk hs] at hfuel ⊢
  simp only [List.length_append, List.length_cons] at hfuel
  have hkey : k.length < fuel + 1 := by
    have hle := length_le_flatMap_escape k
    simp only [encodeString, List.length_cons, List.length_append, List.length_nil] at hfuel
    omega
  have hvalue : ∀ u, scanValue I hooks fuel (encodeString s ++ u) = some (.str s, u) := by
    intro u
    obtain ⟨n, rfl⟩ : ∃ n, fuel = n + 1 := ⟨fuel - 1, by simp [encodeString] at hfuel; omega⟩
    exact scanValue_encodeString I hooks n s u (by omega)
  rw [List.append_assoc, encodeString]
  simp only [List.cons_append, List.append_assoc, List.nil_append]
  rw [scanEntries, if_pos rfl, scanString_flatMap_escape k _ _ hkey]
  simp only [Option.bind_eq_bind, Option.bind_some]
  rw [skipSpace_cons _ (by decide)]
  simp only [if_true]
  rw [skipSpace_space, skipSpace_encodeString, hvalue]
  simp only [Option.bind_some]
  cases entries with
  | nil =>
      rw [stringEntries, List.map_nil, asciiEntries, List.nil_append, skipSpace_cons _ (by decide)]
      rfl
  | cons next entries =>
      have hrest : PrintableEntries (next :: entries) := fun entry hentry =>
        h entry (List.mem_cons_of_mem _ hentry)
      have hcons : stringEntries (next :: entries) =
          (next.1, .str next.2) :: stringEntries entries := rfl
      rw [hcons, asciiEntries_false_cons] at hfuel ⊢
      have hlength : (asciiEntries I .spaced true (stringEntries (next :: entries))).length <
          fuel := by
        rw [hcons]
        simp only [List.length_cons] at hfuel
        omega
      have hnext := scanEntries_asciiEntries next entries fuel t hrest hlength
      have hhead : ∀ u, skipSpace
          (asciiEntries I .spaced true ((next.1, .str next.2) :: stringEntries entries) ++ u) =
            asciiEntries I .spaced true ((next.1, .str next.2) :: stringEntries entries) ++ u := by
        intro u
        rw [asciiEntries_true_cons I (hrest next List.mem_cons_self).1
          (hrest next List.mem_cons_self).2, List.append_assoc]
        exact skipSpace_encodeString next.1 _
      rw [hcons] at hnext
      rw [List.cons_append, List.cons_append, skipSpace_cons _ (by decide)]
      simp only [if_true]
      rw [skipSpace_space, hhead, hnext]
      rfl
termination_by entries.length

theorem printable_asciiEntries (first : Bool) {entries : List (Text × Text)}
    (h : PrintableEntries entries) :
    Printable (asciiEntries I .spaced first (stringEntries entries)) := by
  induction entries generalizing first with
  | nil =>
      intro c hc
      simp [stringEntries, asciiEntries] at hc
  | cons entry entries ih =>
      obtain ⟨k, s⟩ := entry
      obtain ⟨hk, hs⟩ := h (k, s) List.mem_cons_self
      have hrest := ih false fun entry hentry => h entry (List.mem_cons_of_mem _ hentry)
      have hitem : Printable (if first then [] else Separators.spaced.item) := by
        cases first with
        | true => decide
        | false => decide
      have hkey : Printable Separators.spaced.key := by decide
      have hsplit : stringEntries ((k, s) :: entries) = (k, .str s) :: stringEntries entries := rfl
      rw [hsplit, asciiEntries, asciiText, asciiString_of_printable hk,
        asciiString_of_printable hs]
      exact hitem.append ((printable_encodeString hk).append (hkey.append
        ((printable_encodeString hs).append hrest)))

theorem printable_asciiText {entries : List (Text × Text)} (h : PrintableEntries entries) :
    Printable (asciiText I .spaced (.dict (stringEntries entries))) := by
  have hopen : Printable [openBrace] := by decide
  have hclose : Printable [closeBrace] := by decide
  rw [asciiText, ← List.singleton_append]
  exact hopen.append ((printable_asciiEntries I true h).append hclose)

/-- An object of strings is read back from its text. -/
theorem loads_asciiText (hhooks : hooks.KeepDistinct) (entry : Text × Text)
    (entries : List (Text × Text)) (h : PrintableEntries (entry :: entries))
    (hkeys : (Dict.keys (stringEntries (entry :: entries))).Nodup) :
    loads I hooks (asciiText I .spaced (.dict (stringEntries (entry :: entries)))) =
      some (.dict (stringEntries (entry :: entries))) := by
  obtain ⟨hk, hs⟩ := h entry List.mem_cons_self
  have hcons : stringEntries (entry :: entries) =
      (entry.1, .str entry.2) :: stringEntries entries := rfl
  have hscan := @scanEntries_asciiEntries I hooks entry entries
    ((asciiEntries I .spaced true (stringEntries (entry :: entries))).length + 2) [] h (by omega)
  have hhead : ∀ u, skipSpace
      (asciiEntries I .spaced true (stringEntries (entry :: entries)) ++ u) =
        asciiEntries I .spaced true (stringEntries (entry :: entries)) ++ u := by
    intro u
    rw [hcons, asciiEntries_true_cons I hk hs, List.append_assoc]
    exact skipSpace_encodeString entry.1 _
  have hfirst : ∀ u, (asciiEntries I .spaced true (stringEntries (entry :: entries)) ++ u).head? =
      some quote := by
    intro u
    rw [hcons, asciiEntries_true_cons I hk hs, encodeString]
    rfl
  have hbrace : ¬(some quote = some closeBrace) := by decide
  rw [asciiText, loads, List.head?_cons, if_neg (by decide), skipSpace_cons _ (by decide),
    List.length_cons, List.length_append, List.length_singleton, scanValue, if_neg (by decide),
    if_pos rfl, hhead, hfirst, if_neg hbrace, hscan]
  simp [hhooks _ hkeys, skipSpace]

end Spaced

end Json

/-! ## Lines -/

namespace Text

abbrev lineFeed : CodePoint := 0x0A
abbrev carriageReturn : CodePoint := 0x0D

/-- Text mode: a carriage return ends a line, alone or with the line feed after it. The
flag says that the character before was one. -/
def universalNewlines : Bool → Text → Text
  | _, [] => []
  | afterReturn, c :: t =>
      if c = carriageReturn then lineFeed :: universalNewlines true t
      else if c = lineFeed ∧ afterReturn = true then universalNewlines false t
      else c :: universalNewlines false t

/-- The line boundaries of `str.splitlines`. -/
def isLineBreak (c : CodePoint) : Bool :=
  (0x0A ≤ c.val && c.val ≤ 0x0D) || (0x1C ≤ c.val && c.val ≤ 0x1E) ||
    c.val == 0x85 || c.val == 0x2028 || c.val == 0x2029

/-- The lines of a text, with what is read of the first of them; an empty last line is
no line. -/
def breakLines (line : Text) : Text → List Text
  | [] => if line = [] then [] else [line]
  | c :: t => if isLineBreak c then line :: breakLines [] t else breakLines (line ++ [c]) t

/-- `text.splitlines()`. -/
def splitlines (t : Text) : List Text := breakLines [] (universalNewlines false t)

/-- The file that has these lines. -/
def joinLines (lines : List Text) : Text := lines.flatMap fun line => line ++ [lineFeed]

@[simp] theorem joinLines_nil : joinLines [] = [] := rfl

theorem joinLines_append (lines more : List Text) :
    joinLines (lines ++ more) = joinLines lines ++ joinLines more := by
  simp [joinLines]

end Text

namespace Json

theorem universalNewlines_printable_append {t : Text} (h : Printable t) (u : Text) :
    Text.universalNewlines false (t ++ u) = t ++ Text.universalNewlines false u := by
  induction t with
  | nil => rfl
  | cons c t ih =>
      obtain ⟨hc, ht⟩ := printable_cons.mp h
      have hreturn : c ≠ Text.carriageReturn := by
        rintro rfl
        simp at hc
      have hfeed : ¬(c = Text.lineFeed ∧ false = true) := by simp
      rw [List.cons_append, Text.universalNewlines, if_neg hreturn, if_neg hfeed, ih ht]
      rfl

theorem breakLines_printable_append {t : Text} (h : Printable t) (line u : Text) :
    Text.breakLines line (t ++ Text.lineFeed :: u) = (line ++ t) :: Text.breakLines [] u := by
  induction t generalizing line with
  | nil =>
      rw [List.nil_append, List.append_nil, Text.breakLines, if_pos (by decide)]
  | cons c t ih =>
      obtain ⟨hc, ht⟩ := printable_cons.mp h
      have hbreak : Text.isLineBreak c = false := by
        simp only [Text.isLineBreak, Bool.or_eq_false_iff, Bool.and_eq_false_iff,
          decide_eq_false_iff_not, beq_eq_false_iff_ne]
        omega
      rw [List.cons_append, Text.breakLines, hbreak, if_neg (by decide), ih ht]
      simp

theorem universalNewlines_joinLines {lines : List Text} (h : ∀ line ∈ lines, Printable line) :
    Text.universalNewlines false (Text.joinLines lines) = Text.joinLines lines := by
  induction lines with
  | nil => rfl
  | cons line lines ih =>
      obtain ⟨hline, hlines⟩ := List.forall_mem_cons.mp h
      have hcons : Text.joinLines (line :: lines) =
          line ++ (Text.lineFeed :: Text.joinLines lines) := by simp [Text.joinLines]
      rw [hcons, universalNewlines_printable_append hline, Text.universalNewlines,
        if_neg (by decide), if_neg (by simp), ih hlines]

/-- The lines of a file that was written line by line are the lines written. -/
theorem splitlines_joinLines {lines : List Text} (h : ∀ line ∈ lines, Printable line) :
    Text.splitlines (Text.joinLines lines) = lines := by
  rw [Text.splitlines, universalNewlines_joinLines h]
  induction lines with
  | nil => rfl
  | cons line lines ih =>
      obtain ⟨hline, hlines⟩ := List.forall_mem_cons.mp h
      have hcons : Text.joinLines (line :: lines) =
          line ++ (Text.lineFeed :: Text.joinLines lines) := by simp [Text.joinLines]
      rw [hcons, breakLines_printable_append hline, List.nil_append, ih hlines]

end Json

end Python
