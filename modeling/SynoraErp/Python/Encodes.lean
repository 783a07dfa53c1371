import SynoraErp.Python.Datetime
import SynoraErp.Python.JsonRoundTrip

/-!
# Texts that encode

The texts with a UTF-8 form, and the JSON values whose text has one.
-/

namespace Python

/-- A text with a UTF-8 form. -/
def Encodes (t : Text) : Prop := ∀ c ∈ t, Text.toChar? c ≠ none

theorem encodes_iff {t : Text} : Encodes t ↔ Text.encodeUtf8 t ≠ none := by
  have hchars : Encodes t ↔ Text.toChars? t ≠ none := by
    induction t with
    | nil => simp [Encodes, Text.toChars?]
    | cons c t ih =>
        rw [Encodes, List.forall_mem_cons, show (∀ x ∈ t, Text.toChar? x ≠ none) ↔ Encodes t from Iff.rfl,
          ih]
        cases hc : Text.toChar? c <;> cases ht : Text.toChars? t <;>
          simp_all [Text.toChars?, List.mapM_cons]
  rw [hchars, Text.encodeUtf8]
  simp

theorem encodes_append {s t : Text} : Encodes (s ++ t) ↔ Encodes s ∧ Encodes t :=
  List.forall_mem_append

theorem encodes_cons {c : CodePoint} {t : Text} :
    Encodes (c :: t) ↔ Text.toChar? c ≠ none ∧ Encodes t :=
  List.forall_mem_cons

theorem encodes_of_ascii {t : Text} (h : ∀ c ∈ t, c.val < 0x80) : Encodes t := by
  intro c hc
  have hvalid : c.val.isValidChar := Or.inl (Nat.lt_trans (h c hc) (by decide))
  rw [Text.toChar?, dif_pos hvalid]
  exact Option.some_ne_none _

theorem isSome_encodeUtf8_of_ascii {t : Text} (hascii : t.all (fun c => c.val < 0x80) = true) :
    (Text.encodeUtf8 t).isSome = true := by
  apply Option.isSome_iff_ne_none.mpr
  apply encodes_iff.mp
  apply encodes_of_ascii
  intro c hc
  simpa using List.all_eq_true.mp hascii c hc

theorem size_utf8Encode_le (cs : List Char) : cs.utf8Encode.size ≤ 4 * cs.length := by
  induction cs with
  | nil => simp
  | cons c cs ih =>
      have hchar : c.utf8Size ≤ 4 := c.utf8Size_le_four
      rw [List.utf8Encode_cons, ByteArray.size_append, List.length_cons]
      simp only [List.utf8Encode_singleton, List.size_toByteArray, String.length_utf8EncodeChar]
      omega

/-- A code point takes at most four bytes. -/
theorem size_encodeUtf8_le {t : Text} {bytes : ByteArray} (h : Text.encodeUtf8 t = some bytes) :
    bytes.size ≤ 4 * t.length := by
  obtain ⟨cs, hcs, rfl⟩ := Option.map_eq_some_iff.mp h
  have hlength : cs.length = t.length := by
    rw [← Text.toChars?_eq_some hcs, List.length_map]
  rw [← hlength]
  exact size_utf8Encode_le cs

theorem encodes_ofString (s : String) : Encodes (Text.ofString s) := by
  intro c hc
  rw [Text.ofString_eq] at hc
  obtain ⟨ch, -, rfl⟩ := List.mem_map.mp hc
  rw [Text.toChar?_codePoint]
  exact Option.some_ne_none _

theorem encodes_escape (c : CodePoint) : Encodes (Json.escape c) ↔ Text.toChar? c ≠ none := by
  have hletters : ∀ p ∈ Json.shortEscapes, p.1.val < 0x80 ∧ p.2.val < 0x80 := by
    simp [Json.shortEscapes, Json.quote, Json.backslash]
  have hdigit : ∀ d, (Json.hexDigit d).val < 0x80 := by decide
  have hpoint : c.val < 0x80 → Text.toChar? c ≠ none := fun h =>
    encodes_of_ascii (t := [c]) (by simpa using h) c (by simp)
  unfold Json.escape
  split
  · next letter hletter =>
      have hmem : (c, letter) ∈ Json.shortEscapes := by
        obtain ⟨l₁, l₂, hsplit, -⟩ := List.lookup_eq_some_iff.mp hletter
        simp [hsplit]
      obtain ⟨hc, hl⟩ := hletters _ hmem
      exact iff_of_true (encodes_of_ascii (by simp [Json.backslash, hl])) (hpoint hc)
  · split_ifs with hcontrol
    · refine iff_of_true (encodes_of_ascii ?_) (hpoint (by omega))
      simp [Json.backslash, hdigit]
    · simp [Encodes]

theorem encodes_encodeString {t : Text} : Encodes (Json.encodeString t) ↔ Encodes t := by
  have hflat : Encodes (t.flatMap Json.escape) ↔ Encodes t := by
    induction t with
    | nil => simp
    | cons c t ih => rw [List.flatMap_cons, encodes_append, encodes_escape, ih, encodes_cons]
  have hquote : Encodes [Json.quote] := encodes_of_ascii (by simp [Json.quote])
  rw [Json.encodeString, ← List.singleton_append, encodes_append, encodes_append, hflat]
  simp [hquote]

theorem encodes_digitsText (ds : List (Fin 10)) : Encodes (digitsText ds) := by
  apply encodes_of_ascii
  intro c hc
  obtain ⟨d, -, rfl⟩ := List.mem_map.mp hc
  simp only [digitPoint]
  omega

theorem encodes_intText (n : ℤ) : Encodes (Json.intText n) := by
  have hnat : ∀ m, Encodes (natText m) := fun m => encodes_digitsText _
  unfold Json.intText
  split_ifs
  · exact encodes_cons.mpr ⟨encodes_of_ascii (t := [Json.minus]) (by simp [Json.minus]) _ (by simp),
      hnat _⟩
  · exact hnat _

theorem encodes_isoformat (d : DateTime) : Encodes d.isoformat := by
  simp only [DateTime.isoformat, List.flatten_cons, List.flatten_nil, List.append_nil,
    encodes_append, encodes_digitsText, encodes_ofString, and_self]

/-! ## JSON -/

section

variable {I : Interpreter}

theorem encodes_renderItems {xs : List Value} (first : Bool) :
    Encodes (Json.renderItems I first xs) ↔ ∀ x ∈ xs, Encodes (Json.render I x) := by
  induction xs generalizing first with
  | nil => simp [Json.renderItems, Encodes]
  | cons x xs ih =>
      have hcomma : Encodes (if first then [] else [Json.comma]) :=
        encodes_of_ascii (by split_ifs <;> simp [Json.comma])
      rw [Json.renderItems, encodes_append, encodes_append, ih, List.forall_mem_cons]
      exact and_iff_right hcomma

theorem encodes_render_list {xs : List Value} :
    Encodes (Json.render I (.list xs)) ↔ ∀ x ∈ xs, Encodes (Json.render I x) := by
  have hopen : Text.toChar? Json.openBracket ≠ none :=
    encodes_of_ascii (t := [Json.openBracket]) (by simp [Json.openBracket]) _ (by simp)
  have hclose : Encodes [Json.closeBracket] := encodes_of_ascii (by simp [Json.closeBracket])
  rw [Json.render, encodes_cons, encodes_append, encodes_renderItems]
  simp [hopen, hclose]

theorem encodes_renderEntries {entries : Dict} (first : Bool) :
    Encodes (Json.renderEntries I first entries) ↔
      ∀ e ∈ entries, Encodes e.1 ∧ Encodes (Json.render I e.2) := by
  induction entries generalizing first with
  | nil => simp [Json.renderEntries, Encodes]
  | cons e entries ih =>
      obtain ⟨k, v⟩ := e
      have hcomma : Encodes (if first then [] else [Json.comma]) :=
        encodes_of_ascii (by split_ifs <;> simp [Json.comma])
      have hcolon : Text.toChar? Json.colon ≠ none :=
        encodes_of_ascii (t := [Json.colon]) (by simp [Json.colon]) _ (by simp)
      rw [Json.renderEntries, encodes_append, encodes_append, encodes_cons, encodes_append,
        encodes_encodeString, ih, List.forall_mem_cons, and_assoc]
      exact ⟨fun ⟨_, hk, _, hv, hrest⟩ => ⟨hk, hv, hrest⟩,
        fun ⟨hk, hv, hrest⟩ => ⟨hcomma, hk, hcolon, hv, hrest⟩⟩

theorem encodes_render_dict {entries : Dict} :
    Encodes (Json.render I (.dict entries)) ↔
      ∀ e ∈ entries, Encodes e.1 ∧ Encodes (Json.render I e.2) := by
  have hopen : Text.toChar? Json.openBrace ≠ none :=
    encodes_of_ascii (t := [Json.openBrace]) (by simp [Json.openBrace]) _ (by simp)
  have hclose : Encodes [Json.closeBrace] := encodes_of_ascii (by simp [Json.closeBrace])
  rw [Json.render, encodes_cons, encodes_append, encodes_renderEntries]
  simp [hopen, hclose]

end

end Python
