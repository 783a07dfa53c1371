import Mathlib.Algebra.GroupWithZero.Nat
import Mathlib.Data.List.Lex
import Mathlib.Data.Fintype.Basic

/-!
# Python text

A Python `str` is a sequence of code points, lone surrogates included, so it is
kept as `Text` and not as a Lean `String`: the contracts accept a surrogate in
one place and fail to encode it in another. A literal of the source is written
as a `String` and read as `Text` by the coercion `Text.ofString`, which is
injective, so two literals are compared as strings.
-/

namespace Python

/-- A Unicode code point, surrogates included. -/
abbrev CodePoint := Fin 0x110000

/-- Literals are code points. -/
instance neZero_codePoints : NeZero (0x110000 : ℕ) := ⟨by decide⟩

/-- A Python `str`. -/
abbrev Text := List CodePoint

instance lawfulBEq_codePoint : LawfulBEq CodePoint := inferInstance

instance lawfulBEq_text : LawfulBEq Text := inferInstance

/-- The code point of a character. -/
def codePoint (c : Char) : CodePoint :=
  ⟨c.toNat, by
    rcases c.valid with h | ⟨_, h⟩
    · exact Nat.lt_trans h (by decide)
    · exact h⟩

theorem codePoint_injective : Function.Injective codePoint := by
  intro a b h
  have hval : (codePoint a).val = (codePoint b).val := by rw [h]
  exact Char.ext (UInt32.toNat_inj.mp hval)

namespace Text

/-- The code points of ASCII bytes. -/
def ofBytes (bytes : List UInt8) : Text :=
  bytes.map fun b => ⟨b.toNat, Nat.lt_trans b.toNat_lt (by decide)⟩

/-- The text of a literal of the source. A literal is kept as its bytes, and those of an ASCII
literal are its code points, which spares an evaluation their decoding. -/
def ofString (s : String) : Text :=
  if s.toByteArray.data.toList.all (· < 0x80) then ofBytes s.toByteArray.data.toList
  else s.toList.map codePoint

instance : Coe String Text := ⟨ofString⟩

/-- A character whose bytes are ASCII is its own byte. -/
theorem ofBytes_utf8EncodeChar {c : Char}
    (h : (String.utf8EncodeChar c).all (· < 0x80) = true) :
    ofBytes (String.utf8EncodeChar c) = [codePoint c] := by
  have hlow : ∀ n : ℕ, UInt8.ofNat n < 0x80 → n % 256 < 128 := by
    intro n hn
    simpa [UInt8.lt_iff_toNat_lt] using hn
  rw [String.utf8EncodeChar] at h ⊢
  split_ifs at h ⊢ with hascii htwo hthree
  · simp only [ofBytes, codePoint, List.map_cons, List.map_nil, List.cons.injEq, and_true,
      Fin.mk.injEq]
    rw [UInt8.toNat_ofNat']
    have hc : c.toNat = c.val.toNat := rfl
    omega
  all_goals
    simp only [List.all_cons, Bool.and_eq_true, decide_eq_true_eq] at h
    have hfirst := hlow _ h.1
    omega

theorem ofString_eq (s : String) : ofString s = s.toList.map codePoint := by
  obtain ⟨cs, rfl⟩ : ∃ cs, s = String.ofList cs := ⟨s.toList, String.ofList_toList.symm⟩
  rw [ofString, String.toList_ofList]
  split_ifs with h
  · have hbytes : (String.ofList cs).toByteArray.data.toList = cs.flatMap String.utf8EncodeChar := by
      simp [List.utf8Encode]
    rw [hbytes] at h ⊢
    clear hbytes
    induction cs with
    | nil => rfl
    | cons c cs ih =>
        rw [List.flatMap_cons, List.all_append, Bool.and_eq_true] at h
        have hfirst := ofBytes_utf8EncodeChar h.1
        rw [List.flatMap_cons, ofBytes, List.map_append, ← ofBytes, ← ofBytes, hfirst, ih h.2]
        rfl
  · rfl

@[simp] theorem ofString_inj (s t : String) : ofString s = ofString t ↔ s = t := by
  constructor
  · intro h
    rw [ofString_eq, ofString_eq] at h
    exact String.toList_inj.mp (codePoint_injective.list_map h)
  · rintro rfl
    rfl

/-- `c.isspace()`: the code points `str.strip` removes. -/
def isSpace (c : CodePoint) : Bool :=
  (0x09 ≤ c.val && c.val ≤ 0x0D) || (0x1C ≤ c.val && c.val ≤ 0x20) ||
    (0x2000 ≤ c.val && c.val ≤ 0x200A) ||
    [0x85, 0xA0, 0x1680, 0x2028, 0x2029, 0x202F, 0x205F, 0x3000].contains c.val

/-- A printable ASCII character is not white space. -/
theorem isSpace_of_printable {c : CodePoint} (hlow : 0x21 ≤ c.val) (hhigh : c.val ≤ 0x7E) :
    isSpace c = false := by
  have hne : ∀ n ∈ [0x85, 0xA0, 0x1680, 0x2028, 0x2029, 0x202F, 0x205F, 0x3000], c.val ≠ n := by
    intro n hn heq
    simp only [List.mem_cons, List.not_mem_nil, or_false] at hn
    omega
  have hlist : [0x85, 0xA0, 0x1680, 0x2028, 0x2029, 0x202F, 0x205F, 0x3000].contains c.val =
      false := by
    rw [List.contains_eq_mem, decide_eq_false_iff_not]
    exact fun hmem => hne _ hmem rfl
  have h1 : ¬(0x09 ≤ c.val ∧ c.val ≤ 0x0D) := by omega
  have h2 : ¬(0x1C ≤ c.val ∧ c.val ≤ 0x20) := by omega
  have h3 : ¬(0x2000 ≤ c.val ∧ c.val ≤ 0x200A) := by omega
  rw [isSpace, hlist]
  simp only [← Bool.decide_and, decide_eq_false h1, decide_eq_false h2, decide_eq_false h3,
    Bool.or_false]

/-- `not text.strip()`: nothing but white space. -/
def isBlank (t : Text) : Bool := t.all isSpace

/-- `text.strip()`. -/
def strip (t : Text) : Text :=
  ((t.dropWhile isSpace).reverse.dropWhile isSpace).reverse

/-- The lower case of an ASCII letter; every other code point is kept. -/
def asciiLower (c : CodePoint) : CodePoint :=
  if h : 0x41 ≤ c.val ∧ c.val ≤ 0x5A then ⟨c.val + 0x20, by omega⟩ else c

/-- A code point with a UTF-8 encoding; a surrogate has none. -/
def toChar? (c : CodePoint) : Option Char :=
  if h : c.val.isValidChar then some (Char.ofNatAux c.val h) else none

theorem toChar?_eq_some {c : CodePoint} {ch : Char} (h : toChar? c = some ch) :
    codePoint ch = c := by
  unfold toChar? at h
  by_cases hvalid : c.val.isValidChar
  · obtain rfl := Option.some.inj ((dif_pos hvalid).symm.trans h)
    exact Fin.ext rfl
  · cases (dif_neg hvalid).symm.trans h

theorem toChar?_codePoint (ch : Char) : toChar? (codePoint ch) = some ch := by
  have hvalid : (codePoint ch).val.isValidChar := ch.valid
  rw [toChar?, dif_pos hvalid]
  exact congrArg some (Char.ext rfl)

/-- The text as a sequence of characters, `none` when it holds a surrogate. -/
def toChars? (t : Text) : Option (List Char) := t.mapM toChar?

theorem toChars?_eq_some {t : Text} {cs : List Char} (h : toChars? t = some cs) :
    cs.map codePoint = t := by
  induction t generalizing cs with
  | nil =>
      simp only [toChars?, List.mapM_nil, Option.pure_def, Option.some.injEq] at h
      simp [← h]
  | cons c t ih =>
      simp only [toChars?, List.mapM_cons, Option.bind_eq_bind, Option.pure_def,
        Option.bind_eq_some_iff, Option.some.injEq] at h
      obtain ⟨ch, hch, cs', hcs', rfl⟩ := h
      rw [List.map_cons, toChar?_eq_some hch, ih hcs']

/-- `text.encode("utf-8")`; `none` is the `UnicodeEncodeError` of a lone
surrogate. -/
def encodeUtf8 (t : Text) : Option ByteArray :=
  (toChars? t).map fun cs => (String.ofList cs).toUTF8

/-- Two texts with the same encoding are the same text. -/
theorem encodeUtf8_injective {s t : Text} {b : ByteArray}
    (hs : encodeUtf8 s = some b) (ht : encodeUtf8 t = some b) : s = t := by
  simp only [encodeUtf8, Option.map_eq_some_iff] at hs ht
  obtain ⟨cs, hcs, hbs⟩ := hs
  obtain ⟨ct, hct, hbt⟩ := ht
  have hstring : String.ofList cs = String.ofList ct :=
    String.toByteArray_inj.mp (hbs.trans hbt.symm)
  have hchars : cs = ct := String.ofList_injective hstring
  rw [← toChars?_eq_some hcs, ← toChars?_eq_some hct, hchars]

end Text

end Python
