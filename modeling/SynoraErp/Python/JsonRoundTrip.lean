import SynoraErp.Python.Equality
import SynoraErp.Python.Json

/-!
# The JSON round trip

`loads` inverts `dumps` on the values a record stores, whatever the hooks do with
repeated keys and with the constants, and so `dumps` maps no two of them to one
text. A value with floats is among them where the interpreter reads its floats back.
-/

namespace Python

namespace Json

mutual

/-- The values that survive a round trip: no float, no integer past the digit
limit, the keys of an object in order and without repetition. -/
def Plain : Value → Prop
  | .int n => (natDigits n.natAbs).length ≤ maxStrDigits
  | .float _ => False
  | .list xs => PlainItems xs
  | .dict entries => (Dict.keys entries).Pairwise (· < ·) ∧ PlainEntries entries
  | _ => True

def PlainItems : List Value → Prop
  | [] => True
  | x :: xs => Plain x ∧ PlainItems xs

def PlainEntries : List (Text × Value) → Prop
  | [] => True
  | (_, v) :: entries => Plain v ∧ PlainEntries entries

end

theorem plainEntries_iff {entries : List (Text × Value)} :
    PlainEntries entries ↔ ∀ entry ∈ entries, Plain entry.2 := by
  induction entries with
  | nil => simp [PlainEntries]
  | cons entry entries ih => rw [PlainEntries, ih, List.forall_mem_cons]

/-- The hooks keep an object whose keys are pairwise different. -/
def Hooks.KeepDistinct (hooks : Hooks) : Prop :=
  ∀ d : List (Text × Value), (Dict.keys d).Nodup → hooks.pairs d = some d

theorem foldl_set (d e : Dict) (h : (Dict.keys (e ++ d)).Nodup) :
    d.foldl (fun d entry => Dict.set d entry.1 entry.2) e = e ++ d := by
  induction d generalizing e with
  | nil => simp
  | cons entry d ih =>
      obtain ⟨k, v⟩ := entry
      have hset : ∀ f : Dict, k ∉ Dict.keys f → Dict.set f k v = f ++ [(k, v)] := by
        intro f hf
        induction f with
        | nil => rfl
        | cons entry f ihf =>
            obtain ⟨k', v'⟩ := entry
            simp only [Dict.keys_cons, List.mem_cons, not_or] at hf
            simp [Dict.set, Ne.symm hf.1, ihf hf.2]
      have hk : k ∉ Dict.keys e := by
        intro hmem
        rw [Dict.keys_append, Dict.keys_cons, List.nodup_append] at h
        exact h.2.2 k hmem k List.mem_cons_self rfl
      have hnext : (Dict.keys ((e ++ [(k, v)]) ++ d)).Nodup := by
        simpa [Dict.keys] using h
      rw [List.foldl_cons, hset e hk, ih _ hnext]
      simp

theorem Hooks.keepDistinct_default : Hooks.default.KeepDistinct := by
  intro d h
  exact congrArg some (foldl_set d [] h)

/-! ## Strings -/

theorem lookup_shortEscapes_of_control {c : CodePoint}
    (h : shortEscapes.lookup c = none) : c ≠ quote ∧ c ≠ backslash := by
  constructor <;> rintro rfl <;> revert h <;> decide

theorem hex4?_control (c : CodePoint) (h : c.val < 0x20) (hhigh : c.val / 16 % 16 < 16)
    (hlow : c.val % 16 < 16) (t : Text) :
    hex4? (0x30 :: 0x30 :: hexDigit ⟨c.val / 16 % 16, hhigh⟩ :: hexDigit ⟨c.val % 16, hlow⟩ :: t) =
      some (c.val, t) := by
  have hzero : hexValue? 0x30 = some 0 := by decide
  simp only [hex4?, hzero, hexValue?_hexDigit, Option.bind_eq_bind, Option.bind_some]
  simp
  omega

theorem scanPoint?_escape (c : CodePoint) (t : Text) :
    scanPoint? (escape c ++ t) = some (c, t) := by
  unfold escape
  split
  case h_1 letter hletter =>
    have hmem : (c, letter) ∈ shortEscapes := by
      rw [List.lookup_eq_some_iff] at hletter
      obtain ⟨l₁, l₂, hsplit, -⟩ := hletter
      simp [hsplit]
    simp only [shortEscapes, List.mem_cons, List.not_mem_nil, or_false, Prod.mk.injEq] at hmem
    rcases hmem with ⟨rfl, rfl⟩ | ⟨rfl, rfl⟩ | ⟨rfl, rfl⟩ | ⟨rfl, rfl⟩ | ⟨rfl, rfl⟩ |
      ⟨rfl, rfl⟩ | ⟨rfl, rfl⟩ <;> rfl
  case h_2 hnone =>
    obtain ⟨-, hbackslash⟩ := lookup_shortEscapes_of_control hnone
    split
    case isTrue hcontrol =>
      have hcval : Fin.ofNat 0x110000 c.val = c := Fin.ext (Nat.mod_eq_of_lt c.isLt)
      simp only [List.cons_append, List.nil_append, scanPoint?, if_true, unicodeEscape?,
        hex4?_control c hcontrol _ _, Option.bind_eq_bind, Option.bind_some, hcval]
      rw [if_neg (by omega)]
    case isFalse hvisible =>
      simp [scanPoint?, hbackslash, hvisible]

theorem head?_escape_append (c : CodePoint) (t : Text) :
    (escape c ++ t).head? ≠ some quote := by
  unfold escape
  split
  case h_1 => simp [quote, backslash]
  case h_2 hnone =>
    obtain ⟨hquote, -⟩ := lookup_shortEscapes_of_control hnone
    split
    case isTrue => simp [quote, backslash]
    case isFalse => simpa using hquote

theorem scanString_flatMap_escape (s t : Text) (fuel : ℕ) (hfuel : s.length < fuel) :
    scanString fuel (s.flatMap escape ++ quote :: t) = some (s, t) := by
  induction s generalizing fuel with
  | nil =>
      obtain ⟨fuel, rfl⟩ : ∃ n, fuel = n + 1 := ⟨fuel - 1, by simp at hfuel; omega⟩
      simp [scanString]
  | cons c s ih =>
      obtain ⟨fuel, rfl⟩ : ∃ n, fuel = n + 1 := ⟨fuel - 1, by omega⟩
      rw [List.flatMap_cons, List.append_assoc, scanString, if_neg (head?_escape_append c _),
        scanPoint?_escape]
      simp [ih fuel (by simpa using hfuel)]

theorem length_le_flatMap_escape (s : Text) : s.length ≤ (s.flatMap escape).length := by
  induction s with
  | nil => simp
  | cons c s ih =>
      have hpos : 1 ≤ (escape c).length := by
        unfold escape
        split
        · simp
        · split_ifs <;> simp
      rw [List.flatMap_cons, List.length_append, List.length_cons]
      omega

/-! ## Numbers -/

/-- The text does not continue a number. -/
def NumberEnd (t : Text) : Prop :=
  ∀ c ∈ t.head?, asciiDigit? c = none ∧ c.val ≠ 0x2E ∧ c.val ≠ 0x65 ∧ c.val ≠ 0x45

theorem numberEnd_nil : NumberEnd [] := by simp [NumberEnd]

theorem numberEnd_cons {c : CodePoint} (t : Text)
    (h : asciiDigit? c = none ∧ c.val ≠ 0x2E ∧ c.val ≠ 0x65 ∧ c.val ≠ 0x45) :
    NumberEnd (c :: t) := by
  simpa [NumberEnd] using h

theorem scanFraction_of_numberEnd {t : Text} (h : NumberEnd t) : scanFraction t = ([], t) := by
  cases t with
  | nil => rfl
  | cons c t =>
      have hpoint : c.val ≠ 0x2E := (h c rfl).2.1
      simp [scanFraction, hpoint]

theorem scanExponent_of_numberEnd {t : Text} (h : NumberEnd t) : scanExponent t = ([], t) := by
  cases t with
  | nil => rfl
  | cons c t =>
      have hexponent : ¬(c.val = 0x65 ∨ c.val = 0x45) := by
        simpa using (h c rfl).2.2
      simp [scanExponent, hexponent]

theorem scanInteger_natText (n : ℕ) {t : Text} (ht : NoDigitHead t) :
    scanInteger (natText n ++ t) = some (natDigits n, t) := by
  rw [scanInteger, natText, spanDigits_digitsText _ ht]
  match hds : natDigits n with
  | [] => exact absurd hds (natDigits_ne_nil n)
  | d :: ds =>
      by_cases hd : d = 0
      · subst hd
        rw [natDigits_zero_head hds]
        rfl
      · simp [hd]

theorem scanNumber_natText (I : Interpreter) (negative : Bool) (n : ℕ) {t : Text}
    (ht : NumberEnd t) (hdigits : (natDigits n).length ≤ maxStrDigits) :
    scanNumber I negative (natText n ++ t) =
      some (.int (if negative then -(n : ℤ) else n), t) := by
  have hhead : NoDigitHead t := fun c hc => (ht c hc).1
  rw [scanNumber, scanInteger_natText n hhead]
  simp only [Option.bind_eq_bind, Option.bind_some, scanFraction_of_numberEnd ht,
    scanExponent_of_numberEnd ht, and_self, if_true, if_pos hdigits, ofDigits_natDigits]

/-! ## Values -/

/-- A token begins here: no white space, no end of a list or an object, and no byte
order mark. -/
def TokenHead (t : Text) : Prop :=
  ∃ c u, t = c :: u ∧ isJsonSpace c = false ∧ c ≠ closeBracket ∧ c ≠ closeBrace ∧ c ≠ 0xFEFF

theorem TokenHead.append {t : Text} (h : TokenHead t) (u : Text) : TokenHead (t ++ u) := by
  obtain ⟨c, w, rfl, hc⟩ := h
  exact ⟨c, w ++ u, rfl, hc⟩

theorem TokenHead.skipSpace {t : Text} (h : TokenHead t) : skipSpace t = t := by
  obtain ⟨c, w, rfl, hc, -⟩ := h
  simp [Json.skipSpace, hc]

theorem tokenHead_digits (d : Fin 10) (t : Text) : TokenHead (digitPoint d :: t) := by
  refine ⟨digitPoint d, t, rfl, ?_⟩
  revert d
  decide

theorem tokenHead_natText (n : ℕ) : TokenHead (natText n) := by
  obtain ⟨d, ds, hds⟩ := List.exists_cons_of_ne_nil (natDigits_ne_nil n)
  rw [natText, hds]
  exact tokenHead_digits d _

/-- The text of a float is a token the reader takes for that float. -/
structure FloatReadsBack (I : Interpreter) (x : Float64) : Prop where
  finite : ∃ q, x = .finite q
  token : TokenHead (I.floatRepr x)
  scan : ∀ (hooks : Hooks) (fuel : ℕ) (t : Text), NumberEnd t →
    scanValue I hooks (fuel + 1) (I.floatRepr x ++ t) = some (.float x, t)

/-- `float(repr(x)) == x`, for every double. -/
def ReadsDoubles (I : Interpreter) : Prop := ∀ q, isDouble q = true → FloatReadsBack I (.finite q)

mutual

/-- The values that survive a round trip when floats are read back. -/
def Readable (I : Interpreter) : Value → Prop
  | .int n => (natDigits n.natAbs).length ≤ maxStrDigits
  | .float x => FloatReadsBack I x
  | .list xs => ReadableItems I xs
  | .dict entries => (Dict.keys entries).Pairwise (· < ·) ∧ ReadableEntries I entries
  | _ => True

def ReadableItems (I : Interpreter) : List Value → Prop
  | [] => True
  | x :: xs => Readable I x ∧ ReadableItems I xs

def ReadableEntries (I : Interpreter) : List (Text × Value) → Prop
  | [] => True
  | (_, v) :: entries => Readable I v ∧ ReadableEntries I entries

end

mutual

theorem readable_of_plain (I : Interpreter) : ∀ (v : Value) (_ : Plain v), Readable I v
  | .none, _ | .bool _, _ | .str _, _ => by simp [Readable]
  | .int _, hv => by simpa only [Plain, Readable] using hv
  | .float _, hv => absurd hv (by simp [Plain])
  | .list xs, hv => by
      rw [Readable]
      exact readableItems_of_plain I xs (by simpa only [Plain] using hv)
  | .dict entries, hv => by
      rw [Plain] at hv
      rw [Readable]
      exact ⟨hv.1, readableEntries_of_plain I entries hv.2⟩

theorem readableItems_of_plain (I : Interpreter) :
    ∀ (xs : List Value) (_ : PlainItems xs), ReadableItems I xs
  | [], _ => trivial
  | x :: xs, h => by
      rw [PlainItems] at h
      exact ⟨readable_of_plain I x h.1, readableItems_of_plain I xs h.2⟩

theorem readableEntries_of_plain (I : Interpreter) :
    ∀ (entries : List (Text × Value)) (_ : PlainEntries entries), ReadableEntries I entries
  | [], _ => trivial
  | (_, v) :: entries, h => by
      rw [PlainEntries] at h
      exact ⟨readable_of_plain I v h.1, readableEntries_of_plain I entries h.2⟩

end

theorem tokenHead_render (I : Interpreter) {v : Value} (hv : Readable I v) :
    TokenHead (render I v) := by
  cases v with
  | none => exact ⟨codePoint 'n', Text.ofString "ull", rfl, by decide⟩
  | bool b =>
      cases b with
      | false => exact ⟨codePoint 'f', Text.ofString "alse", rfl, by decide⟩
      | true => exact ⟨codePoint 't', Text.ofString "rue", rfl, by decide⟩
  | int n =>
      rw [render, intText]
      split_ifs
      · exact ⟨minus, natText n.natAbs, rfl, by decide⟩
      · exact tokenHead_natText _
  | float x =>
      have hfloat : FloatReadsBack I x := by simpa only [Readable] using hv
      simpa only [render] using hfloat.token
  | str t => exact ⟨quote, t.flatMap escape ++ [quote], by rw [render, encodeString], by decide⟩
  | list xs => exact ⟨openBracket, _, by rw [render], by decide⟩
  | dict entries => exact ⟨openBrace, _, by rw [render], by decide⟩

theorem afterPrefix?_append (s t : Text) : afterPrefix? s (s ++ t) = some t := by
  simp [afterPrefix?]

theorem afterPrefix?_cons_ne {a c : CodePoint} (s t : Text) (h : c ≠ a) :
    afterPrefix? (a :: s) (c :: t) = none := by
  simp [afterPrefix?, h]

theorem skipSpace_cons {c : CodePoint} (t : Text) (h : isJsonSpace c = false) :
    skipSpace (c :: t) = c :: t := by
  simp [skipSpace, h]

/-- A digit begins a number. -/
theorem scanValue_digit (I : Interpreter) (hooks : Hooks) (fuel : ℕ) (d : Fin 10) (t : Text) :
    scanValue I hooks (fuel + 1) (digitPoint d :: t) = scanNumber I false (digitPoint d :: t) := by
  have hne : ∀ c : CodePoint, (c.val < 0x30 ∨ 0x39 < c.val) → digitPoint d ≠ c := by
    rintro c hc rfl
    simp only [digitPoint] at hc
    omega
  rw [scanValue, if_neg (hne _ (by decide)), if_neg (hne _ (by decide)),
    if_neg (hne _ (by decide)), if_neg (hne _ (by decide)),
    show Text.ofString "null" = codePoint 'n' :: Text.ofString "ull" from rfl,
    show Text.ofString "true" = codePoint 't' :: Text.ofString "rue" from rfl,
    show Text.ofString "false" = codePoint 'f' :: Text.ofString "alse" from rfl,
    show Text.ofString "NaN" = codePoint 'N' :: Text.ofString "aN" from rfl,
    show Text.ofString "Infinity" = codePoint 'I' :: Text.ofString "nfinity" from rfl,
    afterPrefix?_cons_ne _ _ (hne _ (by decide)), afterPrefix?_cons_ne _ _ (hne _ (by decide)),
    afterPrefix?_cons_ne _ _ (hne _ (by decide)), afterPrefix?_cons_ne _ _ (hne _ (by decide)),
    afterPrefix?_cons_ne _ _ (hne _ (by decide))]

theorem scanValue_minus (I : Interpreter) (hooks : Hooks) (fuel : ℕ) (d : Fin 10) (t : Text) :
    scanValue I hooks (fuel + 1) (minus :: digitPoint d :: t) =
      scanNumber I true (digitPoint d :: t) := by
  have hne : ∀ d : Fin 10, digitPoint d ≠ codePoint 'I' := by decide
  rw [scanValue, if_neg (by decide), if_neg (by decide), if_neg (by decide), if_pos rfl,
    show Text.ofString "Infinity" = codePoint 'I' :: Text.ofString "nfinity" from rfl,
    afterPrefix?_cons_ne _ _ (hne d)]

/-- The text of a number begins with a digit. -/
theorem exists_natText_eq_cons (n : ℕ) : ∃ d t, natText n = digitPoint d :: t := by
  obtain ⟨d, ds, hds⟩ := List.exists_cons_of_ne_nil (natDigits_ne_nil n)
  exact ⟨d, digitsText ds, by rw [natText, hds]; rfl⟩

theorem scanValue_natText (I : Interpreter) (hooks : Hooks) (fuel n : ℕ) {t : Text}
    (ht : NumberEnd t) (hdigits : (natDigits n).length ≤ maxStrDigits) :
    scanValue I hooks (fuel + 1) (natText n ++ t) = some (.int n, t) := by
  have hnumber := scanNumber_natText I false n ht hdigits
  obtain ⟨d, u, hu⟩ := exists_natText_eq_cons n
  rw [hu, List.cons_append] at hnumber ⊢
  rw [scanValue_digit, hnumber]
  rfl

theorem scanValue_negative (I : Interpreter) (hooks : Hooks) (fuel n : ℕ) {t : Text}
    (ht : NumberEnd t) (hdigits : (natDigits n).length ≤ maxStrDigits) :
    scanValue I hooks (fuel + 1) (minus :: (natText n ++ t)) = some (.int (-(n : ℤ)), t) := by
  have hnumber := scanNumber_natText I true n ht hdigits
  obtain ⟨d, u, hu⟩ := exists_natText_eq_cons n
  rw [hu, List.cons_append] at hnumber ⊢
  rw [scanValue_minus, hnumber]
  rfl

theorem scanValue_encodeString (I : Interpreter) (hooks : Hooks) (fuel : ℕ) (s t : Text)
    (hfuel : (encodeString s).length ≤ fuel + 1) :
    scanValue I hooks (fuel + 1) (encodeString s ++ t) = some (.str s, t) := by
  have hlength : s.length < fuel + 1 := by
    have hle := length_le_flatMap_escape s
    simp only [encodeString, List.length_cons, List.length_append, List.length_nil] at hfuel
    omega
  simp [encodeString, scanValue, scanString_flatMap_escape s t (fuel + 1) hlength]

theorem length_render_pos (I : Interpreter) {v : Value} (hv : Readable I v) :
    0 < (render I v).length := by
  obtain ⟨c, u, hcu, -⟩ := tokenHead_render I hv
  simp [hcu]

section RoundTrip

variable (I : Interpreter) {hooks : Hooks}

theorem numberEnd_renderItems (xs : List Value) (t : Text) :
    NumberEnd (renderItems I false xs ++ closeBracket :: t) := by
  cases xs with
  | nil => exact numberEnd_cons t (by decide)
  | cons x xs =>
      rw [renderItems]
      exact numberEnd_cons _ (by decide)

theorem numberEnd_renderEntries (entries : List (Text × Value)) (t : Text) :
    NumberEnd (renderEntries I false entries ++ closeBrace :: t) := by
  cases entries with
  | nil => exact numberEnd_cons t (by decide)
  | cons entry entries =>
      obtain ⟨k, v⟩ := entry
      rw [renderEntries]
      exact numberEnd_cons _ (by decide)

/-- All but the first item follow a comma. -/
theorem renderItems_false_cons (x : Value) (xs : List Value) :
    renderItems I false (x :: xs) = comma :: renderItems I true (x :: xs) := by
  simp [renderItems]

theorem renderEntries_false_cons (entry : Text × Value) (entries : List (Text × Value)) :
    renderEntries I false (entry :: entries) = comma :: renderEntries I true (entry :: entries) := by
  obtain ⟨k, v⟩ := entry
  simp [renderEntries]

theorem tokenHead_renderItems {x : Value} (hx : Readable I x) (xs : List Value) :
    TokenHead (renderItems I true (x :: xs)) := by
  simpa [renderItems] using (tokenHead_render I hx).append _

theorem tokenHead_renderEntries (entry : Text × Value) (entries : List (Text × Value)) :
    TokenHead (renderEntries I true (entry :: entries)) := by
  obtain ⟨k, v⟩ := entry
  exact ⟨quote, _, by simp [renderEntries, encodeString]; rfl, by decide⟩

mutual

/-- The reader inverts the writer, value by value: the text that follows is left
alone, as long as it does not continue a number. -/
theorem scanValue_render (hhooks : hooks.KeepDistinct) :
    ∀ (v : Value) (_ : Readable I v) (fuel : ℕ) (t : Text) (_ : NumberEnd t)
      (_ : (render I v).length ≤ fuel),
      scanValue I hooks fuel (render I v ++ t) = some (v, t)
  | v, hv, 0, _, _, hfuel => absurd (length_render_pos I hv) (by omega)
  | .none, _, fuel + 1, t, _, _ => by
      have h := afterPrefix?_append (Text.ofString "null") t
      rw [render, show Text.ofString "null" ++ t =
        codePoint 'n' :: (Text.ofString "ull" ++ t) from rfl] at *
      rw [scanValue, if_neg (by decide), if_neg (by decide), if_neg (by decide),
        if_neg (by decide), h]
  | .bool true, _, fuel + 1, t, _, _ => by
      have h := afterPrefix?_append (Text.ofString "true") t
      rw [render, show Text.ofString "true" ++ t =
        codePoint 't' :: (Text.ofString "rue" ++ t) from rfl] at *
      rw [scanValue, if_neg (by decide), if_neg (by decide), if_neg (by decide),
        if_neg (by decide), h]
      rfl
  | .bool false, _, fuel + 1, t, _, _ => by
      have h := afterPrefix?_append (Text.ofString "false") t
      rw [render, show Text.ofString "false" ++ t =
        codePoint 'f' :: (Text.ofString "alse" ++ t) from rfl] at *
      rw [scanValue, if_neg (by decide), if_neg (by decide), if_neg (by decide),
        if_neg (by decide), h]
      rfl
  | .int n, hv, fuel + 1, t, ht, _ => by
      have hdigits : (natDigits n.natAbs).length ≤ maxStrDigits := by simpa [Readable] using hv
      rw [render, intText]
      split
      case isTrue hneg =>
        rw [List.cons_append, scanValue_negative I hooks fuel _ ht hdigits]
        simp only [Option.some.injEq, Prod.mk.injEq, Value.int.injEq, and_true]
        omega
      case isFalse hpos =>
        rw [scanValue_natText I hooks fuel _ ht hdigits]
        simp only [Option.some.injEq, Prod.mk.injEq, Value.int.injEq, and_true]
        omega
  | .float x, hv, fuel + 1, t, ht, _ => by
      have hfloat : FloatReadsBack I x := by simpa only [Readable] using hv
      simpa only [render] using hfloat.scan hooks fuel t ht
  | .str s, _, fuel + 1, t, _, hfuel => by
      rw [render] at hfuel ⊢
      exact scanValue_encodeString I hooks fuel s t hfuel
  | .list [], _, fuel + 1, t, _, _ => by
      rw [render, renderItems, List.nil_append, List.cons_append, List.singleton_append,
        scanValue, if_neg (by decide), if_neg (by decide), if_pos rfl,
        skipSpace_cons _ (by decide), List.head?_cons, if_pos rfl, List.tail_cons]
  | .list (x :: xs), hv, fuel + 1, t, _, hfuel => by
      have hitems : Readable I x ∧ ReadableItems I xs := by simpa [Readable, ReadableItems] using hv
      obtain ⟨c, u, hcu, hspace, hbracket, -, -⟩ := tokenHead_renderItems I hitems.1 xs
      have hlength : (renderItems I true (x :: xs)).length + 1 ≤ fuel := by
        simp only [render, List.length_cons, List.length_append, List.length_nil] at hfuel
        omega
      have hscan := scanItems_renderItems hhooks x xs hitems fuel t hlength
      rw [render, List.cons_append, List.append_assoc, List.singleton_append, scanValue,
        if_neg (by decide), if_neg (by decide), if_pos rfl]
      rw [hcu, List.cons_append] at hscan ⊢
      rw [skipSpace_cons _ hspace, if_neg (by simpa using hbracket), hscan]
      rfl
  | .dict [], _, fuel + 1, t, _, _ => by
      have hpairs : hooks.pairs [] = some [] := hhooks [] (by simp)
      rw [render, renderEntries, List.nil_append, List.cons_append, List.singleton_append,
        scanValue, if_neg (by decide), if_pos rfl, skipSpace_cons _ (by decide),
        List.head?_cons, if_pos rfl, List.tail_cons, hpairs, Option.map_some]
  | .dict (entry :: entries), hv, fuel + 1, t, _, hfuel => by
      have hplain : (Dict.keys (entry :: entries)).Pairwise (· < ·) ∧
          ReadableEntries I (entry :: entries) := by simpa only [Readable] using hv
      have hpairs : hooks.pairs (entry :: entries) = some (entry :: entries) :=
        hhooks _ (hplain.1.imp fun h => ne_of_lt h)
      obtain ⟨c, u, hcu, hspace, -, hbrace, -⟩ := tokenHead_renderEntries I entry entries
      have hlength : (renderEntries I true (entry :: entries)).length + 1 ≤ fuel := by
        simp only [render, List.length_cons, List.length_append, List.length_nil] at hfuel
        omega
      have hscan := scanEntries_renderEntries hhooks entry entries hplain.2 fuel t hlength
      rw [render, List.cons_append, List.append_assoc, List.singleton_append, scanValue,
        if_neg (by decide), if_pos rfl]
      rw [hcu, List.cons_append] at hscan ⊢
      rw [skipSpace_cons _ hspace, if_neg (by simpa using hbrace), hscan]
      simp [hpairs]

theorem scanItems_renderItems (hhooks : hooks.KeepDistinct) :
    ∀ (x : Value) (xs : List Value) (_ : Readable I x ∧ ReadableItems I xs) (fuel : ℕ) (t : Text)
      (_ : (renderItems I true (x :: xs)).length + 1 ≤ fuel),
      scanItems I hooks fuel (renderItems I true (x :: xs) ++ closeBracket :: t) =
        some (x :: xs, t)
  | x, xs, hplain, fuel + 1, t, hfuel => by
      have hlength : (render I x).length + (renderItems I false xs).length ≤ fuel := by
        simp only [renderItems, if_true, List.nil_append, List.length_append] at hfuel
        omega
      have hx := scanValue_render hhooks x hplain.1 fuel
        (renderItems I false xs ++ closeBracket :: t) (numberEnd_renderItems I xs t) (by omega)
      rw [scanItems, renderItems, if_pos rfl, List.nil_append, List.append_assoc, hx]
      simp only [Option.bind_eq_bind, Option.bind_some]
      match xs, hplain, hlength with
      | [], _, _ =>
          rw [renderItems, List.nil_append, skipSpace_cons _ (by decide)]
          rfl
      | y :: ys, hplain, hlength =>
          have hrest : Readable I y ∧ ReadableItems I ys := by simpa only [ReadableItems] using hplain.2
          have htail : (renderItems I true (y :: ys)).length + 1 ≤ fuel := by
            have hpos := length_render_pos I hplain.1
            rw [renderItems_false_cons, List.length_cons] at hlength
            omega
          have hys := scanItems_renderItems hhooks y ys hrest fuel t htail
          rw [renderItems_false_cons, List.cons_append, skipSpace_cons _ (by decide)]
          simp only [if_true]
          rw [((tokenHead_renderItems I hrest.1 ys).append _).skipSpace, hys]
          rfl

theorem scanEntries_renderEntries (hhooks : hooks.KeepDistinct) :
    ∀ (entry : Text × Value) (entries : List (Text × Value))
      (_ : ReadableEntries I (entry :: entries)) (fuel : ℕ) (t : Text)
      (_ : (renderEntries I true (entry :: entries)).length + 1 ≤ fuel),
      scanEntries I hooks fuel (renderEntries I true (entry :: entries) ++ closeBrace :: t) =
        some (entry :: entries, t)
  | (k, v), entries, hplain, fuel + 1, t, hfuel => by
      have hsplit : Readable I v ∧ ReadableEntries I entries := by simpa only [ReadableEntries] using hplain
      have hlength : (encodeString k).length + (render I v).length +
          (renderEntries I false entries).length + 1 ≤ fuel := by
        simp only [renderEntries, if_true, List.nil_append, List.length_append,
          List.length_cons] at hfuel
        omega
      have hkey : k.length < fuel + 1 := by
        have hle := length_le_flatMap_escape k
        simp only [encodeString, List.length_cons, List.length_append, List.length_nil] at hlength
        omega
      have hv := scanValue_render hhooks v hsplit.1 fuel
        (renderEntries I false entries ++ closeBrace :: t) (numberEnd_renderEntries I entries t)
        (by omega)
      have hhead := (tokenHead_render I hsplit.1).append
        (renderEntries I false entries ++ closeBrace :: t)
      rw [renderEntries, if_pos rfl, List.nil_append, encodeString]
      simp only [List.cons_append, List.append_assoc, List.nil_append]
      rw [scanEntries, if_pos rfl, scanString_flatMap_escape k _ _ hkey]
      simp only [Option.bind_eq_bind, Option.bind_some]
      rw [skipSpace_cons _ (by decide)]
      simp only [if_true]
      rw [hhead.skipSpace, hv]
      simp only [Option.bind_some]
      match entries, hsplit, hlength with
      | [], _, _ =>
          rw [renderEntries, List.nil_append, skipSpace_cons _ (by decide)]
          rfl
      | next :: entries, hsplit, hlength =>
          have htail : (renderEntries I true (next :: entries)).length + 1 ≤ fuel := by
            rw [renderEntries_false_cons, List.length_cons] at hlength
            omega
          have hnext := scanEntries_renderEntries hhooks next entries hsplit.2 fuel t htail
          rw [renderEntries_false_cons, List.cons_append, skipSpace_cons _ (by decide)]
          simp only [if_true]
          rw [((tokenHead_renderEntries I next entries).append _).skipSpace, hnext]
          rfl

end

end RoundTrip

/-! ## Sorted keys -/

mutual

theorem sortKeys_of_readable (I : Interpreter) : ∀ (v : Value) (_ : Readable I v), sortKeys v = v
  | .none, _ => rfl
  | .bool _, _ => rfl
  | .int _, _ => rfl
  | .float _, _ => rfl
  | .str _, _ => rfl
  | .list xs, hv => by
      rw [sortKeys, sortKeysItems_of_readable I xs (by simpa only [Readable] using hv)]
  | .dict entries, hv => by
      have hplain : (Dict.keys entries).Pairwise (· < ·) ∧ ReadableEntries I entries := by
        simpa only [Readable] using hv
      have hsorted : entries.Pairwise fun a b => a.1 ≤ b.1 :=
        (List.pairwise_map.mp hplain.1).imp fun h => le_of_lt h
      rw [sortKeys, sortKeysEntries_of_readable I entries hplain.2, hsorted.insertionSort_eq]

theorem sortKeysItems_of_readable (I : Interpreter) : ∀ (xs : List Value) (_ : ReadableItems I xs), sortKeysItems xs = xs
  | [], _ => rfl
  | x :: xs, h => by
      have hplain : Readable I x ∧ ReadableItems I xs := by simpa only [ReadableItems] using h
      rw [sortKeysItems, sortKeys_of_readable I x hplain.1, sortKeysItems_of_readable I xs hplain.2]

theorem sortKeysEntries_of_readable (I : Interpreter) :
    ∀ (entries : List (Text × Value)) (_ : ReadableEntries I entries),
      sortKeysEntries entries = entries
  | [], _ => rfl
  | (k, v) :: entries, h => by
      have hplain : Readable I v ∧ ReadableEntries I entries := by simpa only [ReadableEntries] using h
      rw [sortKeysEntries, sortKeys_of_readable I v hplain.1, sortKeysEntries_of_readable I entries hplain.2]

end

mutual

theorem allFinite_of_readable (I : Interpreter) : ∀ (v : Value) (_ : Readable I v), allFinite v = true
  | .none, _ => rfl
  | .bool _, _ => rfl
  | .int _, _ => rfl
  | .float x, hv => by
      have hfloat : FloatReadsBack I x := by simpa only [Readable] using hv
      obtain ⟨q, rfl⟩ := hfloat.finite
      rfl
  | .str _, _ => rfl
  | .list xs, hv => by
      rw [allFinite, allFiniteItems_of_readable I xs (by simpa only [Readable] using hv)]
  | .dict entries, hv => by
      have hplain : (Dict.keys entries).Pairwise (· < ·) ∧ ReadableEntries I entries := by
        simpa only [Readable] using hv
      rw [allFinite, allFiniteEntries_of_readable I entries hplain.2]

theorem allFiniteItems_of_readable (I : Interpreter) :
    ∀ (xs : List Value) (_ : ReadableItems I xs), allFiniteItems xs = true
  | [], _ => rfl
  | x :: xs, h => by
      have hplain : Readable I x ∧ ReadableItems I xs := by simpa only [ReadableItems] using h
      rw [allFiniteItems, allFinite_of_readable I x hplain.1, allFiniteItems_of_readable I xs hplain.2]
      rfl

theorem allFiniteEntries_of_readable (I : Interpreter) :
    ∀ (entries : List (Text × Value)) (_ : ReadableEntries I entries), allFiniteEntries entries = true
  | [], _ => rfl
  | (_, v) :: entries, h => by
      have hplain : Readable I v ∧ ReadableEntries I entries := by simpa only [ReadableEntries] using h
      rw [allFiniteEntries, allFinite_of_readable I v hplain.1,
        allFiniteEntries_of_readable I entries hplain.2]
      rfl

end

theorem dumps_of_readable (I : Interpreter) {v : Value} (hv : Readable I v) :
    dumps I v = some (render I v) := by
  rw [dumps, if_pos (allFinite_of_readable I v hv), sortKeys_of_readable I v hv]

theorem dumps_of_plain (I : Interpreter) {v : Value} (hv : Plain v) :
    dumps I v = some (render I v) :=
  dumps_of_readable I (readable_of_plain I v hv)

/-- The round trip. -/
theorem loads_of_readable (I : Interpreter) {hooks : Hooks} (hhooks : hooks.KeepDistinct)
    {v : Value} (hv : Readable I v) : loads I hooks (render I v) = some v := by
  have hscan := scanValue_render I hhooks v hv ((render I v).length + 1) [] numberEnd_nil
    (Nat.le_succ _)
  have htoken := tokenHead_render I hv
  have hbom : (render I v).head? ≠ some 0xFEFF := by
    obtain ⟨c, u, hcu, -, -, -, hc⟩ := htoken
    simpa [hcu] using hc
  rw [List.append_nil] at hscan
  rw [loads, if_neg hbom, htoken.skipSpace, hscan]
  simp [skipSpace]

theorem loads_render (I : Interpreter) {hooks : Hooks} (hhooks : hooks.KeepDistinct) {v : Value}
    (hv : Plain v) : loads I hooks (render I v) = some v :=
  loads_of_readable I hhooks (readable_of_plain I v hv)

/-- `dumps` is injective on the values that survive the round trip. -/
theorem render_injective (I : Interpreter) {v w : Value} (hv : Plain v) (hw : Plain w)
    (h : render I v = render I w) : v = w := by
  have hloads := loads_render I Hooks.keepDistinct_default hv
  rw [h, loads_render I Hooks.keepDistinct_default hw] at hloads
  exact (Option.some.inj hloads).symm

end Json

end Python
