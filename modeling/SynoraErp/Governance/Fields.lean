import SynoraErp.Governance.Fault
import SynoraErp.Python.Decimal
import SynoraErp.Python.JsonRoundTrip
import SynoraErp.Python.Sha256

/-!
# Field normalisers

The checks every contract is made of, one for each kind of field. A field is a
type whose values carry what its check has established, so a parsed record cannot
hold anything else, and each kind of field reads its own stored form back.
-/

namespace Governance

open Python

/-! ## Texts -/

/-- A text `_required_text` lets through. -/
@[ext] structure RequiredText (maximum : ℕ) where
  text : Text
  length_le : text.length ≤ maximum
  visible : Text.isBlank text = false
  deriving DecidableEq

/-- `_required_text`. -/
def requiredText (value : Value) (label : String) (maximum : ℕ) : Result (RequiredText maximum) :=
  match value with
  | .str t =>
      if h : t.length ≤ maximum ∧ Text.isBlank t = false then .ok ⟨t, h.1, h.2⟩
      else .error (invalid s!"{label} is invalid")
  | _ => .error (invalid s!"{label} is invalid")

def RequiredText.value {maximum : ℕ} (t : RequiredText maximum) : Value := .str t.text

@[simp] theorem requiredText_value {maximum : ℕ} (t : RequiredText maximum) (label : String) :
    requiredText t.value label maximum = .ok t :=
  dif_pos ⟨t.length_le, t.visible⟩

theorem requiredText_eq_ok {value : Value} {label : String} {maximum : ℕ}
    {t : RequiredText maximum} :
    requiredText value label maximum = .ok t ↔ value = t.value := by
  constructor
  · intro h
    unfold requiredText at h
    split at h
    · split_ifs at h with hvalid
      rw [← Except.ok.inj h]
      rfl
    · cases h
  · rintro rfl
    exact requiredText_value t label

theorem isBlank_of_mem {t : Text} {c : CodePoint} (hc : c ∈ t) (h : Text.isSpace c = false) :
    Text.isBlank t = false := by
  rw [Text.isBlank, List.all_eq_false]
  exact ⟨c, hc, by simp [h]⟩

/-! ## Identifiers -/

/-- A hexadecimal digit in lower case. -/
def isLowerHex (c : CodePoint) : Bool :=
  (0x30 ≤ c.val && c.val ≤ 0x39) || (0x61 ≤ c.val && c.val ≤ 0x66)

/-- `str(UUID(...))`: 32 hexadecimal digits in five groups. -/
def isCanonicalUuid (t : Text) : Bool :=
  t.length == 36 && t.zipIdx.all fun p =>
    if [8, 13, 18, 23].contains p.2 then p.1 == 0x2D else isLowerHex p.1

/-- A canonical UUID. -/
@[ext] structure Uuid where
  text : Text
  canonical : isCanonicalUuid text = true
  deriving DecidableEq

/-- `_uuid`: a text is accepted when its lower case is the canonical text of the
UUID it spells. No code point outside ASCII has a hexadecimal digit or a hyphen as
its lower case, so ASCII lower casing decides it. -/
def uuid (value : Value) (label : String) : Result Uuid := do
  let text ← requiredText value label 36
  if h : isCanonicalUuid (text.text.map Text.asciiLower) = true then .ok ⟨_, h⟩
  else .error (invalid s!"{label} is invalid")

def Uuid.value (u : Uuid) : Value := .str u.text

theorem isLowerHex_or_hyphen {t : Text} (h : isCanonicalUuid t = true) {c : CodePoint}
    (hc : c ∈ t) : isLowerHex c = true ∨ c = 0x2D := by
  simp only [isCanonicalUuid, Bool.and_eq_true, List.all_eq_true] at h
  obtain ⟨i, hi⟩ := List.mem_iff_getElem?.mp hc
  have hall := h.2 (c, i) (List.mk_mem_zipIdx_iff_getElem?.mpr hi)
  simp only at hall
  split_ifs at hall
  · exact Or.inr (by simpa using hall)
  · exact Or.inl hall

theorem asciiLower_of_isLowerHex {c : CodePoint} (h : isLowerHex c = true ∨ c = 0x2D) :
    Text.asciiLower c = c ∧ Text.isSpace c = false := by
  have hval : (0x30 ≤ c.val ∧ c.val ≤ 0x39) ∨ (0x61 ≤ c.val ∧ c.val ≤ 0x66) ∨ c.val = 0x2D := by
    rcases h with h | rfl
    · simp only [isLowerHex, Bool.or_eq_true, Bool.and_eq_true, decide_eq_true_eq] at h
      tauto
    · exact Or.inr (Or.inr rfl)
  constructor
  · rw [Text.asciiLower, dif_neg (by omega)]
  · exact Text.isSpace_of_printable (by omega) (by omega)

namespace Uuid

theorem length_text (u : Uuid) : u.text.length = 36 := by
  have h := u.canonical
  simp only [isCanonicalUuid, Bool.and_eq_true, beq_iff_eq] at h
  exact h.1

theorem map_asciiLower (u : Uuid) : u.text.map Text.asciiLower = u.text :=
  (List.map_congr_left fun _ hc =>
    (asciiLower_of_isLowerHex (isLowerHex_or_hyphen u.canonical hc)).1).trans (List.map_id _)

/-- The canonical text as a field. -/
def required (u : Uuid) : RequiredText 36 where
  text := u.text
  length_le := u.length_text.le
  visible := by
    obtain ⟨c, t, ht⟩ := List.exists_cons_of_ne_nil
      (List.ne_nil_of_length_pos (by rw [u.length_text]; decide))
    have hc : c ∈ u.text := by rw [ht]; exact List.mem_cons_self
    exact isBlank_of_mem hc (asciiLower_of_isLowerHex (isLowerHex_or_hyphen u.canonical hc)).2

end Uuid

@[simp] theorem uuid_value (u : Uuid) (label : String) : uuid u.value label = .ok u := by
  have htext : requiredText u.value label 36 = .ok u.required := requiredText_value u.required label
  have hlower : u.required.text.map Text.asciiLower = u.text := u.map_asciiLower
  rw [uuid, htext, ok_bind]
  simp only [hlower]
  exact dif_pos u.canonical

/-- A UUID is kept up to the case of its letters. -/
theorem uuid_eq_ok {value : Value} {label : String} {u : Uuid} (h : uuid value label = .ok u) :
    ∃ t : Text, value = .str t ∧ t.map Text.asciiLower = u.text := by
  rw [uuid, bind_eq_ok] at h
  obtain ⟨t, ht, h⟩ := h
  split_ifs at h
  rw [← Except.ok.inj h]
  exact ⟨t.text, requiredText_eq_ok.mp ht, rfl⟩

/-- `^[0-9a-f]{64}$`. -/
def isDigest (t : Text) : Bool := t.length == 64 && t.all isLowerHex

/-- A SHA-256 digest. -/
@[ext] structure Digest where
  text : Text
  valid : isDigest text = true
  deriving DecidableEq

/-- `_digest`. -/
def digest (value : Value) (label : String) : Result Digest := do
  let text ← requiredText value label 64
  if h : isDigest text.text = true then .ok ⟨text.text, h⟩
  else .error (invalid s!"{label} is invalid")

def Digest.value (d : Digest) : Value := .str d.text

@[simp] theorem digest_value (d : Digest) (label : String) : digest d.value label = .ok d := by
  have hvalid := d.valid
  simp only [isDigest, Bool.and_eq_true, beq_iff_eq, List.all_eq_true] at hvalid
  have hvisible : Text.isBlank d.text = false := by
    obtain ⟨c, t, ht⟩ := List.exists_cons_of_ne_nil
      (List.ne_nil_of_length_pos (by rw [hvalid.1]; decide))
    have hc : c ∈ d.text := by rw [ht]; exact List.mem_cons_self
    exact isBlank_of_mem hc (asciiLower_of_isLowerHex (Or.inl (hvalid.2 c hc))).2
  have htext : requiredText d.value label 64 = .ok ⟨d.text, hvalid.1.le, hvisible⟩ :=
    requiredText_value ⟨d.text, hvalid.1.le, hvisible⟩ label
  rw [digest, htext, ok_bind]
  exact dif_pos d.valid

theorem digest_eq_ok {value : Value} {label : String} {d : Digest} :
    digest value label = .ok d ↔ value = d.value := by
  constructor
  · intro h
    rw [digest, bind_eq_ok] at h
    obtain ⟨t, ht, h⟩ := h
    split_ifs at h
    rw [requiredText_eq_ok.mp ht, ← Except.ok.inj h]
    rfl
  · rintro rfl
    exact digest_value d label

/-- `hashlib.sha256(data).hexdigest()`. -/
def sha256 (data : ByteArray) : Digest where
  text := Sha256.hexdigest data
  valid := by
    have hhex : ∀ d : Fin 16, isLowerHex (Json.hexDigit d) = true := by decide
    rw [isDigest, Sha256.length_hexdigest, Bool.and_eq_true, List.all_eq_true]
    refine ⟨rfl, fun c hc => ?_⟩
    obtain ⟨d, rfl⟩ := Sha256.exists_hexDigit_of_mem hc
    exact hhex d

def isAlphanumeric (c : CodePoint) : Bool :=
  (0x30 ≤ c.val && c.val ≤ 0x39) || (0x41 ≤ c.val && c.val ≤ 0x5A) ||
    (0x61 ≤ c.val && c.val ≤ 0x7A)

/-- `^[A-Za-z0-9][A-Za-z0-9._:-]{7,127}$`. -/
def isIdempotencyKey : Text → Bool
  | [] => false
  | c :: t =>
      isAlphanumeric c && 7 ≤ t.length && t.length ≤ 127 &&
        t.all fun c => isAlphanumeric c || [0x2E, 0x5F, 0x3A, 0x2D].contains c.val

/-- An idempotency key. -/
@[ext] structure IdempotencyKey where
  text : Text
  valid : isIdempotencyKey text = true
  deriving DecidableEq

/-- `_idempotency_key`. -/
def idempotencyKey (value : Value) : Result IdempotencyKey := do
  let text ← requiredText value "idempotency_key" 128
  if h : isIdempotencyKey text.text = true then .ok ⟨text.text, h⟩
  else .error (invalid "idempotency_key is invalid")

def IdempotencyKey.value (k : IdempotencyKey) : Value := .str k.text

theorem isSpace_of_isAlphanumeric {c : CodePoint} (h : isAlphanumeric c = true) :
    Text.isSpace c = false := by
  simp only [isAlphanumeric, Bool.or_eq_true, Bool.and_eq_true, decide_eq_true_eq] at h
  exact Text.isSpace_of_printable (by omega) (by omega)

@[simp] theorem idempotencyKey_value (k : IdempotencyKey) : idempotencyKey k.value = .ok k := by
  have hvalid := k.valid
  have hrequired : k.text.length ≤ 128 ∧ Text.isBlank k.text = false := by
    match hk : k.text, hvalid with
    | c :: t, hvalid =>
        simp only [isIdempotencyKey, Bool.and_eq_true, decide_eq_true_eq] at hvalid
        refine ⟨?_, isBlank_of_mem List.mem_cons_self (isSpace_of_isAlphanumeric hvalid.1.1.1)⟩
        rw [List.length_cons]
        omega
  have htext : requiredText k.value "idempotency_key" 128 =
      .ok ⟨k.text, hrequired.1, hrequired.2⟩ :=
    requiredText_value ⟨k.text, hrequired.1, hrequired.2⟩ _
  rw [idempotencyKey, htext, ok_bind]
  exact dif_pos k.valid

theorem idempotencyKey_eq_ok {value : Value} {k : IdempotencyKey}
    (h : idempotencyKey value = .ok k) : value = k.value := by
  rw [idempotencyKey, bind_eq_ok] at h
  obtain ⟨t, ht, h⟩ := h
  split_ifs at h
  rw [requiredText_eq_ok.mp ht, ← Except.ok.inj h]
  rfl

/-! ## Dates and times -/

section Interpreted

variable (I : Interpreter)

/-- `text.replace("Z", "+00:00")`. -/
def replaceZulu (t : Text) : Text :=
  t.flatMap fun c => if c = codePoint 'Z' then Text.ofString "+00:00" else [c]

/-- The second in UTC of a time stamp that carries its time zone. -/
def normalizedTimestamp (parsed : IsoDatetime) (label : String) : Result DateTime :=
  match parsed.utcoffset with
  | none => .error (invalid s!"{label} must include a timezone")
  | some offset =>
      match parsed.astimezoneUtc offset with
      | none => .error .overflowError
      | some normalized => .ok normalized

/-- `_timestamp`. -/
def timestamp (value : Value) (label : String) : Result DateTime := do
  let text ← requiredText value label 64
  match I.fromisoformat (replaceZulu text.text) with
  | none => .error (invalid s!"{label} is invalid")
  | some parsed => normalizedTimestamp parsed label

theorem normalizedTimestamp_eq_ok {parsed : IsoDatetime} {offset : ℤ} {d : DateTime}
    (label : String) (hoffset : parsed.utcoffset = some offset)
    (hd : parsed.astimezoneUtc offset = some d) : normalizedTimestamp parsed label = .ok d := by
  simp only [normalizedTimestamp, hoffset, hd]

/-- The stored form of a time stamp. -/
def timestampText (d : DateTime) : Text := d.isoformat ++ [codePoint 'Z']

theorem replaceZulu_append (s t : Text) :
    replaceZulu (s ++ t) = replaceZulu s ++ replaceZulu t :=
  List.flatMap_append

theorem replaceZulu_of_not_mem {t : Text} (h : codePoint 'Z' ∉ t) : replaceZulu t = t := by
  induction t with
  | nil => rfl
  | cons c t ih =>
      rw [List.mem_cons, not_or] at h
      have ih' := ih h.2
      rw [replaceZulu] at ih' ⊢
      rw [List.flatMap_cons, ih', if_neg (Ne.symm h.1)]
      rfl

theorem zulu_not_mem_isoformat (d : DateTime) : codePoint 'Z' ∉ d.isoformat := by
  have hdigits : ∀ ds, codePoint 'Z' ∉ digitsText ds := by
    intro ds h
    obtain ⟨e, -, he⟩ := List.mem_map.mp h
    revert e
    decide
  have hpunct : ∀ s ∈ ["-", "T", ":"], codePoint 'Z' ∉ Text.ofString s := by decide
  simp only [DateTime.isoformat, List.mem_flatten, List.mem_cons, List.not_mem_nil, or_false]
  rintro ⟨t, ht, hmem⟩
  rcases ht with rfl | rfl | rfl | rfl | rfl | rfl | rfl | rfl | rfl | rfl | rfl <;>
    first
      | exact hdigits _ hmem
      | exact hpunct _ (by simp) hmem

theorem replaceZulu_timestampText (d : DateTime) :
    replaceZulu (timestampText d) = d.isoformat ++ Text.ofString "+00:00" := by
  have hzulu : replaceZulu [codePoint 'Z'] = Text.ofString "+00:00" := by simp [replaceZulu]
  rw [timestampText, replaceZulu_append, hzulu, replaceZulu_of_not_mem (zulu_not_mem_isoformat d)]

theorem timestamp_timestampText (d : DateTime) (label : String) :
    timestamp I (.str (timestampText d)) label = .ok d := by
  have hlength : (timestampText d).length ≤ 64 := by simp [timestampText]
  have hzulu : codePoint 'Z' ∈ timestampText d := by simp [timestampText]
  have hvisible : Text.isBlank (timestampText d) = false := isBlank_of_mem hzulu (by decide)
  have htext : requiredText (.str (timestampText d)) label 64 =
      .ok ⟨timestampText d, hlength, hvisible⟩ :=
    requiredText_value ⟨timestampText d, hlength, hvisible⟩ label
  rw [timestamp, htext, ok_bind]
  simp only [replaceZulu_timestampText, I.fromisoformat_isoformat]
  exact normalizedTimestamp_eq_ok label rfl (IsoDatetime.astimezoneUtc_zero d)

/-- `^\d{4}-\d{2}-\d{2}$` and `strptime(text, "%Y-%m-%d")`. The digits of the year
and the second digit of a day of the teens and the twenties may be of any script. -/
def isDate (t : Text) : Bool :=
  match t with
  | [y1, y2, y3, y4, h1, m1, m2, h2, d1, d2] =>
      match [y1, y2, y3, y4].mapM I.decimalDigit, asciiDigit? m1, asciiDigit? m2,
        asciiDigit? d1, I.decimalDigit d2 with
      | some year, some month1, some month2, some day1, some day2 =>
          h1 == 0x2D && h2 == 0x2D && (day1 == 1 || day1 == 2 || (asciiDigit? d2).isSome) &&
            (Date.ofFields? (ofDigits year) (ofDigits [month1, month2])
              (ofDigits [day1, day2])).isSome
      | _, _, _, _, _ => false
  | _ => false

/-- The text of a date, as the submitter wrote it. -/
@[ext] structure DateText where
  text : Text
  valid : isDate I text = true

/-- `_date`. -/
def date (value : Value) (label : String) : Result (DateText I) := do
  let text ← requiredText value label 10
  if h : isDate I text.text = true then .ok ⟨text.text, h⟩
  else .error (invalid s!"{label} is invalid")

def DateText.value {I : Interpreter} (d : DateText I) : Value := .str d.text

@[simp] theorem date_value (d : DateText I) (label : String) : date I d.value label = .ok d := by
  have hvalid := d.valid
  have hrequired : d.text.length ≤ 10 ∧ Text.isBlank d.text = false := by
    unfold isDate at hvalid
    split at hvalid
    case h_2 => cases hvalid
    case h_1 y1 y2 y3 y4 h1 m1 m2 h2 d1 d2 ht =>
      split at hvalid
      case h_2 => cases hvalid
      case h_1 =>
        simp only [Bool.and_eq_true, beq_iff_eq] at hvalid
        refine ⟨by simp [ht], isBlank_of_mem (c := h1) (by simp [ht]) ?_⟩
        rw [hvalid.1.1.1]
        decide
  have htext : requiredText d.value label 10 = .ok ⟨d.text, hrequired.1, hrequired.2⟩ :=
    requiredText_value ⟨d.text, hrequired.1, hrequired.2⟩ label
  rw [date, htext, ok_bind]
  exact dif_pos d.valid

theorem date_eq_ok {value : Value} {label : String} {d : DateText I}
    (h : date I value label = .ok d) : value = d.value := by
  rw [date, bind_eq_ok] at h
  obtain ⟨t, ht, h⟩ := h
  split_ifs at h
  rw [requiredText_eq_ok.mp ht, ← Except.ok.inj h]
  rfl

/-! ## Amounts -/

/-- `Decimal("1e-18")`, the least amount a contract accepts. -/
def minimum : ℚ := 10 ^ (-18 : ℤ)

/-- A quantity, a rate or an amount in normal form. -/
@[ext] structure Amount where
  dec : Dec
  canonical : dec.Canonical

namespace Amount

/-- The fixed point text the contracts keep. -/
def text (a : Amount) : Text := a.dec.formatFixed

def value (a : Amount) : Value := .str a.text

/-- The number an amount stands for. -/
def rat (a : Amount) : ℚ := a.dec.value

theorem minimum_le (a : Amount) : minimum ≤ a.rat :=
  Dec.le_value_of_le_adjusted a.canonical.nonneg a.canonical.coeff_ne_zero a.canonical.le_adjusted

theorem text_injective : Function.Injective text := by
  intro a b h
  exact Amount.ext (a.canonical.eq_of_formatFixed b.canonical h)

end Amount

/-- `str(value)` of a text or an integer, as `_decimal` calls it; the digit limit of
integers is its `ValueError`. -/
def decimalText : Value → Option Text
  | .str t => some t
  | .int n => if (natDigits n.natAbs).length ≤ Json.maxStrDigits then some (Json.intText n) else none
  | _ => none

/-- The number a field of an amount spells, before it is normalised. -/
def decimalNumber (value : Value) : Option Dec :=
  match (decimalText value).bind (Decimal.ofText I) with
  | some (.finite d) => if minimum ≤ d.value then some d else none
  | _ => none

/-- `_decimal` with its `minimum`. A number past the exponents of the context is a
`decimal.Overflow`, which no handler maps. The normal form of an accepted number
is positive, so its text is never `-0`. -/
def decimal (value : Value) (label : String) : Result Amount :=
  match hnumber : decimalNumber I value with
  | none => .error (invalid s!"{label} is invalid")
  | some number =>
      match hnormal : number.normalize with
      | none => .error .decimalOverflow
      | some normal =>
          .ok ⟨normal, by
            unfold decimalNumber at hnumber
            split at hnumber
            · split_ifs at hnumber with hminimum
              obtain rfl := Option.some.inj hnumber
              exact Dec.normalize_canonical hminimum hnormal
            · cases hnumber⟩

theorem decimal_eq_ok {value : Value} {label : String} {a : Amount} :
    decimal I value label = .ok a ↔
      ∃ d, decimalNumber I value = some d ∧ d.normalize = some a.dec := by
  unfold decimal
  split
  case h_1 hnone => simp [hnone]
  case h_2 number hnumber =>
    split
    case h_1 hnormal => simp [hnumber, hnormal]
    case h_2 normal hnormal => simp [hnumber, hnormal, Amount.ext_iff]

theorem minimum_le_of_decimalNumber {value : Value} {d : Dec}
    (h : decimalNumber I value = some d) : minimum ≤ d.value := by
  unfold decimalNumber at h
  split at h
  · split_ifs at h with hminimum
    obtain rfl := Option.some.inj h
    exact hminimum
  · cases h

/-- The kept text of an amount spells the same number again. -/
theorem exists_decimalNumber_value (a : Amount) :
    ∃ d, decimalNumber I a.value = some d ∧ d.value = a.rat ∧ d.normalize = some a.dec := by
  obtain ⟨d, hd, hvalue, hnormal⟩ := a.canonical.ofText_formatFixed I
  have hminimum : minimum ≤ d.value := by
    rw [hvalue]
    exact a.minimum_le
  have htext : Decimal.ofText I a.text = some (.finite d) := hd
  refine ⟨d, ?_, hvalue, hnormal⟩
  simp only [decimalNumber, Amount.value, decimalText, Option.bind_some, htext, if_pos hminimum]

@[simp] theorem decimal_value (a : Amount) (label : String) : decimal I a.value label = .ok a := by
  obtain ⟨d, hd, -, hnormal⟩ := exists_decimalNumber_value I a
  exact (decimal_eq_ok I).mpr ⟨d, hd, hnormal⟩

/-! ## Currencies -/

/-- A currency code in upper case. Upper casing may lengthen a text, so the limit of
three code points on the submitted text does not carry over. -/
@[ext] structure Currency where
  text : Text
  upper : I.upperText text = text
  visible : Text.isBlank text = false

/-- `_required_text(value, label, 3).upper()`. -/
def currency (value : Value) (label : String) : Result (Currency I) := do
  let text ← requiredText value label 3
  .ok ⟨I.upperText text.text, I.upperText_upperText text.text, I.isBlank_upperText text.visible⟩

def Currency.value {I : Interpreter} (c : Currency I) : Value := .str c.text

theorem currency_eq_ok {value : Value} {label : String} {c : Currency I} :
    currency I value label = .ok c ↔
      ∃ t : RequiredText 3, value = t.value ∧ I.upperText t.text = c.text := by
  rw [currency, bind_eq_ok]
  constructor
  · rintro ⟨t, ht, h⟩
    exact ⟨t, requiredText_eq_ok.mp ht, by rw [← Except.ok.inj h]⟩
  · rintro ⟨t, rfl, h⟩
    exact ⟨t, requiredText_value t label, congrArg Except.ok (Currency.ext h)⟩

/-- A stored currency code is accepted again exactly when it still is at most three
code points long. -/
theorem currency_value_eq_ok (c : Currency I) (label : String) {c' : Currency I} :
    currency I c.value label = .ok c' ↔ c.text.length ≤ 3 ∧ c' = c := by
  rw [currency_eq_ok]
  constructor
  · rintro ⟨t, ht, h⟩
    have htext : c.text = t.text := Value.str.inj ht
    refine ⟨htext ▸ t.length_le, Currency.ext ?_⟩
    rw [← h, ← htext, c.upper]
  · rintro ⟨hlength, rfl⟩
    exact ⟨⟨c'.text, hlength, c'.visible⟩, rfl, c'.upper⟩

end Interpreted

/-! ## Lists and objects -/

/-- A list with at least one and at most `maximum` items. -/
@[ext] structure BoundedList (α : Type) (maximum : ℕ) where
  items : List α
  nonempty : items ≠ []
  length_le : items.length ≤ maximum

/-- `_list`. -/
def list (value : Value) (label : String) (maximum : ℕ) : Result (BoundedList Value maximum) :=
  match value with
  | .list xs =>
      if h : xs ≠ [] ∧ xs.length ≤ maximum then .ok ⟨xs, h.1, h.2⟩
      else .error (invalid s!"{label} is invalid")
  | _ => .error (invalid s!"{label} is invalid")

theorem list_eq_ok {value : Value} {label : String} {maximum : ℕ}
    {xs : BoundedList Value maximum} :
    list value label maximum = .ok xs ↔ value = .list xs.items := by
  constructor
  · intro h
    unfold list at h
    split at h
    · split_ifs at h with hvalid
      rw [← Except.ok.inj h]
    · cases h
  · rintro rfl
    exact dif_pos ⟨xs.nonempty, xs.length_le⟩

@[simp] theorem list_items {maximum : ℕ} (xs : BoundedList Value maximum) (label : String) :
    list (.list xs.items) label maximum = .ok xs :=
  list_eq_ok.mpr rfl

/-- The items of a list, each read at its index. -/
def parseItems {α : Type} (parse : ℕ → Value → Result α) : ℕ → List Value → Result (List α)
  | _, [] => .ok []
  | index, x :: xs => do
      let y ← parse index x
      let ys ← parseItems parse (index + 1) xs
      .ok (y :: ys)

theorem parseItems_eq_ok {α : Type} {parse : ℕ → Value → Result α} {index : ℕ}
    {xs : List Value} {ys : List α} (h : parseItems parse index xs = .ok ys) :
    List.Forall₂ (fun x y => ∃ i, parse i x = .ok y) xs ys := by
  induction xs generalizing index ys with
  | nil =>
      rw [parseItems] at h
      rw [← Except.ok.inj h]
      exact List.Forall₂.nil
  | cons x xs ih =>
      simp only [parseItems, bind_eq_ok] at h
      obtain ⟨y, hy, zs, hzs, h⟩ := h
      rw [← Except.ok.inj h]
      exact List.Forall₂.cons ⟨index, hy⟩ (ih hzs)

/-- Stored items are read back when each of them is. -/
theorem parseItems_map {α : Type} {parse : ℕ → Value → Result α} {render : α → Value}
    {ys : List α} (h : ∀ y ∈ ys, ∀ i, parse i (render y) = .ok y) (index : ℕ) :
    parseItems parse index (ys.map render) = .ok ys := by
  induction ys generalizing index with
  | nil => rfl
  | cons y ys ih =>
      have hy := h y List.mem_cons_self index
      have hys := ih (fun z hz => h z (List.mem_cons_of_mem y hz)) (index + 1)
      simp only [List.map_cons, parseItems, hy, ok_bind, hys]

theorem exists_right_of_mem {α β : Type} {r : α → β → Prop} {xs : List α} {ys : List β}
    (h : List.Forall₂ r xs ys) {x : α} (hx : x ∈ xs) : ∃ y ∈ ys, r x y := by
  induction h with
  | nil => cases hx
  | cons hxy _ ih =>
      rcases List.mem_cons.mp hx with rfl | hx
      · exact ⟨_, List.mem_cons_self, hxy⟩
      · obtain ⟨y, hy, hr⟩ := ih hx
        exact ⟨y, List.mem_cons_of_mem _ hy, hr⟩

theorem exists_left_of_mem {α β : Type} {r : α → β → Prop} {xs : List α} {ys : List β}
    (h : List.Forall₂ r xs ys) {y : β} (hy : y ∈ ys) : ∃ x ∈ xs, r x y :=
  exists_right_of_mem h.flip hy

namespace BoundedList

/-- A list of the same length. -/
def withItems {α β : Type} {maximum : ℕ} (xs : BoundedList α maximum) (ys : List β)
    (h : ys.length = xs.items.length) : BoundedList β maximum where
  items := ys
  nonempty := by
    rintro rfl
    exact xs.nonempty (List.length_eq_zero_iff.mp h.symm)
  length_le := h.le.trans xs.length_le

/-- The items of a list, each read at its index. -/
def parse {α : Type} {maximum : ℕ} (xs : BoundedList Value maximum)
    (parse : ℕ → Value → Result α) : Result (BoundedList α maximum) :=
  match h : parseItems parse 0 xs.items with
  | .error e => .error e
  | .ok ys => .ok (xs.withItems ys (parseItems_eq_ok h).length_eq.symm)

theorem parse_eq_ok {α : Type} {maximum : ℕ} {xs : BoundedList Value maximum}
    {f : ℕ → Value → Result α} {ys : BoundedList α maximum} :
    xs.parse f = .ok ys ↔ parseItems f 0 xs.items = .ok ys.items := by
  unfold parse
  split
  case h_1 e he => simp [he]
  case h_2 zs hzs =>
    constructor
    · intro h
      rw [hzs, ← Except.ok.inj h]
      rfl
    · intro h
      exact congrArg Except.ok (BoundedList.ext (Except.ok.inj (hzs.symm.trans h)))

/-- The list of the stored items. -/
def map {α β : Type} {maximum : ℕ} (f : α → β) (xs : BoundedList α maximum) :
    BoundedList β maximum :=
  xs.withItems (xs.items.map f) (List.length_map f)

@[simp] theorem items_map {α β : Type} {maximum : ℕ} (f : α → β) (xs : BoundedList α maximum) :
    (xs.map f).items = xs.items.map f :=
  rfl

/-- Stored items are read back when each of them is. -/
theorem parse_map {α : Type} {maximum : ℕ} {f : ℕ → Value → Result α} {render : α → Value}
    {xs : BoundedList α maximum} (h : ∀ x ∈ xs.items, ∀ i, f i (render x) = .ok x) :
    (xs.map render).parse f = .ok xs :=
  parse_eq_ok.mpr (parseItems_map h 0)

/-- Items that are read back were each read back. -/
theorem exists_of_parse_map {α β : Type} {maximum : ℕ} {f : ℕ → Value → Result β}
    {render : α → Value} {xs : BoundedList α maximum} {ys : BoundedList β maximum}
    (h : (xs.map render).parse f = .ok ys) {x : α} (hx : x ∈ xs.items) :
    ∃ i y, f i (render x) = .ok y := by
  have hall := parseItems_eq_ok (parse_eq_ok.mp h)
  rw [items_map, List.forall₂_map_left_iff] at hall
  obtain ⟨y, -, i, hy⟩ := exists_right_of_mem hall hx
  exact ⟨i, y, hy⟩

end BoundedList

/-- `_object`. -/
def object (value : Value) (fields required : List String) (label : String) : Result Dict :=
  match value with
  | .dict d =>
      if (Dict.keys d).all (fun key => (fields.map Text.ofString).contains key) &&
          required.all (fun key => (Dict.keys d).contains (Text.ofString key)) then .ok d
      else .error (invalid s!"{label} fields are invalid")
  | _ => .error (invalid s!"{label} must be an object")

theorem object_eq_ok {value : Value} {fields required : List String} {label : String} {d : Dict} :
    object value fields required label = .ok d ↔
      value = .dict d ∧ (∀ key ∈ Dict.keys d, key ∈ fields.map Text.ofString) ∧
        ∀ key ∈ required, Text.ofString key ∈ Dict.keys d := by
  cases value with
  | dict entries =>
      simp only [object, Value.dict.injEq]
      split_ifs with h
      · simp only [Bool.and_eq_true, List.all_eq_true, List.contains_eq_mem,
          decide_eq_true_eq] at h
        constructor
        · intro hd
          obtain rfl := Except.ok.inj hd
          exact ⟨rfl, h⟩
        · rintro ⟨rfl, -⟩
          rfl
      · simp only [Bool.and_eq_true, List.all_eq_true, List.contains_eq_mem,
          decide_eq_true_eq] at h
        constructor
        · intro hd
          cases hd
        · rintro ⟨rfl, hkeys⟩
          exact absurd hkeys h
  | _ => simp [object]

/-- `d[key]`, and `d.get(key)`: a missing key reads as `None`. -/
def item (d : Dict) (key : String) : Value := (Dict.get? d key).getD .none

/-- `value is None`. -/
def isNone : Value → Bool
  | .none => true
  | _ => false

/-- A field that may be left out: read only when it is there and not `None`. -/
def optionally {α : Type} (value : Value) (parse : Value → Result α) : Result (Option α) :=
  if isNone value then .ok none else (parse value).map some

theorem optionally_eq_ok {α : Type} {value : Value} {parse : Value → Result α} {r : Option α} :
    optionally value parse = .ok r ↔
      (isNone value = true ∧ r = none) ∨
        (isNone value = false ∧ ∃ a, parse value = .ok a ∧ r = some a) := by
  unfold optionally
  cases hvalue : isNone value with
  | true => simp [eq_comm]
  | false =>
      cases hparse : parse value with
      | error e => simp [Except.map]
      | ok a => simp [Except.map, eq_comm]

/-- Whether an optional field is kept is whether it was submitted. -/
theorem isSome_of_optionally {α : Type} {value : Value} {parse : Value → Result α} {r : Option α}
    (h : optionally value parse = .ok r) : r.isSome = !isNone value := by
  rcases optionally_eq_ok.mp h with ⟨hvalue, rfl⟩ | ⟨hvalue, a, -, rfl⟩
  · simp [hvalue]
  · simp [hvalue]

/-- The entries of a record: a field without a value has none. -/
def record (fields : List (String × Option Value)) : Dict :=
  fields.flatMap fun p => Dict.optional p.1 p.2

@[simp] theorem record_nil : record [] = [] := rfl

theorem record_cons (key : String) (v : Option Value) (fields : List (String × Option Value)) :
    record ((key, v) :: fields) = Dict.optional key v ++ record fields := rfl

/-- A field is looked up among the fields of its record. -/
theorem item_record_cons (k : String) (v : Option Value) (fields : List (String × Option Value))
    (key : String) :
    item (record ((k, v) :: fields)) key =
      if k = key then v.getD (item (record fields) key) else item (record fields) key := by
  rw [item, record_cons, Dict.get?_append]
  split_ifs with h
  · subst h
    rw [Dict.get?_optional_self]
    cases v <;> rfl
  · rw [Dict.get?_optional_of_ne v (by simpa using h)]
    rfl

@[simp] theorem item_nil (key : String) : item [] key = .none := rfl

theorem mem_keys_record {fields : List (String × Option Value)} {key : Text} :
    key ∈ Dict.keys (record fields) ↔ ∃ p ∈ fields, p.2.isSome = true ∧ Text.ofString p.1 = key := by
  have hoptional : ∀ p : String × Option Value,
      key ∈ Dict.keys (Dict.optional p.1 p.2) ↔ p.2.isSome = true ∧ Text.ofString p.1 = key := by
    rintro ⟨k, v⟩
    cases v with
    | none => simp
    | some v => simp [eq_comm]
  induction fields with
  | nil => simp
  | cons p fields ih =>
      obtain ⟨k, v⟩ := p
      have hhead := hoptional (k, v)
      simp only [record_cons, Dict.keys_append, List.mem_append, ih, hhead, List.exists_mem_cons_iff]

theorem get?_record_of_not_mem {fields : List (String × Option Value)} {key : String}
    (h : key ∉ fields.map Prod.fst) : Dict.get? (record fields) (Text.ofString key) = none := by
  rw [Dict.get?_eq_none_iff, mem_keys_record]
  rintro ⟨p, hp, -, hkey⟩
  exact h (List.mem_map.mpr ⟨p, hp, Text.ofString_inj _ _ |>.mp hkey⟩)

/-- A record determines the values of its fields. -/
theorem record_inj {fields others : List (String × Option Value)}
    (hkeys : fields.map Prod.fst = others.map Prod.fst) (hnodup : (fields.map Prod.fst).Nodup)
    (h : record fields = record others) : fields = others := by
  induction fields generalizing others with
  | nil => simpa using hkeys.symm
  | cons p fields ih =>
      obtain ⟨k, v⟩ := p
      obtain ⟨⟨k', v'⟩, others, rfl⟩ := List.exists_cons_of_ne_nil (l := others) (by
        rintro rfl
        simp at hkeys)
      simp only [List.map_cons, List.cons.injEq] at hkeys
      obtain ⟨rfl, hkeys⟩ := hkeys
      rw [List.map_cons, List.nodup_cons] at hnodup
      have hget : ∀ (w : Option Value) (rest : List (String × Option Value)),
          k ∉ rest.map Prod.fst →
            Dict.get? (record ((k, w) :: rest)) (Text.ofString k) = w := by
        intro w rest hrest
        rw [record_cons, Dict.get?_append, Dict.get?_optional_self,
          get?_record_of_not_mem hrest, Option.or_none]
      have hv : v = v' := by
        rw [← hget v fields hnodup.1, h, hget v' others (hkeys ▸ hnodup.1)]
      subst hv
      rw [record_cons, record_cons] at h
      rw [ih hkeys hnodup.2 (List.append_cancel_left h)]

/-- The check of a stored record: its fields are known, and the required ones have
a value. -/
theorem object_record {known required : List String} {label : String}
    {fields : List (String × Option Value)} (hknown : ∀ p ∈ fields, p.1 ∈ known) :
    (∃ d, object (.dict (record fields)) known required label = .ok d) ↔
      ∀ key ∈ required, ∃ p ∈ fields, p.2.isSome = true ∧ p.1 = key := by
  have hrequired : ∀ key, Text.ofString key ∈ Dict.keys (record fields) ↔
      ∃ p ∈ fields, p.2.isSome = true ∧ p.1 = key := by
    intro key
    rw [mem_keys_record]
    simp
  constructor
  · rintro ⟨d, hd⟩ key hkey
    obtain ⟨hvalue, -, hkeys⟩ := object_eq_ok.mp hd
    obtain rfl := Value.dict.inj hvalue
    exact (hrequired key).mp (hkeys key hkey)
  · intro h
    refine ⟨record fields, object_eq_ok.mpr ⟨rfl, ?_, fun key hkey => (hrequired key).mpr (h key hkey)⟩⟩
    intro key hkey
    obtain ⟨p, hp, -, rfl⟩ := mem_keys_record.mp hkey
    exact List.mem_map_of_mem (hknown p hp)

theorem object_record_eq_ok {known required : List String} {label : String}
    {fields : List (String × Option Value)} (hknown : ∀ p ∈ fields, p.1 ∈ known)
    (hrequired : ∀ key ∈ required, ∃ p ∈ fields, p.2.isSome = true ∧ p.1 = key) :
    object (.dict (record fields)) known required label = .ok (record fields) := by
  have hexists : ∃ d, object (.dict (record fields)) known required label = .ok d :=
    (object_record hknown).mpr hrequired
  obtain ⟨d, hd⟩ := hexists
  obtain ⟨hvalue, -⟩ := object_eq_ok.mp hd
  rw [hd, Value.dict.inj hvalue]

/-- A record is plain when its keys are in order and its values are plain. -/
theorem plain_record {fields : List (String × Option Value)}
    (hsorted : (fields.map fun p => Text.ofString p.1).Pairwise (· < ·))
    (hplain : ∀ p ∈ fields, ∀ v ∈ p.2, Json.Plain v) : Json.Plain (.dict (record fields)) := by
  rw [Json.Plain]
  induction fields with
  | nil => exact ⟨List.Pairwise.nil, trivial⟩
  | cons p fields ih =>
      obtain ⟨k, v⟩ := p
      rw [List.map_cons, List.pairwise_cons] at hsorted
      obtain ⟨hkeys, hentries⟩ := ih hsorted.2 fun p hp => hplain p (List.mem_cons_of_mem _ hp)
      cases v with
      | none => exact ⟨hkeys, hentries⟩
      | some v =>
          refine ⟨List.pairwise_cons.mpr ⟨?_, hkeys⟩, ?_⟩
          · intro key hkey
            obtain ⟨p, hp, -, rfl⟩ := mem_keys_record.mp hkey
            exact hsorted.1 _ (List.mem_map_of_mem (f := fun p => Text.ofString p.1) hp)
          · exact ⟨hplain _ List.mem_cons_self v rfl, hentries⟩

/-- The entry of an optional field reads back as what was submitted. -/
theorem optionally_getD_map {α : Type} {render : α → Value} {parse : Value → Result α}
    (hrender : ∀ a, isNone (render a) = false) (hparse : ∀ a, parse (render a) = .ok a)
    (a : Option α) : optionally ((a.map render).getD .none) parse = .ok a := by
  cases a with
  | none => rfl
  | some a => simp [optionally, hrender, hparse, Except.map]

@[simp] theorem optionally_requiredText {maximum : ℕ} (label : String)
    (a : Option (RequiredText maximum)) :
    optionally ((a.map RequiredText.value).getD .none) (requiredText · label maximum) = .ok a :=
  optionally_getD_map (fun _ => rfl) (fun a => requiredText_value a label) a

/-- A set of references: in order, without repetition. -/
@[ext] structure RefList where
  texts : List Text
  nonempty : texts ≠ []
  length_le : texts.length ≤ 128
  sorted : texts.Pairwise (· < ·)
  valid : ∀ t ∈ texts, t.length ≤ 256 ∧ Text.isBlank t = false

/-- `tuple(sorted(set(texts)))`. -/
def sortedSet (texts : List Text) : List Text := texts.dedup.insertionSort (· ≤ ·)

theorem pairwise_sortedSet (texts : List Text) : (sortedSet texts).Pairwise (· < ·) := by
  have hle : (sortedSet texts).Pairwise (· ≤ ·) := List.pairwise_insertionSort _ _
  have hnodup : (sortedSet texts).Nodup :=
    (List.perm_insertionSort _ _).nodup_iff.mpr (List.nodup_dedup texts)
  exact (hle.and hnodup).imp fun h => lt_of_le_of_ne h.1 h.2

theorem mem_sortedSet {texts : List Text} {t : Text} : t ∈ sortedSet texts ↔ t ∈ texts := by
  rw [sortedSet, List.mem_insertionSort, List.mem_dedup]

theorem sortedSet_of_pairwise {texts : List Text} (h : texts.Pairwise (· < ·)) :
    sortedSet texts = texts := by
  have hnodup : texts.Nodup := h.imp fun h => ne_of_lt h
  rw [sortedSet, hnodup.dedup]
  exact (h.imp fun h => le_of_lt h).insertionSort_eq

/-- `_ref_list`. -/
def refList (value : Value) (label : String) : Result RefList := do
  let values ← list value label 128
  let texts ← values.parse fun _ x => requiredText x s!"{label} item" 256
  if h : (sortedSet (texts.items.map RequiredText.text)).length = texts.items.length then
    .ok
      { texts := sortedSet (texts.items.map RequiredText.text)
        nonempty := by
          intro hnil
          rw [hnil, List.length_nil] at h
          exact texts.nonempty (List.length_eq_zero_iff.mp h.symm)
        length_le := h.le.trans texts.length_le
        sorted := pairwise_sortedSet _
        valid := by
          intro t ht
          obtain ⟨r, -, rfl⟩ := List.mem_map.mp (mem_sortedSet.mp ht)
          exact ⟨r.length_le, r.visible⟩ }
  else .error (invalid s!"{label} contains duplicate references")

def RefList.value (r : RefList) : Value := .list (r.texts.map .str)

theorem forall₂_value_eq {maximum : ℕ} {xs : List Value} {ys : List (RequiredText maximum)}
    (h : List.Forall₂ (fun x y => x = RequiredText.value y) xs ys) :
    xs = (ys.map RequiredText.text).map .str := by
  induction h with
  | nil => rfl
  | cons hx _ ih =>
      rw [List.map_cons, List.map_cons, ← ih, hx]
      rfl

/-- The reference set is the set of the submitted texts. -/
theorem refList_eq_ok {value : Value} {label : String} {r : RefList}
    (h : refList value label = .ok r) :
    ∃ texts : List Text, value = .list (texts.map .str) ∧ texts.Perm r.texts := by
  simp only [refList, bind_eq_ok] at h
  obtain ⟨values, hvalues, texts, htexts, h⟩ := h
  split_ifs at h with hlength
  have hitems := forall₂_value_eq ((parseItems_eq_ok (BoundedList.parse_eq_ok.mp htexts)).imp
    fun _ _ hx => requiredText_eq_ok.mp hx.choose_spec)
  have hdedup : (texts.items.map RequiredText.text).dedup = texts.items.map RequiredText.text := by
    apply (List.dedup_sublist _).eq_of_length
    rw [sortedSet, List.length_insertionSort] at hlength
    rw [hlength, List.length_map]
  refine ⟨texts.items.map RequiredText.text, by rw [list_eq_ok.mp hvalues, hitems], ?_⟩
  rw [← Except.ok.inj h]
  simp only [sortedSet, hdedup]
  exact (List.perm_insertionSort _ _).symm

/-- The references as fields. -/
def RefList.required (r : RefList) : List (RequiredText 256) :=
  r.texts.attach.map fun t =>
    ⟨t.val, (r.valid t.val t.property).1, (r.valid t.val t.property).2⟩

theorem RefList.map_required (r : RefList) : r.required.map RequiredText.text = r.texts := by
  simp [required, Function.comp_def]

@[simp] theorem refList_value (r : RefList) (label : String) : refList r.value label = .ok r := by
  let values : BoundedList (RequiredText 256) 128 :=
    { items := r.required
      nonempty := by
        intro h
        apply r.nonempty
        rw [← r.map_required, h, List.map_nil]
      length_le := by
        have h := congrArg List.length r.map_required
        rw [List.length_map] at h
        exact h.le.trans r.length_le }
  have hvalue : r.value = .list (values.map RequiredText.value).items := by
    rw [RefList.value, ← r.map_required, List.map_map]
    rfl
  have hparse : (values.map RequiredText.value).parse
      (fun _ x => requiredText x s!"{label} item" 256) = .ok values :=
    BoundedList.parse_eq_ok.mpr (parseItems_map (fun y _ _ => requiredText_value y _) 0)
  have hsorted : sortedSet (values.items.map RequiredText.text) = r.texts := by
    rw [show values.items.map RequiredText.text = r.texts from r.map_required]
    exact sortedSet_of_pairwise r.sorted
  have hlength : (sortedSet (values.items.map RequiredText.text)).length =
      values.items.length := by
    rw [hsorted, ← r.map_required, List.length_map]
  rw [refList, list_eq_ok.mpr hvalue, ok_bind, hparse, ok_bind, dif_pos hlength]
  exact congrArg Except.ok (RefList.ext hsorted)

end Governance
