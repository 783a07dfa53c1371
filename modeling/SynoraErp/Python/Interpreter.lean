import SynoraErp.Python.Datetime
import SynoraErp.Python.Value

/-!
# The interpreter

The parts of the standard library that rest on tables or on grammars that grow
from release to release: the Unicode case mapping, the Unicode decimal digits,
the ISO 8601 reader and the conversion of floats. They are parameters of the
model, each with the documented facts the contracts rely on. `Interpreter.ascii`
is an instance that evaluates; it agrees with the real one on ASCII text.
-/

namespace Python

open Text

/-- The table driven functions of the interpreter and their documented laws. -/
structure Interpreter where
  /-- `str.upper` of one code point: a text, since `"ß".upper()` is `"SS"`. -/
  upper : CodePoint → Text
  /-- An upper cased code point is a fixed point of the mapping. -/
  upper_upper : ∀ c, ∀ d ∈ upper c, upper d = [d]
  /-- Upper casing does not blank a visible code point. -/
  upper_visible : ∀ c, isSpace c = false → ∃ d ∈ upper c, isSpace d = false
  /-- The digit a code point of category Nd stands for. -/
  decimalDigit : CodePoint → Option (Fin 10)
  decimalDigit_ascii : ∀ c : CodePoint, c.val < 0x80 → decimalDigit c = asciiDigit? c
  /-- `datetime.fromisoformat`; `none` is the `ValueError`. -/
  fromisoformat : Text → Option IsoDatetime
  /-- It inverts `isoformat`. -/
  fromisoformat_isoformat : ∀ d : DateTime,
    fromisoformat (d.isoformat ++ "+00:00") = some ⟨d, 0, some 0⟩
  /-- `float(text)` of a JSON number. -/
  float : Text → Float64
  /-- `float.__repr__`. -/
  floatRepr : Float64 → Text

namespace Interpreter

/-- `text.upper()`. -/
def upperText (I : Interpreter) (t : Text) : Text := t.flatMap I.upper

theorem upperText_upperText (I : Interpreter) (t : Text) :
    I.upperText (I.upperText t) = I.upperText t := by
  have hfix : ∀ d ∈ I.upperText t, I.upper d = [d] := by
    intro d hd
    obtain ⟨c, -, hdc⟩ := List.mem_flatMap.mp hd
    exact I.upper_upper c d hdc
  calc I.upperText (I.upperText t) = (I.upperText t).flatMap (fun d => [d]) :=
        List.flatMap_congr hfix
    _ = I.upperText t := List.flatMap_singleton' _

theorem isBlank_upperText (I : Interpreter) {t : Text} (h : isBlank t = false) :
    isBlank (I.upperText t) = false := by
  simp only [isBlank, List.all_eq_false, Bool.not_eq_true] at h ⊢
  obtain ⟨c, hc, hspace⟩ := h
  obtain ⟨d, hd, hdspace⟩ := I.upper_visible c hspace
  exact ⟨d, List.mem_flatMap.mpr ⟨c, hc, hd⟩, hdspace⟩

theorem decimalDigit_digitPoint (I : Interpreter) (d : Fin 10) :
    I.decimalDigit (digitPoint d) = some d := by
  rw [I.decimalDigit_ascii _ (by simp only [digitPoint]; omega), asciiDigit?_digitPoint]

end Interpreter

/-- The upper case of an ASCII letter and of `ß`. -/
def asciiUpper (c : CodePoint) : Text :=
  if h : 0x61 ≤ c.val ∧ c.val ≤ 0x7A then [⟨c.val - 0x20, by omega⟩]
  else if c.val = 0xDF then "SS" else [c]

theorem asciiUpper_fixed {c : CodePoint} (hletter : ¬(0x61 ≤ c.val ∧ c.val ≤ 0x7A))
    (hsharp : c.val ≠ 0xDF) : asciiUpper c = [c] := by
  rw [asciiUpper, dif_neg hletter, if_neg hsharp]

/-- Reads `n` ASCII digits. -/
def takeDigits (n : ℕ) (t : Text) : Option (ℕ × Text) := do
  let ds ← (t.take n).mapM asciiDigit?
  if ds.length = n then some (ofDigits ds, t.drop n) else none

theorem mapM_asciiDigit?_digitsText (ds : List (Fin 10)) :
    (digitsText ds).mapM asciiDigit? = some ds := by
  induction ds with
  | nil => rfl
  | cons d ds ih =>
      have ih' : (List.map digitPoint ds).mapM asciiDigit? = some ds := ih
      simp [digitsText, ih']

theorem takeDigits_fixedDigits (n k : ℕ) (t : Text) :
    takeDigits n (digitsText (fixedDigits n k) ++ t) = some (k % 10 ^ n, t) := by
  have hlength : (digitsText (fixedDigits n k)).length = n := by simp
  simp [takeDigits, hlength, mapM_asciiDigit?_digitsText, ofDigits_fixedDigits]

/-- Reads a fixed text. -/
def expect (s t : Text) : Option Text := if t.take s.length = s then some (t.drop s.length) else none

@[simp] theorem expect_append (s t : Text) : expect s (s ++ t) = some t := by
  simp [expect]

/-- Reads `YYYY-MM-DD`. -/
def readDate (t : Text) : Option (Date × Text) := do
  let (year, t) ← takeDigits 4 t
  let t ← expect "-" t
  let (month, t) ← takeDigits 2 t
  let t ← expect "-" t
  let (day, t) ← takeDigits 2 t
  let date ← Date.ofFields? year month day
  some (date, t)

/-- Reads `HH:MM:SS` as the time of day of a date. -/
def readTime (date : Date) (t : Text) : Option (DateTime × Text) := do
  let (hour, t) ← takeDigits 2 t
  let t ← expect ":" t
  let (minute, t) ← takeDigits 2 t
  let t ← expect ":" t
  let (second, t) ← takeDigits 2 t
  if h : hour < 24 ∧ minute < 60 ∧ second < 60 then
    some (⟨date, hour, minute, second, h.1, h.2.1, h.2.2⟩, t)
  else none

/-- Reads `±HH:MM` as microseconds. -/
def readOffset (t : Text) : Option ℤ := do
  let sign ← t.head?
  let (hour, t) ← takeDigits 2 t.tail
  let t ← expect ":" t
  let (minute, t) ← takeDigits 2 t
  let offset : ℤ := (hour * 60 + minute : ℕ) * 60000000
  if t ≠ [] ∨ 24 ≤ hour ∨ 60 ≤ minute then none
  else if ofString "+" = [sign] then some offset
  else if ofString "-" = [sign] then some (-offset)
  else none

/-- The reader of the extended format with a time zone: a `datetime` to the second
and an offset in hours and minutes. -/
def readExtended (t : Text) : Option IsoDatetime := do
  let (date, t) ← readDate t
  let t ← expect "T" t
  let (time, t) ← readTime date t
  let offset ← readOffset t
  some ⟨time, 0, some offset⟩

theorem month_le_of_date (d : Date) : d.month ≤ 12 := by
  by_contra hmonth
  have hnone : daysInMonth d.year d.month = 0 := by
    unfold daysInMonth
    rw [if_neg (by omega), if_neg (by simp; omega), if_neg (by simp; omega)]
  have hpos := d.day_pos
  have hle := d.day_le
  omega

theorem readDate_digits (d : Date) (t : Text) :
    readDate (digitsText (fixedDigits 4 d.year) ++ (ofString "-" ++
      (digitsText (fixedDigits 2 d.month) ++ (ofString "-" ++
        (digitsText (fixedDigits 2 d.day) ++ t))))) = some (d, t) := by
  have hyear : d.year % 10 ^ 4 = d.year :=
    Nat.mod_eq_of_lt (Nat.lt_of_le_of_lt d.year_le (by decide))
  have hmonth : d.month % 10 ^ 2 = d.month :=
    Nat.mod_eq_of_lt (Nat.lt_of_le_of_lt (month_le_of_date d) (by decide))
  have hday : d.day % 10 ^ 2 = d.day :=
    Nat.mod_eq_of_lt (Nat.lt_of_le_of_lt (d.day_le.trans (daysInMonth_le _ _)) (by decide))
  have hdate : Date.ofFields? d.year d.month d.day = some d :=
    dif_pos ⟨d.year_pos, d.year_le, d.day_pos, d.day_le⟩
  simp only [readDate, takeDigits_fixedDigits, expect_append, Option.bind_eq_bind,
    Option.bind_some, hyear, hmonth, hday, hdate]

theorem readTime_digits (d : DateTime) (t : Text) :
    readTime d.date (digitsText (fixedDigits 2 d.hour) ++ (ofString ":" ++
      (digitsText (fixedDigits 2 d.minute) ++ (ofString ":" ++
        (digitsText (fixedDigits 2 d.second) ++ t))))) = some (d, t) := by
  have hhour : d.hour % 10 ^ 2 = d.hour := Nat.mod_eq_of_lt (d.hour_lt.trans (by decide))
  have hminute : d.minute % 10 ^ 2 = d.minute := Nat.mod_eq_of_lt (d.minute_lt.trans (by decide))
  have hsecond : d.second % 10 ^ 2 = d.second := Nat.mod_eq_of_lt (d.second_lt.trans (by decide))
  have htime : d.hour < 24 ∧ d.minute < 60 ∧ d.second < 60 :=
    ⟨d.hour_lt, d.minute_lt, d.second_lt⟩
  simp only [readTime, takeDigits_fixedDigits, expect_append, Option.bind_eq_bind,
    Option.bind_some, hhour, hminute, hsecond, dif_pos htime]

theorem readExtended_isoformat (d : DateTime) :
    readExtended (d.isoformat ++ "+00:00") = some ⟨d, 0, some 0⟩ := by
  have hoffset : readOffset "+00:00" = some 0 := by decide
  simp only [readExtended, DateTime.isoformat, List.flatten_cons, List.flatten_nil,
    List.append_assoc, List.nil_append, readDate_digits, readTime_digits, expect_append,
    Option.bind_eq_bind, Option.bind_some, hoffset]

theorem asciiUpper_asciiUpper (c d : CodePoint) (hd : d ∈ asciiUpper c) : asciiUpper d = [d] := by
  unfold asciiUpper at hd
  split_ifs at hd with hletter hsharp
  · rw [List.mem_singleton] at hd
    subst hd
    exact asciiUpper_fixed (by simp only; omega) (by simp only; omega)
  · have hS : d = codePoint 'S' := by
      simpa [ofString_eq] using hd
    subst hS
    rfl
  · rw [List.mem_singleton] at hd
    subst hd
    exact asciiUpper_fixed hletter hsharp

theorem asciiUpper_visible (c : CodePoint) (hc : isSpace c = false) :
    ∃ d ∈ asciiUpper c, isSpace d = false := by
  unfold asciiUpper
  split_ifs with hletter hsharp
  · refine ⟨_, List.mem_singleton_self _, ?_⟩
    simp [isSpace]
    omega
  · exact ⟨codePoint 'S', by simp [ofString_eq], by decide⟩
  · exact ⟨c, List.mem_singleton_self c, hc⟩

/-- An interpreter that evaluates: case mapping, digits and time stamps in ASCII. -/
def Interpreter.ascii : Interpreter where
  upper := asciiUpper
  upper_upper := asciiUpper_asciiUpper
  upper_visible := asciiUpper_visible
  decimalDigit := asciiDigit?
  decimalDigit_ascii _ _ := rfl
  fromisoformat := readExtended
  fromisoformat_isoformat := readExtended_isoformat
  float _ := .finite 0
  floatRepr _ := "0.0"

end Python
