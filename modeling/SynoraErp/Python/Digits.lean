import Mathlib.Data.Nat.Digits.Lemmas
import SynoraErp.Python.Text

/-!
# Decimal digits

Numbers as sequences of decimal digits, most significant first, and the texts
that spell them in ASCII.
-/

namespace Python

/-- Literals are digits. -/
instance neZero_digits : NeZero (10 : ℕ) := ⟨by decide⟩

/-- The ASCII code point of a digit. -/
def digitPoint (d : Fin 10) : CodePoint := ⟨0x30 + d.val, by omega⟩

theorem digitPoint_injective : Function.Injective digitPoint := by
  intro a b h
  have hval : 0x30 + a.val = 0x30 + b.val := congrArg Fin.val h
  exact Fin.ext (by omega)

/-- The number a sequence of digits denotes. -/
def ofDigits (ds : List (Fin 10)) : ℕ := ds.foldl (fun n d => 10 * n + d.val) 0

theorem foldl_digits (ds : List (Fin 10)) (n : ℕ) :
    ds.foldl (fun n d => 10 * n + d.val) n = n * 10 ^ ds.length + ofDigits ds := by
  induction ds generalizing n with
  | nil => simp [ofDigits]
  | cons d ds ih =>
      have hcons : ofDigits (d :: ds) = d.val * 10 ^ ds.length + ofDigits ds := by
        simpa [ofDigits] using ih (10 * 0 + d.val)
      rw [List.foldl_cons, ih, hcons, List.length_cons]
      ring

theorem ofDigits_append (ds es : List (Fin 10)) :
    ofDigits (ds ++ es) = ofDigits ds * 10 ^ es.length + ofDigits es := by
  rw [ofDigits, List.foldl_append, foldl_digits es]
  rfl

@[simp] theorem ofDigits_nil : ofDigits [] = 0 := rfl

theorem ofDigits_cons (d : Fin 10) (ds : List (Fin 10)) :
    ofDigits (d :: ds) = d.val * 10 ^ ds.length + ofDigits ds := by
  have h := ofDigits_append [d] ds
  simpa [ofDigits] using h

@[simp] theorem ofDigits_replicate_zero (n : ℕ) : ofDigits (List.replicate n 0) = 0 := by
  induction n with
  | zero => rfl
  | succ n ih => simp [List.replicate_succ, ofDigits_cons, ih]

theorem ofDigits_lt (ds : List (Fin 10)) : ofDigits ds < 10 ^ ds.length := by
  induction ds with
  | nil => simp
  | cons d ds ih =>
      have hd : d.val * 10 ^ ds.length ≤ 9 * 10 ^ ds.length :=
        Nat.mul_le_mul_right _ (by omega)
      rw [ofDigits_cons, List.length_cons, pow_succ]
      omega

/-- The last `width` digits of a number, padded with zeros on the left. -/
def fixedDigits : ℕ → ℕ → List (Fin 10)
  | 0, _ => []
  | width + 1, n => fixedDigits width (n / 10) ++ [⟨n % 10, Nat.mod_lt _ (by decide)⟩]

@[simp] theorem length_fixedDigits (width n : ℕ) : (fixedDigits width n).length = width := by
  induction width generalizing n with
  | zero => rfl
  | succ width ih => simp [fixedDigits, ih]

theorem ofDigits_fixedDigits (width n : ℕ) : ofDigits (fixedDigits width n) = n % 10 ^ width := by
  induction width generalizing n with
  | zero => simp [fixedDigits, Nat.mod_one]
  | succ width ih =>
      have hsplit : n % 10 ^ (width + 1) = n / 10 % 10 ^ width * 10 + n % 10 := by
        rw [pow_succ', Nat.mod_mul]
        ring
      rw [fixedDigits, ofDigits_append, ih, hsplit]
      simp [ofDigits]

/-- The digits of a number without leading zeros; zero is the digit `0`. -/
def natDigits (n : ℕ) : List (Fin 10) := fixedDigits (Nat.log 10 n + 1) n

@[simp] theorem ofDigits_natDigits (n : ℕ) : ofDigits (natDigits n) = n := by
  rw [natDigits, ofDigits_fixedDigits]
  exact Nat.mod_eq_of_lt (Nat.lt_pow_succ_log_self (by decide) n)

@[simp] theorem length_natDigits (n : ℕ) : (natDigits n).length = Nat.log 10 n + 1 := by
  simp [natDigits]

theorem natDigits_injective : Function.Injective natDigits := by
  intro m n h
  rw [← ofDigits_natDigits m, h, ofDigits_natDigits]

/-- Only zero has a leading zero. -/
theorem natDigits_zero_head {n : ℕ} {ds : List (Fin 10)} (h : natDigits n = 0 :: ds) :
    ds = [] := by
  have hlength : ds.length = Nat.log 10 n := by
    have := congrArg List.length h
    simpa using this.symm
  have hvalue : ofDigits ds = n := by
    rw [← ofDigits_natDigits n, h, ofDigits_cons]
    simp
  by_contra hds
  have hpos : 0 < ds.length := List.length_pos_of_ne_nil hds
  have hlt : n < 10 ^ Nat.log 10 n := by
    rw [← hlength]
    exact hvalue ▸ ofDigits_lt ds
  have hn : n ≠ 0 := by
    rintro rfl
    simp at hlength
    exact hds hlength
  exact absurd (Nat.pow_log_le_self 10 hn) (Nat.not_le.mpr hlt)

theorem natDigits_ne_nil (n : ℕ) : natDigits n ≠ [] := by
  intro h
  have := congrArg List.length h
  simp at this

/-- A sequence of digits in ASCII. -/
def digitsText (ds : List (Fin 10)) : Text := ds.map digitPoint

/-- `str(n)` of a natural number. -/
def natText (n : ℕ) : Text := digitsText (natDigits n)

@[simp] theorem length_digitsText (ds : List (Fin 10)) : (digitsText ds).length = ds.length :=
  List.length_map _

@[simp] theorem digitsText_append (ds es : List (Fin 10)) :
    digitsText (ds ++ es) = digitsText ds ++ digitsText es :=
  List.map_append

@[simp] theorem digitsText_nil : digitsText [] = [] := rfl

/-- The ASCII digit a code point is. -/
def asciiDigit? (c : CodePoint) : Option (Fin 10) :=
  if h : 0x30 ≤ c.val ∧ c.val ≤ 0x39 then some ⟨c.val - 0x30, by omega⟩ else none

@[simp] theorem asciiDigit?_digitPoint (d : Fin 10) : asciiDigit? (digitPoint d) = some d := by
  have h : 0x30 ≤ (digitPoint d).val ∧ (digitPoint d).val ≤ 0x39 := by
    simp only [digitPoint]
    omega
  rw [asciiDigit?, dif_pos h]
  simp [digitPoint]

/-- The longest prefix of ASCII digits, and what follows it. -/
def spanDigits : Text → List (Fin 10) × Text
  | [] => ([], [])
  | c :: t =>
      match asciiDigit? c with
      | none => ([], c :: t)
      | some d => (d :: (spanDigits t).1, (spanDigits t).2)

/-- The text does not begin with an ASCII digit. -/
def NoDigitHead (t : Text) : Prop := ∀ c ∈ t.head?, asciiDigit? c = none

@[simp] theorem noDigitHead_nil : NoDigitHead [] := by simp [NoDigitHead]

@[simp] theorem noDigitHead_cons (c : CodePoint) (t : Text) :
    NoDigitHead (c :: t) ↔ asciiDigit? c = none := by
  simp [NoDigitHead]

theorem spanDigits_digitsText (ds : List (Fin 10)) {t : Text} (ht : NoDigitHead t) :
    spanDigits (digitsText ds ++ t) = (ds, t) := by
  induction ds with
  | nil =>
      cases t with
      | nil => rfl
      | cons c t =>
          rw [noDigitHead_cons] at ht
          simp [spanDigits, ht]
  | cons d ds ih =>
      have ih' : spanDigits (List.map digitPoint ds ++ t) = (ds, t) := ih
      simp [digitsText, spanDigits, ih']

end Python
