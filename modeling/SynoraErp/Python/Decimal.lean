import Mathlib.Algebra.Order.Field.Power
import Mathlib.Data.Rat.Cast.Order
import Mathlib.Tactic.Ring
import Mathlib.Tactic.FieldSimp
import SynoraErp.Python.Interpreter

/-!
# Decimal numbers

`decimal.Decimal`: the constructor on a text, which is exact, and `normalize` and
`format(_, "f")`, which work in the default context of 28 digits, half to even.
A number in normal form is determined by its value, is what `normalize` returns,
and is read back from its fixed point text.
-/

namespace Python

/-- A finite decimal number `± coeff * 10 ^ exp`. -/
@[ext] structure Dec where
  negative : Bool
  coeff : ℕ
  exp : ℤ
  deriving DecidableEq

/-- What the constructor reads. -/
inductive Decimal where
  | finite (d : Dec)
  | infinity (negative : Bool)
  | nan
  deriving DecidableEq

/-- The precision of the default context. -/
def prec : ℕ := 28

/-- The largest adjusted exponent of the default context. -/
def emax : ℤ := 999999

/-- `len(self._int)`. -/
def numDigits (c : ℕ) : ℕ := (natDigits c).length

theorem numDigits_eq (c : ℕ) : numDigits c = Nat.log 10 c + 1 := length_natDigits c

theorem lt_pow_numDigits (c : ℕ) : c < 10 ^ numDigits c := by
  rw [numDigits_eq]
  exact Nat.lt_pow_succ_log_self (by decide) c

theorem pow_le_of_ne_zero {c : ℕ} (hc : c ≠ 0) : 10 ^ (numDigits c - 1) ≤ c := by
  rw [numDigits_eq]
  exact Nat.pow_log_le_self 10 hc

theorem numDigits_pos (c : ℕ) : 0 < numDigits c := by
  rw [numDigits_eq]
  omega

theorem numDigits_eq_of_bounds {c n : ℕ} (hlow : 10 ^ n ≤ c) (hhigh : c < 10 ^ (n + 1)) :
    numDigits c = n + 1 := by
  rw [numDigits_eq, Nat.log_eq_of_pow_le_of_lt_pow hlow hhigh]

theorem numDigits_mul_pow {c : ℕ} (hc : c ≠ 0) (k : ℕ) :
    numDigits (c * 10 ^ k) = numDigits c + k := by
  have hpos := numDigits_pos c
  have hlow : 10 ^ (numDigits c - 1 + k) ≤ c * 10 ^ k := by
    rw [pow_add]
    exact Nat.mul_le_mul_right _ (pow_le_of_ne_zero hc)
  have hhigh : c * 10 ^ k < 10 ^ (numDigits c - 1 + k + 1) := by
    have hexp : numDigits c - 1 + k + 1 = numDigits c + k := by omega
    rw [hexp, pow_add]
    exact Nat.mul_lt_mul_of_pos_right (lt_pow_numDigits c) (by positivity)
  rw [numDigits_eq_of_bounds hlow hhigh]
  omega

namespace Dec

/-- The exact value. -/
def value (d : Dec) : ℚ := (if d.negative then -1 else 1) * (d.coeff : ℚ) * 10 ^ d.exp

/-- `d.adjusted()`: the exponent of the leading digit. -/
def adjusted (d : Dec) : ℤ := d.exp + numDigits d.coeff - 1

/-- The quotient by `10 ^ drop`, half to even. -/
def roundHalfEven (c drop : ℕ) : ℕ :=
  let q := c / 10 ^ drop
  let r := c % 10 ^ drop
  if 10 ^ drop < 2 * r ∨ (2 * r = 10 ^ drop ∧ q % 2 = 1) then q + 1 else q

/-- The number rounded to 28 digits; a carry into a 29th digit is shifted out. -/
def rounded (d : Dec) : Dec :=
  let drop := numDigits d.coeff - prec
  if drop = 0 then d
  else if roundHalfEven d.coeff drop = 10 ^ prec then
    { d with coeff := 10 ^ (prec - 1), exp := d.exp + drop + 1 }
  else { d with coeff := roundHalfEven d.coeff drop, exp := d.exp + drop }

/-- `_fix` of a number that is not subnormal; `none` is `decimal.Overflow`. -/
def fix (d : Dec) : Option Dec := if d.rounded.adjusted ≤ emax then some d.rounded else none

/-- Drops trailing zeros of the coefficient. -/
def stripZeros : ℕ → ℕ → ℤ → ℕ × ℤ
  | 0, c, e => (c, e)
  | fuel + 1, c, e => if c % 10 = 0 then stripZeros fuel (c / 10) (e + 1) else (c, e)

/-- The coefficient without trailing zeros, and its exponent. -/
def strip (d : Dec) : Dec :=
  { d with
    coeff := (stripZeros (numDigits d.coeff) d.coeff d.exp).1
    exp := (stripZeros (numDigits d.coeff) d.coeff d.exp).2 }

/-- `d.normalize()`; `none` is `decimal.Overflow`. -/
def normalize (d : Dec) : Option Dec :=
  if d.coeff = 0 then some { d with exp := 0 } else d.fix.map strip

/-- `d * e` of two numbers that are not zero, rounded to the context; `none` is
`decimal.Overflow`. -/
def mul (d e : Dec) : Option Dec :=
  fix ⟨d.negative != e.negative, d.coeff * e.coeff, d.exp + e.exp⟩

/-- `format(d, "f")`. -/
def formatFixed (d : Dec) : Text :=
  let digits := natDigits d.coeff
  let point := (-d.exp).toNat
  (if d.negative then Text.ofString "-" else []) ++
    if 0 ≤ d.exp then
      if d.coeff = 0 then digitsText digits
      else digitsText (digits ++ List.replicate d.exp.toNat 0)
    else if digits.length ≤ point then
      "0." ++ digitsText (List.replicate (point - digits.length) 0 ++ digits)
    else
      digitsText (digits.take (digits.length - point)) ++
        ("." ++ digitsText (digits.drop (digits.length - point)))

end Dec

/-! ## The constructor -/

/-- Underscores dropped, digits of every script in ASCII, letters in lower case. -/
def numericText (I : Interpreter) (t : Text) : Text :=
  ((Text.strip t).filter (· ≠ 0x5F)).map fun c =>
    match I.decimalDigit c with
    | some d => digitPoint d
    | none => Text.asciiLower c

/-- An optional sign, and what follows it. -/
def readSign : Text → Bool × Text
  | [] => (false, [])
  | c :: t => if c.val = 0x2D then (true, t) else if c.val = 0x2B then (false, t) else (false, c :: t)

/-- The exponent at the end of a number. -/
def readExponent : Text → Option ℤ
  | [] => some 0
  | c :: t =>
      if c.val = 0x65 then
        let (negative, t) := readSign t
        match spanDigits t with
        | (d :: ds, []) =>
            some (if negative then -(ofDigits (d :: ds) : ℤ) else ofDigits (d :: ds))
        | _ => none
      else none

/-- The fraction of a number: a point, and its digits. -/
def readFraction : Text → List (Fin 10) × Text
  | [] => ([], [])
  | c :: t => if c.val = 0x2E then spanDigits t else ([], c :: t)

/-- A number past its sign. -/
def readNumber (negative : Bool) (t : Text) : Option Dec := do
  let (whole, t) := spanDigits t
  let (fraction, t) := readFraction t
  if whole = [] ∧ fraction = [] then none
  let exponent ← readExponent t
  some ⟨negative, ofDigits (whole ++ fraction), exponent - fraction.length⟩

/-- The exponents of an exact conversion. -/
def Dec.InLimits (d : Dec) : Prop :=
  -1999999999999999997 ≤ d.exp ∧
    (if d.coeff = 0 then d.exp else d.adjusted) ≤ 999999999999999999

instance (d : Dec) : Decidable d.InLimits := by
  unfold Dec.InLimits
  infer_instance

/-- `Decimal(text)`; `none` is `decimal.InvalidOperation`. -/
def Decimal.ofText (I : Interpreter) (t : Text) : Option Decimal :=
  let (negative, t) := readSign (numericText I t)
  if t = "inf" ∨ t = "infinity" then some (.infinity negative)
  else if t.take 3 = "nan" ∧ (spanDigits (t.drop 3)).2 = [] then some .nan
  else if t.take 4 = "snan" ∧ (spanDigits (t.drop 4)).2 = [] then some .nan
  else do
    let d ← readNumber negative t
    if d.InLimits then some (.finite d) else none

/-! ## Normal forms -/

namespace Dec

/-- A positive number in normal form: what `normalize` leaves of an amount that is
not less than `1e-18`. -/
structure Canonical (d : Dec) : Prop where
  nonneg : d.negative = false
  coeff_mod : d.coeff % 10 ≠ 0
  digits_le : numDigits d.coeff ≤ prec
  le_adjusted : -18 ≤ d.adjusted
  adjusted_le : d.adjusted ≤ emax

theorem Canonical.coeff_ne_zero {d : Dec} (h : d.Canonical) : d.coeff ≠ 0 := by
  intro hzero
  exact h.coeff_mod (by rw [hzero])

theorem stripZeros_of_mod {c : ℕ} (hc : c % 10 ≠ 0) (fuel : ℕ) (e : ℤ) :
    stripZeros fuel c e = (c, e) := by
  cases fuel with
  | zero => rfl
  | succ fuel => rw [stripZeros, if_neg hc]

theorem stripZeros_mul_pow {c : ℕ} (hc : c % 10 ≠ 0) (k fuel : ℕ) (hfuel : k ≤ fuel) (e : ℤ) :
    stripZeros fuel (c * 10 ^ k) e = (c, e + k) := by
  induction k generalizing fuel e with
  | zero => simpa using stripZeros_of_mod hc fuel e
  | succ k ih =>
      obtain ⟨fuel, rfl⟩ : ∃ n, fuel = n + 1 := ⟨fuel - 1, by omega⟩
      have hmod : c * 10 ^ (k + 1) % 10 = 0 := by
        rw [pow_succ, ← mul_assoc]
        exact Nat.mul_mod_left _ _
      have hdiv : c * 10 ^ (k + 1) / 10 = c * 10 ^ k := by
        rw [pow_succ, ← mul_assoc, Nat.mul_div_cancel _ (by decide)]
      rw [stripZeros, if_pos hmod, hdiv, ih fuel (by omega)]
      push_cast
      ring_nf

/-- Every positive number is a number without trailing zeros, shifted. -/
theorem exists_eq_mul_pow {c : ℕ} (hc : c ≠ 0) : ∃ m k, m % 10 ≠ 0 ∧ c = m * 10 ^ k := by
  induction c using Nat.strong_induction_on with
  | _ c ih =>
      by_cases hmod : c % 10 = 0
      · obtain ⟨m, k, hm, hk⟩ := ih (c / 10) (by omega) (by omega)
        refine ⟨m, k + 1, hm, ?_⟩
        rw [pow_succ, ← mul_assoc, ← hk]
        omega
      · exact ⟨c, 0, hmod, by simp⟩

theorem strip_mul_pow (negative : Bool) {c : ℕ} (hc : c % 10 ≠ 0) (k : ℕ) (e : ℤ) :
    strip ⟨negative, c * 10 ^ k, e⟩ = ⟨negative, c, e + k⟩ := by
  have hfuel : k ≤ numDigits (c * 10 ^ k) := by
    rw [numDigits_mul_pow (by rintro rfl; exact hc rfl)]
    omega
  simp only [strip, stripZeros_mul_pow hc k _ hfuel e]

theorem roundHalfEven_mul_pow (c k drop : ℕ) (h : drop ≤ k) :
    roundHalfEven (c * 10 ^ k) drop = c * 10 ^ (k - drop) := by
  have hsplit : c * 10 ^ k = c * 10 ^ (k - drop) * 10 ^ drop := by
    rw [mul_assoc, ← pow_add, Nat.sub_add_cancel h]
  have hpos : 0 < 10 ^ drop := by positivity
  rw [roundHalfEven, hsplit, Nat.mul_div_cancel _ hpos, Nat.mul_mod_left]
  exact if_neg (by omega)

/-- A number of at most 28 significant digits is normalised without rounding. -/
theorem normalize_mul_pow (negative : Bool) {c : ℕ} (hc : c % 10 ≠ 0)
    (hdigits : numDigits c ≤ prec) (k : ℕ) (e : ℤ) :
    normalize ⟨negative, c * 10 ^ k, e⟩ =
      if e + k + numDigits c - 1 ≤ emax then some ⟨negative, c, e + k⟩ else none := by
  have hc0 : c ≠ 0 := by
    rintro rfl
    exact hc rfl
  have hne : c * 10 ^ k ≠ 0 := mul_ne_zero hc0 (by positivity)
  have hpos := numDigits_pos c
  rw [normalize, if_neg hne]
  simp only [fix, rounded, numDigits_mul_pow hc0]
  by_cases hdrop : numDigits c + k - prec = 0
  · simp only [if_pos hdrop, adjusted, numDigits_mul_pow hc0]
    have hcond : e + ((numDigits c + k : ℕ) : ℤ) - 1 = e + k + numDigits c - 1 := by
      push_cast
      ring
    rw [hcond]
    split_ifs
    · rw [Option.map_some, strip_mul_pow negative hc]
    · rfl
  · have hround := roundHalfEven_mul_pow c k (numDigits c + k - prec) (by omega)
    have hkeep : k - (numDigits c + k - prec) = prec - numDigits c := by omega
    have hlt : c * 10 ^ (prec - numDigits c) < 10 ^ prec := by
      calc c * 10 ^ (prec - numDigits c)
          < 10 ^ numDigits c * 10 ^ (prec - numDigits c) :=
            Nat.mul_lt_mul_of_pos_right (lt_pow_numDigits c) (by positivity)
        _ = 10 ^ prec := by rw [← pow_add]; congr 1; omega
    rw [hround, hkeep, if_neg hdrop, if_neg (Nat.ne_of_lt hlt)]
    simp only [adjusted, numDigits_mul_pow hc0]
    have hcond : e + ((numDigits c + k - prec : ℕ) : ℤ) +
        ((numDigits c + (prec - numDigits c) : ℕ) : ℤ) - 1 = e + k + numDigits c - 1 := by
      omega
    have hexp : e + ((numDigits c + k - prec : ℕ) : ℤ) + ((prec - numDigits c : ℕ) : ℤ) = e + k := by
      omega
    rw [hcond]
    split_ifs
    · rw [Option.map_some, strip_mul_pow negative hc, hexp]
    · rfl

theorem normalize_of_canonical {d : Dec} (h : d.Canonical) (k : ℕ) :
    normalize ⟨d.negative, d.coeff * 10 ^ k, d.exp - k⟩ = some d := by
  have hcond : d.exp - k + k + numDigits d.coeff - 1 ≤ emax := by
    have := h.adjusted_le
    rw [adjusted] at this
    omega
  rw [normalize_mul_pow d.negative h.coeff_mod h.digits_le, if_pos hcond]
  simp

theorem pow_le_roundHalfEven {c drop n : ℕ} (h : 10 ^ (n + drop) ≤ c) :
    10 ^ n ≤ roundHalfEven c drop := by
  have hquotient : 10 ^ n ≤ c / 10 ^ drop := by
    rw [Nat.le_div_iff_mul_le (by positivity), ← pow_add]
    exact h
  simp only [roundHalfEven]
  split_ifs <;> omega

theorem roundHalfEven_le {c drop n : ℕ} (h : c < 10 ^ (n + drop)) :
    roundHalfEven c drop ≤ 10 ^ n := by
  have hquotient : c / 10 ^ drop < 10 ^ n := by
    rw [Nat.div_lt_iff_lt_mul (by positivity), ← pow_add]
    exact h
  simp only [roundHalfEven]
  split_ifs <;> omega

/-- The rounding step leaves at most 28 digits, no zero, and nothing below the number
it rounds. -/
theorem rounded_spec {d : Dec} (hd : d.coeff ≠ 0) :
    d.rounded.negative = d.negative ∧ d.rounded.coeff ≠ 0 ∧ numDigits d.rounded.coeff ≤ prec ∧
      d.adjusted ≤ d.rounded.adjusted := by
  have hprec : prec = 28 := rfl
  by_cases hdrop : numDigits d.coeff - prec = 0
  · have hrounded : d.rounded = d := by simp only [rounded, if_pos hdrop]
    rw [hrounded]
    exact ⟨rfl, hd, by omega, le_refl _⟩
  by_cases hcarry : roundHalfEven d.coeff (numDigits d.coeff - prec) = 10 ^ prec
  · have hrounded : d.rounded = ⟨d.negative, 10 ^ (prec - 1),
        d.exp + (numDigits d.coeff - prec : ℕ) + 1⟩ := by
      simp only [rounded, if_neg hdrop, if_pos hcarry]
    have hdigits : numDigits (10 ^ (prec - 1)) = prec := by
      rw [numDigits_eq, Nat.log_pow (by decide)]
      rfl
    rw [hrounded]
    refine ⟨rfl, Nat.ne_of_gt (by positivity), hdigits.le, ?_⟩
    simp only [adjusted, hdigits]
    omega
  · have hrounded : d.rounded = ⟨d.negative, roundHalfEven d.coeff (numDigits d.coeff - prec),
        d.exp + (numDigits d.coeff - prec : ℕ)⟩ := by
      simp only [rounded, if_neg hdrop, if_neg hcarry]
    have hlow : 10 ^ (prec - 1) ≤ roundHalfEven d.coeff (numDigits d.coeff - prec) := by
      apply pow_le_roundHalfEven
      have hexp : prec - 1 + (numDigits d.coeff - prec) = numDigits d.coeff - 1 := by omega
      rw [hexp]
      exact pow_le_of_ne_zero hd
    have hhigh : roundHalfEven d.coeff (numDigits d.coeff - prec) < 10 ^ (prec - 1 + 1) := by
      apply lt_of_le_of_ne _ hcarry
      apply roundHalfEven_le
      have hexp : prec + (numDigits d.coeff - prec) = numDigits d.coeff := by omega
      rw [hexp]
      exact lt_pow_numDigits _
    have hdigits := numDigits_eq_of_bounds hlow hhigh
    have hpos : 0 < 10 ^ (prec - 1) := by positivity
    rw [hrounded]
    refine ⟨rfl, Nat.ne_of_gt (hpos.trans_le hlow), hdigits.le, ?_⟩
    simp only [adjusted, hdigits]
    omega

theorem strip_spec {d : Dec} (hd : d.coeff ≠ 0) :
    ∃ k : ℕ, d.strip.negative = d.negative ∧ d.strip.coeff % 10 ≠ 0 ∧
      d.coeff = d.strip.coeff * 10 ^ k ∧ d.strip.exp = d.exp + k := by
  obtain ⟨m, k, hm, hk⟩ := exists_eq_mul_pow hd
  have hstrip : d.strip = ⟨d.negative, m, d.exp + k⟩ := by
    have hd' : d = ⟨d.negative, m * 10 ^ k, d.exp⟩ := by rw [← hk]
    rw [hd', strip_mul_pow d.negative hm]
  exact ⟨k, by rw [hstrip], by rw [hstrip]; exact hm, by rw [hstrip]; exact hk, by rw [hstrip]⟩

/-- The value of a number lies between the powers of ten of its leading digit. -/
theorem value_lt {d : Dec} (hd : d.negative = false) : d.value < 10 ^ (d.adjusted + 1) := by
  have hcoeff : (d.coeff : ℚ) < 10 ^ numDigits d.coeff := by
    exact_mod_cast lt_pow_numDigits d.coeff
  have hexp : d.adjusted + 1 = (numDigits d.coeff : ℤ) + d.exp := by
    rw [adjusted]
    ring
  rw [value, hd, hexp, zpow_add₀ (by norm_num), zpow_natCast]
  simpa using mul_lt_mul_of_pos_right hcoeff (by positivity : (0 : ℚ) < 10 ^ d.exp)

theorem le_adjusted_of_le_value {d : Dec} {n : ℤ} (hd : d.negative = false)
    (h : (10 : ℚ) ^ n ≤ d.value) : n ≤ d.adjusted := by
  have hlt := lt_of_le_of_lt h (value_lt hd)
  have := (zpow_lt_zpow_iff_right₀ (by norm_num : (1 : ℚ) < 10)).mp hlt
  omega

theorem le_value_of_le_adjusted {d : Dec} {n : ℤ} (hd : d.negative = false)
    (hcoeff : d.coeff ≠ 0) (h : n ≤ d.adjusted) : (10 : ℚ) ^ n ≤ d.value := by
  have hpos := numDigits_pos d.coeff
  have hpow : ((10 : ℚ) ^ (numDigits d.coeff - 1)) ≤ d.coeff := by
    exact_mod_cast pow_le_of_ne_zero hcoeff
  have hexp : d.adjusted = ((numDigits d.coeff - 1 : ℕ) : ℤ) + d.exp := by
    rw [adjusted]
    omega
  calc (10 : ℚ) ^ n ≤ 10 ^ d.adjusted := zpow_le_zpow_right₀ (by norm_num) h
    _ = 10 ^ (numDigits d.coeff - 1) * 10 ^ d.exp := by
        rw [hexp, zpow_add₀ (by norm_num), zpow_natCast]
    _ ≤ d.coeff * 10 ^ d.exp := mul_le_mul_of_nonneg_right hpow (by positivity)
    _ = d.value := by simp [value, hd]

theorem not_negative_of_value_pos {d : Dec} (h : 0 < d.value) : d.negative = false := by
  by_contra hneg
  rw [Bool.not_eq_false] at hneg
  have hle : d.value ≤ 0 := by
    rw [value, hneg]
    have : (0 : ℚ) ≤ d.coeff * 10 ^ d.exp := by positivity
    simp only [if_true]
    linarith
  exact absurd h (not_lt.mpr hle)

theorem coeff_ne_zero_of_value_pos {d : Dec} (h : 0 < d.value) : d.coeff ≠ 0 := by
  intro hzero
  simp [value, hzero] at h

/-- `normalize` puts a number that is not less than `1e-18` in normal form. -/
theorem normalize_canonical {d n : Dec} (hd : (10 : ℚ) ^ (-18 : ℤ) ≤ d.value)
    (h : d.normalize = some n) : n.Canonical := by
  have hpos : 0 < d.value := lt_of_lt_of_le (by positivity) hd
  have hneg := not_negative_of_value_pos hpos
  have hcoeff := coeff_ne_zero_of_value_pos hpos
  rw [normalize, if_neg hcoeff, fix, Option.map_eq_some_iff] at h
  obtain ⟨r, hfix, rfl⟩ := h
  split_ifs at hfix with hrmax
  obtain rfl := Option.some.inj hfix
  obtain ⟨hrneg, hrcoeff, hrdigits, hradj⟩ := rounded_spec hcoeff
  obtain ⟨k, hsneg, hsmod, hscoeff, hsexp⟩ := strip_spec hrcoeff
  have hs0 : d.rounded.strip.coeff ≠ 0 := by
    intro hzero
    exact hsmod (by rw [hzero])
  have hdigits : numDigits d.rounded.coeff = numDigits d.rounded.strip.coeff + k := by
    conv_lhs => rw [hscoeff]
    exact numDigits_mul_pow hs0 k
  have hadj : d.rounded.strip.adjusted = d.rounded.adjusted := by
    rw [adjusted, adjusted, hsexp, hdigits]
    push_cast
    ring
  have hlow := le_adjusted_of_le_value hneg hd
  exact ⟨by rw [hsneg, hrneg, hneg], hsmod, by omega, by omega, by omega⟩

/-- The number of digits of a number once its trailing zeros are dropped. -/
def significantDigits (d : Dec) : ℕ := numDigits d.strip.coeff

/-- Up to 28 significant digits the value is kept. -/
theorem normalize_value {d n : Dec} (hd : 0 < d.value) (hdigits : d.significantDigits ≤ prec)
    (h : d.normalize = some n) : n.value = d.value := by
  have hcoeff := coeff_ne_zero_of_value_pos hd
  obtain ⟨k, hneg, hmod, hcoeffk, hexp⟩ := strip_spec hcoeff
  have hd' : d = ⟨d.strip.negative, d.strip.coeff * 10 ^ k, d.exp⟩ := by
    rw [hneg, ← hcoeffk]
  have hnorm := normalize_mul_pow d.strip.negative hmod hdigits k d.exp
  rw [← hd', h] at hnorm
  split_ifs at hnorm
  rw [Option.some.inj hnorm]
  conv_rhs => rw [hd']
  rw [value, value]
  push_cast
  rw [zpow_add₀ (by norm_num), zpow_natCast]
  ring

end Dec

/-! ## Reading a fixed point text back -/

/-- A digit or a point. -/
def IsNumeric (c : CodePoint) : Prop := (∃ d, c = digitPoint d) ∨ c = 0x2E

theorem isNumeric_digitsText {ds : List (Fin 10)} {c : CodePoint} (h : c ∈ digitsText ds) :
    IsNumeric c := by
  obtain ⟨d, -, rfl⟩ := List.mem_map.mp h
  exact Or.inl ⟨d, rfl⟩

theorem isNumeric_visible {c : CodePoint} (h : IsNumeric c) :
    Text.isSpace c = false ∧ c ≠ 0x5F := by
  have hdigit : ∀ d : Fin 10, Text.isSpace (digitPoint d) = false ∧ digitPoint d ≠ 0x5F := by
    decide
  rcases h with ⟨d, rfl⟩ | rfl
  · exact hdigit d
  · decide

theorem strip_of_visible {t : Text} (h : ∀ c ∈ t, Text.isSpace c = false) : Text.strip t = t := by
  have hdrop : ∀ u : Text, (∀ c ∈ u, Text.isSpace c = false) → u.dropWhile Text.isSpace = u := by
    intro u hu
    cases u with
    | nil => rfl
    | cons c u => simp [hu c List.mem_cons_self]
  rw [Text.strip, hdrop t h, hdrop t.reverse (by simpa using h), List.reverse_reverse]

theorem numericText_of_isNumeric (I : Interpreter) {t : Text} (h : ∀ c ∈ t, IsNumeric c) :
    numericText I t = t := by
  have hfilter : t.filter (fun c => c ≠ 0x5F) = t :=
    List.filter_eq_self.mpr fun c hc => by simpa using (isNumeric_visible (h c hc)).2
  have hpoint : I.decimalDigit 0x2E = none := by
    rw [I.decimalDigit_ascii _ (by decide)]
    decide
  rw [numericText, strip_of_visible fun c hc => (isNumeric_visible (h c hc)).1, hfilter]
  calc t.map _ = t.map id := List.map_congr_left fun c hc => by
        rcases h c hc with ⟨d, rfl⟩ | rfl
        · simp [I.decimalDigit_digitPoint]
        · simp only [hpoint]
          decide
    _ = t := List.map_id t

/-- A whole part and a fraction, spelled with a point when there is a fraction. -/
def spelled (whole fraction : List (Fin 10)) : Text :=
  digitsText whole ++ if fraction = [] then [] else 0x2E :: digitsText fraction

theorem isNumeric_spelled {whole fraction : List (Fin 10)} {c : CodePoint}
    (h : c ∈ spelled whole fraction) : IsNumeric c := by
  rw [spelled, List.mem_append] at h
  rcases h with h | h
  · exact isNumeric_digitsText h
  · split_ifs at h
    · cases h
    · rcases List.mem_cons.mp h with rfl | h
      · exact Or.inr rfl
      · exact isNumeric_digitsText h

theorem readNumber_spelled (negative : Bool) {whole : List (Fin 10)} (hwhole : whole ≠ [])
    (fraction : List (Fin 10)) :
    readNumber negative (spelled whole fraction) =
      some ⟨negative, ofDigits (whole ++ fraction), -fraction.length⟩ := by
  by_cases hfraction : fraction = []
  · subst hfraction
    have hspan := spanDigits_digitsText whole noDigitHead_nil
    rw [List.append_nil] at hspan
    simp [readNumber, spelled, hspan, readFraction, readExponent, hwhole]
  · have hspan := spanDigits_digitsText whole
      (t := 0x2E :: digitsText fraction) ((noDigitHead_cons _ _).mpr (by decide))
    have hspan' := spanDigits_digitsText fraction noDigitHead_nil
    rw [List.append_nil] at hspan'
    simp [readNumber, spelled, hfraction, hspan, readFraction, hspan', readExponent]

/-- The constructor on a spelled number. -/
theorem Decimal.ofText_spelled (I : Interpreter) {whole : List (Fin 10)} (hwhole : whole ≠ [])
    (fraction : List (Fin 10))
    (hlimits : Dec.InLimits ⟨false, ofDigits (whole ++ fraction), -fraction.length⟩) :
    Decimal.ofText I (spelled whole fraction) =
      some (.finite ⟨false, ofDigits (whole ++ fraction), -fraction.length⟩) := by
  obtain ⟨d, ds, rfl⟩ := List.exists_cons_of_ne_nil hwhole
  have hnumber := readNumber_spelled false hwhole fraction
  have hcons : spelled (d :: ds) fraction = digitPoint d :: spelled ds fraction := rfl
  have hsign : ∀ d : Fin 10, (digitPoint d).val ≠ 0x2D ∧ (digitPoint d).val ≠ 0x2B := by decide
  have hletter : ∀ d : Fin 10, digitPoint d ≠ codePoint 'i' ∧ digitPoint d ≠ codePoint 'n' ∧
      digitPoint d ≠ codePoint 's' := by decide
  have hword : ∀ (s : String) (c : CodePoint) (w t : Text), Text.ofString s = c :: w →
      digitPoint d ≠ c → digitPoint d :: t ≠ Text.ofString s := by
    intro s c w t hs hc heq
    rw [hs] at heq
    exact hc (List.cons.inj heq).1
  rw [Decimal.ofText, numericText_of_isNumeric I fun c hc => isNumeric_spelled hc]
  rw [hcons] at hnumber ⊢
  simp only [readSign, if_neg (hsign d).1, if_neg (hsign d).2]
  rw [if_neg, if_neg, if_neg, hnumber]
  · simp only [Option.bind_eq_bind, Option.bind_some, if_pos hlimits]
  · exact fun h => hword "snan" (codePoint 's') "nan" _ rfl (hletter d).2.2 h.1
  · exact fun h => hword "nan" (codePoint 'n') "an" _ rfl (hletter d).2.1 h.1
  · rintro (h | h)
    · exact hword "inf" (codePoint 'i') "nf" _ rfl (hletter d).1 h
    · exact hword "infinity" (codePoint 'i') "nfinity" _ rfl (hletter d).1 h

namespace Dec

/-- The fixed point text of a positive number. -/
theorem formatFixed_eq_spelled {d : Dec} (hneg : d.negative = false) (hcoeff : d.coeff ≠ 0) :
    ∃ whole fraction, whole ≠ [] ∧ d.formatFixed = spelled whole fraction ∧
      ofDigits (whole ++ fraction) = d.coeff * 10 ^ d.exp.toNat ∧
      (fraction.length : ℤ) = (-d.exp).toNat := by
  have hne := natDigits_ne_nil d.coeff
  by_cases hexp : 0 ≤ d.exp
  · refine ⟨natDigits d.coeff ++ List.replicate d.exp.toNat 0, [], by simp [hne], ?_, ?_, ?_⟩
    · simp [formatFixed, hneg, hexp, hcoeff, spelled]
    · simp [ofDigits_append]
    · simp [hexp]
  · have hzero : d.exp.toNat = 0 := by omega
    by_cases hlength : (natDigits d.coeff).length ≤ (-d.exp).toNat
    · refine ⟨[0], List.replicate ((-d.exp).toNat - (natDigits d.coeff).length) 0 ++
        natDigits d.coeff, by simp, ?_, ?_, ?_⟩
      · have hpoint : Text.ofString "0." = digitsText [0] ++ [0x2E] := rfl
        have hfraction : List.replicate ((-d.exp).toNat - (natDigits d.coeff).length) 0 ++
            natDigits d.coeff ≠ [] := by simp [hne]
        simp only [formatFixed, hneg, Bool.false_eq_true, if_false, if_neg hexp, if_pos hlength,
          spelled, if_neg hfraction, hpoint, List.nil_append, List.append_assoc,
          List.singleton_append]
      · simp [ofDigits_cons, ofDigits_append, hzero]
      · simp only [List.length_append, List.length_replicate]
        omega
    · have hdrop : (natDigits d.coeff).drop ((natDigits d.coeff).length - (-d.exp).toNat) ≠ [] := by
        rw [Ne, List.drop_eq_nil_iff]
        omega
      refine ⟨(natDigits d.coeff).take ((natDigits d.coeff).length - (-d.exp).toNat),
        (natDigits d.coeff).drop ((natDigits d.coeff).length - (-d.exp).toNat), ?_, ?_, ?_, ?_⟩
      · rw [Ne, List.take_eq_nil_iff]
        simp only [hne, or_false]
        omega
      · have hpoint : Text.ofString "." = [0x2E] := rfl
        simp only [formatFixed, hneg, Bool.false_eq_true, if_false, if_neg hexp, if_neg hlength,
          spelled, if_neg hdrop, hpoint, List.nil_append, List.singleton_append]
      · rw [List.take_append_drop, ofDigits_natDigits, hzero]
        simp
      · rw [List.length_drop]
        omega

/-- A number in normal form is read back from its fixed point text, exactly. -/
theorem Canonical.ofText_formatFixed (I : Interpreter) {d : Dec} (h : d.Canonical) :
    ∃ e : Dec, Decimal.ofText I d.formatFixed = some (.finite e) ∧ e.value = d.value ∧
      e.normalize = some d := by
  obtain ⟨whole, fraction, hwhole, hformat, hdigits, hlength⟩ :=
    formatFixed_eq_spelled h.nonneg h.coeff_ne_zero
  have hpos := numDigits_pos d.coeff
  have hle := h.digits_le
  have hlow := h.le_adjusted
  have hhigh := h.adjusted_le
  have hprec : prec = 28 := rfl
  have hemax : emax = 999999 := rfl
  rw [adjusted] at hlow hhigh
  have hne : d.coeff * 10 ^ d.exp.toNat ≠ 0 := mul_ne_zero h.coeff_ne_zero (by positivity)
  have hlimits : InLimits ⟨false, ofDigits (whole ++ fraction), -fraction.length⟩ := by
    rw [hdigits, hlength, InLimits, if_neg hne, adjusted, numDigits_mul_pow h.coeff_ne_zero]
    constructor <;> simp only <;> omega
  refine ⟨_, by rw [hformat, Decimal.ofText_spelled I hwhole fraction hlimits], ?_, ?_⟩
  · rw [hdigits, hlength, value, value, h.nonneg]
    have hsplit : d.exp = (d.exp.toNat : ℤ) + -((-d.exp).toNat : ℤ) := by omega
    conv_rhs => rw [hsplit, zpow_add₀ (by norm_num), zpow_natCast]
    push_cast
    ring
  · have hexp : -((-d.exp).toNat : ℤ) = d.exp - d.exp.toNat := by omega
    have hnorm := normalize_of_canonical h d.exp.toNat
    rw [h.nonneg] at hnorm
    rw [hdigits, hlength, hexp, hnorm]

/-- The fixed point text determines a number in normal form. -/
theorem Canonical.eq_of_formatFixed {d e : Dec} (hd : d.Canonical) (he : e.Canonical)
    (h : d.formatFixed = e.formatFixed) : d = e := by
  obtain ⟨d', hd', -, hdnorm⟩ := hd.ofText_formatFixed Interpreter.ascii
  obtain ⟨e', he', -, henorm⟩ := he.ofText_formatFixed Interpreter.ascii
  rw [h, he'] at hd'
  obtain rfl : e' = d' := by simpa using hd'
  exact Option.some.inj (hdnorm.symm.trans henorm)

end Dec

end Python
