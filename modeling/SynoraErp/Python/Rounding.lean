import SynoraErp.Python.Decimal

/-!
# Rounding

What the context makes of a positive number depends on its value only, not on how many
trailing zeros it was written with. A product is exact when it has at most 28 significant
digits.
-/

namespace Python

/-- A number without trailing zeros has the largest exponent of its value. -/
theorem exp_eq_of_mul_zpow_eq {a b : ℕ} {x y : ℤ} (hb : b % 10 ≠ 0)
    (h : (a : ℚ) * 10 ^ x = b * 10 ^ y) (hle : y ≤ x) : x = y := by
  obtain ⟨i, rfl⟩ : ∃ i : ℕ, x = y + i := ⟨(x - y).toNat, by omega⟩
  have hpow : (10 : ℚ) ^ y ≠ 0 := by positivity
  have hab : a * 10 ^ i = b := by
    rw [zpow_add₀ (by norm_num), zpow_natCast] at h
    have hcast : ((a * 10 ^ i : ℕ) : ℚ) = b := by
      apply mul_right_cancel₀ hpow
      push_cast
      linarith
    exact_mod_cast hcast
  cases i with
  | zero => simp
  | succ i =>
      rw [pow_succ, ← mul_assoc] at hab
      exact absurd (hab ▸ Nat.mul_mod_left _ _) hb

namespace Dec

/-! ## Numbers of one value -/

theorem value_pos {d : Dec} (hd : d.negative = false) (hcoeff : d.coeff ≠ 0) : 0 < d.value := by
  have hpos : (0 : ℚ) < d.coeff := by exact_mod_cast Nat.pos_of_ne_zero hcoeff
  rw [value, hd]
  simpa using mul_pos hpos (by positivity : (0 : ℚ) < 10 ^ d.exp)

/-- The numbers of a positive value are one number without trailing zeros, shifted. -/
theorem exists_shift {d : Dec} {m : ℕ} {e : ℤ} (hm : m % 10 ≠ 0)
    (h : d.value = value ⟨false, m, e⟩) : ∃ k : ℕ, d = ⟨false, m * 10 ^ k, e - k⟩ := by
  have hne : m ≠ 0 := by
    intro hzero
    exact hm (by rw [hzero])
  have hpos : 0 < d.value := h ▸ value_pos rfl hne
  have hneg := not_negative_of_value_pos hpos
  obtain ⟨n, j, hn, hj⟩ := exists_eq_mul_pow (coeff_ne_zero_of_value_pos hpos)
  have hvalue : (n : ℚ) * 10 ^ (d.exp + j) = m * 10 ^ e := by
    rw [value, value, hneg, hj] at h
    rw [zpow_add₀ (by norm_num), zpow_natCast]
    push_cast at h
    linarith
  have hexp : d.exp + j = e := by
    rcases le_total e (d.exp + j) with hle | hle
    · exact exp_eq_of_mul_zpow_eq hm hvalue hle
    · exact (exp_eq_of_mul_zpow_eq hn hvalue.symm hle).symm
  have hcoeff : n = m := by
    rw [hexp] at hvalue
    have hcast : (n : ℚ) = m := mul_right_cancel₀ (by positivity) hvalue
    exact_mod_cast hcast
  refine ⟨j, ?_⟩
  ext
  · exact hneg
  · rw [hj, hcoeff]
  · show d.exp = e - j
    omega

theorem exists_strip {d : Dec} (hd : 0 < d.value) :
    ∃ m e, m % 10 ≠ 0 ∧ d.strip.coeff = m ∧ d.value = value ⟨false, m, e⟩ := by
  obtain ⟨k, hneg, hmod, hcoeff, hexp⟩ := strip_spec (coeff_ne_zero_of_value_pos hd)
  refine ⟨d.strip.coeff, d.strip.exp, hmod, rfl, ?_⟩
  rw [value, value, not_negative_of_value_pos hd, hexp, zpow_add₀ (by norm_num), zpow_natCast]
  conv_lhs => rw [hcoeff]
  push_cast
  ring

/-! ## Rounding of a shifted number -/

theorem value_shift (m k : ℕ) (e : ℤ) :
    value ⟨false, m * 10 ^ k, e - k⟩ = value ⟨false, m, e⟩ := by
  rw [value, value]
  push_cast
  rw [zpow_sub₀ (by norm_num), zpow_natCast]
  field_simp

theorem adjusted_shift {m : ℕ} (hm : m ≠ 0) (k : ℕ) (e : ℤ) :
    adjusted ⟨false, m * 10 ^ k, e - k⟩ = adjusted ⟨false, m, e⟩ := by
  rw [adjusted, adjusted, numDigits_mul_pow hm]
  push_cast
  ring

/-- The digits that are dropped may end in zeros. -/
theorem roundHalfEven_shift (c k drop : ℕ) :
    roundHalfEven (c * 10 ^ k) (drop + k) = roundHalfEven c drop := by
  have hpos : 0 < 10 ^ k := by positivity
  have hquotient : c * 10 ^ k / 10 ^ (drop + k) = c / 10 ^ drop := by
    rw [pow_add, Nat.mul_div_mul_right _ _ hpos]
  have hrest : c * 10 ^ k % 10 ^ (drop + k) = c % 10 ^ drop * 10 ^ k := by
    rw [pow_add, Nat.mul_mod_mul_right]
  have hlt : 10 ^ (drop + k) < 2 * (c % 10 ^ drop * 10 ^ k) ↔ 10 ^ drop < 2 * (c % 10 ^ drop) := by
    rw [pow_add, ← mul_assoc, Nat.mul_lt_mul_right hpos]
  have heq : 2 * (c % 10 ^ drop * 10 ^ k) = 10 ^ (drop + k) ↔ 2 * (c % 10 ^ drop) = 10 ^ drop := by
    rw [pow_add, ← mul_assoc, Nat.mul_left_inj hpos.ne']
  simp only [roundHalfEven, hquotient, hrest, hlt, heq]

/-- A number that fits is not rounded. -/
theorem rounded_of_le {d : Dec} (h : numDigits d.coeff ≤ prec) : d.rounded = d := by
  have hdrop : numDigits d.coeff - prec = 0 := by omega
  simp only [rounded, if_pos hdrop]

/-- A shifted number is rounded to the same value, with the same leading digit. -/
theorem rounded_shift {m : ℕ} (hm : m ≠ 0) (k : ℕ) (e : ℤ) :
    (rounded ⟨false, m * 10 ^ k, e - k⟩).value = (rounded ⟨false, m, e⟩).value ∧
      (rounded ⟨false, m * 10 ^ k, e - k⟩).adjusted = (rounded ⟨false, m, e⟩).adjusted := by
  have hprec : prec = 28 := rfl
  by_cases hfits : numDigits m ≤ prec
  · rw [rounded_of_le (d := ⟨false, m, e⟩) hfits]
    by_cases hshift : numDigits (m * 10 ^ k) ≤ prec
    · rw [rounded_of_le (d := ⟨false, m * 10 ^ k, e - k⟩) hshift]
      exact ⟨value_shift m k e, adjusted_shift hm k e⟩
    · rw [numDigits_mul_pow hm] at hshift
      have hdrop : numDigits m + k - prec ≠ 0 := by omega
      have hround := roundHalfEven_mul_pow m k (numDigits m + k - prec) (by omega)
      have hkeep : k - (numDigits m + k - prec) = prec - numDigits m := by omega
      have hlt : m * 10 ^ (prec - numDigits m) < 10 ^ prec := by
        calc m * 10 ^ (prec - numDigits m)
            < 10 ^ numDigits m * 10 ^ (prec - numDigits m) :=
              Nat.mul_lt_mul_of_pos_right (lt_pow_numDigits m) (by positivity)
          _ = 10 ^ prec := by rw [← pow_add]; congr 1; omega
      have hexp : e - k + ((numDigits m + k - prec : ℕ) : ℤ) = e - (prec - numDigits m : ℕ) := by
        omega
      have hrounded : rounded ⟨false, m * 10 ^ k, e - k⟩ =
          ⟨false, m * 10 ^ (prec - numDigits m), e - (prec - numDigits m : ℕ)⟩ := by
        simp only [rounded, numDigits_mul_pow hm, if_neg hdrop, hround, hkeep,
          if_neg (Nat.ne_of_lt hlt), hexp]
      rw [hrounded]
      exact ⟨value_shift m _ e, adjusted_shift hm _ e⟩
  · have hdigits : numDigits (m * 10 ^ k) - prec = numDigits m - prec + k := by
      rw [numDigits_mul_pow hm]
      omega
    have hdrop : numDigits m - prec + k ≠ 0 := by omega
    have hdrop' : numDigits m - prec ≠ 0 := by omega
    have hexp : e - k + ((numDigits m - prec + k : ℕ) : ℤ) = e + (numDigits m - prec : ℕ) := by
      omega
    have hrounded : rounded ⟨false, m * 10 ^ k, e - k⟩ = rounded ⟨false, m, e⟩ := by
      simp only [rounded, hdigits, if_neg hdrop, if_neg hdrop', roundHalfEven_shift, hexp]
    rw [hrounded]
    exact ⟨rfl, rfl⟩

/-- The context makes the same value of numbers of the same value. -/
theorem fix_value_congr {d e : Dec} (hd : 0 < d.value) (h : d.value = e.value) :
    d.fix.map value = e.fix.map value := by
  have hshift : ∀ c : Dec, c.value = d.value → ∀ {m : ℕ} {x : ℤ}, m % 10 ≠ 0 →
      d.value = value ⟨false, m, x⟩ → c.fix.map value = (fix ⟨false, m, x⟩).map value := by
    intro c hc m x hm hvalue
    have hne : m ≠ 0 := by
      intro hzero
      exact hm (by rw [hzero])
    obtain ⟨k, rfl⟩ := exists_shift hm (hc.trans hvalue)
    obtain ⟨hround, hadjusted⟩ := rounded_shift hne k x
    simp only [fix, hadjusted]
    split_ifs
    · rw [Option.map_some, Option.map_some, hround]
    · rfl
  obtain ⟨m, x, hm, -, hvalue⟩ := exists_strip hd
  rw [hshift d rfl hm hvalue, hshift e h.symm hm hvalue]

/-- What the context returns is positive and fits it. -/
theorem fix_spec {d r : Dec} (hd : 0 < d.value) (h : d.fix = some r) :
    0 < r.value ∧ numDigits r.coeff ≤ prec ∧ r.adjusted ≤ emax := by
  rw [fix] at h
  split_ifs at h with hmax
  obtain rfl := Option.some.inj h
  obtain ⟨hneg, hcoeff, hdigits, -⟩ := rounded_spec (coeff_ne_zero_of_value_pos hd)
  exact ⟨value_pos (hneg.trans (not_negative_of_value_pos hd)) hcoeff, hdigits, hmax⟩

/-- A number of the value of one that fits the context has a normal form. -/
theorem exists_normalize {d r : Dec} (hr : 0 < r.value) (hdigits : numDigits r.coeff ≤ prec)
    (hmax : r.adjusted ≤ emax) (h : d.value = r.value) : ∃ n, d.normalize = some n := by
  obtain ⟨m, e, hm, -, hvalue⟩ := exists_strip hr
  have hne : m ≠ 0 := by
    intro hzero
    exact hm (by rw [hzero])
  obtain ⟨j, rfl⟩ := exists_shift hm hvalue
  obtain ⟨k, rfl⟩ := exists_shift hm (h.trans hvalue)
  rw [numDigits_mul_pow hne] at hdigits
  have hcond : e - k + k + numDigits m - 1 ≤ emax := by
    rw [adjusted_shift hne, adjusted] at hmax
    simpa using hmax
  exact ⟨_, by rw [normalize_mul_pow false hm (by omega), if_pos hcond]⟩

/-! ## Products -/

/-- The product before it is rounded. -/
def exactProduct (d e : Dec) : Dec := ⟨d.negative != e.negative, d.coeff * e.coeff, d.exp + e.exp⟩

theorem value_exactProduct (d e : Dec) : (exactProduct d e).value = d.value * e.value := by
  have hsign : (if (d.negative != e.negative) = true then (-1 : ℚ) else 1) =
      (if d.negative then -1 else 1) * if e.negative then -1 else 1 := by
    cases d.negative <;> cases e.negative <;> norm_num
  rw [value, value, value, exactProduct, hsign, zpow_add₀ (by norm_num)]
  push_cast
  ring

/-- The product of the context depends on the values of the factors only. -/
theorem mul_value_congr {d d' e e' : Dec} (hd : 0 < d.value) (he : 0 < e.value)
    (hdd : d.value = d'.value) (hee : e.value = e'.value) :
    (d.mul e).map value = (d'.mul e').map value := by
  apply fix_value_congr (d := exactProduct d e) (e := exactProduct d' e')
  · rw [value_exactProduct]
    exact mul_pos hd he
  · rw [value_exactProduct, value_exactProduct, hdd, hee]

/-- Rounding drops a digit that counts, where there is one to drop. -/
theorem rounded_value_ne {m : ℕ} (hm : m % 10 ≠ 0) (hdigits : prec < numDigits m) (e : ℤ) :
    (rounded ⟨false, m, e⟩).value ≠ value ⟨false, m, e⟩ := by
  have hdrop : numDigits m - prec ≠ 0 := by omega
  have hne : ∀ (c : ℕ) (x : ℤ), e < x → value ⟨false, c, x⟩ ≠ value ⟨false, m, e⟩ := by
    intro c x hx h
    have hvalue : (c : ℚ) * 10 ^ x = m * 10 ^ e := by simpa [value] using h
    have := exp_eq_of_mul_zpow_eq hm hvalue hx.le
    omega
  simp only [rounded, if_neg hdrop]
  split_ifs
  · exact hne _ _ (by omega)
  · exact hne _ _ (by omega)

/-- The product of the context is exact when it does not overflow and has at most 28
significant digits, and only then. -/
theorem mul_exact_iff {d e : Dec} (hd : 0 < d.value) (he : 0 < e.value) :
    (d.mul e).map value = some (d.value * e.value) ↔
      (exactProduct d e).significantDigits ≤ prec ∧ (exactProduct d e).adjusted ≤ emax := by
  have hpos : 0 < (exactProduct d e).value := by
    rw [value_exactProduct]
    exact mul_pos hd he
  rw [← value_exactProduct]
  show (exactProduct d e).fix.map value = _ ↔ _
  obtain ⟨m, x, hm, hcoeff, hvalue⟩ := exists_strip hpos
  have hne : m ≠ 0 := by
    intro hzero
    exact hm (by rw [hzero])
  obtain ⟨k, hk⟩ := exists_shift hm hvalue
  rw [fix_value_congr hpos hvalue, hvalue, significantDigits, hcoeff, hk, adjusted_shift hne]
  simp only [fix]
  by_cases hdigits : numDigits m ≤ prec
  · rw [rounded_of_le (d := ⟨false, m, x⟩) hdigits]
    split_ifs with hmax
    · simp [hdigits, hmax]
    · simp [hmax]
  · have hround := rounded_value_ne hm (not_le.mp hdigits) x
    split_ifs
    · simp [hdigits, hround]
    · simp [hdigits]

end Dec

end Python
