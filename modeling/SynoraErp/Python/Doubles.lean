import Mathlib.Data.Rat.Cast.Order
import SynoraErp.Python.JsonRoundTrip

/-!
# An interpreter that reads its floats back

The text of a float is here its numerator, a point and its denominator. That is no
decimal expansion, but it is a JSON number and `float` inverts it, which is all that
a round trip asks of `repr`.
-/

namespace Python

namespace Json

/-- The text of a rational. -/
def fractionText (q : ℚ) : Text := intText q.num ++ (codePoint '.' :: natText q.den)

/-- The rational of a text without sign. -/
def readFraction (t : Text) : ℚ :=
  (ofDigits (spanDigits t).1 : ℚ) / ofDigits (spanDigits (spanDigits t).2.tail).1

def readSignedFraction (t : Text) : ℚ :=
  if t.head? = some minus then -readFraction t.tail else readFraction t

theorem readFraction_natText (n d : ℕ) :
    readFraction (natText n ++ codePoint '.' :: natText d) = n / d := by
  have hpoint : NoDigitHead (codePoint '.' :: natText d) := by
    rw [noDigitHead_cons]
    decide
  have hend : spanDigits (natText d) = (natDigits d, []) := by
    have h := spanDigits_digitsText (natDigits d) noDigitHead_nil
    rwa [List.append_nil] at h
  rw [readFraction, natText, spanDigits_digitsText _ hpoint, List.tail_cons, hend,
    ofDigits_natDigits, ofDigits_natDigits]

theorem readSignedFraction_minus (n d : ℕ) :
    readSignedFraction (minus :: (natText n ++ codePoint '.' :: natText d)) = -(n / d) := by
  rw [readSignedFraction, if_pos (by simp), List.tail_cons, readFraction_natText]

theorem readSignedFraction_natText (n d : ℕ) :
    readSignedFraction (natText n ++ codePoint '.' :: natText d) = n / d := by
  obtain ⟨digit, u, hu⟩ := exists_natText_eq_cons n
  have hne : ∀ digit : Fin 10, digitPoint digit ≠ minus := by decide
  rw [readSignedFraction, if_neg (by simp [hu, hne digit]), readFraction_natText]

/-- The float of the text of a rational. -/
theorem readSignedFraction_fractionText (q : ℚ) : readSignedFraction (fractionText q) = q := by
  have hq := Rat.num_div_den q
  rw [fractionText, intText]
  split_ifs with hneg
  · have habs : ((q.num.natAbs : ℕ) : ℚ) = -(q.num : ℚ) := by
      rw [Nat.cast_natAbs, abs_of_neg hneg, Int.cast_neg]
    rw [List.cons_append, readSignedFraction_minus, habs, neg_div, neg_neg, hq]
  · have habs : ((q.num.natAbs : ℕ) : ℚ) = q.num := by
      rw [Nat.cast_natAbs, abs_of_nonneg (not_lt.mp hneg)]
    rw [readSignedFraction_natText, habs, hq]

/-- A number with a fraction is read as the float of its text. -/
theorem scanNumber_fraction (I : Interpreter) (negative : Bool) (n d : ℕ) {t : Text}
    (ht : NumberEnd t) :
    scanNumber I negative (natText n ++ (codePoint '.' :: natText d) ++ t) =
      some (.float (I.float ((if negative then [minus] else []) ++ natText n ++
        codePoint '.' :: natText d)), t) := by
  have hpoint : NoDigitHead (codePoint '.' :: (natText d ++ t)) := by
    rw [noDigitHead_cons]
    decide
  have hspan : spanDigits (natText d ++ t) = (natDigits d, t) :=
    spanDigits_digitsText _ fun c hc => (ht c hc).1
  have hfraction : scanFraction (codePoint '.' :: (natText d ++ t)) =
      (codePoint '.' :: natText d, t) := by
    rw [scanFraction, hspan, if_pos ⟨rfl, natDigits_ne_nil d⟩]
    rfl
  rw [List.append_assoc, List.cons_append, scanNumber, scanInteger_natText n hpoint]
  simp only [Option.bind_eq_bind, Option.bind_some, hfraction, scanExponent_of_numberEnd ht]
  rw [if_neg (by simp), List.append_nil]
  rfl

end Json

open Json in
/-- The interpreter on ASCII, with floats written as fractions. -/
def Interpreter.fractional : Interpreter :=
  { Interpreter.ascii with
    float := fun t => .finite (readSignedFraction t)
    floatRepr := fun
      | .finite q => fractionText q
      | _ => [] }

namespace Json

/-- The text of a rational is scanned as a whole. -/
theorem scanValue_fractionText (I : Interpreter) (hooks : Hooks) (fuel : ℕ) (q : ℚ) {t : Text}
    (ht : NumberEnd t) :
    scanValue I hooks (fuel + 1) (fractionText q ++ t) = some (.float (I.float (fractionText q)), t) := by
  obtain ⟨d, u, hu⟩ := exists_natText_eq_cons q.num.natAbs
  rw [fractionText, intText]
  split_ifs with hneg
  · have hscan := scanNumber_fraction I true q.num.natAbs q.den ht
    rw [hu] at hscan ⊢
    simp only [List.cons_append, List.append_assoc, if_true, List.nil_append] at hscan ⊢
    rw [scanValue_minus, hscan]
  · have hscan := scanNumber_fraction I false q.num.natAbs q.den ht
    rw [hu] at hscan ⊢
    simp only [List.cons_append, List.append_assoc, Bool.false_eq_true, if_false,
      List.nil_append] at hscan ⊢
    rw [scanValue_digit, hscan]

theorem readsDoubles_fractional : ReadsDoubles Interpreter.fractional := by
  intro q _
  refine ⟨⟨q, rfl⟩, ?_, fun hooks fuel t ht => ?_⟩
  · show TokenHead (fractionText q)
    rw [fractionText, intText]
    split_ifs
    · exact ⟨minus, _, rfl, by decide⟩
    · exact (tokenHead_natText _).append _
  · show scanValue _ hooks (fuel + 1) (fractionText q ++ t) = _
    rw [scanValue_fractionText _ hooks fuel q ht]
    show some (Value.float (.finite (readSignedFraction (fractionText q))), t) = _
    rw [readSignedFraction_fractionText]

end Json

end Python
