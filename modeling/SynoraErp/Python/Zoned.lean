import SynoraErp.Python.Instant
import SynoraErp.Python.Interpreter

/-!
# Aware datetimes

A `datetime` that carries a `tzinfo`, its order and its equality, the ISO 8601 text
pydantic writes for it, and what is left of it when that text is read back.
-/

namespace Python

open Text

/-- The time zones of the process. A zone is an object, so two values share one when
they carry the same object; `fixed` is `timezone(timedelta(microseconds=offset))`. -/
structure TimeZones where
  Zone : Type
  decidableEq : DecidableEq Zone
  /-- `tzinfo.utcoffset` in microseconds, at a wall clock reading and its `fold`. -/
  utcoffset : Zone → DateTime → Fin 1000000 → Bool → ℤ
  abs_utcoffset_lt : ∀ zone d micro fold, |utcoffset zone d micro fold| < 86400000000
  fixed : ℤ → Zone
  utcoffset_fixed : ∀ offset : ℤ, |offset| < 86400000000 → ∀ d micro fold,
    utcoffset (fixed offset) d micro fold = offset

instance (Z : TimeZones) : DecidableEq Z.Zone := Z.decidableEq

deriving instance DecidableEq for Date, DateTime

/-- A `datetime` with a `tzinfo`. -/
structure AwareDatetime (Z : TimeZones) where
  dateTime : DateTime
  microsecond : Fin 1000000
  fold : Bool
  zone : Z.Zone

namespace AwareDatetime

variable {Z : TimeZones}

/-- The reading of the wall clock. -/
def wall (t : AwareDatetime Z) : ℤ := t.dateTime.microseconds t.microsecond

/-- `t.utcoffset()`. -/
def utcoffset (t : AwareDatetime Z) : ℤ := Z.utcoffset t.zone t.dateTime t.microsecond t.fold

/-- The point of the time line. -/
def utc (t : AwareDatetime Z) : ℤ := t.wall - t.utcoffset

/-- The offset depends on `fold`: the reading lies in a repeated or a skipped hour. -/
def IsAmbiguous (t : AwareDatetime Z) : Prop :=
  Z.utcoffset t.zone t.dateTime t.microsecond (!t.fold) ≠ t.utcoffset

instance (t : AwareDatetime Z) : Decidable t.IsAmbiguous := by
  unfold IsAmbiguous
  infer_instance

/-- `s <= t`: values of one zone are compared by the wall clock. -/
def le (s t : AwareDatetime Z) : Prop :=
  if s.zone = t.zone then s.wall ≤ t.wall else s.utc ≤ t.utc

instance (s t : AwareDatetime Z) : Decidable (s.le t) := by
  unfold le
  infer_instance

/-- `s < t`. -/
def lt (s t : AwareDatetime Z) : Prop :=
  if s.zone = t.zone then s.wall < t.wall else s.utc < t.utc

instance (s t : AwareDatetime Z) : Decidable (s.lt t) := by
  unfold lt
  infer_instance

/-- `s == t`: between two zones an ambiguous reading equals nothing. -/
def Equals (s t : AwareDatetime Z) : Prop :=
  if s.zone = t.zone then s.dateTime = t.dateTime ∧ s.microsecond = t.microsecond
  else ¬s.IsAmbiguous ∧ ¬t.IsAmbiguous ∧ s.utc = t.utc

instance (s t : AwareDatetime Z) : Decidable (s.Equals t) := by
  unfold Equals
  infer_instance

theorem equals_refl (t : AwareDatetime Z) : t.Equals t := by
  rw [Equals, if_pos rfl]
  exact ⟨rfl, rfl⟩

theorem not_lt_self (t : AwareDatetime Z) : ¬t.lt t := by
  rw [lt, if_pos rfl]
  exact lt_irrefl _

end AwareDatetime

/-! ## Texts -/

/-- The fraction of a second, which `isoformat` leaves out when it is zero. -/
def microsecondText (micro : Fin 1000000) : Text :=
  if micro.val = 0 then [] else "." ++ digitsText (fixedDigits 6 micro)

/-- `±HH:MM`. -/
def offsetText (minutes : ℤ) : Text :=
  (if minutes < 0 then Text.ofString "-" else Text.ofString "+") ++
    (digitsText (fixedDigits 2 (minutes.natAbs / 60)) ++
      (":" ++ digitsText (fixedDigits 2 (minutes.natAbs % 60))))

/-- The ISO 8601 text of a reading under an offset of whole minutes. -/
def isoText (d : DateTime) (micro : Fin 1000000) (minutes : ℤ) : Text :=
  d.isoformat ++ (microsecondText micro ++ offsetText minutes)

/-- `fromisoformat` reads every such text. -/
def Interpreter.ReadsIso (I : Interpreter) : Prop :=
  ∀ (d : DateTime) (micro : Fin 1000000) (minutes : ℤ), |minutes| < 1440 →
    I.fromisoformat (isoText d micro minutes) = some ⟨d, micro, some (minutes * 60000000)⟩

/-- The whole minutes pydantic writes for an offset: its text has no seconds there. -/
structure OffsetMinutes where
  minutes : ℤ → ℤ
  minutes_whole : ∀ n : ℤ, minutes (n * 60000000) = n
  abs_minutes_lt : ∀ offset, |offset| < 86400000000 → |minutes offset| < 1440

/-- The seconds are cut off. -/
def OffsetMinutes.truncated : OffsetMinutes where
  minutes offset := offset.tdiv 60000000
  minutes_whole n := Int.mul_tdiv_cancel n (by decide)
  abs_minutes_lt offset hoffset := by
    have hdiv : (offset.tdiv 60000000).natAbs = offset.natAbs / 60000000 := Int.natAbs_tdiv _ _
    rw [Int.abs_eq_natAbs] at hoffset ⊢
    omega

namespace AwareDatetime

variable {Z : TimeZones} (M : OffsetMinutes)

/-- The whole minutes in the text of a value. -/
def minutes (t : AwareDatetime Z) : ℤ := M.minutes t.utcoffset

theorem abs_minutes_lt (t : AwareDatetime Z) : |t.minutes M| < 1440 :=
  M.abs_minutes_lt _ (Z.abs_utcoffset_lt _ _ _ _)

/-- The text of a value in `model_dump(mode="json")`. -/
def jsonText (t : AwareDatetime Z) : Text :=
  t.dateTime.isoformat ++ (microsecondText t.microsecond ++
    if t.minutes M = 0 then Text.ofString "Z" else offsetText (t.minutes M))

/-- The value of a text that carries an offset. -/
def ofIso (Z : TimeZones) (parsed : IsoDatetime) : Option (AwareDatetime Z) := do
  let offset ← parsed.utcoffset
  if h : parsed.microsecond < 1000000 then
    some ⟨parsed.dateTime, ⟨parsed.microsecond, h⟩, false, Z.fixed offset⟩
  else none

/-- What is left of a value in its text: the reading, under a fixed offset. -/
def pinned (t : AwareDatetime Z) : AwareDatetime Z :=
  ⟨t.dateTime, t.microsecond, false, Z.fixed (t.minutes M * 60000000)⟩

theorem ofIso_minutes (t : AwareDatetime Z) :
    ofIso Z ⟨t.dateTime, t.microsecond, some (t.minutes M * 60000000)⟩ = some (t.pinned M) := by
  simp [ofIso, pinned]

/-- The text of a value says all there is to say: its offset is of whole minutes and does
not depend on `fold`. -/
def IsFaithful (t : AwareDatetime Z) : Prop := ¬t.IsAmbiguous ∧ (60000000 : ℤ) ∣ t.utcoffset

instance (t : AwareDatetime Z) : Decidable t.IsFaithful := by
  unfold IsFaithful
  infer_instance

/-- The zone of a text has one offset. -/
theorem utcoffset_fixed (t : AwareDatetime Z) (d : DateTime) (micro : Fin 1000000) (fold : Bool) :
    Z.utcoffset (t.pinned M).zone d micro fold = t.minutes M * 60000000 := by
  have hlt := t.abs_minutes_lt M
  apply Z.utcoffset_fixed
  rw [abs_lt] at hlt ⊢
  omega

theorem utcoffset_pinned (t : AwareDatetime Z) :
    (t.pinned M).utcoffset = t.minutes M * 60000000 :=
  t.utcoffset_fixed M _ _ _

theorem wall_pinned (t : AwareDatetime Z) : (t.pinned M).wall = t.wall := rfl

theorem not_isAmbiguous_pinned (t : AwareDatetime Z) : ¬(t.pinned M).IsAmbiguous := by
  apply not_not_intro
  rw [utcoffset_pinned]
  exact t.utcoffset_fixed M _ _ _

/-- A value in the zone of a text has its offset, whatever its `fold`. -/
theorem isFaithful_of_zone_eq {s t : AwareDatetime Z} (h : (s.pinned M).zone = t.zone) :
    t.IsFaithful ∧ t.utcoffset = s.minutes M * 60000000 := by
  have hoffset : ∀ fold, Z.utcoffset t.zone t.dateTime t.microsecond fold =
      s.minutes M * 60000000 := by
    intro fold
    rw [← h]
    exact s.utcoffset_fixed M _ _ _
  refine ⟨⟨not_not_intro ((hoffset _).trans (hoffset _).symm), ?_⟩, hoffset t.fold⟩
  rw [utcoffset, hoffset]
  exact dvd_mul_left _ _

theorem IsFaithful.utcoffset_pinned {t : AwareDatetime Z} (h : t.IsFaithful) :
    (t.pinned M).utcoffset = t.utcoffset := by
  obtain ⟨n, hn⟩ := h.2
  rw [AwareDatetime.utcoffset_pinned, minutes, hn, mul_comm _ n, M.minutes_whole]

theorem IsFaithful.utc_pinned {t : AwareDatetime Z} (h : t.IsFaithful) :
    (t.pinned M).utc = t.utc := by
  rw [utc, utc, wall_pinned, h.utcoffset_pinned]

/-- A value equals what its text stands for exactly when the text is faithful. -/
theorem pinned_equals_iff (t : AwareDatetime Z) : (t.pinned M).Equals t ↔ t.IsFaithful := by
  constructor
  · intro h
    by_cases hzone : (t.pinned M).zone = t.zone
    · exact (isFaithful_of_zone_eq M hzone).1
    · rw [Equals, if_neg hzone] at h
      obtain ⟨-, hambiguous, hutc⟩ := h
      refine ⟨hambiguous, t.minutes M, ?_⟩
      rw [utc, utc, wall_pinned, utcoffset_pinned] at hutc
      omega
  · intro h
    rw [Equals]
    split_ifs with hzone
    · exact ⟨rfl, rfl⟩
    · exact ⟨not_isAmbiguous_pinned M t, h.1, h.utc_pinned M⟩

/-- A value that equals what a text stands for is not ambiguous. -/
theorem Equals.not_isAmbiguous {s t : AwareDatetime Z} (h : (s.pinned M).Equals t) :
    ¬t.IsAmbiguous := by
  by_cases hzone : (s.pinned M).zone = t.zone
  · exact (isFaithful_of_zone_eq M hzone).1.1
  · rw [Equals, if_neg hzone] at h
    exact h.2.1

/-- Equal values are at the same point of the time line, unless they share a zone and the
first is ambiguous. -/
theorem Equals.utc_eq {s t : AwareDatetime Z} (h : s.Equals t) (hs : ¬s.IsAmbiguous) :
    s.utc = t.utc := by
  by_cases hzone : s.zone = t.zone
  · rw [Equals, if_pos hzone] at h
    have hoffset : t.utcoffset = s.utcoffset := by
      rw [utcoffset, ← hzone, ← h.1, ← h.2]
      by_cases hfold : t.fold = s.fold
      · rw [hfold]
        rfl
      · rw [Bool.eq_not.mpr hfold]
        exact not_not.mp hs
    rw [utc, utc, hoffset, wall, wall, h.1, h.2]
  · rw [Equals, if_neg hzone] at h
    exact h.2.2

end AwareDatetime

/-! ## A reader -/

/-- Reads a fraction of six digits, if there is one. -/
def readMicrosecond (t : Text) : Option (ℕ × Text) :=
  match expect "." t with
  | some t => takeDigits 6 t
  | none => some (0, t)

/-- The reader of the extended format with a fraction and a time zone. -/
def readZoned (t : Text) : Option IsoDatetime := do
  let (date, t) ← readDate t
  let t ← expect "T" t
  let (time, t) ← readTime date t
  let (micro, t) ← readMicrosecond t
  let offset ← readOffset t
  some ⟨time, micro, some offset⟩

theorem readOffset_offsetText {minutes : ℤ} (h : |minutes| < 1440) :
    readOffset (offsetText minutes) = some (minutes * 60000000) := by
  have hlt : minutes.natAbs < 1440 := by
    rw [Int.abs_eq_natAbs] at h
    omega
  have hhour : minutes.natAbs / 60 % 10 ^ 2 = minutes.natAbs / 60 := Nat.mod_eq_of_lt (by omega)
  have hminute : minutes.natAbs % 60 % 10 ^ 2 = minutes.natAbs % 60 := Nat.mod_eq_of_lt (by omega)
  have htake := takeDigits_fixedDigits 2 (minutes.natAbs % 60) []
  rw [List.append_nil, hminute] at htake
  have hbounds : ¬(([] : Text) ≠ [] ∨ 24 ≤ minutes.natAbs / 60 ∨ 60 ≤ minutes.natAbs % 60) := by
    simp only [ne_eq, not_true_eq_false, false_or]
    omega
  by_cases hneg : minutes < 0
  · have hsign : ofString "-" = [codePoint '-'] := rfl
    have hplus : ofString "+" ≠ [codePoint '-'] := by decide
    rw [offsetText, if_pos hneg, hsign, readOffset]
    simp only [List.cons_append, List.nil_append, List.head?_cons, List.tail_cons,
      takeDigits_fixedDigits, expect_append, htake, hhour, Option.bind_eq_bind, Option.bind_some,
      if_neg hbounds, if_neg hplus, if_pos hsign, Option.some.injEq]
    omega
  · have hsign : ofString "+" = [codePoint '+'] := rfl
    rw [offsetText, if_neg hneg, hsign, readOffset]
    simp only [List.cons_append, List.nil_append, List.head?_cons, List.tail_cons,
      takeDigits_fixedDigits, expect_append, htake, hhour, Option.bind_eq_bind, Option.bind_some,
      if_neg hbounds, if_pos hsign, Option.some.injEq]
    omega

theorem readMicrosecond_microsecondText (micro : Fin 1000000) (minutes : ℤ) :
    readMicrosecond (microsecondText micro ++ offsetText minutes) =
      some (micro.val, offsetText minutes) := by
  by_cases hzero : micro.val = 0
  · have hpoint : expect "." (offsetText minutes) = none := by
      by_cases hneg : minutes < 0
      · rw [offsetText, if_pos hneg]
        rfl
      · rw [offsetText, if_neg hneg]
        rfl
    rw [microsecondText, if_pos hzero, List.nil_append, readMicrosecond, hpoint, hzero]
  · have hmicro : micro.val % 10 ^ 6 = micro.val := Nat.mod_eq_of_lt micro.isLt
    rw [microsecondText, if_neg hzero, List.append_assoc, readMicrosecond, expect_append]
    simp only [takeDigits_fixedDigits, hmicro]

theorem readZoned_isoText (d : DateTime) (micro : Fin 1000000) {minutes : ℤ}
    (h : |minutes| < 1440) :
    readZoned (isoText d micro minutes) = some ⟨d, micro, some (minutes * 60000000)⟩ := by
  simp only [readZoned, isoText, DateTime.isoformat, List.flatten_cons, List.flatten_nil,
    List.append_assoc, List.nil_append, readDate_digits, readTime_digits, expect_append,
    Option.bind_eq_bind, Option.bind_some, readMicrosecond_microsecondText,
    readOffset_offsetText h]

theorem isoText_zero (d : DateTime) : isoText d 0 0 = d.isoformat ++ "+00:00" := by
  rfl

/-- The interpreter that evaluates, with the texts of aware values. -/
def Interpreter.zoned : Interpreter :=
  { Interpreter.ascii with
    fromisoformat := readZoned
    fromisoformat_isoformat := fun d => by
      rw [← isoText_zero]
      exact readZoned_isoText d 0 (by decide) }

theorem ite_offset {offset : ℤ} (h : |offset| < 86400000000) :
    (if |offset| < 86400000000 then offset else 0) = offset := if_pos h

/-- The zones of fixed offset alone. -/
def TimeZones.fixedOffsets : TimeZones where
  Zone := ℤ
  decidableEq := inferInstance
  utcoffset zone _ _ _ := if |zone| < 86400000000 then zone else 0
  abs_utcoffset_lt zone d micro fold := by
    split_ifs with h
    · exact h
    · decide
  fixed offset := offset
  utcoffset_fixed _ h _ _ _ := ite_offset h

theorem Interpreter.zoned_readsIso : Interpreter.zoned.ReadsIso :=
  fun d micro _ h => readZoned_isoText d micro h

end Python
