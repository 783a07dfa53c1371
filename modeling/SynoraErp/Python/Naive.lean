import SynoraErp.Python.Instant

/-!
# Naive date times

Readings of a clock on the wall: a `datetime` without time zone. Ordinals count the days, so
that moving a reading by less than a day moves its count of microseconds by as much, over the
end of a month, of a year and of a leap year.
-/

namespace Python

/-! ## Ordinals of neighbouring days -/

theorem daysInMonth_pos {year month : ℕ} :
    0 < daysInMonth year month ↔ 1 ≤ month ∧ month ≤ 12 := by
  have hcontains : ∀ ms : List ℕ, ms.contains month = true ↔ month ∈ ms := by simp
  unfold daysInMonth
  simp only [hcontains, List.mem_cons, List.not_mem_nil, or_false]
  split_ifs <;> omega

theorem daysBeforeMonth_succ (year : ℕ) {month : ℕ} (h : 1 ≤ month) :
    daysBeforeMonth year (month + 1) = daysBeforeMonth year month + daysInMonth year month := by
  obtain ⟨m, rfl⟩ : ∃ m, month = m + 1 := ⟨month - 1, by omega⟩
  simp [daysBeforeMonth, List.range_succ]

theorem daysBeforeMonth_december (year : ℕ) :
    daysBeforeMonth year 12 = if isLeap year then 335 else 334 := by
  simp only [daysBeforeMonth, Nat.add_one_sub_one, List.range_eq_range', List.range',
    List.map_cons, List.map_nil, List.sum_cons, List.sum_nil, daysInMonth]
  by_cases hleap : isLeap year = true <;> simp [hleap]

theorem daysBeforeMonth_january (year : ℕ) : daysBeforeMonth year 1 = 0 := rfl

/-- The days of the years up to `y`. -/
def daysOfYears (y : ℕ) : ℕ := y * 365 + y / 4 - y / 100 + y / 400

theorem daysOfYears_succ (y : ℕ) :
    daysOfYears (y + 1) = daysOfYears y + (if isLeap (y + 1) then 366 else 365) := by
  have hleap : isLeap (y + 1) = true ↔ 4 ∣ y + 1 ∧ (¬100 ∣ y + 1 ∨ 400 ∣ y + 1) := by
    simp [isLeap, Nat.dvd_iff_mod_eq_zero]
  have hcentury : 100 ∣ y + 1 → 4 ∣ y + 1 := Dvd.dvd.trans (by decide)
  have hfour : 400 ∣ y + 1 → 100 ∣ y + 1 := Dvd.dvd.trans (by decide)
  have hle : y / 100 ≤ y / 4 := Nat.div_le_div_left (by decide) (by decide)
  simp only [daysOfYears, Nat.succ_div, hleap]
  generalize y / 4 = a at hle ⊢
  generalize y / 100 = b at hle ⊢
  by_cases h4 : 4 ∣ y + 1
  · by_cases h100 : 100 ∣ y + 1
    · by_cases h400 : 400 ∣ y + 1
      · simp only [h4, h100, h400]
        simp
        omega
      · simp only [h4, h100, h400]
        simp
        omega
    · simp only [h4, h100, mt hfour h100]
      simp
      omega
  · simp only [h4, mt hcentury h4, mt hfour (mt hcentury h4)]
    simp
    omega

namespace Date

theorem ofFields?_eq_some {year month day : ℕ} {d : Date} :
    ofFields? year month day = some d ↔ d.year = year ∧ d.month = month ∧ d.day = day := by
  unfold ofFields?
  split_ifs with h
  · constructor
    · intro hd
      obtain rfl := Option.some.inj hd
      exact ⟨rfl, rfl, rfl⟩
    · rintro ⟨rfl, rfl, rfl⟩
      rfl
  · simp only [false_iff]
    rintro ⟨rfl, rfl, rfl⟩
    exact h ⟨d.year_pos, d.year_le, d.day_pos, d.day_le⟩

theorem ofFields?_eq_none {year month day : ℕ} :
    ofFields? year month day = none ↔
      ¬(1 ≤ year ∧ year ≤ 9999 ∧ 1 ≤ day ∧ day ≤ daysInMonth year month) := by
  unfold ofFields?
  split_ifs with h <;> simp [h]

theorem month_bounds (d : Date) : 1 ≤ d.month ∧ d.month ≤ 12 :=
  daysInMonth_pos.mp (lt_of_lt_of_le d.day_pos d.day_le)

theorem ofFields?_day_eq_none {d : Date} {month day : ℕ} :
    ofFields? d.year month day = none ↔ day = 0 ∨ daysInMonth d.year month < day := by
  have hpos := d.year_pos
  have hle := d.year_le
  rw [ofFields?_eq_none]
  omega

theorem toordinal_eq (d : Date) :
    d.toordinal = daysOfYears (d.year - 1) + daysBeforeMonth d.year d.month + d.day := rfl

/-- The day after has the next ordinal. -/
theorem toordinal_next? {d e : Date} (h : d.next? = some e) : e.toordinal = d.toordinal + 1 := by
  obtain ⟨hmonth, hmonth'⟩ := d.month_bounds
  have hday := d.day_le
  rw [next?, Option.or_eq_some_iff, Option.or_eq_some_iff] at h
  rcases h with h | ⟨hlast, h | ⟨hdecember, h⟩⟩
  · obtain ⟨hy, hm, hd⟩ := ofFields?_eq_some.mp h
    simp only [toordinal_eq, hy, hm, hd]
    omega
  · -- the last day of a month
    obtain ⟨hy, hm, hd⟩ := ofFields?_eq_some.mp h
    have hend := ofFields?_day_eq_none.mp hlast
    have hbefore := daysBeforeMonth_succ d.year hmonth
    simp only [toordinal_eq, hy, hm, hd, hbefore]
    omega
  · -- the last day of a year
    obtain ⟨hy, hm, hd⟩ := ofFields?_eq_some.mp h
    have hend := ofFields?_day_eq_none.mp hlast
    have hnone := ofFields?_day_eq_none.mp hdecember
    have hlong := @daysInMonth_pos d.year (d.month + 1)
    have htwelve : d.month = 12 := by omega
    have hyear := daysOfYears_succ (d.year - 1)
    have hpred : d.year - 1 + 1 = d.year := by
      have := d.year_pos
      omega
    have hdays : daysInMonth d.year 12 = 31 := rfl
    rw [hpred] at hyear
    rw [htwelve, hdays] at hend hday
    simp only [toordinal_eq, hy, hm, hd, Nat.add_sub_cancel, hyear, htwelve,
      daysBeforeMonth_december, daysBeforeMonth_january]
    split_ifs <;> omega

/-- The day before has the ordinal before. -/
theorem toordinal_prev? {d e : Date} (h : d.prev? = some e) : e.toordinal + 1 = d.toordinal := by
  obtain ⟨hmonth, hmonth'⟩ := d.month_bounds
  have hday := d.day_le
  have hpos := d.day_pos
  rw [prev?, Option.or_eq_some_iff, Option.or_eq_some_iff] at h
  rcases h with h | ⟨hfirst, h | ⟨hjanuary, h⟩⟩
  · obtain ⟨hy, hm, hd⟩ := ofFields?_eq_some.mp h
    have hpos' := e.day_pos
    simp only [toordinal_eq, hy, hm, hd] at hpos' ⊢
    omega
  · -- the first day of a month
    obtain ⟨hy, hm, hd⟩ := ofFields?_eq_some.mp h
    have hend := ofFields?_day_eq_none.mp hfirst
    have hlong := (daysInMonth_pos.mp (hd ▸ e.day_pos)).1
    have hbefore := daysBeforeMonth_succ d.year hlong
    have hpred : d.month - 1 + 1 = d.month := by omega
    rw [hpred] at hbefore
    simp only [toordinal_eq, hy, hm, hd, hbefore]
    omega
  · -- the first day of a year
    obtain ⟨hy, hm, hd⟩ := ofFields?_eq_some.mp h
    have hend := ofFields?_day_eq_none.mp hfirst
    have hnone := ofFields?_day_eq_none.mp hjanuary
    have hlong := @daysInMonth_pos d.year (d.month - 1)
    have hone : d.month = 1 := by omega
    have hyear := daysOfYears_succ (d.year - 1 - 1)
    have hpred : d.year - 1 - 1 + 1 = d.year - 1 := by
      have := hy ▸ e.year_pos
      omega
    rw [hpred] at hyear
    simp only [toordinal_eq, hy, hm, hd, hyear, hone, daysBeforeMonth_december,
      daysBeforeMonth_january]
    split_ifs <;> omega

theorem toordinal_shift? {d e : Date} {days : ℤ} (h : d.shift? days = some e) :
    (e.toordinal : ℤ) = d.toordinal + days := by
  unfold shift? at h
  split_ifs at h with hsame hnext hprev
  · obtain rfl := Option.some.inj h
    omega
  · have := toordinal_next? h
    omega
  · have := toordinal_prev? h
    omega

end Date

namespace DateTime

@[simp] theorem ofSecondOfDay_date (date : Date) {s : ℕ} (h : s < 86400) :
    (ofSecondOfDay date s h).date = date := rfl

@[simp] theorem secondOfDay_ofSecondOfDay (date : Date) {s : ℕ} (h : s < 86400) :
    (ofSecondOfDay date s h).secondOfDay = s := by
  simp only [secondOfDay, ofSecondOfDay]
  omega

theorem microseconds_eq_add (d : DateTime) (microsecond : ℕ) :
    d.microseconds microsecond = d.microseconds 0 + microsecond := by
  rw [microseconds, microseconds, Nat.add_zero]

theorem microseconds_zero_mod (d : DateTime) : d.microseconds 0 % 1000000 = 0 := by
  rw [microseconds, Nat.add_zero, Nat.mul_mod_left]

end DateTime

/-- The text of an instant keeps the second of the instant. -/
theorem IsoDatetime.microseconds_astimezoneUtc {p : IsoDatetime} {offset : ℤ} {d : DateTime}
    (h : p.astimezoneUtc offset = some d) :
    (d.microseconds 0 : ℤ) = p.microseconds offset / 1000000 * 1000000 := by
  rw [astimezoneUtc, Option.map_eq_some_iff] at h
  obtain ⟨date, hdate, rfl⟩ := h
  have hordinal := Date.toordinal_shift? hdate
  simp only [IsoDatetime.microseconds, DateTime.microseconds, DateTime.ofSecondOfDay_date,
    DateTime.secondOfDay_ofSecondOfDay, microsecondUtc] at hordinal ⊢
  omega

/-! ## Readings -/

/-- A `datetime` without time zone. -/
@[ext] structure Naive where
  dateTime : DateTime
  microsecond : Fin 1000000

namespace Naive

/-- The microseconds since the start of the calendar, as the reading counts them. -/
def microseconds (d : Naive) : ℤ := d.dateTime.microseconds d.microsecond

/-- `d.replace(microsecond=0)`. -/
def second (d : Naive) : Naive := ⟨d.dateTime, 0⟩

/-- `d + timedelta(hours=1)`; `none` is the `OverflowError` at the end of the calendar. -/
def hourLater? (d : Naive) : Option Naive :=
  (d.dateTime.date.shift? ((d.dateTime.secondOfDay + 3600) / 86400 : ℕ)).map fun date =>
    ⟨DateTime.ofSecondOfDay date ((d.dateTime.secondOfDay + 3600) % 86400)
      (Nat.mod_lt _ (by decide)), d.microsecond⟩

/-- The microseconds since midnight UTC of the local date, for a reading at an offset. -/
def microsecondUtc (d : Naive) (offset : ℤ) : ℤ :=
  (d.dateTime.secondOfDay * 1000000 + d.microsecond : ℕ) - offset

/-- `d.astimezone(UTC).replace(tzinfo=None)` for a reading at an offset; `none` is the
`OverflowError`. -/
def astimezoneUtc (d : Naive) (offset : ℤ) : Option Naive :=
  (d.dateTime.date.shift? (d.microsecondUtc offset / 86400000000)).map fun date =>
    ⟨DateTime.ofSecondOfDay date ((d.microsecondUtc offset % 86400000000).toNat / 1000000)
      (by omega),
      ⟨(d.microsecondUtc offset % 86400000000).toNat % 1000000, Nat.mod_lt _ (by decide)⟩⟩

/-- A reading at a full second. -/
@[simp] theorem microseconds_mk_zero (d : DateTime) :
    (⟨d, 0⟩ : Naive).microseconds = d.microseconds 0 := by
  simp [microseconds]

@[simp] theorem second_dateTime (d : Naive) : d.second.dateTime = d.dateTime := rfl

theorem microseconds_dateTime (d : Naive) :
    (d.dateTime.microseconds 0 : ℤ) = d.second.microseconds :=
  (microseconds_mk_zero d.dateTime).symm

theorem microseconds_second (d : Naive) :
    d.second.microseconds = d.microseconds / 1000000 * 1000000 := by
  have hlt := d.microsecond.isLt
  have hfull := d.dateTime.microseconds_zero_mod
  have hcount := d.dateTime.microseconds_eq_add d.microsecond
  rw [second, microseconds_mk_zero, microseconds, hcount]
  omega

theorem microseconds_hourLater? {d e : Naive} (h : d.hourLater? = some e) :
    e.microseconds = d.microseconds + 3600000000 := by
  rw [hourLater?, Option.map_eq_some_iff] at h
  obtain ⟨date, hdate, rfl⟩ := h
  have hordinal := Date.toordinal_shift? hdate
  simp only [microseconds, DateTime.microseconds, DateTime.ofSecondOfDay_date,
    DateTime.secondOfDay_ofSecondOfDay] at hordinal ⊢
  omega

/-- A reading in UTC is kept. -/
theorem astimezoneUtc_zero (d : DateTime) : astimezoneUtc ⟨d, 0⟩ 0 = some ⟨d, 0⟩ := by
  have h := IsoDatetime.astimezoneUtc_zero d
  rw [IsoDatetime.astimezoneUtc, Option.map_eq_some_iff] at h
  obtain ⟨date, hdate, hd⟩ := h
  have hcount : microsecondUtc ⟨d, 0⟩ 0 = IsoDatetime.microsecondUtc ⟨d, 0, some 0⟩ 0 := rfl
  have hmicrosecond :
      (IsoDatetime.microsecondUtc ⟨d, 0, some 0⟩ 0 % 86400000000).toNat % 1000000 = 0 := by
    simp only [IsoDatetime.microsecondUtc]
    omega
  simp only [astimezoneUtc, hcount, hdate, Option.map_some, Option.some.injEq, Naive.mk.injEq,
    Fin.ext_iff]
  exact ⟨hd, hmicrosecond⟩

end Naive

/-- A `datetime` value: naive, or a reading with its offset in microseconds. -/
inductive Datetime where
  | naive (d : Naive)
  | aware (d : Naive) (offset : ℤ)

namespace Datetime

/-- `d.replace(tzinfo=None)`. -/
def replaceZone : Datetime → Naive
  | naive d => d
  | aware d _ => d

end Datetime

end Python
