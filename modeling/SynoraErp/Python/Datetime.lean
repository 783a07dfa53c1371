import SynoraErp.Python.Digits

/-!
# Dates and times

`datetime.datetime` at the resolution the contracts keep: a proleptic Gregorian
date, a time of day to the second, and the microsecond and UTC offset an ISO
8601 text may carry besides.
-/

namespace Python

/-- Literals are microseconds. -/
instance neZero_microseconds : NeZero (1000000 : ℕ) := ⟨by decide⟩

/-- `calendar.isleap`. -/
def isLeap (year : ℕ) : Bool := year % 4 == 0 && (year % 100 != 0 || year % 400 == 0)

/-- The number of days of a month; zero when there is no such month. -/
def daysInMonth (year month : ℕ) : ℕ :=
  if month = 2 then (if isLeap year then 29 else 28)
  else if [1, 3, 5, 7, 8, 10, 12].contains month then 31
  else if [4, 6, 9, 11].contains month then 30
  else 0

theorem daysInMonth_le (year month : ℕ) : daysInMonth year month ≤ 31 := by
  unfold daysInMonth
  split_ifs <;> omega

/-- `datetime.date`: the years 1 to 9999. -/
@[ext] structure Date where
  year : ℕ
  month : ℕ
  day : ℕ
  year_pos : 1 ≤ year
  year_le : year ≤ 9999
  day_pos : 1 ≤ day
  day_le : day ≤ daysInMonth year month

namespace Date

/-- The date of three numbers; `none` is the `ValueError` of the constructor. -/
def ofFields? (year month day : ℕ) : Option Date :=
  if h : 1 ≤ year ∧ year ≤ 9999 ∧ 1 ≤ day ∧ day ≤ daysInMonth year month then
    some ⟨year, month, day, h.1, h.2.1, h.2.2.1, h.2.2.2⟩
  else none

/-- The day after; `none` past 9999-12-31. -/
def next? (d : Date) : Option Date :=
  (ofFields? d.year d.month (d.day + 1)).or
    ((ofFields? d.year (d.month + 1) 1).or (ofFields? (d.year + 1) 1 1))

/-- The day before; `none` ahead of 0001-01-01. -/
def prev? (d : Date) : Option Date :=
  (ofFields? d.year d.month (d.day - 1)).or
    ((ofFields? d.year (d.month - 1) (daysInMonth d.year (d.month - 1))).or
      (ofFields? (d.year - 1) 12 31))

/-- The date `days` days later, for a shift of at most one day. -/
def shift? (d : Date) (days : ℤ) : Option Date :=
  if days = 0 then some d
  else if days = 1 then d.next?
  else if days = -1 then d.prev?
  else none

end Date

/-- A `datetime` without time zone and microseconds. -/
@[ext] structure DateTime where
  date : Date
  hour : ℕ
  minute : ℕ
  second : ℕ
  hour_lt : hour < 24
  minute_lt : minute < 60
  second_lt : second < 60

namespace DateTime

/-- The time of six numbers; `none` is the `ValueError` of the constructor. -/
def ofFields? (year month day hour minute second : ℕ) : Option DateTime := do
  let date ← Date.ofFields? year month day
  if hhour : hour < 24 then
    if hminute : minute < 60 then
      if hsecond : second < 60 then some ⟨date, hour, minute, second, hhour, hminute, hsecond⟩
      else none
    else none
  else none

/-- `d.isoformat()` of a time zone free value. -/
def isoformat (d : DateTime) : Text :=
  List.flatten
    [digitsText (fixedDigits 4 d.date.year), "-", digitsText (fixedDigits 2 d.date.month), "-",
      digitsText (fixedDigits 2 d.date.day), "T", digitsText (fixedDigits 2 d.hour), ":",
      digitsText (fixedDigits 2 d.minute), ":", digitsText (fixedDigits 2 d.second)]

@[simp] theorem length_isoformat (d : DateTime) : d.isoformat.length = 19 := by
  simp [isoformat, Text.ofString_eq]

/-- The second of the day. -/
def secondOfDay (d : DateTime) : ℕ := (d.hour * 60 + d.minute) * 60 + d.second

/-- The time of day at a second of the day. -/
def ofSecondOfDay (date : Date) (s : ℕ) (h : s < 86400) : DateTime where
  date := date
  hour := s / 3600
  minute := s / 60 % 60
  second := s % 60
  hour_lt := by omega
  minute_lt := Nat.mod_lt _ (by decide)
  second_lt := Nat.mod_lt _ (by decide)

theorem secondOfDay_lt (d : DateTime) : d.secondOfDay < 86400 := by
  have hh := d.hour_lt
  have hm := d.minute_lt
  have hs := d.second_lt
  unfold secondOfDay
  omega

theorem ofSecondOfDay_secondOfDay (d : DateTime) (h : d.secondOfDay < 86400) :
    ofSecondOfDay d.date d.secondOfDay h = d := by
  have hm := d.minute_lt
  have hs := d.second_lt
  ext <;> simp only [ofSecondOfDay, secondOfDay] <;> omega

end DateTime

/-- What `datetime.fromisoformat` reads: the offset is `none` for a naive text,
and a count of microseconds otherwise. -/
structure IsoDatetime where
  dateTime : DateTime
  microsecond : ℕ
  utcoffset : Option ℤ

namespace IsoDatetime

/-- The microseconds since midnight UTC of the local date. -/
def microsecondUtc (d : IsoDatetime) (offset : ℤ) : ℤ :=
  (d.dateTime.secondOfDay * 1000000 + d.microsecond : ℕ) - offset

/-- `d.astimezone(UTC).replace(microsecond=0)` for the offset of `d`, which is less
than a day either way; `none` is the `OverflowError` at the ends of the
calendar. -/
def astimezoneUtc (d : IsoDatetime) (offset : ℤ) : Option DateTime :=
  (d.dateTime.date.shift? (d.microsecondUtc offset / 86400000000)).map fun date =>
    DateTime.ofSecondOfDay date ((d.microsecondUtc offset % 86400000000).toNat / 1000000) (by omega)

/-- A value that is already in UTC is kept. -/
theorem astimezoneUtc_zero (d : DateTime) :
    astimezoneUtc ⟨d, 0, some 0⟩ 0 = some d := by
  have hlt := d.secondOfDay_lt
  have hdays : microsecondUtc ⟨d, 0, some 0⟩ 0 / 86400000000 = 0 := by
    simp only [microsecondUtc]
    omega
  have hsecond : (microsecondUtc ⟨d, 0, some 0⟩ 0 % 86400000000).toNat / 1000000 =
      d.secondOfDay := by
    simp only [microsecondUtc]
    omega
  simp only [astimezoneUtc, hdays, Date.shift?, if_pos, Option.map_some, Option.some.injEq]
  simp only [hsecond]
  exact d.ofSecondOfDay_secondOfDay hlt

end IsoDatetime

end Python
