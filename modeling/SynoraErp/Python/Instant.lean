import SynoraErp.Python.Datetime

/-!
# Instants

Readings of a clock in UTC, and the point of the time line an ISO 8601 text with an
offset stands for.
-/

namespace Python

/-- The days of the months ahead of `month`. -/
def daysBeforeMonth (year month : ℕ) : ℕ :=
  ((List.range (month - 1)).map fun m => daysInMonth year (m + 1)).sum

/-- `date.toordinal`. -/
def Date.toordinal (d : Date) : ℕ :=
  let y := d.year - 1
  y * 365 + y / 4 - y / 100 + y / 400 + daysBeforeMonth d.year d.month + d.day

/-- The microseconds since the start of the calendar, for a reading at UTC. -/
def DateTime.microseconds (d : DateTime) (microsecond : ℕ) : ℕ :=
  (d.date.toordinal * 86400 + d.secondOfDay) * 1000000 + microsecond

/-- What a clock returns: a `datetime` in UTC. -/
structure Instant where
  dateTime : DateTime
  microsecond : Fin 1000000

namespace Instant

def microseconds (t : Instant) : ℤ := t.dateTime.microseconds t.microsecond

/-- `t.isoformat(timespec="milliseconds")`. -/
def isoformat (t : Instant) : Text :=
  t.dateTime.isoformat ++ ("." ++ (digitsText (fixedDigits 3 (t.microsecond / 1000)) ++ "+00:00"))

@[simp] theorem length_isoformat (t : Instant) : t.isoformat.length = 29 := by
  simp [isoformat, Text.ofString_eq]

end Instant

/-- The instant of a text that carries an offset. -/
def IsoDatetime.microseconds (d : IsoDatetime) (offset : ℤ) : ℤ :=
  d.dateTime.microseconds d.microsecond - offset

end Python
