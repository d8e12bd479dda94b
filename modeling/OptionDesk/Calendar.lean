/-!
# Calendar

Dates of the Gregorian calendar, extended backward to year one, and points in time on them with a
resolution of one microsecond. Both carry their validity, so a date that exists can be counted:
`Date.ordinal` numbers the days from the first of January of year one, and `DateTime.instant` the
microseconds from the same origin.
-/

namespace OptionDesk

namespace Calendar

/-- Every fourth year is a leap year, except the centuries that 400 does not divide. -/
def isLeap (year : Nat) : Bool := year % 4 == 0 && (year % 100 != 0 || year % 400 == 0)

def daysInMonth (year month : Nat) : Nat :=
  if month = 2 then (if isLeap year then 29 else 28)
  else if month = 4 ∨ month = 6 ∨ month = 9 ∨ month = 11 then 30
  else 31

/-- Days of the year that precede a month. -/
def daysBeforeMonth (year : Nat) : Nat → Nat
  | 0 => 0
  | 1 => 0
  | month + 2 => daysBeforeMonth year (month + 1) + daysInMonth year (month + 1)

/-- Days that precede a year, counted from year one. -/
def daysBeforeYear (year : Nat) : Nat :=
  let past := year - 1
  365 * past + past / 4 + past / 400 - past / 100

def microsecondsPerDay : Nat := 86400000000

end Calendar

open Calendar

structure Date where
  year : Nat
  month : Nat
  day : Nat
  year_range : 1 ≤ year ∧ year ≤ 9999
  month_range : 1 ≤ month ∧ month ≤ 12
  day_range : 1 ≤ day ∧ day ≤ daysInMonth year month
deriving DecidableEq

namespace Date

def ofParts? (year month day : Nat) : Option Date :=
  if h : (1 ≤ year ∧ year ≤ 9999) ∧ (1 ≤ month ∧ month ≤ 12) ∧
      (1 ≤ day ∧ day ≤ daysInMonth year month) then
    some ⟨year, month, day, h.1, h.2.1, h.2.2⟩
  else none

/-- Number of the day, the first of January of year one being number one. -/
def ordinal (d : Date) : Nat :=
  daysBeforeYear d.year + daysBeforeMonth d.year d.month + d.day

end Date

/-- A point in time: a date and the microseconds since its midnight. -/
structure DateTime where
  date : Date
  microsecond : Nat
  microsecond_lt : microsecond < microsecondsPerDay
deriving DecidableEq

namespace DateTime

def ofParts? (date : Date) (microsecond : Nat) : Option DateTime :=
  if h : microsecond < microsecondsPerDay then some ⟨date, microsecond, h⟩ else none

/-- Microseconds from the midnight before year one. -/
def instant (t : DateTime) : Nat := t.date.ordinal * microsecondsPerDay + t.microsecond

def before (s t : DateTime) : Bool := s.instant < t.instant

/-- Microseconds from `s` to `t`, negative when `t` comes first. -/
def microsecondsBetween (s t : DateTime) : Int := (t.instant : Int) - s.instant

theorem before_eq_false {s t : DateTime} : s.before t = false ↔ t.instant ≤ s.instant := by
  simp [before]

theorem before_self (s : DateTime) : s.before s = false := before_eq_false.mpr (Nat.le_refl _)

theorem before_trans {r s t : DateTime} (hsr : s.before r = false) (hts : t.before s = false) :
    t.before r = false :=
  before_eq_false.mpr (Nat.le_trans (before_eq_false.mp hsr) (before_eq_false.mp hts))

end DateTime

end OptionDesk
