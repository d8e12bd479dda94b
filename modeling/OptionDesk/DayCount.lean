import OptionDesk.Scalar
import OptionDesk.Calendar

/-!
# Day counts

Year fractions between two points in time. The three actual bases measure the elapsed time to the
microsecond and divide by the length of their year. The 30/360 basis counts months of thirty days
and looks at the dates alone.
-/

namespace OptionDesk

namespace DayCount

inductive Basis
  | actual360
  | actual365
  | actual36525
  | thirty360
deriving DecidableEq

/-- Elapsed time in days: an exact count of microseconds, rounded once to seconds. -/
def elapsedDays {α : Type} [Scalar α] (s t : DateTime) : α :=
  Scalar.ofDecimal (s.microsecondsBetween t) 6 / 86400.0

/-- Days between two dates in months of thirty days. A start on the 31st counts as the 30th, and an
end on the 31st does when the start is on the 30th or later. -/
def thirtyDays (s t : Date) : Int :=
  let startDay := if s.day = 31 then 30 else s.day
  let endDay := if t.day = 31 ∧ startDay = 30 then 30 else t.day
  360 * ((t.year : Int) - s.year) + 30 * ((t.month : Int) - s.month) + ((endDay : Int) - startDay)

/-- Fraction of a year between two dates in months of thirty days. -/
def thirtyFraction {α : Type} [Scalar α] (s t : Date) : α := (thirtyDays s t : α) / 360.0

def Basis.yearFraction {α : Type} [Scalar α] (basis : Basis) (s t : DateTime) : α :=
  match basis with
  | .actual360 => elapsedDays s t / 360.0
  | .actual365 => elapsedDays s t / 365.0
  | .actual36525 => elapsedDays s t / 365.25
  | .thirty360 => thirtyFraction s.date t.date

end DayCount

open DayCount

/-- The day count of a term structure. A name that stands for no basis is kept, and refused only
when a year fraction is asked for. -/
inductive DayCount
  | basis (b : Basis)
  | unsupported (name : Option String)
deriving DecidableEq

namespace DayCount

def standard : DayCount := .basis .actual365

def Basis.name : Basis → String
  | .actual360 => "ACT/360"
  | .actual365 => "ACT/365F"
  | .actual36525 => "ACT/365.25"
  | .thirty360 => "30/360 US"

def ofName (name : Option String) : DayCount :=
  match [Basis.actual360, .actual365, .actual36525, .thirty360].find? (some ·.name = name) with
  | some b => .basis b
  | none => .unsupported name

def name : DayCount → Option String
  | .basis b => some b.name
  | .unsupported n => n

end DayCount

end OptionDesk
