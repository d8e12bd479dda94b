import OptionDesk.Outcome

/-!
# Elapsed time between values

Year fractions of whatever a client gives as dates. The day count is checked before the dates are
looked at. The actual bases take the difference of two points in time or of two days, but not of
one of each; the 30/360 basis needs only the calendar date, which both kinds have.
-/

namespace OptionDesk

namespace Value

variable {α : Type}

/-- The calendar date of a value that has one. -/
def date? : Value α → Option Date
  | dateTime t => some t.date
  | day d => some d
  | _ => none

def midnight (d : Date) : DateTime := ⟨d, 0, by decide⟩

/-- Two dates whose difference is a span of time. The difference of two figures that count is a
number, which has no length in seconds; other differences do not exist. -/
def span (s t : Value α) : Except Misuse (DateTime × DateTime) :=
  match s, t with
  | dateTime s, dateTime t => .ok (s, t)
  | day s, day t => .ok (midnight s, midnight t)
  | figure (.text _), _ | _, figure (.text _) => .error .wrongKind
  | figure _, figure _ => .error .missingMember
  | _, _ => .error .wrongKind

end Value

namespace DayCount

variable {α : Type} [Scalar α]

def Basis.between (basis : Basis) (s t : Value α) : Except Misuse α :=
  match basis with
  | .thirty360 => match s.date?, t.date? with
    | some s, some t => .ok (thirtyFraction s t)
    | _, _ => .error .missingMember
  | basis => (s.span t).map fun (s, t) => basis.yearFraction s t

/-- The year fraction between two values. -/
def yearFraction (dayCount : DayCount) (s t : Value α) : Outcome α α :=
  match dayCount with
  | .basis b => .ofMisuse (b.between s t)
  | .unsupported name => .fail (.dayCount name)

/-- Years from a reference to a point in time; a time in years is passed through as a number. -/
def timeFrom (dayCount : DayCount) (reference moment : Value α) : Outcome α α :=
  match moment with
  | .dateTime _ => dayCount.yearFraction reference moment
  | _ => .ofMisuse moment.read

@[simp] theorem timeFrom_number (dayCount : DayCount) (reference : Value α) (t : α) :
    dayCount.timeFrom reference (.number t) = pure t := rfl

theorem yearFraction_dateTime (b : Basis) (s t : DateTime) :
    (DayCount.basis b).yearFraction (.dateTime s : Value α) (.dateTime t) =
      pure (b.yearFraction s t) := by
  cases b <;> rfl

end DayCount

end OptionDesk
