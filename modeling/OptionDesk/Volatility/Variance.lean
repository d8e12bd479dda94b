import OptionDesk.DayCount.Elapsed
import OptionDesk.Volatility.Surface

/-!
# Volatility and total variance

Total variance is the square of the volatility times the time. A view has the forward variance of
its base: the variance to the shifted time less the variance to the reference date of the view.
A forward variance below zero by more than rounding is an error.
-/

namespace OptionDesk

namespace Volatility

variable {α : Type} [Scalar α]

/-- Up to this time the volatility of a view is the one at this time. -/
def shortEnd : α := 1.0e-4

def yearFraction (v : Volatility α) (s t : Value α) : Outcome α α := v.dayCount.yearFraction s t

/-- Years from the reference date to a date; a time is passed through. -/
def timeTo (v : Volatility α) (moment : Value α) : Outcome α α :=
  v.dayCount.timeFrom (.dateTime v.reference) moment

/-- Years from the reference date of a structure to a later one. -/
def anchorTo (base : Volatility α) (reference : DateTime) : Outcome α α :=
  base.yearFraction (.dateTime base.reference) (.dateTime reference)

/-- Where a view stands on its base. -/
def anchor : Volatility α → Outcome α α
  | implied base reference => base.anchorTo reference
  | _ => .fail (.misuse .missingMember)

/-- Total variance of a volatility over a time. -/
def total (volatility time : α) : α := volatility * volatility * time

/-- The total variance to a date or time at a strike. -/
def varianceAt : Volatility α → Value α → Value α → Outcome α α
  | constant reference level dayCount, moment, _ => do
    let t ← (constant reference level dayCount).timeTo moment
    return total level t
  | surface s, moment, strike => do
    let t ← (surface s).timeTo moment
    let v ← s.query strike (.number t)
    return total v t
  | implied base reference, moment, strike => do
    let anchor ← base.anchorTo reference
    let t ← (implied base reference).timeTo moment
    let far ← base.varianceAt (.number (anchor + t)) strike
    let near ← base.varianceAt (.number anchor) strike
    let variance := far - near
    .require (¬variance < -1e-14) (.volatility (.negativeForwardVariance variance t strike))
    return max variance 0

/-- The volatility to a date or time at a strike. -/
def levelAt : Volatility α → Value α → Value α → Outcome α α
  | constant _ level _, _, _ => pure level
  | surface s, moment, strike => do
    let t ← (surface s).timeTo moment
    s.query strike (.number t)
  | implied base reference, moment, strike => do
    let t ← (implied base reference).timeTo moment
    let t := max t shortEnd
    let variance ← (implied base reference).varianceAt (.number t) strike
    return Scalar.sqrt (variance / t)

end Volatility

end OptionDesk
