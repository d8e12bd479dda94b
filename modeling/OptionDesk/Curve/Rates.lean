import OptionDesk.Curve.Build
import OptionDesk.DayCount.Elapsed
import OptionDesk.Interpolation

/-!
# Discount factors and rates

Discount factors between the nodes are found by interpolating their logarithms on a line that stays
level beyond the nodes. A curve with a flat rate follows it everywhere. A view divides the factor
at the shifted time by the factor at its own reference date.
-/

namespace OptionDesk

variable {α : Type} [Scalar α]

/-- The quotient of two numbers, unless the divisor is zero. -/
def Outcome.divide (x y : α) : Outcome α α :=
  if y == 0 then .fail (.misuse .divisionByZero) else pure (x / y)

namespace DiscountCurve

/-- The factor at a time, on the line through the logarithms of the nodes. -/
def interpolated (c : DiscountCurve α) (t : α) : α :=
  Scalar.exp (Point.interpolate (c.nodes.map fun n => ⟨n.time, Scalar.log n.factor⟩) t)

/-- Is some entry outside the range of the nodes? -/
def outside (first last : α) (ts : Table α) : Bool :=
  ts.entries.any fun t => decide (t < first) || decide (last < t)

/-- Factors at all entries of a table of times, with one warning if any is extrapolated. -/
def factorTable (c : DiscountCurve α) (ts : Table α) : Outcome α (Table α) :=
  match c.flatRate with
  | some rate => do
    let rate ← .ofMisuse rate.operand
    return ts.map (flatFactor rate)
  | none => match c.nodes with
    | [] => .fail (.misuse .noElements)
    | n :: rest => do
      let first := n.time
      let last := (rest.getLastD n).time
      if outside first last ts then Outcome.report (.warning (.extrapolated first last))
      return ts.map c.interpolated

/-- The factor at a time. -/
def factorAt (c : DiscountCurve α) (t : α) : Outcome α α := do
  match ← c.factorTable (.entry t) with
  | .entry p => return p
  | .rows _ => .fail (.misuse .wrongKind)

end DiscountCurve

namespace Curve

/-- Up to this time the zero yield is the one at this time. -/
def shortEnd : α := 1.0e-4

/-- Years between two values under the day count of the curve. -/
def yearFraction (c : Curve α) (s t : Value α) : Outcome α α := c.dayCount.yearFraction s t

/-- Years from the reference date to a date; a time is passed through. -/
def timeTo (c : Curve α) (moment : Value α) : Outcome α α :=
  c.dayCount.timeFrom (.dateTime c.reference) moment

/-- Years from the reference date of a curve to a later one. -/
def anchorTo (base : Curve α) (reference : DateTime) : Outcome α α :=
  base.yearFraction (.dateTime base.reference) (.dateTime reference)

/-- Where a view stands on its base. -/
def anchor : Curve α → Outcome α α
  | discount _ => .fail (.misuse .missingMember)
  | implied base reference => base.anchorTo reference

/-- The discount factor at a date or time. -/
def discountAt : Curve α → Value α → Outcome α α
  | discount c, moment => do c.factorAt (← (discount c).timeTo moment)
  | implied base reference, moment => do
    let anchor ← base.anchorTo reference
    let t ← (implied base reference).timeTo moment
    let far ← base.discountAt (.number (anchor + t))
    let near ← base.discountAt (.number anchor)
    Outcome.divide far near

/-- The continuously compounded yield to a date or time, computed from the discount factor. -/
def yieldFromFactor (c : Curve α) (moment : Value α) : Outcome α α := do
  let t ← c.timeTo moment
  let t := if t ≤ shortEnd then shortEnd else t
  let p ← c.discountAt (.number t)
  return -Scalar.log p / t

/-- The continuously compounded yield to a date or time. A flat curve has its rate everywhere. -/
def zeroYield : Curve α → Value α → Outcome α α
  | discount c, moment => match c.flatRate with
    | some rate => .ofMisuse rate.read
    | none => (discount c).yieldFromFactor moment
  | implied base reference, moment => (implied base reference).yieldFromFactor moment

/-- The continuously compounded rate between two dates or times. -/
def forwardRate (c : Curve α) (start finish : Value α) : Outcome α α := do
  let s ← c.timeTo start
  let t ← c.timeTo finish
  .require (¬t ≤ s) (.curve .emptyInterval)
  let p ← c.discountAt (.number s)
  let q ← c.discountAt (.number t)
  return (Scalar.log p - Scalar.log q) / (t - s)

end Curve

end OptionDesk
