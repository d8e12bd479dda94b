import OptionDesk.Curve.Basic
import OptionDesk.Outcome
import OptionDesk.Table

/-!
# Building discount curves

A curve is built from nodes, from zero rates or from one flat rate. Nodes must be at increasing
times and their factors positive; factors above one are allowed but reported. A flat rate is
accepted only if the nodes follow it.
-/

namespace OptionDesk

/-- Evenly spaced numbers: the two ends of a range and the points between its equal intervals. -/
def evenGrid {α : Type} [Scalar α] (first last : α) : Nat → List α
  | 0 => [first]
  | n + 1 =>
    let step := (last - first) / ((n + 1 : Nat) : α)
    (List.range (n + 1)).map (fun (i : Nat) => (i : α) * step + first) ++ [last]

/-- A reference date must be a point in time. -/
def Value.referenceDate {α : Type} : Value α → Outcome α DateTime
  | .dateTime t => pure t
  | v => .fail (.referenceNotDateTime v.shape)

namespace DiscountCurve

variable {α : Type} [Scalar α]

/-- No number of the list is followed by one that is not greater. -/
def increasing : List α → Bool
  | x :: y :: rest => !decide (y - x ≤ 0) && increasing (y :: rest)
  | _ => true

/-- The factor at a time under a constant rate. -/
def flatFactor (rate time : α) : α := Scalar.exp (-rate * time)

/-- Do all nodes follow the flat rate? -/
def followsRate (nodes : List (Node α)) (rate : α) : Bool :=
  nodes.all fun n => Scalar.isClose 1e-10 1e-12 n.factor (flatFactor rate n.time)

/-- The flat rate that may come with the nodes: a finite number that they follow. -/
def checkFlatRate (nodes : List (Node α)) : Value α → Outcome α (Option (Figure α))
  | .null => pure none
  | .figure f => do
    let rate ← .ofMisuse f.read
    .require (Scalar.isFinite rate) (.curve .flatRateNotFinite)
    .require (followsRate nodes rate) (.curve .flatRateInconsistent)
    return some f
  | _ => .fail (.misuse .wrongKind)

/-- A curve through checked nodes. -/
def ofNodes (reference : DateTime) (nodes : List (Node α)) (flatRate : Value α)
    (dayCount : DayCount) : Outcome α (DiscountCurve α) := do
  .require (increasing (nodes.map Node.time)) (.curve .timesNotIncreasing)
  .require (nodes.all fun n => !decide (n.factor ≤ 0)) (.curve .factorNotPositive)
  if nodes.any fun n => decide (1 + 1e-12 < n.factor) then
    Outcome.report (.warning .factorAboveOne)
  let rate ← checkFlatRate nodes flatRate
  return ⟨reference, nodes, rate, dayCount⟩

/-- A curve from a list of times and one of factors. -/
def ofPoints (reference times factors flatRate : Value α) (dayCount : DayCount) :
    Outcome α (DiscountCurve α) := do
  let reference ← reference.referenceDate
  let times ← Outcome.ofMisuse times.table
  let factors ← Outcome.ofMisuse factors.table
  match times.vector?, factors.vector? with
  | some times, some factors =>
    .require (times.length = factors.length) (.curve .shapeMismatch)
    ofNodes reference (List.zipWith Node.mk times factors) flatRate dayCount
  | _, _ => .fail (.curve .shapeMismatch)

/-- A curve from continuously compounded zero rates, the first of which is at time zero. -/
def ofZeroRates (reference times rates : Value α) (dayCount : DayCount) :
    Outcome α (DiscountCurve α) := do
  let times ← Outcome.ofMisuse times.table
  let rates ← Outcome.ofMisuse rates.table
  match times.vector?, rates.vector? with
  | some times, some rates =>
    .require (times.length = rates.length) (.curve .lengthMismatch)
    match times with
    | first :: _ :: _ =>
      .require (Scalar.isClose 1e-5 1e-8 first 0) (.curve .startNotZero)
      let reference ← reference.referenceDate
      ofNodes reference (List.zipWith (fun t z => ⟨t, flatFactor z t⟩) times rates) .null dayCount
    | _ => .fail (.curve .tooFewTimes)
  | _, _ => .fail (.curve .notOneDimensional)

/-- A curve at one rate, with nodes that divide the time up to its end into equal steps. -/
def flat (reference rate endTime : Value α) (steps : α) (dayCount : DayCount) :
    Outcome α (DiscountCurve α) := do
  let endTime ← Outcome.ofMisuse endTime.operand
  .require (¬endTime ≤ 0) (.curve .endNotPositive)
  .require (¬steps < 1) (.curve .stepsBelowOne)
  let rate ← Outcome.ofMisuse rate.read
  let reference ← reference.referenceDate
  let times := evenGrid 0 endTime (Scalar.trunc steps).toNat
  ofNodes reference (times.map fun t => ⟨t, flatFactor rate t⟩) (.number rate) dayCount

end DiscountCurve

namespace Curve

variable {α : Type}

/-- The view of a curve from a reference date that is not before its own. -/
def impliedAt (base : Curve α) (reference : Value α) : Outcome α (Curve α) := do
  let reference ← reference.referenceDate
  .require (¬reference.before base.reference) (.curve .precedesBase)
  return .implied base reference

end Curve

end OptionDesk
