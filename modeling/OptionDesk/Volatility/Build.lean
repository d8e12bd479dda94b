import OptionDesk.Curve.Build
import OptionDesk.Volatility.Scattered

/-!
# Building volatility structures

A constant volatility is finite and not negative. The quotes of a surface are checked one by one
before the surface itself, which needs at least one.
-/

namespace OptionDesk

variable {α : Type} [Scalar α]

namespace Quote

def ofValues (strike expiry volatility : Value α) : Outcome α (Quote α) := do
  let strike ← .ofMisuse strike.operand
  .require (¬strike ≤ 0) (.volatility .strikeNotPositive)
  let expiry ← .ofMisuse expiry.operand
  .require (¬expiry ≤ 0) (.volatility .expiryNotPositive)
  let volatility ← .ofMisuse volatility.operand
  .require (¬volatility < 0) (.volatility .negativeQuote)
  return ⟨strike, expiry, volatility⟩

end Quote

namespace Volatility

def ofLevel (reference level : Value α) (dayCount : DayCount) : Outcome α (Volatility α) := do
  let reference ← reference.referenceDate
  let level ← Outcome.ofMisuse level.read
  .require (Scalar.isFinite level ∧ ¬level < 0) (.volatility .invalidLevel)
  return .constant reference level dayCount

/-- A surface through quotes, with given rules between scattered ones. -/
def ofQuotesWith (rules : SurfaceMethod → ScatteredRule α) (reference : Value α)
    (quotes : List (Quote α)) (method : SurfaceMethod) (dayCount : DayCount) :
    Outcome α (Volatility α) := do
  .require (quotes ≠ []) (.volatility .noQuotes)
  let reference ← reference.referenceDate
  return .surface ⟨reference, quotes, method, dayCount, rules⟩

def ofQuotes : Value α → List (Quote α) → SurfaceMethod → DayCount → Outcome α (Volatility α) :=
  ofQuotesWith Scattered.rule

/-- The view of a structure from a reference date that is not before its own. -/
def impliedAt (base : Volatility α) (reference : Value α) : Outcome α (Volatility α) := do
  let reference ← reference.referenceDate
  .require (¬reference.before base.reference) (.volatility .precedesBase)
  return .implied base reference

end Volatility

end OptionDesk
