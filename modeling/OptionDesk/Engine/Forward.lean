import OptionDesk.Engine.Desk
import OptionDesk.Volatility.Build

/-!
# Forward-start options

A forward-start option has its strike fixed at a reset date, as a multiple of the underlying. Its
decorator prices the plain option that lives from the reset date on, with the market seen from
there, and maps the results back to today. A performance option pays in shares of the underlying at
the reset date.

The decorator of an amount resets the engine it prices through before anything else; that of a
performance does not. Results that the other engine does not give stay null.
-/

namespace OptionDesk

variable {α : Type} [Scalar α]

namespace Value

/-- A curve seen from a date. -/
def curveFrom (v date : Value α) : Outcome α (Value α) := do
  let c ← v.asCurve
  return .curve (← c.impliedAt date)

/-- A volatility seen from a date. -/
def volatilityFrom (v date : Value α) : Outcome α (Value α) := do
  let s ← v.asVolatility
  return .volatility (← s.impliedAt date)

/-- The product of a number and a result, if there is one. -/
def scaled (factor : α) : Value α → Outcome α (Value α)
  | .null => pure .null
  | v => do
    let x ← .ofMisuse v.operand
    return .number (factor * x)

/-- The product of a number and a result, if there is one, on top of another number. -/
def shifted (shift factor : α) : Value α → Outcome α (Value α)
  | .null => pure .null
  | v => do
    let x ← .ofMisuse v.operand
    return .number (shift + factor * x)

end Value

namespace Terms

/-- The plain option that lives from the reset date on, struck at a multiple of the underlying. -/
def equivalent (t : Terms α) : Outcome α (Terms α) := do
  let strike ← .ofMisuse (t.moneyness.times t.underlying)
  let dividendCurve ← t.dividendCurve.curveFrom t.resetDate
  let riskFreeCurve ← t.riskFreeCurve.curveFrom t.resetDate
  let volSurface ← t.volSurface.volatilityFrom t.resetDate
  return { Terms.blank .plain with
    optionType := t.optionType
    underlying := t.underlying
    strike
    dividendCurve
    riskFreeCurve
    volSurface
    exerciseType := t.exerciseType
    stoppingTimes := t.stoppingTimes
    maturity := t.maturity }

/-- The terms with all fields of a plain option taken from others. -/
def loaded (t plain : Terms α) : Terms α :=
  { plain with form := t.form, moneyness := t.moneyness, resetDate := t.resetDate }

end Terms

/-- A value that the other engine must have produced. -/
def Results.requireValue (r : Results α) (engine : EngineClass) : Outcome α α :=
  match r.value with
  | .null => .fail (.engine (.noValue engine))
  | v => .ofMisuse v.operand

/-- Delta with the sensitivity to the strike taken in, if there are both. -/
def Terms.strikeDelta (t : Terms α) (discount : α) (r : Results α) : Outcome α (Value α) :=
  match r.delta, r.strikeSensitivity with
  | .null, _ | _, .null => pure .null
  | delta, sensitivity => do
    let delta ← .ofMisuse delta.operand
    let moneyness ← .ofMisuse t.moneyness.operand
    let sensitivity ← .ofMisuse sensitivity.operand
    return .number (discount * (delta + moneyness * sensitivity))

/-- The results of an amount: discounted by the dividends up to the reset date. The strike moves with
the underlying, so delta takes in the sensitivity to the strike and gamma vanishes. -/
def Terms.amountResults (t : Terms α) (engine : EngineClass) (r : Results α) :
    Outcome α (Results α) := do
  let resetTime ← t.resetTime
  let dividend ← t.dividendCurve.asCurve
  let discount ← dividend.discountAt t.resetDate
  let value := discount * (← r.requireValue engine)
  let delta ← t.strikeDelta discount r
  let dividendRho ← r.dividendRho.shifted (-resetTime * value) discount
  let yield ← dividend.zeroYield t.resetDate
  let vega ← r.vega.scaled discount
  let rho ← r.rho.scaled discount
  let errorEstimate ← r.errorEstimate.scaled discount
  return { Results.blank with
    value := .number value
    delta
    gamma := .number 0
    theta := .number (yield * value)
    vega, rho, dividendRho, errorEstimate }

/-- The results of a performance: discounted at the risk-free rate up to the reset date, and divided
by the underlying, of which the price is then independent. -/
def Terms.performanceResults (t : Terms α) (engine : EngineClass) (r : Results α) :
    Outcome α (Results α) := do
  let resetTime ← t.resetTime
  let riskFree ← t.riskFreeCurve.asCurve
  let factor ← riskFree.discountAt t.resetDate
  let discount ← Outcome.divide factor (← .ofMisuse t.underlying.operand)
  let value := discount * (← r.requireValue engine)
  let rho ← r.rho.shifted (-resetTime * value) discount
  let yield ← riskFree.zeroYield t.resetDate
  let vega ← r.vega.scaled discount
  let dividendRho ← r.dividendRho.scaled discount
  let errorEstimate ← r.errorEstimate.scaled discount
  return { Results.blank with
    value := .number value
    delta := .number 0
    gamma := .number 0
    theta := .number (yield * value)
    vega, rho, dividendRho, errorEstimate }

/-- The results of a decorated option. -/
def Terms.forwardResults (t : Terms α) (style : ForwardStyle) (engine : EngineClass)
    (r : Results α) : Outcome α (Results α) :=
  match style with
  | .amount => t.amountResults engine r
  | .performance => t.performanceResults engine r

/-- Log the price of a decorated option. -/
def Terms.reportForward (t : Terms α) (style : ForwardStyle) (r : Results α) : Outcome α Unit :=
  match t.resetDate, t.moneyness.read, r.value with
  | .dateTime reset, .ok moneyness, .figure (.number value) =>
    .report (.record (.forwardPriced style reset moneyness value))
  | _, _, _ => pure ()

namespace Engine

/-- Load the equivalent plain option into the terms of the engine that is priced through. -/
def loadInner (e inner : Engine α) : DeskSession α Unit := do
  e.validate
  let c ← e.cell
  let plain ← .lift c.terms.equivalent
  inner.change fun c => { c with terms := c.terms.loaded plain }
  inner.validate

/-- Take over the results of the engine that is priced through. -/
def takeResults (e : Engine α) (style : ForwardStyle) (inner : Engine α) :
    DeskSession α Unit := do
  let c ← e.cell
  let o ← inner.cell
  let results ← .lift <| c.terms.forwardResults style inner.engineClass o.results
  e.setResults results

def reportForward (e : Engine α) (style : ForwardStyle) : DeskSession α Unit := do
  let c ← e.cell
  .lift <| c.terms.reportForward style c.results

variable [NormalSource α]

/-- Price the terms and publish the results. -/
def calculate : Engine α → DeskSession α Unit
  | analytic place => do
    let c ← (analytic place).cell
    let results ← .lift c.terms.priceAnalytically
    (analytic place).setResults results
  | monteCarlo place settings => do
    let c ← (monteCarlo place settings).cell
    let results ← .lift <| c.terms.priceBySimulation settings
    (monteCarlo place settings).setResults results
  | fixed place => do
    (fixed place).validate
    (fixed place).change fun c => { c with calculations := c.calculations + 1 }
    let c ← (fixed place).cell
    (fixed place).publish c.fixed
  | custom place name rule => do
    let e := custom place name rule
    e.validate
    let c ← e.cell
    let values ← .lift (rule c.terms)
    e.publish values
  | other _ _ _ => pure ()
  | decorator place style inner => do
    let e := decorator place style inner
    if style = .amount then inner.reset
    e.loadInner inner
    inner.calculate
    e.takeResults style inner
    e.change fun c => { c with ready := true }
    e.reportForward style

end Engine

end OptionDesk
