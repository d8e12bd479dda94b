import OptionDesk.Results
import OptionDesk.Terms

/-!
# The closed formula

Value and sensitivities of a European option under a lognormal price with a continuous dividend
yield. Rates are zero yields to maturity and the total variance is the one at the strike. Without
variance, or without a strike, the option is exercised for certain or not at all, and in between
when the forward price equals the strike.
-/

namespace OptionDesk

variable {α : Type} [Scalar α]

/-- An argument of the normal distribution: a number, or a limit beyond all numbers. -/
inductive Score (α : Type)
  | finite (x : α)
  | above
  | below

namespace Score

def neg : Score α → Score α
  | finite x => finite (-x)
  | above => below
  | below => above

def cdf : Score α → α
  | finite x => Scalar.normalCdf x
  | above => 1
  | below => 0

def density : Score α → α
  | finite x => Scalar.normalDensity x
  | _ => 0

end Score

/-- What the formula reads off the terms of an option. -/
structure AnalyticInputs (α : Type) where
  spot : α
  strike : α
  volatility : α
  time : α
  riskFreeFactor : α
  dividendFactor : α
  riskFreeRate : α
  dividendYield : α
  d1 : Score α
  d2 : Score α

namespace AnalyticInputs

/-- The two arguments of the normal distribution, from the forward price and the standard deviation
of its logarithm. -/
def scores (forward strike deviation : α) : Score α × Score α :=
  if deviation < 1e-300 ∨ (strike == 0) = true then
    if strike < forward then (.above, .above)
    else if forward < strike then (.below, .below)
    else (.finite 0, .finite 0)
  else
    let d1 := (Scalar.log (forward / strike) + 0.5 * Scalar.square deviation) / deviation
    (.finite d1, .finite (d1 - deviation))

end AnalyticInputs

/-- A curve of the terms, where one has been checked. -/
def Value.asCurve : Value α → Outcome α (Curve α)
  | .curve c => pure c
  | _ => .fail (.misuse .missingMember)

/-- A volatility of the terms, where one has been checked. -/
def Value.asVolatility : Value α → Outcome α (Volatility α)
  | .volatility v => pure v
  | _ => .fail (.misuse .missingMember)

namespace Terms

/-- Read the inputs of the closed formula. -/
def analyticInputs (t : Terms α) : Outcome α (AnalyticInputs α) := do
  let spot ← .ofMisuse t.underlying.read
  let strike ← .ofMisuse t.strike.read
  let time ← t.maturityTime
  let riskFree ← t.riskFreeCurve.asCurve
  let dividend ← t.dividendCurve.asCurve
  let volatility ← t.volSurface.asVolatility
  let riskFreeFactor ← riskFree.discountAt t.maturity
  let dividendFactor ← dividend.discountAt t.maturity
  let variance ← volatility.varianceAt t.maturity (.number strike)
  .require (¬variance < 0) (.engine .negativeVariance)
  let deviation := Scalar.sqrt variance
  let forward ← Outcome.divide (spot * dividendFactor) riskFreeFactor
  let (d1, d2) := AnalyticInputs.scores forward strike deviation
  let riskFreeRate ← riskFree.zeroYield t.maturity
  let dividendYield ← dividend.zeroYield t.maturity
  return { spot, strike, time, riskFreeFactor, dividendFactor, riskFreeRate, dividendYield, d1, d2
           volatility := deviation / Scalar.sqrt time }

end Terms

/-- The numbers that the closed formula gives. -/
structure AnalyticGreeks (α : Type) where
  value : α
  delta : α
  gamma : α
  theta : α
  vega : α
  rho : α
  dividendRho : α
  strikeSensitivity : α

namespace AnalyticInputs

variable (i : AnalyticInputs α)

def deviation : α := i.volatility * Scalar.sqrt i.time

def gamma : α :=
  if 0 < i.deviation then i.dividendFactor * i.d1.density / (i.spot * i.deviation) else 0

def vega : α := i.spot * i.dividendFactor * i.d1.density * Scalar.sqrt i.time

/-- The part of theta that is the loss of optionality. -/
def decay : α :=
  -(i.spot * i.dividendFactor * i.d1.density * i.volatility) / (2.0 * Scalar.sqrt i.time)

def call : AnalyticGreeks α :=
  let n1 := i.d1.cdf
  let n2 := i.d2.cdf
  { value := i.spot * i.dividendFactor * n1 - i.strike * i.riskFreeFactor * n2
    delta := i.dividendFactor * n1
    gamma := i.gamma
    theta := i.decay - i.riskFreeRate * i.strike * i.riskFreeFactor * n2
      + i.dividendYield * i.spot * i.dividendFactor * n1
    vega := i.vega
    rho := i.strike * i.time * i.riskFreeFactor * n2
    dividendRho := -i.spot * i.time * i.dividendFactor * n1
    strikeSensitivity := -i.riskFreeFactor * n2 }

def put : AnalyticGreeks α :=
  let n1 := i.d1.neg.cdf
  let n2 := i.d2.neg.cdf
  { value := i.strike * i.riskFreeFactor * n2 - i.spot * i.dividendFactor * n1
    delta := -i.dividendFactor * n1
    gamma := i.gamma
    theta := i.decay + i.riskFreeRate * i.strike * i.riskFreeFactor * n2
      - i.dividendYield * i.spot * i.dividendFactor * n1
    vega := i.vega
    rho := -i.strike * i.time * i.riskFreeFactor * n2
    dividendRho := i.spot * i.time * i.dividendFactor * n1
    strikeSensitivity := i.riskFreeFactor * n2 }

def greeks (kind : OptionType) : AnalyticGreeks α :=
  match kind with
  | .call => i.call
  | .put => i.put

end AnalyticInputs

namespace AnalyticGreeks

def results (g : AnalyticGreeks α) : Results α :=
  { Results.blank with
    value := .number g.value
    delta := .number g.delta
    gamma := .number g.gamma
    theta := .number g.theta
    vega := .number g.vega
    rho := .number g.rho
    dividendRho := .number g.dividendRho
    strikeSensitivity := .number g.strikeSensitivity }

end AnalyticGreeks

namespace Terms

/-- Price checked terms of a European option. -/
def priceAnalytically (t : Terms α) : Outcome α (Results α) := do
  t.validate
  let exercise ← t.exercise
  .require (exercise = .european) (.engine (.exerciseNotEuropean .analytic exercise))
  let i ← t.analyticInputs
  let kind := match t.optionType with
    | .optionType kind => kind
    | _ => .put
  let g := i.greeks kind
  .report (.record (.analyticPriced kind i.spot i.strike i.time i.volatility g.value))
  return g.results

end Terms

end OptionDesk
