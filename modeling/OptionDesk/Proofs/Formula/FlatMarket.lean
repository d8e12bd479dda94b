import OptionDesk.Proofs.Engine.Calculation
import OptionDesk.Proofs.Formula.Values

/-!
# Flat markets

A flat market has a flat curve for each of the two yields and a constant volatility. Terms of an
unexpired option on it are valid and real, and what the formula reads off them can be written down:
exponential factors, the two rates themselves, and the squared volatility times the time. The price
is then the formula in its classical parameters.
-/
namespace OptionDesk

open Exact

/-- Two flat curves, a constant volatility, and an option that has not expired. -/
structure FlatMarket where
  reference : DateTime
  maturity : DateTime
  spot : ℝ
  strike : ℝ
  riskFreeRate : ℝ
  dividendYield : ℝ
  level : ℝ
  unexpired : reference.before maturity = true
  spot_pos : 0 < spot
  strike_nonneg : 0 ≤ strike

namespace FlatMarket

/-- The market of an option on the year 2025. -/
def ofRates (spot strike riskFreeRate dividendYield level : ℝ) (hspot : 0 < spot)
    (hstrike : 0 ≤ strike) : FlatMarket where
  reference := Value.midnight ((Date.ofParts? 2025 1 1).get rfl)
  maturity := Value.midnight ((Date.ofParts? 2026 1 1).get rfl)
  spot := spot
  strike := strike
  riskFreeRate := riskFreeRate
  dividendYield := dividendYield
  level := level
  unexpired := by decide
  spot_pos := hspot
  strike_nonneg := hstrike

noncomputable section

variable (m : FlatMarket)

def time : ℝ := DayCount.Basis.actual365.years m.reference m.maturity

/-- A flat curve, with the nodes that it passes through at the reference date and after a year. -/
def curve (rate : ℝ) : Curve Exact :=
  .discount ⟨m.reference, [⟨real 0, real 1⟩, ⟨real 1, real (Real.exp (-rate))⟩],
    some (.number (real rate)), .standard⟩

def volatility : Volatility Exact := .constant m.reference (real m.level) .standard

/-- The terms of a European option on the market. -/
def terms (kind : OptionType) : Terms Exact :=
  { Terms.blank .plain with
    optionType := .optionType kind
    underlying := .number (real m.spot)
    strike := .number (real m.strike)
    dividendCurve := .curve (m.curve m.dividendYield)
    riskFreeCurve := .curve (m.curve m.riskFreeRate)
    volSurface := .volatility m.volatility
    maturity := .dateTime m.maturity }

theorem time_pos : 0 < m.time :=
  (DayCount.Basis.years_pos_iff (by decide) _ _).mpr m.unexpired

section Year

variable {spot strike riskFreeRate dividendYield level : ℝ} (hspot : 0 < spot) (hstrike : 0 ≤ strike)

/-- The year 2025 has 365 days. -/
theorem days_ofRates {b : DayCount.Basis} (hb : b.IsActual) :
    let m := ofRates spot strike riskFreeRate dividendYield level hspot hstrike
    b.days m.reference m.maturity = 365 := by
  have hdays : (Value.midnight ((Date.ofParts? 2025 1 1).get rfl)).microsecondsBetween
      (Value.midnight ((Date.ofParts? 2026 1 1).get rfl)) = 365 * 86400 * 10 ^ 6 := by
    decide
  intro m
  rw [DayCount.Basis.days_of_isActual hb, show m.reference.microsecondsBetween m.maturity = _ from hdays]
  norm_num

theorem time_ofRates :
    (ofRates spot strike riskFreeRate dividendYield level hspot hstrike).time = 1 := by
  rw [time, DayCount.Basis.years, days_ofRates hspot hstrike (by decide)]
  norm_num [DayCount.Basis.yearLength]

end Year

/-- What the formula reads off the terms. -/
def readings : Readings where
  spot := m.spot
  strike := m.strike
  time := m.time
  riskFreeFactor := Real.exp (-m.riskFreeRate * m.time)
  dividendFactor := Real.exp (-m.dividendYield * m.time)
  riskFreeRate := m.riskFreeRate
  dividendYield := m.dividendYield
  variance := m.level * m.level * m.time
  spot_pos := m.spot_pos
  strike_nonneg := m.strike_nonneg
  time_pos := m.time_pos
  riskFreeFactor_pos := Real.exp_pos _
  dividendFactor_pos := Real.exp_pos _
  variance_nonneg := mul_nonneg (mul_self_nonneg _) m.time_pos.le

end

variable (m : FlatMarket) (kind : OptionType)

theorem curve_isReal (rate : ℝ) : (m.curve rate).IsReal := by
  refine ⟨fun n hn => ?_, fun f hf => ⟨rate, ?_⟩⟩
  · simp only [List.mem_cons, List.not_mem_nil, or_false] at hn
    obtain rfl | rfl := hn
    · exact ⟨0, 1, one_pos, rfl⟩
    · exact ⟨1, Real.exp (-rate), Real.exp_pos _, rfl⟩
  · cases hf
    rfl

theorem hasFactors_curve (rate : ℝ) : (m.curve rate).HasFactors fun x => Real.exp (-rate * x) :=
  Curve.hasFactors_of_flatRate rfl

theorem hasRealMarket : (m.terms kind).HasRealMarket :=
  .of_parts rfl rfl rfl (m.curve_isReal _) (m.curve_isReal _) ⟨m.level, rfl⟩

theorem varianceAt (strike : Value Exact) :
    (m.volatility.varianceAt (.dateTime m.maturity) strike).result =
      .ok (real (m.level * m.level * m.time)) := by
  have htime : m.volatility.timeTo (.dateTime m.maturity) = pure (real m.time) :=
    Volatility.timeTo_dateTime rfl m.maturity
  have hreads : m.volatility.varianceAt (.dateTime m.maturity) strike =
      m.volatility.timeTo (.dateTime m.maturity) >>= fun t => pure (Volatility.total (real m.level) t) :=
    rfl
  rw [hreads, htime]
  rfl

theorem maturityTime : (m.terms kind).maturityTime.result = .ok (real m.time) :=
  congrArg Outcome.result (Curve.anchorTo_eq (c := m.curve m.riskFreeRate) rfl m.maturity)

theorem discountAt (rate : ℝ) : ((m.curve rate).discountAt (.dateTime m.maturity)).result =
    .ok (real (Real.exp (-rate * m.time))) :=
  (m.hasFactors_curve rate).factor_of_date rfl m.maturity

theorem reads : (m.terms kind).Reads m.readings where
  spot := rfl
  strike := rfl
  time := m.maturityTime kind
  riskFree := ⟨_, rfl, m.discountAt _, rfl⟩
  dividend := ⟨_, rfl, m.discountAt _, rfl⟩
  variance := ⟨_, rfl, m.varianceAt _⟩

theorem plainValid : (m.terms kind).PlainValid where
  optionType := ⟨kind, rfl⟩
  exercise := ⟨.european, rfl, .inl rfl⟩
  underlying := ⟨m.spot, m.spot_pos, rfl⟩
  strike := .inr ⟨m.strike, m.strike_nonneg, rfl⟩
  dividendCurve := ⟨_, rfl⟩
  riskFreeCurve := ⟨_, rfl⟩
  volSurface := ⟨_, rfl⟩
  maturity := ⟨_, rfl⟩
  maturityTime := ⟨m.time, m.time_pos, m.maturityTime kind⟩

theorem validate : (m.terms kind).validate.result = .ok () :=
  (Terms.validate_plain_eq_ok rfl).mpr (m.plainValid kind)

/-- The terms are priced at the formula on the classical parameters. -/
theorem priceAnalytically : (m.terms kind).priceAnalytically.result =
    .ok (m.readings.inputs.greeks kind).results :=
  (m.reads kind).priceAnalytically (m.validate kind) rfl rfl

/-- An engine of the formula whose own terms these are calculates. -/
theorem calculate [NormalSource Exact] {d : Desk Exact} {p : ℕ}
    (h : (d.get p).terms = m.terms kind) :
    ((Engine.analytic p).calculate.run d).1.result = .ok () := by
  rw [(Engine.publishes_analytic p d).ends, Outcome.result_map, Engine.quotation, h,
    m.priceAnalytically]
  rfl

end FlatMarket

end OptionDesk
