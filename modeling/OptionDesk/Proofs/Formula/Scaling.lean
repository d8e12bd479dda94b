import OptionDesk.Proofs.Engine.Published
import OptionDesk.Proofs.Formula.Consistency

/-!
# The formula on a scaled underlying

When an underlying and a strike are multiplied by one positive number, and the volatility does not look
at the strike, the forward price keeps its distance from the strike. Readings of such terms differ in the
two prices alone, so the formula multiplies amounts of money by the number and keeps all rates of change
of one price with another.
-/
namespace OptionDesk

open Exact

/-- A result that is multiplied by `c`, or missing from both. -/
def Value.Scales (c : ℝ) (v w : Value Exact) : Prop :=
  (v = .null ∧ w = .null) ∨ ∃ x : ℝ, v = .number (real x) ∧ w = .number (real (c * x))

theorem Value.scales_null (c : ℝ) : Value.Scales c .null .null := .inl ⟨rfl, rfl⟩

theorem Value.scales_number (c x : ℝ) :
    Value.Scales c (.number (real x)) (.number (real (c * x))) := .inr ⟨x, rfl, rfl⟩

/-- What becomes of results when the prices are multiplied by `c`. -/
structure Results.Scales (c : ℝ) (r r' : Results Exact) : Prop where
  value : r.value.Scales c r'.value
  theta : r.theta.Scales c r'.theta
  vega : r.vega.Scales c r'.vega
  rho : r.rho.Scales c r'.rho
  dividendRho : r.dividendRho.Scales c r'.dividendRho
  errorEstimate : r.errorEstimate.Scales c r'.errorEstimate
  delta : r'.delta = r.delta
  strikeSensitivity : r'.strikeSensitivity = r.strikeSensitivity

/-! ## Volatilities -/

/-- Neither the variance nor the volatility depends on a strike, as long as it is positive. -/
structure Volatility.IgnoresStrike (v : Volatility Exact) : Prop where
  variance : ∀ moment (k k' : ℝ) w, 0 < k → 0 < k' →
    (v.varianceAt moment (.number (real k))).result = .ok w →
    (v.varianceAt moment (.number (real k'))).result = .ok w
  level : ∀ moment (k k' : ℝ) w, 0 < k → 0 < k' →
    (v.levelAt moment (.number (real k))).result = .ok w →
    (v.levelAt moment (.number (real k'))).result = .ok w

theorem Volatility.ignoresStrike_constant (reference : DateTime) (level : Exact)
    (dayCount : DayCount) : (constant reference level dayCount).IgnoresStrike :=
  ⟨fun _ _ _ _ _ _ h => h, fun _ _ _ _ _ _ h => h⟩

/-- A view looks at the strike only through its base. -/
theorem Volatility.IgnoresStrike.implied {base : Volatility Exact} (h : base.IgnoresStrike)
    (r : DateTime) : (implied base r).IgnoresStrike := by
  have hvariance (moment : Value Exact) (k k' : ℝ) (w : Exact) (hk : 0 < k) (hk' : 0 < k')
      (hw : ((Volatility.implied base r).varianceAt moment (.number (real k))).result = .ok w) :
      ((Volatility.implied base r).varianceAt moment (.number (real k'))).result = .ok w := by
    obtain ⟨a, t, far, near, ha, ht, hfar, hnear, hkept, hw⟩ := varianceAt_implied_eq_ok.mp hw
    exact varianceAt_implied_eq_ok.mpr ⟨a, t, far, near, ha, ht, h.variance _ k k' far hk hk' hfar,
      h.variance _ k k' near hk hk' hnear, hkept, hw⟩
  refine ⟨hvariance, fun moment k k' w hk hk' hw => ?_⟩
  simp only [levelAt, Outcome.result_bind_eq_ok] at hw ⊢
  obtain ⟨t, ht, variance, hv, hw⟩ := hw
  exact ⟨t, ht, variance, hvariance _ k k' variance hk hk' hv, hw⟩

/-! ## Readings -/

/-- The numbers of the formula when both prices are multiplied by `c`. -/
noncomputable def AnalyticGreeks.scaled (c : ℝ) (g : AnalyticGreeks ℝ) : AnalyticGreeks ℝ :=
  { g with
    value := c * g.value
    gamma := g.gamma / c
    theta := c * g.theta
    vega := c * g.vega
    rho := c * g.rho
    dividendRho := c * g.dividendRho }

theorem AnalyticGreeks.scales_scaled (c : ℝ) (g : AnalyticGreeks ℝ) :
    g.exact.results.Scales c (g.scaled c).exact.results where
  value := Value.scales_number _ _
  theta := Value.scales_number _ _
  vega := Value.scales_number _ _
  rho := Value.scales_number _ _
  dividendRho := Value.scales_number _ _
  errorEstimate := Value.scales_null c
  delta := rfl
  strikeSensitivity := rfl

namespace Readings

variable (x : Readings) {c : ℝ} (hc : 0 < c)

/-- The same readings with the two prices multiplied by `c`. -/
def scaled : Readings :=
  { x with
    spot := c * x.spot
    strike := c * x.strike
    spot_pos := mul_pos hc x.spot_pos
    strike_nonneg := mul_nonneg hc.le x.strike_nonneg }

theorem forward_scaled : (x.scaled hc).forward = c * x.forward := by
  simp only [forward, scaled, mul_assoc, mul_div_assoc]

theorem certain_scaled : (x.scaled hc).Certain = x.Certain :=
  propext (or_congr_right (mul_eq_zero_iff_left hc.ne'))

/-- The distance of the forward price from the strike is kept. -/
theorem scores_scaled : (x.scaled hc).scores = x.scores := by
  have hstrike : (x.scaled hc).strike = c * x.strike := rfl
  have hratio : c * x.forward / (c * x.strike) = x.forward / x.strike :=
    mul_div_mul_left _ _ hc.ne'
  unfold scores
  rw [certain_scaled, forward_scaled, hstrike, hratio]
  simp only [mul_lt_mul_iff_right₀ hc]
  rfl

theorem vega_scaled : (x.scaled hc).vega = c * x.vega := by
  simp only [vega, scores_scaled]
  simp only [scaled, mul_assoc]

theorem decay_scaled : (x.scaled hc).decay = c * x.decay := by
  have hdeviation : (x.scaled hc).deviation = x.deviation := rfl
  simp only [decay, scores_scaled, hdeviation]
  simp only [scaled]
  ring

theorem gamma_scaled : (x.scaled hc).gamma = x.gamma / c := by
  have hdeviation : (x.scaled hc).deviation = x.deviation := rfl
  have hspot : (x.scaled hc).spot = c * x.spot := rfl
  have hfactor : (x.scaled hc).dividendFactor = x.dividendFactor := rfl
  simp only [gamma, scores_scaled, hdeviation, hspot, hfactor]
  split
  · rw [mul_assoc, mul_comm c, div_div]
  · rw [zero_div]

/-- The formula is homogeneous in the two prices. -/
theorem greeks_scaled (N : ℝ → ℝ) (kind : OptionType) :
    (x.scaled hc).greeks N kind = (x.greeks N kind).scaled c := by
  cases kind
  all_goals
    simp only [greeks, call, put, AnalyticGreeks.scaled, scores_scaled, gamma_scaled, vega_scaled,
      decay_scaled, AnalyticGreeks.mk.injEq]
    simp only [scaled]
    exact ⟨by ring, trivial, trivial, by ring, trivial, by ring, by ring, trivial⟩

end Readings

/-! ## Terms -/

namespace Terms

/-- Terms of an option with other prices in the places of the underlying and the strike. -/
def withPrices (t : Terms Exact) (underlying strike : Value Exact) : Terms Exact :=
  { t with underlying, strike }

variable {t : Terms Exact} {x : Readings} {c : ℝ} {underlying strike : Value Exact}

/-- Validation looks at nothing but the signs of the two prices. -/
theorem PlainValid.withPrices (h : t.PlainValid) {S K : ℝ} (hS : 0 < S) (hK : 0 ≤ K)
    (hunderlying : underlying.read = .ok (real S)) (hstrike : strike.read = .ok (real K)) :
    (t.withPrices underlying strike).PlainValid where
  optionType := h.optionType
  exercise := h.exercise
  underlying := ⟨S, hS, hunderlying⟩
  strike := .inr ⟨K, hK, hstrike⟩
  dividendCurve := h.dividendCurve
  riskFreeCurve := h.riskFreeCurve
  volSurface := h.volSurface
  maturity := h.maturity
  maturityTime := h.maturityTime

/-- The volatility of the terms does not look at the strike. -/
def IgnoresStrike (t : Terms Exact) : Prop :=
  ∀ v, t.volSurface = .volatility v → v.IgnoresStrike

theorem Reads.scaled (hx : t.Reads x) (hignores : t.IgnoresStrike) (hc : 0 < c)
    (hpositive : 0 < x.strike) (hunderlying : underlying.read = .ok (real (c * x.spot)))
    (hstrike : strike.read = .ok (real (c * x.strike))) :
    (t.withPrices underlying strike).Reads (x.scaled hc) := by
  obtain ⟨v, hv, hvariance⟩ := hx.variance
  refine ⟨hunderlying, hstrike, hx.time, hx.riskFree, hx.dividend, v, hv, ?_⟩
  exact (hignores v hv).variance _ _ _ _ hpositive (mul_pos hc hpositive) hvariance

/-- Plain terms with these prices that the formula prices: their reading, and the results on it. -/
structure PricedOn (t : Terms Exact) (x : Readings) (kind : OptionType) (S K : ℝ) (r : Results Exact) :
    Prop where
  valid : t.PlainValid
  european : t.exerciseType = .exercise .european
  optionType : t.optionType = .optionType kind
  reads : t.Reads x
  spot : x.spot = S
  strike : x.strike = K
  results : r = (x.greeks normal kind).exact.results

theorem exists_pricedOn {S K : ℝ} (hform : t.form = .plain) (hmarket : t.HasRealMarket)
    (hS : t.underlying.read = .ok (real S)) (hread : t.strike.read = .ok (real K))
    {r : Results Exact} (h : t.priceAnalytically.result = .ok r) : ∃ x kind, t.PricedOn x kind S K r := by
  obtain ⟨hvalid, heuropean, -⟩ := valid_of_priceAnalytically hform h
  obtain ⟨x, hx⟩ := exists_reads_of_priceAnalytically hmarket hform h
  obtain ⟨kind, hkind⟩ := hvalid.optionType
  have hresults := hx.results_eq hform h hkind
  rw [Readings.greeks_inputs] at hresults
  exact ⟨x, kind, hvalid, heuropean, hkind, hx, real.inj (Except.ok.inj (hx.spot.symm.trans hS)),
    real.inj (Except.ok.inj (hx.strike.symm.trans hread)), hresults⟩

/-- What the formula makes of plain terms, it makes of all multiples of their prices. -/
theorem exists_priceAnalytically_withPrices {S K : ℝ} (hform : t.form = .plain)
    (hmarket : t.HasRealMarket) (hignores : t.IgnoresStrike) (hc : 0 < c) (hK : 0 < K)
    (hS : t.underlying.read = .ok (real S)) (hS' : underlying.read = .ok (real (c * S)))
    (hread : t.strike.read = .ok (real K)) (hread' : strike.read = .ok (real (c * K)))
    {r : Results Exact} (h : t.priceAnalytically.result = .ok r) :
    ∃ r', (t.withPrices underlying strike).priceAnalytically.result = .ok r' ∧ r.Scales c r' := by
  obtain ⟨x, kind, hvalid, heuropean, hkind, hx, rfl, rfl, rfl⟩ := exists_pricedOn hform hmarket hS hread h
  have hvalid' := hvalid.withPrices (mul_pos hc x.spot_pos) (mul_pos hc hK).le hS' hread'
  have hform' : (t.withPrices underlying strike).form = .plain := hform
  have hprice := (hx.scaled hignores hc hK hS' hread').priceAnalytically
    ((validate_plain_eq_ok hform').mpr hvalid') heuropean hkind
  rw [Readings.greeks_inputs, Readings.greeks_scaled] at hprice
  exact ⟨_, hprice, AnalyticGreeks.scales_scaled c _⟩

/-- The value is made up of the two prices, at the rates at which it changes with them. -/
theorem euler_of_priceAnalytically {S K : ℝ} (hform : t.form = .plain) (hmarket : t.HasRealMarket)
    (hS : t.underlying.read = .ok (real S)) (hread : t.strike.read = .ok (real K))
    {r : Results Exact} (h : t.priceAnalytically.result = .ok r) :
    ∃ δ κ : ℝ, r.delta = .number (real δ) ∧ r.strikeSensitivity = .number (real κ) ∧
      r.value = .number (real (S * δ + K * κ)) := by
  obtain ⟨x, kind, -, -, -, -, rfl, rfl, rfl⟩ := exists_pricedOn hform hmarket hS hread h
  refine ⟨_, _, rfl, rfl, ?_⟩
  rw [← (x.consistent normal kind).value]
  rfl

end Terms

end OptionDesk
