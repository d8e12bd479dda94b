import OptionDesk.Proofs.Formula.FlatMarket
import OptionDesk.Proofs.Formula.Parity

/-!
# The published numbers fit together

The value of the closed formula is homogeneous in the underlying and the strike, and a change of rate is a
change of the amount that is paid or received. The value itself solves the Black-Scholes equation, with
the yields to maturity for the rates and the variance per unit of time for the squared volatility. All
of this ties sensitivities to one another without a word about how likely exercise is, so it holds of
calls and puts alike, with any function in the place of the normal distribution function, and in the
limits of certain exercise.
-/
namespace OptionDesk

open Exact

/-- How the numbers of an option hang together. -/
structure Consistent (x : Readings) (g : AnalyticGreeks ℝ) : Prop where
  value : g.value = x.spot * g.delta + x.strike * g.strikeSensitivity
  rho : g.rho = -x.strike * x.time * g.strikeSensitivity
  dividendRho : g.dividendRho = -x.spot * x.time * g.delta
  equation : g.theta + (x.riskFreeRate - x.dividendYield) * x.spot * g.delta +
    1 / 2 * (x.variance / x.time) * x.spot ^ 2 * g.gamma = x.riskFreeRate * g.value
  vega : 0 < x.variance → g.vega = √(x.variance / x.time) * x.time * x.spot ^ 2 * g.gamma

namespace Readings

variable (x : Readings)

theorem deviation_pos (h : 0 < x.variance) : 0 < x.deviation := Real.sqrt_pos.mpr h

/-- What is lost in time is gained by the curvature, also where there is neither. -/
theorem decay_add_curvature :
    x.decay + 1 / 2 * (x.variance / x.time) * x.spot ^ 2 * x.gamma = 0 := by
  have hspot := x.spot_pos.ne'
  have hroot := x.sqrt_time_pos.ne'
  have htime : x.variance / x.time = x.deviation ^ 2 / √x.time ^ 2 := by
    rw [x.sq_deviation, Real.sq_sqrt x.time_pos.le]
  rw [decay, gamma, htime]
  by_cases h : 0 < x.deviation
  · have hdeviation := h.ne'
    rw [if_pos h]
    field_simp
    ring
  · have hzero : x.deviation = 0 := le_antisymm (not_lt.mp h) x.deviation_nonneg
    rw [if_neg h, hzero]
    ring

theorem vega_eq (h : 0 < x.variance) :
    x.vega = √(x.variance / x.time) * x.time * x.spot ^ 2 * x.gamma := by
  have hspot := x.spot_pos.ne'
  have hroot := x.sqrt_time_pos.ne'
  have hdeviation := (x.deviation_pos h).ne'
  have hlevel : √(x.variance / x.time) * x.time = x.deviation * √x.time := by
    rw [Real.sqrt_div' _ x.time_pos.le, div_mul_eq_mul_div, mul_div_assoc, Real.div_sqrt, deviation]
  rw [vega, gamma, if_pos (x.deviation_pos h), hlevel]
  field_simp

theorem consistent (N : ℝ → ℝ) (kind : OptionType) : Consistent x (x.greeks N kind) := by
  have hbalance := x.decay_add_curvature
  cases kind with
  | call =>
    refine ⟨?_, ?_, ?_, ?_, x.vega_eq⟩
    all_goals simp only [greeks, call]
    · ring
    · ring
    · ring
    · linear_combination hbalance
  | put =>
    refine ⟨?_, ?_, ?_, ?_, x.vega_eq⟩
    all_goals simp only [greeks, put]
    · ring
    · ring
    · ring
    · linear_combination hbalance

end Readings

variable [NormalSource Exact]

/-- The results of every calculation of the formula that succeeds fit together. -/
theorem results_fit_together {d : Desk Exact} {p : ℕ} (hform : (d.get p).terms.form = .plain)
    (hmarket : (d.get p).terms.HasRealMarket)
    (h : ((Engine.analytic p).calculate.run d).1.result = .ok ()) :
    ∃ x kind, (d.get p).terms.Reads x ∧ (d.get p).terms.optionType = .optionType kind ∧
      (((Engine.analytic p).calculate.run d).2.get p).results = (x.greeks normal kind).exact.results ∧
      Consistent x (x.greeks normal kind) := by
  have hprice := Engine.results_analytic h
  obtain ⟨hvalid, -, -⟩ := Terms.valid_of_priceAnalytically hform hprice
  obtain ⟨kind, hkind⟩ := hvalid.optionType
  obtain ⟨x, hreads⟩ := Terms.exists_reads_of_priceAnalytically hmarket hform hprice
  have hresults := hreads.results_eq hform hprice hkind
  rw [Readings.greeks_inputs] at hresults
  exact ⟨x, kind, hreads, hkind, hresults, x.consistent normal kind⟩

omit [NormalSource Exact] in
/-- A call on a flat market with volatility, and a put at strike zero without any. -/
theorem results_fit_together_on_flat_markets :
    letI : NormalSource Exact := ⟨Unit, fun _ => (), fun _ => (real 0, ())⟩
    let regular := FlatMarket.ofRates 100 90 0.05 0.02 0.2 (by norm_num) (by norm_num)
    let certain := FlatMarket.ofRates 100 0 0.05 0.02 0 (by norm_num) le_rfl
    let d (m : FlatMarket) (kind : OptionType) : Desk Exact :=
      Registry.empty.put 0 { Cell.blank .plain with terms := m.terms kind }
    let results (m : FlatMarket) (kind : OptionType) :=
      (((Engine.analytic 0).calculate.run (d m kind)).2.get 0).results
    (∃ x, (regular.terms .call).Reads x ∧ results regular .call = (x.call normal).exact.results ∧
      Consistent x (x.call normal)) ∧
    ∃ x, (certain.terms .put).Reads x ∧ results certain .put = (x.put normal).exact.results ∧
      Consistent x (x.put normal) := by
  let _ : NormalSource Exact := ⟨Unit, fun _ => (), fun _ => (real 0, ())⟩
  intro regular certain d results
  have hterms (m : FlatMarket) (kind : OptionType) : ((d m kind).get 0).terms = m.terms kind :=
    congrArg Cell.terms (Desk.get_put_self _ _ _)
  have hfit (m : FlatMarket) (kind : OptionType) : ∃ x, (m.terms kind).Reads x ∧
      results m kind = (x.greeks normal kind).exact.results ∧
      Consistent x (x.greeks normal kind) := by
    have hform : ((d m kind).get 0).terms.form = .plain := by rw [hterms]; rfl
    have hmarket : ((d m kind).get 0).terms.HasRealMarket := by
      rw [hterms]
      exact m.hasRealMarket kind
    obtain ⟨x, kind', hreads, hkind, hresults, hconsistent⟩ :=
      results_fit_together hform hmarket (m.calculate kind (hterms m kind))
    rw [hterms] at hreads hkind
    cases hkind
    exact ⟨x, hreads, hresults, hconsistent⟩
  exact ⟨hfit regular .call, hfit certain .put⟩

end OptionDesk
