import OptionDesk.Proofs.Curve.Flat
import OptionDesk.Proofs.Engine.Calculation
import OptionDesk.Proofs.Formula.Values

/-!
# Put-call parity

A call and a put on the same terms differ by a forward: in the value, and in every sensitivity as the
forward does. Of the distribution function this needs only that the probabilities below a score and
below its opposite add up to one, so certain exercise is no case of its own, and of the density only
that both options share it.
-/
namespace OptionDesk

open Exact

/-- The call less the put is a forward struck at the strike. -/
structure Parity (x : Readings) (call put : AnalyticGreeks ℝ) : Prop where
  value : call.value - put.value = x.spot * x.dividendFactor - x.strike * x.riskFreeFactor
  delta : call.delta - put.delta = x.dividendFactor
  gamma : call.gamma = put.gamma
  vega : call.vega = put.vega
  theta : call.theta - put.theta =
    x.dividendYield * x.spot * x.dividendFactor - x.riskFreeRate * x.strike * x.riskFreeFactor
  rho : call.rho - put.rho = x.strike * x.time * x.riskFreeFactor
  dividendRho : call.dividendRho - put.dividendRho = -x.spot * x.time * x.dividendFactor
  strikeSensitivity : call.strikeSensitivity - put.strikeSensitivity = -x.riskFreeFactor

/-- A score and its opposite share all probability, limits included. -/
theorem Score.complement_eq {N : ℝ → ℝ} (hN : ∀ y, N y + N (-y) = 1) (s : Score ℝ) :
    s.complement N = 1 - s.probability N := by
  cases s with
  | finite y =>
    have hsum := hN y
    show N (-y) = 1 - N y
    linarith
  | above => exact (sub_self 1).symm
  | below => exact (sub_zero 1).symm

theorem Readings.parity (x : Readings) {N : ℝ → ℝ} (hN : ∀ y, N y + N (-y) = 1) :
    Parity x (x.call N) (x.put N) := by
  constructor
  case gamma => rfl
  case vega => rfl
  all_goals
    simp only [Readings.call, Readings.put, Score.complement_eq hN]
    ring

namespace Terms

/-- What is read off terms does not depend on the option type. -/
theorem reads_set_optionType {t : Terms Exact} {v : Value Exact} {x : Readings} :
    (t.set .optionType v).Reads x ↔ t.Reads x :=
  ⟨fun h => ⟨h.1, h.2, h.3, h.4, h.5, h.6⟩, fun h => ⟨h.1, h.2, h.3, h.4, h.5, h.6⟩⟩

end Terms

variable [NormalSource Exact]

/-- A calculation of the formula that succeeds publishes what the terms are priced at. -/
theorem Engine.results_analytic {place : ℕ} {d : Desk Exact}
    (h : ((Engine.analytic place).calculate.run d).1.result = .ok ()) :
    (d.get place).terms.priceAnalytically.result =
      .ok (((Engine.analytic place).calculate.run d).2.get place).results := by
  obtain ⟨hends, -, -, haccepted⟩ := Engine.publishes_analytic place d
  cases hprice : (d.get place).terms.priceAnalytically.result with
  | error e =>
    rw [hends, Outcome.result_map, Engine.quotation, hprice] at h
    cases h
  | ok r =>
    obtain ⟨hresults, -⟩ := haccepted r hprice
    exact congrArg Except.ok hresults.symm

/-- Two calculations of the formula on terms that differ in the option type alone, both of which
succeed, publish a call and a put that are at parity; and so does the formula with any symmetric
function in the place of the normal distribution function. -/
theorem call_and_put_at_parity {t : Terms Exact} (hform : t.form = .plain) (hmarket : t.HasRealMarket)
    {d d' : Desk Exact} {p p' : ℕ}
    (hcall : (d.get p).terms = t.set .optionType (.optionType .call))
    (hput : (d'.get p').terms = t.set .optionType (.optionType .put))
    (hcalls : ((Engine.analytic p).calculate.run d).1.result = .ok ())
    (hputs : ((Engine.analytic p').calculate.run d').1.result = .ok ()) :
    ∃ x, t.Reads x ∧
      (((Engine.analytic p).calculate.run d).2.get p).results = (x.call normal).exact.results ∧
      (((Engine.analytic p').calculate.run d').2.get p').results = (x.put normal).exact.results ∧
      Parity x (x.call normal) (x.put normal) ∧
      ∀ N : ℝ → ℝ, (∀ y, N y + N (-y) = 1) →
        x.greeksWith N .call = (x.call N).exact ∧ x.greeksWith N .put = (x.put N).exact ∧
          Parity x (x.call N) (x.put N) := by
  have hcallprice := Engine.results_analytic hcalls
  have hputprice := Engine.results_analytic hputs
  rw [hcall] at hcallprice
  rw [hput] at hputprice
  have hcallform : (t.set .optionType (.optionType .call)).form = .plain := by rw [Terms.form_set, hform]
  have hputform : (t.set .optionType (.optionType .put)).form = .plain := by rw [Terms.form_set, hform]
  have hcallmarket : (t.set .optionType (.optionType .call)).HasRealMarket :=
    ⟨hmarket.riskFree, hmarket.dividend, hmarket.volatility⟩
  obtain ⟨x, hcallreads⟩ := Terms.exists_reads_of_priceAnalytically hcallmarket hcallform hcallprice
  have hreads : t.Reads x := Terms.reads_set_optionType.mp hcallreads
  have hputreads : (t.set .optionType (.optionType .put)).Reads x := Terms.reads_set_optionType.mpr hreads
  have hcallresults := hcallreads.results_eq hcallform hcallprice rfl
  have hputresults := hputreads.results_eq hputform hputprice rfl
  rw [Readings.greeks_inputs] at hcallresults hputresults
  exact ⟨x, hreads, hcallresults, hputresults, x.parity normal_add_normal_neg, fun N hN =>
    ⟨x.greeksWith_eq N .call, x.greeksWith_eq N .put, x.parity hN⟩⟩

omit [NormalSource Exact] in
/-- A call and a put on flat curves, below the forward price. -/
theorem call_and_put_at_parity_on_flat_curves :
    letI : NormalSource Exact := ⟨Unit, fun _ => (), fun _ => (real 0, ())⟩
    let reference := Value.midnight ⟨2024, 1, 1, by decide, by decide, by decide⟩
    let maturity := Value.midnight ⟨2025, 1, 1, by decide, by decide, by decide⟩
    let flat (rate : ℝ) : Curve Exact :=
      .discount ⟨reference, [⟨real 0, real 1⟩], some (.number (real rate)), .standard⟩
    let t : Terms Exact := { Terms.blank .plain with
      underlying := .number (real 100)
      strike := .number (real 90)
      dividendCurve := .curve (flat 0.02)
      riskFreeCurve := .curve (flat 0.05)
      volSurface := .volatility (.constant reference (real 0.2) .standard)
      maturity := .dateTime maturity }
    let d (kind : OptionType) : Desk Exact :=
      Registry.empty.put 0 { Cell.blank .plain with terms := t.set .optionType (.optionType kind) }
    let results (kind : OptionType) := (((Engine.analytic 0).calculate.run (d kind)).2.get 0).results
    (∀ kind, ((Engine.analytic 0).calculate.run (d kind)).1.result = .ok ()) ∧
      ∃ x, t.Reads x ∧ results .call = (x.call normal).exact.results ∧
        results .put = (x.put normal).exact.results ∧ Parity x (x.call normal) (x.put normal) := by
  let _ : NormalSource Exact := ⟨Unit, fun _ => (), fun _ => (real 0, ())⟩
  intro reference maturity flat t d results
  let T := DayCount.Basis.actual365.years reference maturity
  have hT : 0 < T := (DayCount.Basis.years_pos_iff (by decide) _ _).mpr (by decide)
  have hfactor (rate : ℝ) : ((flat rate).discountAt t.maturity).result =
      .ok (real (Real.exp (-rate * T))) :=
    (Curve.hasFactors_of_flatRate rfl).factor_of_date rfl maturity
  have htime : t.maturityTime.result = .ok (real T) :=
    congrArg Outcome.result (Curve.anchorTo_eq (c := flat 0.05) rfl maturity)
  have hvariance : ((Volatility.constant reference (real 0.2) .standard).varianceAt t.maturity
      (.number (real 90))).result = .ok (real (0.2 * 0.2 * T)) := by
    rw [Volatility.varianceAt, Volatility.timeTo_dateTime rfl, pure_bind]
    rfl
  let x : Readings := ⟨100, 90, T, Real.exp (-0.05 * T), Real.exp (-0.02 * T), 0.05, 0.02, 0.2 * 0.2 * T,
    by norm_num, by norm_num, hT, Real.exp_pos _, Real.exp_pos _, by positivity⟩
  have hreads : t.Reads x := ⟨rfl, rfl, htime, ⟨flat 0.05, rfl, hfactor 0.05, rfl⟩,
    ⟨flat 0.02, rfl, hfactor 0.02, rfl⟩, _, rfl, hvariance⟩
  have hprice (kind : OptionType) : (t.set .optionType (.optionType kind)).priceAnalytically.result =
      .ok (x.inputs.greeks kind).results := by
    have hvalid : (t.set .optionType (.optionType kind)).PlainValid :=
      ⟨⟨kind, rfl⟩, ⟨.european, rfl, .inl rfl⟩, ⟨100, by norm_num, rfl⟩, .inr ⟨90, by norm_num, rfl⟩,
        ⟨_, rfl⟩, ⟨_, rfl⟩, ⟨_, rfl⟩, ⟨_, rfl⟩, T, hT, htime⟩
    exact (Terms.reads_set_optionType.mpr hreads).priceAnalytically
      ((Terms.validate_plain_eq_ok rfl).mpr hvalid) rfl rfl
  have hterms (kind : OptionType) : ((d kind).get 0).terms = t.set .optionType (.optionType kind) :=
    congrArg Cell.terms (Desk.get_put_self _ _ _)
  have hends (kind : OptionType) :
      ((Engine.analytic 0).calculate.run (d kind)).1.result = .ok () := by
    rw [(Engine.publishes_analytic 0 (d kind)).ends, Outcome.result_map, Engine.quotation, hterms,
      hprice]
    rfl
  have hmarket : t.HasRealMarket := .of_parts rfl rfl rfl (Curve.isReal_flat reference 0.05 _)
    (Curve.isReal_flat reference 0.02 _) ⟨0.2, rfl⟩
  obtain ⟨y, hy, hcall, hput, hparity, -⟩ := call_and_put_at_parity rfl hmarket (hterms .call)
    (hterms .put) (hends .call) (hends .put)
  exact ⟨hends, y, hy, hcall, hput, hparity⟩

end OptionDesk
