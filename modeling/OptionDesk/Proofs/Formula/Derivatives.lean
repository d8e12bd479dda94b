import OptionDesk.Proofs.Curve.Flat
import OptionDesk.Proofs.Formula.Density
import OptionDesk.Proofs.Formula.FlatMarket
import OptionDesk.Proofs.Sensitivities

/-!
# Derivatives of the closed formula

On flat curves under a constant volatility the closed formula is a function of the underlying, the strike,
the volatility, the two rates and the time to maturity. Each of them enters through what is received,
what is paid and the deviation alone, so one rule gives all first derivatives, and the second one by the
underlying is the derivative of a probability.
-/
namespace OptionDesk

open Exact
open scoped Topology

noncomputable section

/-- The closed formula on flat curves and a constant volatility. -/
def flatPrice (kind : OptionType) (S K σ r q T : ℝ) : ℝ :=
  blackScholes kind S K (σ * σ * T) (Real.exp (-r * T)) (Real.exp (-q * T))

theorem blackScholes_of_uncertain (kind : OptionType) {S K w P Q : ℝ} (hw : 0 ≤ w)
    (h : ¬(√w < 1e-300 ∨ K = 0)) :
    blackScholes kind S K w P Q = uncertainValue kind (S * Q) (K * P) √w := by
  have hhalf : w / 2 = 0.5 * √w ^ 2 := by
    rw [Real.sq_sqrt hw]
    ring
  rw [blackScholes, if_neg h, uncertainValue, firstScore, hhalf]

/-- Exercise that is uncertain at a point is uncertain around it. -/
theorem blackScholes_eventuallyEq {X : Type*} [TopologicalSpace X] (kind : OptionType)
    {S K w P Q : X → ℝ} {u : X} (hpaid : ContinuousAt (fun v => K v * P v) u)
    (hdeviation : ContinuousAt (fun v => √(w v)) u) (hbpos : 0 < K u * P u)
    (huncertain : 1e-300 < √(w u)) :
    (fun v => blackScholes kind (S v) (K v) (w v) (P v) (Q v)) =ᶠ[𝓝 u]
      fun v => uncertainValue kind (S v * Q v) (K v * P v) √(w v) := by
  filter_upwards [hdeviation.eventually (lt_mem_nhds huncertain),
    hpaid.eventually (lt_mem_nhds hbpos)] with v hdeviation hpaid
  have hvariance : 0 < w v := Real.sqrt_pos.mp (Readings.cutoff_pos.trans hdeviation)
  apply blackScholes_of_uncertain kind hvariance.le
  rintro (hsmall | hzero)
  · exact hsmall.not_ge hdeviation.le
  · rw [hzero, zero_mul] at hpaid
    exact hpaid.false

/-- The closed formula changes with what is received, what is paid and the deviation. -/
theorem hasDerivAt_blackScholes (kind : OptionType) {S K w P Q : ℝ → ℝ} {a' b' s' u : ℝ}
    (ha : HasDerivAt (fun v => S v * Q v) a' u) (hb : HasDerivAt (fun v => K v * P v) b' u)
    (hs : HasDerivAt (fun v => √(w v)) s' u) (hapos : 0 < S u * Q u) (hbpos : 0 < K u * P u)
    (huncertain : 1e-300 < √(w u)) :
    HasDerivAt (fun v => blackScholes kind (S v) (K v) (w v) (P v) (Q v))
      (kind.sign * (a' * normal (kind.sign * firstScore (S u * Q u) (K u * P u) √(w u)) -
        b' * normal (kind.sign * (firstScore (S u * Q u) (K u * P u) √(w u) - √(w u)))) +
        S u * Q u * normalDensity (firstScore (S u * Q u) (K u * P u) √(w u)) * s') u :=
  (hasDerivAt_uncertainValue kind ha hb hs hapos hbpos
    (Readings.cutoff_pos.trans huncertain)).congr_of_eventuallyEq
      (blackScholes_eventuallyEq kind hb.continuousAt hs.continuousAt hbpos huncertain)

namespace Readings

/-- What the formula reads off flat curves and a constant volatility. -/
def ofRates (S K σ r q T : ℝ) (hS : 0 < S) (hK : 0 ≤ K) (hT : 0 < T) : Readings where
  spot := S
  strike := K
  time := T
  riskFreeFactor := Real.exp (-r * T)
  dividendFactor := Real.exp (-q * T)
  riskFreeRate := r
  dividendYield := q
  variance := σ * σ * T
  spot_pos := hS
  strike_nonneg := hK
  time_pos := hT
  riskFreeFactor_pos := Real.exp_pos _
  dividendFactor_pos := Real.exp_pos _
  variance_nonneg := mul_nonneg (mul_self_nonneg σ) hT.le

variable (x : Readings)

/-- The score of what is received against what is paid. -/
def score : ℝ := firstScore (x.spot * x.dividendFactor) (x.strike * x.riskFreeFactor) x.deviation

theorem scores_of_not_certain (h : ¬x.Certain) :
    x.scores = (.finite x.score, .finite (x.score - x.deviation)) := by
  have hratio : x.forward / x.strike = x.spot * x.dividendFactor / (x.strike * x.riskFreeFactor) := by
    rw [forward, div_div, mul_comm x.riskFreeFactor]
  rw [scores, if_neg h, score, firstScore, hratio, x.sq_deviation]

/-- Calls and puts differ in a sign only. -/
theorem greeks_of_not_certain (h : ¬x.Certain) (kind : OptionType) :
    x.greeks normal kind =
      let received := x.spot * x.dividendFactor
      let paid := x.strike * x.riskFreeFactor
      let n₁ := normal (kind.sign * x.score)
      let n₂ := normal (kind.sign * (x.score - x.deviation))
      { value := uncertainValue kind received paid x.deviation
        delta := kind.sign * (x.dividendFactor * n₁)
        gamma := x.dividendFactor * normalDensity x.score / (x.spot * x.deviation)
        theta := kind.sign * (x.dividendYield * received * n₁ - x.riskFreeRate * paid * n₂) -
          received * normalDensity x.score * (x.deviation / √x.time / (2 * √x.time))
        vega := received * normalDensity x.score * √x.time
        rho := kind.sign * (x.time * paid * n₂)
        dividendRho := -(kind.sign * (x.time * received * n₁))
        strikeSensitivity := -(kind.sign * (x.riskFreeFactor * n₂)) } := by
  have hdeviation := x.deviation_pos_of_not_certain h
  have hscore : firstScore (x.spot * x.dividendFactor) (x.strike * x.riskFreeFactor) x.deviation =
      x.score := rfl
  cases kind with
  | call =>
    simp only [greeks, call, gamma, vega, decay, x.scores_of_not_certain h, Score.probability,
      Score.height_finite, if_pos hdeviation, uncertainValue, hscore, OptionType.sign, one_mul]
    congr 1 <;> ring
  | put =>
    simp only [greeks, put, gamma, vega, decay, x.scores_of_not_certain h, Score.complement,
      Score.height_finite, if_pos hdeviation, uncertainValue, hscore, OptionType.sign, neg_one_mul]
    congr 1 <;> ring

end Readings

section

variable {σ T : ℝ}

theorem sqrt_flat_variance (hσ : 0 < σ) (T : ℝ) : √(σ * σ * T) = σ * √T := by
  rw [Real.sqrt_mul (mul_self_nonneg σ), Real.sqrt_mul_self hσ.le]

theorem hasDerivAt_deviation_level (hσ : 0 < σ) : HasDerivAt (fun l => √(l * l * T)) √T σ := by
  have hlinear : (fun l => √(l * l * T)) =ᶠ[𝓝 σ] fun l => l * √T := by
    filter_upwards [lt_mem_nhds hσ] with l hl
    exact sqrt_flat_variance hl T
  refine (((hasDerivAt_id σ).mul_const √T).congr_of_eventuallyEq hlinear).congr_deriv ?_
  exact one_mul _

theorem hasDerivAt_deviation_time (hσ : 0 < σ) (hT : 0 < T) :
    HasDerivAt (fun t => √(σ * σ * t)) (σ / (2 * √T)) T := by
  have hroot : (fun t => √(σ * σ * t)) = fun t => σ * √t := funext fun t => sqrt_flat_variance hσ t
  rw [hroot]
  refine ((Real.hasDerivAt_sqrt hT.ne').const_mul σ).congr_deriv ?_
  ring

end

section Uncertain

variable {S K σ r q T : ℝ} (hS : 0 < S) (hK : 0 < K) (hσ : 0 < σ) (hT : 0 < T)
  (huncertain : 1e-300 < σ * √T) (kind : OptionType)

include hσ huncertain

theorem Readings.not_certain_ofRates : ¬(ofRates S K σ r q T hS hK.le hT).Certain := by
  have hdeviation : (ofRates S K σ r q T hS hK.le hT).deviation = σ * √T := sqrt_flat_variance hσ T
  rintro (hsmall | hzero)
  · rw [hdeviation] at hsmall
    exact hsmall.not_ge huncertain.le
  · exact hK.ne' hzero

/-- The formula publishes the first derivatives of its value. -/
theorem differentiates_of_uncertain :
    ((Readings.ofRates S K σ r q T hS hK.le hT).greeks normal kind).exact.results.Differentiates
      (flatPrice kind) S K σ r q T := by
  have hcount : 1e-300 < √(σ * σ * T) := by rwa [sqrt_flat_variance hσ]
  have hreceived : 0 < S * Real.exp (-q * T) := mul_pos hS (Real.exp_pos _)
  have hpaid : 0 < K * Real.exp (-r * T) := mul_pos hK (Real.exp_pos _)
  have hlevel : √(σ * σ * T) / √T = σ := by
    rw [sqrt_flat_variance hσ, mul_div_cancel_right₀ _ (Real.sqrt_pos.mpr hT).ne']
  have hgreeks := (Readings.ofRates S K σ r q T hS hK.le hT).greeks_of_not_certain
    (Readings.not_certain_ofRates hS hK hσ hT huncertain) kind
  have hvalue := (Readings.ofRates S K σ r q T hS hK.le hT).value_greeks kind
  constructor
  case value => exact congrArg (fun y => Value.number (real y)) hvalue
  all_goals
    rw [hgreeks]
    refine ⟨_, rfl, ?_⟩
  case delta =>
    refine (hasDerivAt_blackScholes kind ((hasDerivAt_id S).mul_const _) (hasDerivAt_const S _)
      (hasDerivAt_const S _) hreceived hpaid hcount).congr_deriv ?_
    simp only [Readings.ofRates, Readings.score, Readings.deviation, id_eq]
    ring
  case vega =>
    refine (hasDerivAt_blackScholes kind (hasDerivAt_const σ _) (hasDerivAt_const σ _)
      (hasDerivAt_deviation_level hσ) hreceived hpaid hcount).congr_deriv ?_
    simp only [Readings.ofRates, Readings.score, Readings.deviation]
    ring
  case rho =>
    refine (hasDerivAt_blackScholes kind (hasDerivAt_const r _)
      ((hasDerivAt_factor_rate r T).const_mul K) (hasDerivAt_const r _) hreceived hpaid
      hcount).congr_deriv ?_
    simp only [Readings.ofRates, Readings.score, Readings.deviation]
    ring
  case dividendRho =>
    refine (hasDerivAt_blackScholes kind ((hasDerivAt_factor_rate q T).const_mul S)
      (hasDerivAt_const q _) (hasDerivAt_const q _) hreceived hpaid hcount).congr_deriv ?_
    simp only [Readings.ofRates, Readings.score, Readings.deviation]
    ring
  case strikeSensitivity =>
    refine (hasDerivAt_blackScholes kind (hasDerivAt_const K _) ((hasDerivAt_id K).mul_const _)
      (hasDerivAt_const K _) hreceived hpaid hcount).congr_deriv ?_
    simp only [Readings.ofRates, Readings.score, Readings.deviation, id_eq]
    ring
  case theta =>
    refine (hasDerivAt_blackScholes kind ((hasDerivAt_factor_time q T).const_mul S)
      ((hasDerivAt_factor_time r T).const_mul K) (hasDerivAt_deviation_time hσ hT) hreceived hpaid
      hcount).neg.congr_deriv ?_
    simp only [Readings.ofRates, Readings.score, Readings.deviation, hlevel]
    ring

/-- Gamma is the derivative of delta. -/
theorem isSlope_gamma_of_uncertain :
    ((Readings.ofRates S K σ r q T hS hK.le hT).greeks normal kind).exact.results.gamma.IsSlope
      (deriv fun s => flatPrice kind s K σ r q T) S := by
  have hcount : 1e-300 < √(σ * σ * T) := by rwa [sqrt_flat_variance hσ]
  have hdeviation : 0 < √(σ * σ * T) := by
    rw [sqrt_flat_variance hσ]
    exact mul_pos hσ (Real.sqrt_pos.mpr hT)
  have hfactor : 0 < Real.exp (-q * T) := Real.exp_pos _
  have hpaid : 0 < K * Real.exp (-r * T) := mul_pos hK (Real.exp_pos _)
  -- Delta is the discounted probability of exercise at every spot, so its derivative is a density.
  have hdelta : (deriv fun s => flatPrice kind s K σ r q T) =ᶠ[𝓝 S] fun s =>
      kind.sign * (Real.exp (-q * T) * normal (kind.sign *
        firstScore (s * Real.exp (-q * T)) (K * Real.exp (-r * T)) √(σ * σ * T))) := by
    filter_upwards [lt_mem_nhds hS] with s hs
    refine HasDerivAt.deriv ((hasDerivAt_blackScholes kind ((hasDerivAt_id s).mul_const _)
      (hasDerivAt_const s _) (hasDerivAt_const s _) (mul_pos hs hfactor) hpaid hcount).congr_deriv ?_)
    simp only [id_eq]
    ring
  have hscore := hasDerivAt_firstScore ((hasDerivAt_id S).mul_const (Real.exp (-q * T)))
    (hasDerivAt_const S _) (hasDerivAt_const S _) (mul_pos hS hfactor) hpaid hdeviation
  have hprobability := (hasDerivAt_normal _).comp S (hscore.const_mul kind.sign)
  rw [Readings.greeks_of_not_certain _ (Readings.not_certain_ofRates hS hK hσ hT huncertain)]
  refine ⟨_, rfl, (((hprobability.const_mul (Real.exp (-q * T))).const_mul
    kind.sign).congr_of_eventuallyEq hdelta).congr_deriv ?_⟩
  have hsign := kind.sign_mul_self
  have hspot := hS.ne'
  simp only [Readings.ofRates, Readings.score, Readings.deviation, normalDensity_sign_mul, id_eq,
    zero_div, zero_mul, sub_zero, one_mul]
  generalize normalDensity _ = density
  field_simp
  linear_combination density * hsign

include hS hK hT in
/-- The formula is differentiable in all of its arguments together. -/
theorem differentiableAt_flatPrice : DifferentiableAt ℝ ↿(flatPrice kind) (S, K, σ, r, q, T) := by
  have hcount : 1e-300 < √(σ * σ * T) := by rwa [sqrt_flat_variance hσ]
  have hvariance : σ * σ * T ≠ 0 := (mul_pos (mul_pos hσ hσ) hT).ne'
  have hpaid : 0 < K * Real.exp (-r * T) := mul_pos hK (Real.exp_pos _)
  have hdeviation : DifferentiableAt ℝ (fun z : ℝ × ℝ × ℝ × ℝ × ℝ × ℝ =>
      √(z.2.2.1 * z.2.2.1 * z.2.2.2.2.2)) (S, K, σ, r, q, T) :=
    DifferentiableAt.sqrt (by fun_prop) hvariance
  have huncertainValue := differentiableAt_uncertainValue kind
    (a := fun z : ℝ × ℝ × ℝ × ℝ × ℝ × ℝ => z.1 * Real.exp (-z.2.2.2.2.1 * z.2.2.2.2.2))
    (b := fun z => z.2.1 * Real.exp (-z.2.2.2.1 * z.2.2.2.2.2)) (by fun_prop) (by fun_prop)
    hdeviation (mul_pos hS (Real.exp_pos _)) hpaid (Readings.cutoff_pos.trans hcount)
  exact huncertainValue.congr_of_eventuallyEq (blackScholes_eventuallyEq kind
    (X := ℝ × ℝ × ℝ × ℝ × ℝ × ℝ) (S := fun z => z.1) (Q := fun z => Real.exp (-z.2.2.2.2.1 * z.2.2.2.2.2))
    (by fun_prop) hdeviation.continuousAt hpaid hcount)

end Uncertain

end

/-- The terms stand on two flat curves, and the variance at the strike grows at a constant rate. -/
structure Terms.OnFlatMarket (t : Terms Exact) (b : DayCount.Basis) (reference expiry : DateTime)
    (S K σ r q : ℝ) : Prop where
  underlying : t.underlying.read = .ok (real S)
  strike : t.strike.read = .ok (real K)
  maturity : t.maturity = .dateTime expiry
  riskFree : ∃ c, t.riskFreeCurve = .curve c ∧ c.IsFlat b reference r
  dividend : ∃ c, t.dividendCurve = .curve c ∧ c.IsFlat b reference q
  volatility : ∃ v, t.volSurface = .volatility v ∧
    (v.varianceAt (.dateTime expiry) (.number (real K))).result =
      .ok (real (σ * σ * b.years reference expiry))

namespace Terms.OnFlatMarket

variable {t : Terms Exact} {b : DayCount.Basis} {reference maturity : DateTime} {S K σ r q : ℝ}
  (h : t.OnFlatMarket b reference maturity S K σ r q) (hS : 0 < S) (hK : 0 ≤ K)
  (hT : 0 < b.years reference maturity)

include h

theorem reads : t.Reads (.ofRates S K σ r q (b.years reference maturity) hS hK hT) := by
  obtain ⟨c, hc, hflat⟩ := h.riskFree
  obtain ⟨e, he, hflat'⟩ := h.dividend
  obtain ⟨v, hv, hvariance⟩ := h.volatility
  refine ⟨h.underlying, h.strike, ?_, ⟨c, hc, ?_⟩, ⟨e, he, ?_⟩, v, hv, ?_⟩
  · rw [Terms.maturityTime, hc, h.maturity]
    exact hflat.anchorTo maturity
  · rw [h.maturity]
    exact ⟨hflat.factor_of_date maturity, hflat.yields maturity⟩
  · rw [h.maturity]
    exact ⟨hflat'.factor_of_date maturity, hflat'.yields maturity⟩
  · rw [h.maturity]
    exact hvariance

include hS hK hT

theorem validate (hform : t.form = .plain) {kind : OptionType}
    (hkind : t.optionType = .optionType kind) (heuropean : t.exerciseType = .exercise .european) :
    t.validate.result = .ok () := by
  obtain ⟨c, hc, -⟩ := h.riskFree
  obtain ⟨e, he, -⟩ := h.dividend
  obtain ⟨v, hv, -⟩ := h.volatility
  exact (validate_plain_eq_ok hform).mpr ⟨⟨kind, hkind⟩, ⟨.european, heuropean, .inl rfl⟩,
    ⟨S, hS, h.underlying⟩, .inr ⟨K, hK, h.strike⟩, ⟨e, he⟩, ⟨c, hc⟩, ⟨v, hv⟩, ⟨maturity, h.maturity⟩,
    _, hT, (h.reads hS hK hT).time⟩

/-- The formula prices the terms. -/
theorem priceAnalytically (hform : t.form = .plain) {kind : OptionType}
    (hkind : t.optionType = .optionType kind) (heuropean : t.exerciseType = .exercise .european) :
    t.priceAnalytically.result = .ok ((Readings.ofRates S K σ r q (b.years reference maturity) hS hK
      hT).inputs.greeks kind).results :=
  (h.reads hS hK hT).priceAnalytically (h.validate hS hK hT hform hkind heuropean) heuropean hkind

end Terms.OnFlatMarket

theorem FlatMarket.isFlat_curve (m : FlatMarket) (rate : ℝ) :
    (m.curve rate).IsFlat .actual365 m.reference rate :=
  Curve.isFlat_of_flatRate (f := .number (real rate)) rfl rfl rfl

theorem FlatMarket.onFlatMarket (m : FlatMarket) (kind : OptionType) :
    (m.terms kind).OnFlatMarket .actual365 m.reference m.maturity m.spot m.strike m.level
      m.riskFreeRate m.dividendYield where
  underlying := rfl
  strike := rfl
  maturity := rfl
  riskFree := ⟨_, rfl, m.isFlat_curve _⟩
  dividend := ⟨_, rfl, m.isFlat_curve _⟩
  volatility := ⟨_, rfl, m.varianceAt _⟩

/-- Where exercise is uncertain the formula gives the derivatives of its value, and that is what an engine
of the formula publishes for a European option on a flat market. -/
theorem formula_publishes_its_derivatives [NormalSource Exact] {S K σ r q T : ℝ} (hS : 0 < S)
    (hK : 0 < K) (hσ : 0 < σ) (hT : 0 < T) (huncertain : 1e-300 < σ * √T) (kind : OptionType) :
    let R := ((Readings.ofRates S K σ r q T hS hK.le hT).inputs.greeks kind).results
    R.Differentiates (flatPrice kind) S K σ r q T ∧
      R.gamma.IsSlope (deriv fun s => flatPrice kind s K σ r q T) S ∧
      ∀ (d : Desk Exact) (p : ℕ) (b : DayCount.Basis) (reference maturity : DateTime),
        (d.get p).terms.form = .plain → (d.get p).terms.optionType = .optionType kind →
        (d.get p).terms.exerciseType = .exercise .european →
        (d.get p).terms.OnFlatMarket b reference maturity S K σ r q →
        b.years reference maturity = T →
        ((Engine.analytic p).calculate.run d).1.result = .ok () ∧
          (((Engine.analytic p).calculate.run d).2.get p).results = R := by
  intro R
  have hR : R = ((Readings.ofRates S K σ r q T hS hK.le hT).greeks normal kind).exact.results :=
    congrArg AnalyticGreeks.results (Readings.greeks_inputs _ kind)
  refine ⟨?_, ?_, fun d p b reference maturity hform hkind heuropean hmarket htime => ?_⟩
  · rw [hR]
    exact differentiates_of_uncertain hS hK hσ hT huncertain kind
  · rw [hR]
    exact isSlope_gamma_of_uncertain hS hK hσ hT huncertain kind
  · subst htime
    have hprice := hmarket.priceAnalytically hS hK.le hT hform hkind heuropean
    obtain ⟨hends, -, -, haccepted⟩ := Engine.publishes_analytic p d
    refine ⟨?_, (haccepted R hprice).1⟩
    rw [hends, Outcome.result_map, Engine.quotation, hprice]
    rfl

/-- A put on a flat market publishes its derivatives. -/
theorem formula_publishes_its_derivatives_of_a_put :
    letI : NormalSource Exact := ⟨Unit, fun _ => (), fun _ => (real 0, ())⟩
    let m := FlatMarket.ofRates 100 90 0.05 0.02 0.2 (by norm_num) (by norm_num)
    let d : Desk Exact := Registry.empty.put 0 { Cell.blank .plain with terms := m.terms .put }
    let R := (((Engine.analytic 0).calculate.run d).2.get 0).results
    ((Engine.analytic 0).calculate.run d).1.result = .ok () ∧
      R.Differentiates (flatPrice .put) 100 90 0.2 0.05 0.02 1 ∧
      R.gamma.IsSlope (deriv fun s => flatPrice .put s 90 0.2 0.05 0.02 1) 100 := by
  let _ : NormalSource Exact := ⟨Unit, fun _ => (), fun _ => (real 0, ())⟩
  intro m d R
  have hterms : (d.get 0).terms = m.terms .put := congrArg Cell.terms (Desk.get_put_self _ _ _)
  have huncertain : (1e-300 : ℝ) < 0.2 * √1 := by
    rw [Real.sqrt_one]
    linarith [Readings.cutoff_le]
  obtain ⟨hslopes, hgamma, hpublishes⟩ := formula_publishes_its_derivatives (r := 0.05) (q := 0.02)
    (by norm_num : (0 : ℝ) < 100) (by norm_num : (0 : ℝ) < 90) (by norm_num : (0 : ℝ) < 0.2) one_pos
    huncertain .put
  obtain ⟨hends, hresults⟩ := hpublishes d 0 .actual365 m.reference m.maturity (by rw [hterms]; rfl)
    (by rw [hterms]; rfl) (by rw [hterms]; rfl) (by rw [hterms]; exact m.onFlatMarket .put)
    (FlatMarket.time_ofRates _ _)
  have hR : R = _ := hresults
  rw [hR]
  exact ⟨hends, hslopes, hgamma⟩

end OptionDesk
