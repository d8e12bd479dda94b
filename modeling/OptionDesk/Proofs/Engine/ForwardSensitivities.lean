import OptionDesk.Proofs.Engine.ForwardStart
import OptionDesk.Proofs.Engine.Published
import OptionDesk.Proofs.Formula.Derivatives

/-!
# Sensitivities of forward-start options

A decorator maps the results of the plain option that lives from the reset date on. On flat curves its own
value is a function of the same market and of the time to the reset date: the strike is a multiple of the
underlying, and the discounting up to the reset date depends on one of the two rates. The mapped results
are the derivatives of that function, whatever price the plain option has. If that price is proportional
to underlying and strike, then the amount is linear in the underlying and the performance does not depend on
it, and the zeros that are published are derivatives too.
-/
namespace OptionDesk

open Exact
open scoped Topology

/-- The price of an option of which the strike is fixed `t₁` years from now at `m` times the underlying,
when the plain option that is left then has the price `V` and lives for `τ` years. -/
noncomputable def startPrice (V : ℝ → ℝ → ℝ → ℝ → ℝ → ℝ → ℝ) (m τ : ℝ) (style : ForwardStyle)
    (S σ r q t₁ : ℝ) : ℝ :=
  match style with
  | .amount => Real.exp (-q * t₁) * V S (m * S) σ r q τ
  | .performance => Real.exp (-r * t₁) / S * V S (m * S) σ r q τ

/-- The value of a forward-start price and its derivatives; theta is the change as time passes toward the
reset date, and the life after that date stays. The zeros are published whatever the price, and the
delta of a performance and every gamma are derivatives when the price is homogeneous. -/
structure Results.DifferentiatesStart (R : Results Exact) (V : ℝ → ℝ → ℝ → ℝ → ℝ → ℝ → ℝ) (m τ : ℝ)
    (style : ForwardStyle) (S σ r q t₁ : ℝ) : Prop where
  value : R.value = .number (real (startPrice V m τ style S σ r q t₁))
  vega : R.vega.IsSlope (fun l => startPrice V m τ style S l r q t₁) σ
  rho : R.rho.IsSlope (fun y => startPrice V m τ style S σ y q t₁) r
  dividendRho : R.dividendRho.IsSlope (fun y => startPrice V m τ style S σ r y t₁) q
  theta : R.theta.IsSlope (fun t => -startPrice V m τ style S σ r q t) t₁
  zeros : R.gamma = .number (real 0) ∧ (style = .performance → R.delta = .number (real 0))
  delta : style = .amount ∨ IsHomogeneous V →
    R.delta.IsSlope (fun s => startPrice V m τ style s σ r q t₁) S
  gamma : IsHomogeneous V → R.gamma.IsSlope (deriv fun s => startPrice V m τ style s σ r q t₁) S

/-- Forward-start terms on two flat curves. -/
structure Terms.StartsOnFlatCurves (t : Terms Exact) (b : DayCount.Basis)
    (reference reset : DateTime) (S m r q : ℝ) : Prop where
  underlying : t.underlying.operand = .ok (real S)
  moneyness : t.moneyness.operand = .ok (real m)
  resetDate : t.resetDate = .dateTime reset
  riskFree : ∃ c, t.riskFreeCurve = .curve c ∧ c.IsFlat b reference r
  dividend : ∃ c, t.dividendCurve = .curve c ∧ c.IsFlat b reference q

/-! ## The mapped results -/

namespace Terms.StartsOnFlatCurves

variable {t : Terms Exact} {b : DayCount.Basis} {reference reset : DateTime} {S m r q : ℝ}
  (h : t.StartsOnFlatCurves b reference reset S m r q)

include h

theorem resetTime : t.resetTime.result = .ok (real (b.years reference reset)) := by
  obtain ⟨c, hc, hflat⟩ := h.riskFree
  rw [Terms.resetTime, hc, h.resetDate]
  exact hflat.anchorTo reset

theorem readsReset {field : TermField} {rate : ℝ} {c : Curve Exact} (hc : t.get field = .curve c)
    (hflat : c.IsFlat b reference rate) : t.ReadsReset field (real (b.years reference reset))
      (real (Real.exp (-rate * b.years reference reset))) (real rate) := by
  refine ⟨h.resetTime, c, hc, ?_⟩
  rw [h.resetDate]
  exact ⟨hflat.factor_of_date reset, hflat.yields reset⟩

variable {w : Results Exact} {v δ ν ρ ψ κ : ℝ} (engine : EngineClass) (hw : w.AreMappable)
  (hvalue : w.value = .number (real v)) (hvega : w.vega = .number (real ν))
  (hrho : w.rho = .number (real ρ)) (hdividendRho : w.dividendRho = .number (real ψ))

include hw hvalue hvega hrho hdividendRho

/-- The results of an amount. -/
theorem amountResults (hdelta : w.delta = .number (real δ))
    (hstrike : w.strikeSensitivity = .number (real κ)) :
    ∃ error, (t.amountResults engine w).result = .ok
      (let t₁ := b.years reference reset
      let p := Real.exp (-q * t₁)
      { Results.blank with
        value := .number (real (p * v))
        delta := .number (real (p * (δ + m * κ)))
        gamma := .number (real 0)
        theta := .number (real (q * (p * v)))
        vega := .number (real (p * ν))
        rho := .number (real (p * ρ))
        dividendRho := .number (real (-t₁ * (p * v) + p * ψ))
        errorEstimate := error }) := by
  obtain ⟨c, hc, hflat⟩ := h.dividend
  refine ⟨w.errorEstimate.onNumber (real (Real.exp (-q * b.years reference reset)) * ·), ?_⟩
  rw [(amountResults_eq_ok hw h.moneyness).mpr ⟨_, _, _, _, h.readsReset hc hflat, hvalue, rfl⟩,
    Results.asAmount, hdelta, hstrike, hvega, hrho, hdividendRho]
  rfl

/-- The results of a performance. -/
theorem performanceResults (hS : S ≠ 0) :
    ∃ error, (t.performanceResults engine w).result = .ok
      (let t₁ := b.years reference reset
      let p := Real.exp (-r * t₁) / S
      { Results.blank with
        value := .number (real (p * v))
        delta := .number (real 0)
        gamma := .number (real 0)
        theta := .number (real (r * (p * v)))
        vega := .number (real (p * ν))
        rho := .number (real (-t₁ * (p * v) + p * ρ))
        dividendRho := .number (real (p * ψ))
        errorEstimate := error }) := by
  obtain ⟨c, hc, hflat⟩ := h.riskFree
  have hshare := congrArg Outcome.result
    (Outcome.divide_real (Real.exp (-r * b.years reference reset)) hS)
  refine ⟨w.errorEstimate.onNumber (real (Real.exp (-r * b.years reference reset) / S) * ·), ?_⟩
  rw [(performanceResults_eq_ok hw h.underlying).mpr
      ⟨_, _, _, _, _, h.readsReset hc hflat, hshare, hvalue, rfl⟩,
    Results.asPerformance, hvega, hrho, hdividendRho]
  rfl

end Terms.StartsOnFlatCurves

/-! ## Their derivatives -/

section Derivatives

variable {V : ℝ → ℝ → ℝ → ℝ → ℝ → ℝ → ℝ} {S m σ r q τ t₁ : ℝ}

/-- The strike moves with the underlying. -/
theorem hasDerivAt_moving_strike {δ κ : ℝ} (hV : DifferentiableAt ℝ ↿V (S, m * S, σ, r, q, τ))
    (hδ : HasDerivAt (fun s => V s (m * S) σ r q τ) δ S)
    (hκ : HasDerivAt (fun k => V S k σ r q τ) κ (m * S)) :
    HasDerivAt (fun s => V s (m * s) σ r q τ) (δ + m * κ) S := by
  obtain ⟨L, hL⟩ := hV
  have hrest (x : ℝ) : HasDerivAt (fun _ : ℝ => (σ, r, q, τ)) 0 x := hasDerivAt_const x _
  have hspot := hL.comp_hasDerivAt S
    ((hasDerivAt_id S).prodMk ((hasDerivAt_const S (m * S)).prodMk (hrest S)))
  have hstrike := hL.comp_hasDerivAt (m * S)
    ((hasDerivAt_const (m * S) S).prodMk ((hasDerivAt_id (m * S)).prodMk (hrest (m * S))))
  have hboth := hL.comp_hasDerivAt S
    ((hasDerivAt_id S).prodMk (((hasDerivAt_id S).const_mul m).prodMk (hrest S)))
  have hsum : L (1, m * 1, 0) = δ + m * κ := by
    have hdirection : ((1, m * 1, 0) : ℝ × ℝ × ℝ × ℝ × ℝ × ℝ) = (1, 0, 0) + m • (0, 1, 0) := by
      simp
    rw [hδ.unique hspot, hκ.unique hstrike, hdirection, map_add, map_smul, smul_eq_mul]
  rw [← hsum]
  exact hboth

/-- On a homogeneous price an amount is a multiple of the underlying, and a performance is constant. -/
theorem IsHomogeneous.startPrice_affine (hV : IsHomogeneous V) (hS : 0 < S) (hm : 0 < m)
    (style : ForwardStyle) : ∃ A B : ℝ,
    ((fun s => startPrice V m τ style s σ r q t₁) =ᶠ[𝓝 S] fun s => A * s + B) ∧
      (style = .performance → A = 0) := by
  have hmultiple : (fun s => V s (m * s) σ r q τ) =ᶠ[𝓝 S] fun s => s / S * V S (m * S) σ r q τ := by
    filter_upwards [lt_mem_nhds hS] with s hs
    rw [← hV (s / S) S (m * S) (div_pos hs hS) hS (mul_pos hm hS), mul_left_comm,
      div_mul_cancel₀ _ hS.ne']
  cases style with
  | amount =>
    refine ⟨Real.exp (-q * t₁) * (V S (m * S) σ r q τ / S), 0, ?_, fun h => nomatch h⟩
    filter_upwards [hmultiple] with s hs
    rw [startPrice, hs]
    ring
  | performance =>
    refine ⟨0, Real.exp (-r * t₁) * (V S (m * S) σ r q τ / S), ?_, fun _ => rfl⟩
    filter_upwards [hmultiple, lt_mem_nhds hS] with s hs hpos
    rw [startPrice, hs]
    field_simp
    ring

theorem hasDerivAt_of_affine {f : ℝ → ℝ} {A B x : ℝ} (h : f =ᶠ[𝓝 x] fun s => A * s + B) :
    HasDerivAt f A x ∧ HasDerivAt (deriv f) 0 x := by
  have haffine (s : ℝ) : HasDerivAt (fun s => A * s + B) A s := by
    refine (((hasDerivAt_id s).const_mul A).add_const B).congr_deriv ?_
    exact mul_one A
  have hconstant : deriv (fun s => A * s + B) = fun _ => A := funext fun s => (haffine s).deriv
  refine ⟨(haffine x).congr_of_eventuallyEq h, ?_⟩
  have hslope := h.deriv
  rw [hconstant] at hslope
  exact (hasDerivAt_const x A).congr_of_eventuallyEq hslope

/-- The zeros of a homogeneous price are derivatives. -/
theorem IsHomogeneous.hasDerivAt_startPrice (hV : IsHomogeneous V) (hS : 0 < S) (hm : 0 < m)
    (style : ForwardStyle) :
    HasDerivAt (deriv fun s => startPrice V m τ style s σ r q t₁) 0 S ∧
      (style = .performance → HasDerivAt (fun s => startPrice V m τ style s σ r q t₁) 0 S) := by
  obtain ⟨A, B, haffine, hA⟩ := hV.startPrice_affine hS hm style
  obtain ⟨hfirst, hsecond⟩ := hasDerivAt_of_affine haffine
  exact ⟨hsecond, fun hstyle => hA hstyle ▸ hfirst⟩

variable {t : Terms Exact} {b : DayCount.Basis} {reference reset : DateTime} {w : Results Exact}

theorem Results.Differentiates.areMappable {K T : ℝ} (hw : w.Differentiates V S K σ r q T)
    (herror : w.errorEstimate.IsResult) : w.AreMappable := by
  have hslope {v : Value Exact} {f : ℝ → ℝ} {x : ℝ} (hv : v.IsSlope f x) : v.IsResult := by
    obtain ⟨y, rfl, -⟩ := hv
    exact Value.isResult_number _
  intro f hgamma htheta
  cases f
  case value => exact .inr ⟨_, hw.value⟩
  case delta => exact hslope hw.delta
  case gamma => exact absurd rfl hgamma
  case theta => exact absurd rfl htheta
  case vega => exact hslope hw.vega
  case rho => exact hslope hw.rho
  case dividendRho => exact hslope hw.dividendRho
  case strikeSensitivity => exact hslope hw.strikeSensitivity
  case errorEstimate => exact herror

/-- What the style makes of the value and the derivatives of a plain price is the value and the derivatives
of the forward-start price. -/
theorem Terms.StartsOnFlatCurves.differentiates
    (h : t.StartsOnFlatCurves b reference reset S m r q) (hS : 0 < S) (hm : 0 < m)
    (hV : DifferentiableAt ℝ ↿V (S, m * S, σ, r, q, τ)) (hw : w.Differentiates V S (m * S) σ r q τ)
    (herror : w.errorEstimate.IsResult) (style : ForwardStyle) (engine : EngineClass) :
    ∃ R, (t.forwardResults style engine w).result = .ok R ∧
      R.DifferentiatesStart V m τ style S σ r q (b.years reference reset) := by
  have hmappable : w.AreMappable := hw.areMappable herror
  obtain ⟨hvalue, ⟨δ, hδ, hdelta⟩, ⟨ν, hν, hvega⟩, ⟨ρ, hρ, hrho⟩, ⟨ψ, hψ, hdividendRho⟩, ⟨κ, hκ,
    hstrike⟩, -⟩ := hw
  cases style with
  | amount =>
    obtain ⟨error, hR⟩ := h.amountResults engine hmappable hvalue hν hρ hψ hδ hκ
    refine ⟨_, hR, ?_⟩
    constructor
    case value => rfl
    case vega => exact ⟨_, rfl, hvega.const_mul _⟩
    case rho => exact ⟨_, rfl, hrho.const_mul _⟩
    case dividendRho =>
      refine ⟨_, rfl, ((hasDerivAt_factor_rate q _).mul hdividendRho).congr_deriv ?_⟩
      ring
    case theta =>
      refine ⟨_, rfl, ((hasDerivAt_factor_time q _).mul_const _).neg.congr_deriv ?_⟩
      ring
    case zeros => exact ⟨rfl, fun h => nomatch h⟩
    case delta => exact fun _ => ⟨_, rfl, (hasDerivAt_moving_strike hV hdelta hstrike).const_mul _⟩
    case gamma => exact fun hV => ⟨0, rfl, (hV.hasDerivAt_startPrice hS hm .amount).1⟩
  | performance =>
    obtain ⟨error, hR⟩ := h.performanceResults engine hmappable hvalue hν hρ hψ hS.ne'
    refine ⟨_, hR, ?_⟩
    constructor
    case value => rfl
    case vega => exact ⟨_, rfl, hvega.const_mul _⟩
    case rho =>
      refine ⟨_, rfl, (((hasDerivAt_factor_rate r _).div_const S).mul hrho).congr_deriv ?_⟩
      ring
    case dividendRho => exact ⟨_, rfl, hdividendRho.const_mul _⟩
    case theta =>
      refine ⟨_, rfl,
        (((hasDerivAt_factor_time r _).div_const S).mul_const _).neg.congr_deriv ?_⟩
      ring
    case zeros => exact ⟨rfl, fun _ => rfl⟩
    case delta =>
      rintro (hstyle | hV)
      · cases hstyle
      · exact ⟨0, rfl, (hV.hasDerivAt_startPrice hS hm .performance).2 rfl⟩
    case gamma => exact fun hV => ⟨0, rfl, (hV.hasDerivAt_startPrice hS hm .performance).1⟩

end Derivatives

/-! ## Flat markets -/

section FlatMarket

variable {t : Terms Exact} {o : ForwardStart} {σ r q : ℝ} (h : t.Describes o)
  (hr : o.riskFree.IsFlat o.basis o.riskFree.reference r)
  (hq : o.dividend.IsFlat o.basis o.riskFree.reference q)

include h hr hq

theorem Terms.Describes.startsOnFlatCurves :
    t.StartsOnFlatCurves o.basis o.riskFree.reference o.reset o.spot o.moneyness r q :=
  ⟨h.underlying, h.moneyness, h.resetDate, ⟨_, h.riskFreeCurve, hr⟩, ⟨_, h.dividendCurve, hq⟩⟩

variable (hσ : ∀ x, o.variance x = σ * σ * x) (hstart : 0 ≤ o.start) (hlater : o.start < o.finish)

include hσ hstart hlater

/-- The option that lives from the reset date on stands on a flat market again. -/
theorem Terms.Describes.onFlatMarket {strike : Value Exact} (hstrike : strike.read = .ok (real o.strike)) :
    (t.fromReset o strike).OnFlatMarket o.basis o.reset o.maturity o.spot o.strike σ r q := by
  have hsum : o.basis.years o.riskFree.reference o.reset + o.basis.years o.reset o.maturity =
      o.finish := start_add_residual
  have hfinish : 0 ≤ o.finish := hstart.trans hlater.le
  have hvariance : ((Volatility.implied o.volatility o.reset).varianceAt (.dateTime o.maturity)
      (.number (real o.strike))).result = .ok (real (o.variance o.finish - o.variance o.start)) := by
    apply Volatility.varianceAt_implied o.volatility_dayCount (o.variance_mono hstart hfinish hlater.le)
    · rw [o.volatility_reference, hsum]
      exact o.variances _ hfinish
    · rw [o.volatility_reference]
      exact o.variances _ hstart
  have hdifference : o.variance o.finish - o.variance o.start =
      σ * σ * o.basis.years o.reset o.maturity := by
    have hsplit : o.start + o.basis.years o.reset o.maturity = o.finish := hsum
    rw [hσ, hσ]
    linear_combination -(σ * σ) * hsplit
  rw [hdifference] at hvariance
  exact ⟨Value.read_of_operand h.underlying, hstrike, h.maturity, ⟨_, rfl, hr.implied o.reset⟩,
    ⟨_, rfl, hq.implied o.reset⟩, _, rfl, hvariance⟩

/-- The formula prices the option that lives from the reset date on from the rates and the volatility. -/
theorem Terms.Describes.priceEquivalent_eq (hvalid : t.validate.result = .ok ())
    (heuropean : t.exerciseType = .exercise .european) (hS : 0 < o.spot) (hK : 0 < o.strike)
    (hT : 0 < o.basis.years o.reset o.maturity) :
    (t.priceEquivalent Terms.priceAnalytically).result =
      .ok ((Readings.ofRates o.spot o.strike σ r q (o.basis.years o.reset o.maturity) hS hK.le
        hT).greeks normal o.kind).exact.results := by
  obtain ⟨strike, hequivalent, hstrike⟩ := h.equivalent hstart
  have hmarket := h.onFlatMarket hr hq hσ hstart hlater hstrike
  rw [Terms.priceEquivalent, Outcome.result_bind_of_ok hvalid, Outcome.result_bind_of_ok hequivalent,
    Outcome.result_bind_of_ok (hmarket.validate hS hK.le hT rfl h.optionType heuropean),
    hmarket.priceAnalytically hS hK.le hT rfl h.optionType heuropean, Readings.greeks_inputs]

end FlatMarket

variable [NormalSource Exact]

/-- A decorator on flat curves publishes the derivatives of the forward-start price, whatever engine it prices
through, if that engine gives the value and the derivatives of a differentiable price of the plain option
that is left at the reset date. -/
theorem decorators_publish_derivatives {place : ℕ} {style : ForwardStyle} {inner : Engine Exact}
    (hseparate : (Engine.decorator place style inner).Separate) {d : Desk Exact} {b : DayCount.Basis}
    {reference reset : DateTime} {V : ℝ → ℝ → ℝ → ℝ → ℝ → ℝ → ℝ} {S m σ r q τ : ℝ} (hS : 0 < S)
    (hm : 0 < m) (hterms : (d.get place).terms.StartsOnFlatCurves b reference reset S m r q)
    (hV : DifferentiableAt ℝ ↿V (S, m * S, σ, r, q, τ)) {w : Results Exact}
    (hpriced : ((inner.through style (d.get place).terms).seen
      (fun d => (d.get inner.place).results) d).result = .ok w)
    (hw : w.Differentiates V S (m * S) σ r q τ) (herror : w.errorEstimate.IsResult) :
    let e := Engine.decorator place style inner
    (e.calculate.run d).1.result = .ok () ∧
      ((e.calculate.run d).2.get place).results.DifferentiatesStart V m τ style S σ r q
        (b.years reference reset) := by
  intro e
  obtain ⟨R, hR, hslopes⟩ := hterms.differentiates hS hm hV hw herror style inner.engineClass
  have hquotation : (e.quotation d).result = .ok R := by
    rw [Engine.quotation, Outcome.result_bind_of_ok hpriced, Terms.conclude,
      Outcome.result_bind_of_ok hR, Outcome.result_bind_of_ok (Terms.result_reportForward _ _ _)]
    rfl
  obtain ⟨hends, -, -, haccepted⟩ := Engine.publishes_quotation hseparate d
  have hresults : ((e.calculate.run d).2.get place).results = R := (haccepted R hquotation).1
  rw [hends, Outcome.result_map, hquotation, hresults]
  exact ⟨rfl, hslopes⟩

omit [NormalSource Exact] in
/-- An amount and a performance over the closed formula, with the reset in the middle of the year. -/
theorem decorators_publish_derivatives_over_the_formula :
    letI : NormalSource Exact := ⟨Unit, fun _ => (), fun _ => (real 0, ())⟩
    let midYear := Value.midnight ⟨2024, 7, 1, by decide, by decide, by decide⟩
    let o := ForwardStart.callOfYear midYear
    let τ := o.basis.years midYear o.maturity
    let e (style : ForwardStyle) : Engine Exact := .decorator 1 style (.analytic 0)
    let d (style : ForwardStyle) :=
      (Desk.opening [e style, .analytic 0]).after (o.history .european [] style)
    let published (style : ForwardStyle) := (((e style).calculate.run (d style)).2.get 1).results
    (published .amount).DifferentiatesStart (flatPrice .call) 1.1 τ .amount 100 0.2 0.05 0.02 o.start ∧
      (published .performance).DifferentiatesStart (flatPrice .call) 1.1 τ .performance 100 0.2 0.05 0.02
        o.start := by
  let _ : NormalSource Exact := ⟨Unit, fun _ => (), fun _ => (real 0, ())⟩
  intro midYear o τ e d published
  have hlater : o.start < o.finish := ForwardStart.callOfYear_later (by decide)
  have hstart : 0 ≤ o.start := (DayCount.Basis.years_nonneg_iff o.isActual _ _).mpr (by decide)
  have hτ : τ = 184 / 365 := by
    have hdays : midYear.microsecondsBetween o.maturity = 184 * 86400 * 10 ^ 6 := by decide
    have hactual : τ = DayCount.Basis.years .actual365 midYear o.maturity := rfl
    rw [hactual, DayCount.Basis.years, DayCount.Basis.days_of_isActual (by decide), hdays]
    norm_num [DayCount.Basis.yearLength]
  have hflat (rate : ℝ) : (Curve.discount ⟨o.riskFree.reference, [⟨real 0, real 1⟩],
      some (.number (real rate)), .standard⟩).IsFlat .actual365 o.riskFree.reference rate :=
    Curve.isFlat_of_flatRate (f := .number (real rate)) rfl rfl rfl
  have huncertain : (1e-300 : ℝ) < 0.2 * √τ := by
    have hroot : (1 : ℝ) / 2 ≤ √τ := by
      rw [hτ]
      exact Real.le_sqrt_of_sq_le (by norm_num)
    linarith [Readings.cutoff_le]
  have hspot : (0 : ℝ) < 100 := by norm_num
  have hmoneyness : (0 : ℝ) < 1.1 := by norm_num
  have hstrike : (0 : ℝ) < 1.1 * 100 := mul_pos hmoneyness hspot
  have hlife : 0 < τ := by
    rw [hτ]
    norm_num
  have hpublishes (style : ForwardStyle) :
      (published style).DifferentiatesStart (flatPrice .call) 1.1 τ style 100 0.2 0.05 0.02 o.start := by
    have hterms : ((d style).get 1).terms = o.terms .european [] :=
      congrArg Cell.terms (o.get_after_history .european [] style)
    have hdescribes : ((d style).get 1).terms.Describes o := by
      rw [hterms]
      exact o.describes_terms .european []
    have hvalid : ((d style).get 1).terms.validate.result = .ok () := by
      rw [hterms]
      exact ForwardStart.callOfYear_valid (.inl rfl) (by decide) (by decide)
    have hplain : ((d style).get 0).terms.IsPlain :=
      Desk.isPlain_after (p := 0) (o.history .european [] style) Terms.isPlain_blank
    have hprice := hdescribes.priceEquivalent_eq (σ := 0.2) (hflat 0.05) (hflat 0.02) (fun _ => rfl)
      hstart hlater hvalid (by rw [hterms]; rfl) hspot hstrike hlife
    have hformula : (Engine.analytic 0 : Engine Exact).price? = some Terms.priceAnalytically := rfl
    have hpriced : (((Engine.analytic 0).through style ((d style).get 1).terms).seen
        (fun d => (d.get 0).results) (d style)).result = _ :=
      (congrArg Outcome.result (Engine.seen_through hformula style _ hplain)).trans hprice
    exact (decorators_publish_derivatives (V := flatPrice .call)
      ((WellPlaced.formula_and_decorator style).separate List.mem_cons_self)
      hspot hmoneyness (hdescribes.startsOnFlatCurves (hflat 0.05) (hflat 0.02))
      (differentiableAt_flatPrice hspot hstrike (by norm_num) hlife huncertain .call) hpriced
      (differentiates_of_uncertain hspot hstrike (by norm_num) hlife huncertain .call)
      Value.isResult_null).2
  exact ⟨hpublishes .amount, hpublishes .performance⟩

end OptionDesk
