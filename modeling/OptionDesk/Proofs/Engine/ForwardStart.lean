import OptionDesk.Proofs.Curve.Reanchoring
import OptionDesk.Proofs.Engine.Isolation
import OptionDesk.Proofs.Engine.Mapping
import OptionDesk.Proofs.Formula.Values

/-!
# Forward-start options by the closed formula

A decorator over the closed formula prices the plain option that lives from the reset date on, with
both curves and the variance seen from there. Quotients and differences bring everything back to the
reference date: the published value is the closed formula on the forward variance and the forward
factors, times the factor that the style of the decorator discounts with.
-/
namespace OptionDesk

open Exact

/-- Figures that count as numbers multiply as numbers. -/
theorem Figure.times_real {f g : Figure Exact} {a b : ℝ} (hf : f.operand = .ok (real a))
    (hg : g.operand = .ok (real b)) : ∃ h, f.times g = .ok h ∧ h.read = .ok (real (a * b)) := by
  have hcount {f : Figure Exact} {n : ℤ} {a : ℝ} (hn : f.count? = some n)
      (hf : f.operand = .ok (real a)) : a = n := by
    cases f with
    | whole k =>
      cases hn
      exact (real.inj (Except.ok.inj hf)).symm
    | truth c => cases c <;> cases hn <;> simpa [operand, eq_comm] using hf
    | _ => cases hn
  unfold times
  split
  · cases hf
  · cases hg
  · cases hf
  · cases hg
  split
  · next m n hm hn =>
    refine ⟨_, rfl, ?_⟩
    rw [hcount hm hf, hcount hn hg, ← Int.cast_mul]
    rfl
  · rw [hf, hg]
    exact ⟨_, rfl, rfl⟩

theorem Value.times_real {v w : Value Exact} {a b : ℝ} (hv : v.operand = .ok (real a))
    (hw : w.operand = .ok (real b)) : ∃ u, v.times w = .ok u ∧ u.read = .ok (real (a * b)) := by
  cases v with
  | figure f => cases w with
    | figure g =>
      obtain ⟨h, htimes, hread⟩ := Figure.times_real hv hw
      exact ⟨.figure h, by rw [times, htimes]; rfl, hread⟩
    | _ => cases hw
  | _ => cases hv

theorem Value.read_of_operand {v : Value Exact} {x : Exact} (h : v.operand = .ok x) :
    v.read = .ok x := by
  cases v with
  | figure f => exact Figure.read_of_operand h
  | _ => cases h

/-- A view is taken from a date that is not before the curve's own. -/
theorem Value.curveFrom_eq_ok {α : Type} {c : Curve α} {r : DateTime} {v : Value α} :
    ((curve c).curveFrom (.dateTime r)).result = .ok v ↔
      r.before c.reference = false ∧ v = curve (.implied c r) := by
  rw [curveFrom, asCurve, pure_bind, Outcome.result_bind_eq_ok]
  simp only [Curve.result_impliedAt, Outcome.result_pure, Except.ok.injEq]
  constructor
  · rintro ⟨_, ⟨hr, rfl⟩, rfl⟩
    exact ⟨hr, rfl⟩
  · rintro ⟨hr, rfl⟩
    exact ⟨_, ⟨hr, rfl⟩, rfl⟩

/-- A volatility is taken over from a date as a curve is. -/
theorem Value.volatilityFrom_eq_ok {α : Type} {v : Volatility α} {r : DateTime} {w : Value α} :
    ((volatility v).volatilityFrom (.dateTime r)).result = .ok w ↔
      r.before v.reference = false ∧ w = volatility (.implied v r) := by
  rw [volatilityFrom, asVolatility, pure_bind, Outcome.result_bind_eq_ok]
  simp only [Volatility.result_impliedAt, Outcome.result_pure, Except.ok.injEq]
  constructor
  · rintro ⟨_, ⟨hr, rfl⟩, rfl⟩
    exact ⟨hr, rfl⟩
  · rintro ⟨hr, rfl⟩
    exact ⟨_, ⟨hr, rfl⟩, rfl⟩

/-- A forward-start option on a market in real numbers. Both curves and the volatility have one reference
date and one day count of elapsed time, the curves have positive factors, and the total variance at
the strike does not decrease in time. -/
structure ForwardStart where
  kind : OptionType
  spot : ℝ
  moneyness : ℝ
  riskFree : Curve Exact
  dividend : Curve Exact
  volatility : Volatility Exact
  reset : DateTime
  maturity : DateTime
  basis : DayCount.Basis
  riskFreeFactor : ℝ → ℝ
  dividendFactor : ℝ → ℝ
  variance : ℝ → ℝ
  isActual : basis.IsActual
  riskFree_dayCount : riskFree.dayCount = .basis basis
  dividend_dayCount : dividend.dayCount = .basis basis
  volatility_dayCount : volatility.dayCount = .basis basis
  dividend_reference : dividend.reference = riskFree.reference
  volatility_reference : volatility.reference = riskFree.reference
  riskFree_factors : riskFree.HasFactors riskFreeFactor
  dividend_factors : dividend.HasFactors dividendFactor
  variances : ∀ x : ℝ, 0 ≤ x →
    (volatility.varianceAt (.number (real x)) (.number (real (moneyness * spot)))).result =
      .ok (real (variance x))
  variance_mono : MonotoneOn variance (Set.Ici 0)

namespace ForwardStart

noncomputable section

variable (o : ForwardStart)

/-- Years to the reset date. -/
def start : ℝ := o.basis.years o.riskFree.reference o.reset

/-- Years to maturity. -/
def finish : ℝ := o.basis.years o.riskFree.reference o.maturity

def strike : ℝ := o.moneyness * o.spot

/-- The closed formula from the reset date on. -/
def plainPrice : ℝ :=
  blackScholes o.kind o.spot o.strike (o.variance o.finish - o.variance o.start)
    (o.riskFreeFactor o.finish / o.riskFreeFactor o.start)
    (o.dividendFactor o.finish / o.dividendFactor o.start)

/-- An amount is discounted by the dividends up to the reset date, and a performance at the risk-free
rate and per unit of the underlying. -/
def price : ForwardStyle → ℝ
  | .amount => o.dividendFactor o.start * o.plainPrice
  | .performance => o.riskFreeFactor o.start / o.spot * o.plainPrice

end

end ForwardStart

namespace Terms

variable {t : Terms Exact} {o : ForwardStart}

/-- The terms of a forward-start option, with numbers for the underlying and the moneyness. -/
structure Describes (t : Terms Exact) (o : ForwardStart) : Prop where
  optionType : t.optionType = .optionType o.kind
  underlying : t.underlying.operand = .ok (real o.spot)
  moneyness : t.moneyness.operand = .ok (real o.moneyness)
  riskFreeCurve : t.riskFreeCurve = .curve o.riskFree
  dividendCurve : t.dividendCurve = .curve o.dividend
  volSurface : t.volSurface = .volatility o.volatility
  resetDate : t.resetDate = .dateTime o.reset
  maturity : t.maturity = .dateTime o.maturity

/-- The option that lives from the reset date on, with a strike in whatever form. -/
def fromReset (t : Terms Exact) (o : ForwardStart) (strike : Value Exact) : Terms Exact :=
  { Terms.blank .plain with
    optionType := t.optionType
    underlying := t.underlying
    strike
    dividendCurve := .curve (.implied o.dividend o.reset)
    riskFreeCurve := .curve (.implied o.riskFree o.reset)
    volSurface := .volatility (.implied o.volatility o.reset)
    exerciseType := t.exerciseType
    stoppingTimes := t.stoppingTimes
    maturity := t.maturity }

theorem equivalent_of_parts {strike dividendCurve riskFreeCurve volSurface : Value Exact}
    (hstrike : t.moneyness.times t.underlying = .ok strike)
    (hdividend : (t.dividendCurve.curveFrom t.resetDate).result = .ok dividendCurve)
    (hriskFree : (t.riskFreeCurve.curveFrom t.resetDate).result = .ok riskFreeCurve)
    (hvolatility : (t.volSurface.volatilityFrom t.resetDate).result = .ok volSurface) :
    t.equivalent.result = .ok { Terms.blank .plain with
      optionType := t.optionType
      underlying := t.underlying
      strike
      dividendCurve
      riskFreeCurve
      volSurface
      exerciseType := t.exerciseType
      stoppingTimes := t.stoppingTimes
      maturity := t.maturity } := by
  rw [equivalent, hstrike, Outcome.ofMisuse_ok, pure_bind, Outcome.result_bind_of_ok hdividend,
    Outcome.result_bind_of_ok hriskFree, Outcome.result_bind_of_ok hvolatility, Outcome.result_pure]

section

variable (h : t.Describes o)

include h

theorem Describes.resetTime : t.resetTime.result = .ok (real o.start) := by
  rw [Terms.resetTime, h.riskFreeCurve, h.resetDate]
  exact congrArg Outcome.result (Curve.anchorTo_eq o.riskFree_dayCount o.reset)

theorem Describes.maturityTime : t.maturityTime.result = .ok (real o.finish) := by
  rw [Terms.maturityTime, h.riskFreeCurve, h.maturity]
  exact congrArg Outcome.result (Curve.anchorTo_eq o.riskFree_dayCount o.maturity)

/-- Validation sees to the signs of what the terms say. -/
theorem Describes.signs (hvalid : t.PlainValid ∧ t.ResetValid) :
    0 < o.spot ∧ 0 < o.moneyness ∧ 0 ≤ o.start := by
  obtain ⟨s, hs, hspot⟩ := hvalid.1.underlying
  obtain ⟨m, hm, hmoneyness⟩ := hvalid.2.moneyness
  obtain ⟨r, -, hr, -, htime, -⟩ := hvalid.2.times
  have hspot' := Except.ok.inj (hspot.symm.trans (Value.read_of_operand h.underlying))
  have hmoneyness' := Except.ok.inj (hmoneyness.symm.trans (Value.read_of_operand h.moneyness))
  have htime' := Except.ok.inj (htime.symm.trans h.resetTime)
  rw [real.injEq] at hspot' hmoneyness' htime'
  rw [← hspot', ← hmoneyness', ← htime']
  exact ⟨hs, hm, hr⟩

theorem Describes.equivalent (hstart : 0 ≤ o.start) :
    ∃ strike, t.equivalent.result = .ok (t.fromReset o strike) ∧
      strike.read = .ok (real o.strike) := by
  obtain ⟨strike, htimes, hread⟩ := Value.times_real h.moneyness h.underlying
  have hreset : o.reset.before o.riskFree.reference = false :=
    (DayCount.Basis.years_nonneg_iff o.isActual _ _).mp hstart
  have hriskFree : (t.riskFreeCurve.curveFrom t.resetDate).result =
      .ok (.curve (.implied o.riskFree o.reset)) := by
    rw [h.riskFreeCurve, h.resetDate]
    exact Value.curveFrom_eq_ok.mpr ⟨hreset, rfl⟩
  have hdividend : (t.dividendCurve.curveFrom t.resetDate).result =
      .ok (.curve (.implied o.dividend o.reset)) := by
    rw [h.dividendCurve, h.resetDate]
    exact Value.curveFrom_eq_ok.mpr ⟨by rw [o.dividend_reference, hreset], rfl⟩
  have hvolatility : (t.volSurface.volatilityFrom t.resetDate).result =
      .ok (.volatility (.implied o.volatility o.reset)) := by
    rw [h.volSurface, h.resetDate]
    exact Value.volatilityFrom_eq_ok.mpr ⟨by rw [o.volatility_reference, hreset], rfl⟩
  exact ⟨strike, equivalent_of_parts htimes hdividend hriskFree hvolatility, hread⟩

end

/-- The years from the reset date on. -/
theorem start_add_residual : o.start + o.basis.years o.reset o.maturity = o.finish :=
  DayCount.Basis.years_add o.isActual _ _ _

/-- What the formula reads off the option that lives from the reset date on. -/
theorem Describes.reads (h : t.Describes o) (hvalid : t.PlainValid ∧ t.ResetValid)
    (hlater : o.start < o.finish) {strike : Value Exact}
    (hstrike : strike.read = .ok (real o.strike)) :
    ∃ x : Readings, (t.fromReset o strike).Reads x ∧
      (x.greeks normal o.kind).value = o.plainPrice := by
  obtain ⟨hspot, hmoneyness, hstart⟩ := h.signs hvalid
  have hsum : o.basis.years o.riskFree.reference o.reset + o.basis.years o.reset o.maturity =
      o.finish := start_add_residual
  have hresidual : 0 < o.basis.years o.reset o.maturity := by
    have hstartsum := start_add_residual (o := o)
    linarith
  have hfinish : 0 ≤ o.finish := hstart.trans hlater.le
  have hincrease : o.variance o.start ≤ o.variance o.finish :=
    o.variance_mono hstart hfinish hlater.le
  have hvariance : ((Volatility.implied o.volatility o.reset).varianceAt (.dateTime o.maturity)
      (.number (real o.strike))).result = .ok (real (o.variance o.finish - o.variance o.start)) := by
    apply Volatility.varianceAt_implied o.volatility_dayCount hincrease
    · rw [o.volatility_reference, hsum]
      exact o.variances o.finish hfinish
    · rw [o.volatility_reference]
      exact o.variances o.start hstart
  obtain ⟨x, hreads, hvalue⟩ := exists_reads_of_factors (t := t.fromReset o strike) hspot
    (mul_pos hmoneyness hspot).le (sub_nonneg.mpr hincrease) hresidual
    (Value.read_of_operand h.underlying) hstrike h.maturity rfl o.riskFree_dayCount
    (o.riskFree_factors.implied o.riskFree_dayCount o.reset) rfl o.dividend_dayCount
    (o.dividend_factors.implied o.dividend_dayCount o.reset) rfl hvariance
  refine ⟨x, hreads, ?_⟩
  rw [hvalue, Curve.reference_implied, Curve.reference_implied, o.dividend_reference, hsum]
  rfl

/-- The option that lives from the reset date on is valid. -/
theorem plainValid_fromReset (hvalid : t.PlainValid ∧ t.ResetValid)
    {strike : Value Exact} {x : Readings} (hreads : (t.fromReset o strike).Reads x) :
    (t.fromReset o strike).PlainValid :=
  ⟨hvalid.1.optionType, hvalid.1.exercise, hvalid.1.underlying,
    .inr ⟨x.strike, x.strike_nonneg, hreads.strike⟩, ⟨_, rfl⟩, ⟨_, rfl⟩, ⟨_, rfl⟩, hvalid.1.maturity,
    x.time, x.time_pos, hreads.time⟩

/-- The price of the equivalent option is the price of the one that lives from the reset date on. -/
theorem Describes.exists_priceEquivalent_eq (h : t.Describes o) (hform : t.form = .forward)
    (hvalid : t.validate.result = .ok ()) (hlater : o.start < o.finish) :
    ∃ (strike : Value Exact) (x : Readings), (t.fromReset o strike).Reads x ∧
      (x.greeks normal o.kind).value = o.plainPrice ∧
      (t.fromReset o strike).validate.result = .ok () ∧
      ∀ price : Terms Exact → Outcome Exact (Results Exact),
        (t.priceEquivalent price).result = (price (t.fromReset o strike)).result := by
  have hchecks := (validate_forward_eq_ok hform).mp hvalid
  obtain ⟨-, -, hstart⟩ := h.signs hchecks
  obtain ⟨strike, hequivalent, hstrike⟩ := h.equivalent hstart
  obtain ⟨x, hx, hvalue⟩ := h.reads hchecks hlater hstrike
  have hplain : (t.fromReset o strike).validate.result = .ok () :=
    (validate_plain_eq_ok rfl).mpr (plainValid_fromReset hchecks hx)
  refine ⟨strike, x, hx, hvalue, hplain, fun price => ?_⟩
  rw [Terms.priceEquivalent, Outcome.result_bind_of_ok hvalid, Outcome.result_bind_of_ok hequivalent,
    Outcome.result_bind_of_ok hplain]

/-- The equivalent option is priced at the closed formula. -/
theorem Describes.priceEquivalent (h : t.Describes o) (hform : t.form = .forward)
    (hvalid : t.validate.result = .ok ()) (heuropean : t.exerciseType = .exercise .european)
    (hlater : o.start < o.finish) :
    ∃ g : AnalyticGreeks ℝ, (t.priceEquivalent Terms.priceAnalytically).result = .ok g.exact.results ∧
      g.value = o.plainPrice := by
  obtain ⟨strike, x, hx, hvalue, hplain, hprice⟩ := h.exists_priceEquivalent_eq hform hvalid hlater
  refine ⟨x.greeks normal o.kind, ?_, hvalue⟩
  rw [hprice, hx.priceAnalytically hplain heuropean h.optionType, Readings.greeks_inputs]

/-- Every result of the formula is discounted as an amount. -/
theorem amountResults_value {g : AnalyticGreeks ℝ} {c : Curve Exact} {m r p y : ℝ}
    (engine : EngineClass) (hmoneyness : t.moneyness.operand = .ok (real m))
    (htime : t.resetTime.result = .ok (real r)) (hc : t.dividendCurve = .curve c)
    (hfactor : (c.discountAt t.resetDate).result = .ok (real p))
    (hyield : (c.zeroYield t.resetDate).result = .ok (real y)) :
    (t.amountResults engine g.exact.results).result.map Results.value =
      .ok (.number (real (p * g.value))) := by
  have hmappable : g.exact.results.AreMappable := fun f _ _ => (AnalyticGreeks.covers_results _ f).1
  rw [(amountResults_eq_ok hmappable hmoneyness).mpr
    ⟨_, _, _, real g.value, ⟨htime, c, hc, hfactor, hyield⟩, rfl, rfl⟩]
  rfl

theorem performanceResults_value {g : AnalyticGreeks ℝ} {c : Curve Exact} {u r p y : ℝ}
    (engine : EngineClass) (hu : u ≠ 0) (hunderlying : t.underlying.operand = .ok (real u))
    (htime : t.resetTime.result = .ok (real r)) (hc : t.riskFreeCurve = .curve c)
    (hfactor : (c.discountAt t.resetDate).result = .ok (real p))
    (hyield : (c.zeroYield t.resetDate).result = .ok (real y)) :
    (t.performanceResults engine g.exact.results).result.map Results.value =
      .ok (.number (real (p / u * g.value))) := by
  have hmappable : g.exact.results.AreMappable := fun f _ _ => (AnalyticGreeks.covers_results _ f).1
  have hshare := congrArg Outcome.result (Outcome.divide_real p hu)
  rw [(performanceResults_eq_ok hmappable hunderlying).mpr
    ⟨_, _, _, _, real g.value, ⟨htime, c, hc, hfactor, hyield⟩, hshare, rfl, rfl⟩]
  rfl

/-- The price of a forward-start option through the closed formula. -/
theorem Describes.priceForward (h : t.Describes o) (hform : t.form = .forward)
    (hvalid : t.validate.result = .ok ()) (heuropean : t.exerciseType = .exercise .european)
    (hlater : o.start < o.finish) (style : ForwardStyle) (engine : EngineClass) :
    (t.priceForward style engine Terms.priceAnalytically).result.map Results.value =
      .ok (.number (real (o.price style))) := by
  obtain ⟨g, hprice, hvalue⟩ := h.priceEquivalent hform hvalid heuropean hlater
  obtain ⟨hspot, -, -⟩ := h.signs ((validate_forward_eq_ok hform).mp hvalid)
  have hforward : (t.forwardResults style engine g.exact.results).result.map Results.value =
      .ok (.number (real (o.price style))) := by
    rw [ForwardStart.price.eq_def, ← hvalue]
    cases style with
    | amount =>
      have htime := Curve.timeTo_dateTime o.dividend_dayCount o.reset
      obtain ⟨y, hy⟩ := o.dividend_factors.zeroYield htime
      have hfactor := o.dividend_factors.factor_of_date o.dividend_dayCount o.reset
      rw [o.dividend_reference] at hfactor
      rw [← h.resetDate] at hy hfactor
      exact amountResults_value engine h.moneyness h.resetTime h.dividendCurve hfactor hy
    | performance =>
      have htime := Curve.timeTo_dateTime o.riskFree_dayCount o.reset
      obtain ⟨y, hy⟩ := o.riskFree_factors.zeroYield htime
      have hfactor := o.riskFree_factors.factor_of_date o.riskFree_dayCount o.reset
      rw [← h.resetDate] at hy hfactor
      exact performanceResults_value engine hspot.ne' h.underlying h.resetTime h.riskFreeCurve hfactor hy
  rw [Terms.priceForward, Outcome.result_bind_of_ok hprice, conclude]
  cases hresults : (t.forwardResults style engine g.exact.results).result with
  | error e =>
    rw [hresults] at hforward
    cases hforward
  | ok r =>
    rw [hresults] at hforward
    rw [Outcome.result_bind_of_ok hresults, Outcome.result_bind_of_ok (t.result_reportForward style r)]
    exact hforward

/-- The formula refuses whatever can be exercised early, which validation lets through. -/
theorem Describes.priceForward_refused (h : t.Describes o) (hform : t.form = .forward)
    (hvalid : t.validate.result = .ok ()) {exercise : ExerciseType}
    (hexercise : t.exerciseType = .exercise exercise) (hearly : exercise ≠ .european)
    (hlater : o.start < o.finish) (style : ForwardStyle) (engine : EngineClass) :
    (t.priceForward style engine Terms.priceAnalytically).result =
      .error (.engine (.exerciseNotEuropean .analytic exercise)) := by
  obtain ⟨strike, -, -, -, hplain, hprice⟩ := h.exists_priceEquivalent_eq hform hvalid hlater
  have hexercise' : (t.fromReset o strike).exercise = pure exercise := by
    rw [Terms.exercise, fromReset, hexercise]
  apply Outcome.result_bind_of_error
  rw [hprice, Terms.priceAnalytically, Outcome.result_bind_of_ok hplain, hexercise', pure_bind]
  apply Outcome.result_bind_of_error
  rw [Outcome.require_of_not hearly, Outcome.result_fail]

/-- The plain option of today at a strike. -/
def plainAt (t : Terms Exact) (strike : Value Exact) : Terms Exact :=
  { t with form := .plain, strike, moneyness := .null, resetDate := .null }

/-- From the reference date on, the plain option is priced like the amount. -/
theorem Describes.price_plainAt (h : t.Describes o) (hform : t.form = .forward)
    (hvalid : t.validate.result = .ok ()) (heuropean : t.exerciseType = .exercise .european)
    (hlater : o.start < o.finish) (hstart : o.start = 0) (hriskFree : o.riskFreeFactor 0 = 1)
    (hdividend : o.dividendFactor 0 = 1) {strike : Value Exact}
    (hstrike : strike.read = .ok (real o.strike)) :
    (t.plainAt strike).priceAnalytically.result.map Results.value =
      .ok (.number (real (o.price .amount))) := by
  have hchecks := (validate_forward_eq_ok hform).mp hvalid
  obtain ⟨hspot, hmoneyness, -⟩ := h.signs hchecks
  have hfinish : 0 < o.finish := by rwa [hstart] at hlater
  have hzero : o.variance 0 = 0 := Volatility.varianceAt_zero (o.variances 0 le_rfl)
  have hnonneg : 0 ≤ o.variance o.finish := by
    rw [← hzero]
    exact o.variance_mono (Set.mem_Ici.mpr le_rfl) hfinish.le hfinish.le
  have hvariance : (o.volatility.varianceAt (.dateTime o.maturity) (.number (real o.strike))).result =
      .ok (real (o.variance o.finish)) := by
    rw [Volatility.varianceAt_dateTime o.volatility_dayCount, o.volatility_reference]
    exact o.variances o.finish hfinish.le
  obtain ⟨x, hreads, hvalue⟩ := exists_reads_of_factors (t := t.plainAt strike) hspot
    (mul_pos hmoneyness hspot).le hnonneg hfinish (Value.read_of_operand h.underlying) hstrike h.maturity
    h.riskFreeCurve o.riskFree_dayCount o.riskFree_factors h.dividendCurve o.dividend_dayCount
    o.dividend_factors h.volSurface hvariance
  have hplain : (t.plainAt strike).PlainValid :=
    ⟨hchecks.1.optionType, hchecks.1.exercise, hchecks.1.underlying,
      .inr ⟨x.strike, x.strike_nonneg, hreads.strike⟩, hchecks.1.dividendCurve, hchecks.1.riskFreeCurve,
      hchecks.1.volSurface, hchecks.1.maturity, hchecks.1.maturityTime⟩
  have hamount : o.price .amount = blackScholes o.kind o.spot o.strike (o.variance o.finish)
      (o.riskFreeFactor o.finish) (o.dividendFactor o.finish) := by
    simp only [ForwardStart.price, ForwardStart.plainPrice, hstart, hriskFree, hdividend, hzero, sub_zero,
      div_one, one_mul]
  have hprice := hreads.priceAnalytically ((validate_plain_eq_ok rfl).mpr hplain) heuropean h.optionType
  have hpublished : (x.inputs.greeks o.kind).results.value =
      .number (real (x.greeks normal o.kind).value) := by
    rw [Readings.greeks_inputs]
    rfl
  rw [hprice, hamount]
  show Except.ok (x.inputs.greeks o.kind).results.value = _
  rw [hpublished, hvalue, o.dividend_reference]
  rfl

end Terms

/-- A calculation that succeeds publishes the value of its quotation. -/
theorem Engine.value_of_quotation [NormalSource Exact] {e : Engine Exact} (he : e.Separate)
    {d : Desk Exact} {v : Value Exact}
    (h : (e.quotation d).result.map Results.value = .ok v) :
    (e.calculate.run d).1.result = .ok () ∧ ((e.calculate.run d).2.get e.place).results.value = v := by
  obtain ⟨hends, -, -, haccepted⟩ := Engine.publishes_quotation he d
  cases hquote : (e.quotation d).result with
  | error error =>
    rw [hquote] at h
    cases h
  | ok r =>
    rw [hquote] at h
    rw [hends, Outcome.result_map, hquote, (haccepted r hquote).1]
    exact ⟨rfl, Except.ok.inj h⟩

section

variable [NormalSource Exact] {engines : List (Engine Exact)}

/-- Over any history of the desk, a decorator over the closed formula quotes the price of its terms. -/
theorem WellPlaced.quotation_over_formula (h : WellPlaced engines) {p q : ℕ} {style : ForwardStyle}
    (hmem : .decorator q style (.analytic p) ∈ engines)
    (history : List (Engine Exact × EngineAction Exact)) :
    let d := (Desk.opening engines).after history
    (Engine.decorator q style (.analytic p)).quotation d =
      (d.get q).terms.priceForward style .analytic Terms.priceAnalytically :=
  h.quotation_decorator hmem rfl history

/-- Over any history of the desk, a decorator over the closed formula publishes the price of a
European forward-start option: the closed formula on the forward variance and the forward factors,
discounted in its style. A reset at the reference date, where the factors are one, leaves the value of
the plain option at the strike. -/
theorem forward_start_closed_form (hplaced : WellPlaced engines) {p q : ℕ} {style : ForwardStyle}
    (hmem : .decorator q style (.analytic p) ∈ engines)
    (history : List (Engine Exact × EngineAction Exact)) {o : ForwardStart}
    (hvalid : (((Desk.opening engines).after history).get q).terms.validate.result = .ok ())
    (ho : (((Desk.opening engines).after history).get q).terms.Describes o)
    (heuropean : (((Desk.opening engines).after history).get q).terms.exerciseType =
      .exercise .european)
    (hlater : o.start < o.finish) :
    let d := (Desk.opening engines).after history
    let e : Engine Exact := .decorator q style (.analytic p)
    (e.calculate.run d).1.result = .ok () ∧
      ((e.calculate.run d).2.get q).results.value = .number (real (o.price style)) ∧
      (o.start = 0 → o.riskFreeFactor 0 = 1 → o.dividendFactor 0 = 1 →
        ∀ (d' : Desk Exact) (place : ℕ) (strike : Value Exact), strike.read = .ok (real o.strike) →
          (d'.get place).terms = (d.get q).terms.plainAt strike →
          ((Engine.analytic place).calculate.run d').1.result = .ok () ∧
            (((Engine.analytic place).calculate.run d').2.get place).results.value =
              .number (real (o.price .amount))) := by
  intro d e
  have hform : (d.get q).terms.form = .forward := hplaced.form_after hmem history
  have hquotation : (e.quotation d).result.map Results.value = .ok (.number (real (o.price style))) := by
    rw [hplaced.quotation_over_formula hmem history]
    exact ho.priceForward hform hvalid heuropean hlater style .analytic
  obtain ⟨hends, hvalue⟩ := Engine.value_of_quotation (hplaced.separate hmem) hquotation
  refine ⟨hends, hvalue, fun hstart hriskFree hdividend d' place strike hstrike hterms => ?_⟩
  apply Engine.value_of_quotation (Engine.separate_of_price? rfl)
  rw [Engine.quotation, hterms]
  exact ho.price_plainAt hform hvalid heuropean hlater hstart hriskFree hdividend hstrike

end

namespace ForwardStart

noncomputable section

/-- A forward-start option on flat curves under a constant volatility. -/
def onFlatCurves (kind : OptionType) (spot moneyness riskFreeRate dividendYield level : ℝ)
    (reference reset maturity : DateTime) : ForwardStart where
  kind
  spot
  moneyness
  riskFree := .discount ⟨reference, [⟨real 0, real 1⟩], some (.number (real riskFreeRate)), .standard⟩
  dividend := .discount ⟨reference, [⟨real 0, real 1⟩], some (.number (real dividendYield)), .standard⟩
  volatility := .constant reference (real level) .standard
  reset
  maturity
  basis := .actual365
  riskFreeFactor x := Real.exp (-riskFreeRate * x)
  dividendFactor x := Real.exp (-dividendYield * x)
  variance x := level * level * x
  isActual := by decide
  riskFree_dayCount := rfl
  dividend_dayCount := rfl
  volatility_dayCount := rfl
  dividend_reference := rfl
  volatility_reference := rfl
  riskFree_factors := Curve.hasFactors_of_flatRate rfl
  dividend_factors := Curve.hasFactors_of_flatRate rfl
  variances _ _ := rfl
  variance_mono := fun _ _ _ _ h => mul_le_mul_of_nonneg_left h (mul_self_nonneg level)

/-- What a client fills in, under a style of exercise. -/
def fields (o : ForwardStart) (exercise : ExerciseType) (stoppingTimes : List (Value Exact)) :
    List (TermField × Value Exact) := [
  (.optionType, .optionType o.kind),
  (.underlying, .number (real o.spot)),
  (.dividendCurve, .curve o.dividend),
  (.riskFreeCurve, .curve o.riskFree),
  (.volSurface, .volatility o.volatility),
  (.exerciseType, .exercise exercise),
  (.stoppingTimes, .list stoppingTimes),
  (.maturity, .dateTime o.maturity),
  (.moneyness, .number (real o.moneyness)),
  (.resetDate, .dateTime o.reset)]

/-- The terms that a client fills in. -/
def terms (o : ForwardStart) (exercise : ExerciseType) (stoppingTimes : List (Value Exact)) :
    Terms Exact :=
  (o.fields exercise stoppingTimes).foldl (fun t p => t.set p.1 p.2) (.blank .forward)

variable (o : ForwardStart) (exercise : ExerciseType) (stoppingTimes : List (Value Exact))

theorem update_fields :
    (Terms.blank .forward).update ((o.fields exercise stoppingTimes).map fun p => (p.1.name, p.2)) =
      .ok (o.terms exercise stoppingTimes) := by
  apply Terms.update_names
  simp [fields, TermField.ofForm, TermField.plain, Terms.blank]

theorem describes_terms : (o.terms exercise stoppingTimes).Describes o :=
  ⟨rfl, rfl, rfl, rfl, rfl, rfl, rfl, rfl⟩

theorem validate_terms (hexercise : exercise = .european ∨ stoppingTimes ≠ [])
    (hspot : 0 < o.spot) (hmoneyness : 0 < o.moneyness) (hstart : 0 ≤ o.start)
    (hlater : o.start < o.finish) : (o.terms exercise stoppingTimes).validate.result = .ok () := by
  have hdescribes := o.describes_terms exercise stoppingTimes
  have hstop : exercise = .european ∨ (o.terms exercise stoppingTimes).stoppingTimes.isSet = true := by
    refine hexercise.imp_right fun hne => ?_
    obtain ⟨v, rest, rfl⟩ := List.exists_cons_of_ne_nil hne
    rfl
  refine (Terms.validate_forward_eq_ok rfl).mpr ⟨?_, ?_⟩
  · exact ⟨⟨_, rfl⟩, ⟨exercise, rfl, hstop⟩, ⟨_, hspot, rfl⟩, .inl ⟨rfl, rfl⟩, ⟨_, rfl⟩, ⟨_, rfl⟩,
      ⟨_, rfl⟩, ⟨_, rfl⟩, o.finish, hstart.trans_lt hlater, hdescribes.maturityTime⟩
  · exact ⟨⟨_, hmoneyness, rfl⟩, ⟨_, rfl⟩, o.start, o.finish, hstart, hlater.le, hdescribes.resetTime,
      hdescribes.maturityTime⟩

/-- A client fills in the terms of an engine that has blank ones. -/
theorem get_after_update [NormalSource Exact] {e : Engine Exact} {d : Desk Exact}
    (h : (d.get e.place).terms = .blank .forward) :
    (d.after [(e, .update ((o.fields exercise stoppingTimes).map fun p => (p.1.name, p.2)))]).get e.place =
      { d.get e.place with terms := o.terms exercise stoppingTimes } := by
  rw [Desk.after_update (h ▸ o.update_fields exercise stoppingTimes)]
  exact Desk.get_put_self _ _ _

/-- A client fills in the terms of a decorator. -/
def history (style : ForwardStyle) : List (Engine Exact × EngineAction Exact) :=
  [(.decorator 1 style (.analytic 0),
    .update ((o.fields exercise stoppingTimes).map fun p => (p.1.name, p.2)))]

theorem get_after_history [NormalSource Exact] (style : ForwardStyle) :
    ((Desk.opening [.decorator 1 style (.analytic 0), .analytic 0]).after
      (o.history exercise stoppingTimes style)).get 1 =
        { Cell.blank .forward with terms := o.terms exercise stoppingTimes } :=
  o.get_after_update exercise stoppingTimes (e := .decorator 1 style (.analytic 0)) rfl

/-- A call at 110 % of the spot on a reset date, which ends with the year. -/
def callOfYear (reset : DateTime) : ForwardStart :=
  onFlatCurves .call 100 1.1 0.05 0.02 0.2
    (Value.midnight ⟨2024, 1, 1, by decide, by decide, by decide⟩) reset
    (Value.midnight ⟨2025, 1, 1, by decide, by decide, by decide⟩)

variable {reset : DateTime}

theorem callOfYear_later (h : reset.before (callOfYear reset).maturity = true) :
    (callOfYear reset).start < (callOfYear reset).finish := by
  have hresidual : 0 < (callOfYear reset).basis.years reset (callOfYear reset).maturity :=
    (DayCount.Basis.years_pos_iff (callOfYear reset).isActual _ _).mpr h
  have hsum : (callOfYear reset).start +
      (callOfYear reset).basis.years reset (callOfYear reset).maturity = (callOfYear reset).finish :=
    Terms.start_add_residual
  linarith

theorem callOfYear_valid {exercise : ExerciseType} {stoppingTimes : List (Value Exact)}
    (hexercise : exercise = .european ∨ stoppingTimes ≠ [])
    (hreset : reset.before (callOfYear reset).riskFree.reference = false)
    (hlater : reset.before (callOfYear reset).maturity = true) :
    ((callOfYear reset).terms exercise stoppingTimes).validate.result = .ok () := by
  apply validate_terms _ _ _ hexercise
  · norm_num [callOfYear, onFlatCurves]
  · norm_num [callOfYear, onFlatCurves]
  · exact (DayCount.Basis.years_nonneg_iff (callOfYear reset).isActual _ _).mpr hreset
  · exact callOfYear_later hlater

end

end ForwardStart

theorem WellPlaced.formula_and_decorator {α : Type} (style : ForwardStyle) :
    WellPlaced [.decorator 1 style (.analytic 0), (.analytic 0 : Engine α)] := by
  refine (WellPlaced.nil.cons ?_ ?_).cons ?_ ?_
  all_goals simp [Engine.inner?, Engine.place]

/-- Amounts with the reset at the start of the year, which are worth what the plain option is worth, and
in the middle of it. -/
theorem forward_start_closed_form_on_flat_curves :
    letI : NormalSource Exact := ⟨Unit, fun _ => (), fun _ => (real 0, ())⟩
    let newYear := Value.midnight ⟨2024, 1, 1, by decide, by decide, by decide⟩
    let midYear := Value.midnight ⟨2024, 7, 1, by decide, by decide, by decide⟩
    let o := ForwardStart.callOfYear
    let d (reset : DateTime) := (Desk.opening [.decorator 1 .amount (.analytic 0), .analytic 0]).after
      ((o reset).history .european [] .amount)
    let today : Desk Exact := Registry.empty.put 0 { Cell.blank .plain with
      terms := ((d newYear).get 1).terms.plainAt (.number (real (1.1 * 100))) }
    (∀ reset ∈ [newYear, midYear],
      ((Engine.decorator 1 .amount (.analytic 0)).calculate.run (d reset)).1.result = .ok () ∧
      (((Engine.decorator 1 .amount (.analytic 0)).calculate.run (d reset)).2.get 1).results.value =
        .number (real ((o reset).price .amount))) ∧
      ((Engine.analytic 0).calculate.run today).1.result = .ok () ∧
      (((Engine.analytic 0).calculate.run today).2.get 0).results.value =
        .number (real ((o newYear).price .amount)) := by
  intro newYear midYear o d today
  have hpublishes (source : NormalSource Exact) (reset : DateTime) {d : Desk Exact}
      (hd : d = (Desk.opening [.decorator 1 .amount (.analytic 0), .analytic 0]).after
        ((o reset).history .european [] .amount))
      (hreset : reset.before newYear = false) (hlater : reset.before (o reset).maturity = true) :
      ((Engine.decorator 1 .amount (.analytic 0)).calculate.run d).1.result = .ok () ∧
        (((Engine.decorator 1 .amount (.analytic 0)).calculate.run d).2.get 1).results.value =
          .number (real ((o reset).price .amount)) ∧
        ((o reset).start = 0 → ∀ d' : Desk Exact,
          (d'.get 0).terms = (d.get 1).terms.plainAt (.number (real (1.1 * 100))) →
          ((Engine.analytic 0).calculate.run d').1.result = .ok () ∧
            (((Engine.analytic 0).calculate.run d').2.get 0).results.value =
              .number (real ((o reset).price .amount))) := by
    have hterms : (d.get 1).terms = (o reset).terms .european [] := by
      rw [hd]
      exact congrArg Cell.terms ((o reset).get_after_history .european [] .amount)
    have hvalid : (d.get 1).terms.validate.result = .ok () := by
      rw [hterms]
      exact ForwardStart.callOfYear_valid (.inl rfl) hreset hlater
    have hdescribes : (d.get 1).terms.Describes (o reset) := by
      rw [hterms]
      exact (o reset).describes_terms .european []
    have heuropean : (d.get 1).terms.exerciseType = .exercise .european := by
      rw [hterms]
      rfl
    have hone (rate : ℝ) : Real.exp (-rate * 0) = 1 := by rw [mul_zero, Real.exp_zero]
    subst hd
    obtain ⟨hends, hvalue, htoday⟩ := forward_start_closed_form (.formula_and_decorator .amount)
      List.mem_cons_self _ hvalid hdescribes heuropean (ForwardStart.callOfYear_later hlater)
    exact ⟨hends, hvalue, fun hstart d' => htoday hstart (hone _) (hone _) d' 0 _ rfl⟩
  refine ⟨fun reset hreset => ?_, ?_⟩
  · obtain rfl | rfl : reset = newYear ∨ reset = midYear := by simpa using hreset
    · have h := hpublishes _ newYear (d := d newYear) rfl (by decide) (by decide)
      exact ⟨h.1, h.2.1⟩
    · have h := hpublishes _ midYear (d := d midYear) rfl (by decide) (by decide)
      exact ⟨h.1, h.2.1⟩
  · have hstart : (o newYear).start = 0 := DayCount.Basis.years_self (o newYear).isActual newYear
    exact (hpublishes _ newYear (d := d newYear) rfl (by decide) (by decide)).2.2 hstart today
      (congrArg Cell.terms (Desk.get_put_self _ _ _))

/-- Validation accepts the call of a half-year with early exercise too, which the formula refuses. -/
theorem american_forward_start_refused :
    letI : NormalSource Exact := ⟨Unit, fun _ => (), fun _ => (real 0, ())⟩
    let midYear := Value.midnight ⟨2024, 7, 1, by decide, by decide, by decide⟩
    let o := ForwardStart.callOfYear midYear
    let e : Engine Exact := .decorator 1 .amount (.analytic 0)
    let d := (Desk.opening [e, .analytic 0]).after (o.history .american [.dateTime o.maturity] .amount)
    (d.get 1).terms.validate.result = .ok () ∧ (d.get 1).terms.Describes o ∧ o.start < o.finish ∧
      (e.calculate.run d).1.result = .error (.engine (.exerciseNotEuropean .analytic .american)) ∧
      ((e.calculate.run d).2.get 1).results.value ≠ .number (real (o.price .amount)) := by
  let _ : NormalSource Exact := ⟨Unit, fun _ => (), fun _ => (real 0, ())⟩
  intro midYear o e d
  have hcell := o.get_after_history .american [.dateTime o.maturity] .amount
  have hterms : (d.get 1).terms = o.terms .american [.dateTime o.maturity] := congrArg Cell.terms hcell
  have hresults : (d.get 1).results = .blank := congrArg Cell.results hcell
  have hvalid : (d.get 1).terms.validate.result = .ok () := by
    rw [hterms]
    exact ForwardStart.callOfYear_valid (.inr (List.cons_ne_nil _ _)) (by decide) (by decide)
  have hdescribes : (d.get 1).terms.Describes o := by
    rw [hterms]
    exact o.describes_terms .american _
  have hform : (d.get 1).terms.form = .forward := by
    rw [hterms]
    rfl
  have hamerican : (d.get 1).terms.exerciseType = .exercise .american := by
    rw [hterms]
    rfl
  have hlater : o.start < o.finish := ForwardStart.callOfYear_later (by decide)
  have hplaced : WellPlaced [e, .analytic 0] := .formula_and_decorator .amount
  have hquotation : (e.quotation d).result =
      .error (.engine (.exerciseNotEuropean .analytic .american)) := by
    have hquotes : e.quotation d = (d.get 1).terms.priceForward .amount .analytic
        Terms.priceAnalytically := hplaced.quotation_over_formula List.mem_cons_self _
    rw [hquotes]
    exact hdescribes.priceForward_refused hform hvalid hamerican (by decide) hlater .amount .analytic
  obtain ⟨hends, -, hrefused, -⟩ :=
    Engine.publishes_quotation (hplaced.separate List.mem_cons_self) d
  refine ⟨hvalid, hdescribes, hlater, ?_, ?_⟩
  · rw [hends, Outcome.result_map, hquotation]
    rfl
  · have hkept : ((e.calculate.run d).2.get 1).results = (d.get 1).results := (hrefused _ hquotation).1
    rw [hkept, hresults]
    exact fun h => nomatch h

end OptionDesk
