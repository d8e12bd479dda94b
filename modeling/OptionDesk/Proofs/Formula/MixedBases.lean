import OptionDesk.Proofs.Curve.Flat
import OptionDesk.Proofs.Formula.Simulation

/-!
# Terms on mixed bases

Nothing makes the two curves and the volatility of valid terms count time from one date or in one way.
The formula takes factors and a variance, each over the time of the structure that it belongs to. The
simulation takes yields and a volatility and holds all of them over the time of the risk-free curve. So
the two discount alike, but the simulation has the variance and the dividends of other times in
proportion to its own time, and agrees with the formula where the times agree.
-/
namespace OptionDesk

open Exact

namespace Curve

variable {c : Curve Exact}

theorem timeTo_of_discountAt {moment : Value Exact} {p : Exact}
    (h : (c.discountAt moment).result = .ok p) : ∃ x, (c.timeTo moment).result = .ok x := by
  cases c with
  | discount c =>
    obtain ⟨x, hx, -⟩ := Outcome.result_bind_eq_ok.mp h
    exact ⟨x, hx⟩
  | implied base r =>
    obtain ⟨_, x, _, _, -, hx, -⟩ := discountAt_implied_eq_ok.mp h
    exact ⟨x, hx⟩

/-- What a yield to a date stands for: the factor of the time that it is taken over, which is the one of
the date beyond the short end. -/
structure YieldsFactor (c : Curve Exact) (T y p p' : ℝ) : Prop where
  positive : 0 < p'
  factor : (c.discountAt (.number (real (max T 1e-4)))).result = .ok (real p')
  yield : Real.exp (-y * max T 1e-4) = p'
  late : 1e-4 ≤ T → p' = p

theorem exists_yieldsFactor (hc : c.IsReal) {d : DateTime} {y p : ℝ}
    (hfactor : (c.discountAt (.dateTime d)).result = .ok (real p))
    (hyield : (c.zeroYield (.dateTime d)).result = .ok (real y)) :
    ∃ T p', (c.timeTo (.dateTime d)).result = .ok (real T) ∧ c.YieldsFactor T y p p' := by
  obtain ⟨x, hx⟩ := timeTo_of_discountAt hfactor
  obtain ⟨b, hb, rfl⟩ := DayCount.basis_of_yearFraction hx
  obtain ⟨P, hP⟩ := exists_hasFactors hb hc hfactor
  have hdated := hP.factor_of_date hb d
  refine ⟨_, _, hx, hP.positive _, hP.factor _, hP.exp_zeroYield (timeTo_dateTime hb d) hyield,
    fun hlate => ?_⟩
  rw [max_eq_left hlate]
  exact real.inj (Except.ok.inj (hdated.symm.trans hfactor))

end Curve

namespace Volatility

variable {v : Volatility Exact}

theorem timeTo_of_varianceAt {moment strike : Value Exact} {w : Exact}
    (h : (v.varianceAt moment strike).result = .ok w) : ∃ x, (v.timeTo moment).result = .ok x := by
  cases v with
  | implied base r =>
    obtain ⟨_, x, _, _, -, hx, -⟩ := varianceAt_implied_eq_ok.mp h
    exact ⟨x, hx⟩
  | _ =>
    obtain ⟨x, hx, -⟩ := Outcome.result_bind_eq_ok.mp h
    exact ⟨x, hx⟩

/-- Only a view moves a time, and it moves it to a positive one. -/
theorem levelTime_eq_or_pos (v : Volatility Exact) (t : ℝ) : v.levelTime t = t ∨ 0 < v.levelTime t := by
  cases v with
  | implied base r => exact .inr (lt_max_of_lt_right shortEnd_pos)
  | _ => exact .inl rfl

end Volatility

/-- The dividends and the volatility of the terms, with the time that each counts to the maturity. -/
structure Terms.OwnTimes (t : Terms Exact) (q : Curve Exact) (v : Volatility Exact) (Tq Tv : ℝ) :
    Prop where
  dividend : t.dividendCurve = .curve q
  volatility : t.volSurface = .volatility v
  dividendTime : (q.timeTo t.maturity).result = .ok (real Tq)
  volatilityTime : (v.timeTo t.maturity).result = .ok (real Tv)

/-- The drift and the volatility of a simulation, over its whole time. The variance and the dividends are
those over the times at which the volatility and the yield have been taken, in proportion. They are those
of the formula if its times to the maturity are the same. -/
structure Readings.Prorated (x : Readings) (q : Curve Exact) (v : Volatility Exact)
    (Tq Tv μ σ : ℝ) : Prop where
  variance : ∃ w, (v.varianceAt (.number (real (v.levelTime Tv))) (.number (real x.strike))).result =
      .ok (real w) ∧
    σ ^ 2 * x.time = w * (x.time / v.levelTime Tv)
  forward : ∃ p, 0 < p ∧ (q.discountAt (.number (real (max Tq 1e-4)))).result = .ok (real p) ∧
    x.spot * Real.exp (μ * x.time + σ ^ 2 * x.time / 2) =
      x.spot * p ^ (x.time / max Tq 1e-4) / x.riskFreeFactor
  same_variance : v.levelTime Tv = Tv → (σ ^ 2 * x.time = x.variance ↔ Tv = x.time)
  same_forward : 1e-4 ≤ Tq →
    (x.spot * Real.exp (μ * x.time + σ ^ 2 * x.time / 2) = x.forward ↔
      Tq = x.time ∨ x.dividendFactor = 1)

namespace Readings

variable {x : Readings} {σ : ℝ}

/-- The forward price of the simulation, with its dividends. -/
theorem simulated_forward (hrate : Real.exp (-x.riskFreeRate * x.time) = x.riskFreeFactor) :
    x.spot * Real.exp ((x.riskFreeRate - x.dividendYield - σ ^ 2 / 2) * x.time +
      σ ^ 2 * x.time / 2) = x.spot * Real.exp (-x.dividendYield * x.time) / x.riskFreeFactor := by
  have hgrowth : (x.riskFreeRate - x.dividendYield - σ ^ 2 / 2) * x.time + σ ^ 2 * x.time / 2 =
      -x.dividendYield * x.time - -x.riskFreeRate * x.time := by ring
  rw [hgrowth, Real.exp_sub, hrate, mul_div_assoc]

/-- Over two times one yield gives the same factor only if the times are the same, or at yield zero. -/
theorem exp_yield_eq_iff {y S T : ℝ} (hS : S ≠ 0) :
    Real.exp (-y * T) = Real.exp (-y * S) ↔ S = T ∨ Real.exp (-y * S) = 1 := by
  rw [Real.exp_eq_exp, Real.exp_eq_one_iff, mul_eq_mul_left_iff, mul_eq_zero_iff_right hS, eq_comm]

theorem same_forward_iff {S : ℝ} (hS : S ≠ 0)
    (hrate : Real.exp (-x.riskFreeRate * x.time) = x.riskFreeFactor)
    (hyield : Real.exp (-x.dividendYield * S) = x.dividendFactor) :
    x.spot * Real.exp ((x.riskFreeRate - x.dividendYield - σ ^ 2 / 2) * x.time +
      σ ^ 2 * x.time / 2) = x.forward ↔ S = x.time ∨ x.dividendFactor = 1 := by
  rw [simulated_forward hrate, forward, div_left_inj' x.riskFreeFactor_pos.ne',
    mul_right_inj' x.spot_pos.ne', ← hyield, exp_yield_eq_iff hS]

/-- The proportions follow from what the yields and the volatility stand for. -/
theorem prorated {q : Curve Exact} {v : Volatility Exact} {Tq Tv w p : ℝ}
    (hrate : Real.exp (-x.riskFreeRate * x.time) = x.riskFreeFactor)
    (hq : q.YieldsFactor Tq x.dividendYield x.dividendFactor p)
    (hw : (v.varianceAt (.number (real (v.levelTime Tv))) (.number (real x.strike))).result =
      .ok (real w))
    (hσ : σ ^ 2 * v.levelTime Tv = w) (hkept : v.levelTime Tv = Tv → w = x.variance)
    (hvariance : 0 < x.variance) :
    x.Prorated q v Tq Tv (x.riskFreeRate - x.dividendYield - σ ^ 2 / 2) σ := by
  have hspread : v.levelTime Tv ≠ 0 := by
    obtain hsame | hpositive := v.levelTime_eq_or_pos Tv
    · intro hzero
      rw [hzero, mul_zero, hkept hsame] at hσ
      exact hvariance.ne hσ
    · exact hpositive.ne'
  have hshort : max Tq 1e-4 ≠ 0 := (lt_max_of_lt_right shortEnd_pos).ne'
  refine ⟨⟨w, hw, ?_⟩, ⟨p, hq.positive, hq.factor, ?_⟩, fun hsame => ?_, fun hlate => ?_⟩
  · rw [← hσ]
    field_simp
  · rw [simulated_forward hrate, ← hq.yield, ← Real.exp_mul, mul_assoc, mul_div_cancel₀ _ hshort]
  · rw [hsame] at hσ
    have hne : σ ^ 2 ≠ 0 := by
      rintro hzero
      rw [hzero, zero_mul, hkept hsame] at hσ
      exact hvariance.ne hσ
    rw [← hkept hsame, ← hσ, mul_right_inj' hne, eq_comm]
  · have hyield := hq.yield
    rw [max_eq_left hlate, hq.late hlate] at hyield
    exact same_forward_iff (shortEnd_pos.trans_le hlate).ne' hrate hyield

end Readings

/-- The yields and the volatility that a simulation reads, on curves and a volatility of their own
times. -/
theorem Terms.Reads.exists_ownTimes {t : Terms Exact} {x : Readings} (hx : t.Reads x)
    (hmarket : t.HasRealMarket) (hvalid : t.PlainValid) (hlate : 1e-4 ≤ x.time)
    (hvariance : 0 < x.variance) :
    ∃ q v Tq Tv, t.OwnTimes q v Tq Tv ∧
      (v.levelTime Tv = Tv → ∃ σ : ℝ,
        (v.levelAt t.maturity (.number (real x.strike))).result = .ok (real σ)) ∧
      ∀ y, (v.levelAt t.maturity (.number (real x.strike))).result = .ok y →
        ∃ σ, y = real σ ∧ Real.exp (-x.riskFreeRate * x.time) = x.riskFreeFactor ∧
          x.Prorated q v Tq Tv (x.riskFreeRate - x.dividendYield - σ ^ 2 / 2) σ := by
  obtain ⟨-, -, htime, ⟨c, hc, hfactor, hrate⟩, ⟨q, hq, hfactor', hyield⟩, v, hv, hw⟩ := hx
  obtain ⟨d, hd⟩ := hvalid.maturity
  rw [hd] at hfactor hrate hfactor' hyield hw
  rw [maturityTime, hc, hd] at htime
  obtain ⟨T, p, hT, hriskFree⟩ := Curve.exists_yieldsFactor (hmarket.riskFree c hc) hfactor hrate
  obtain ⟨Tq, p', hTq, hdividend⟩ :=
    Curve.exists_yieldsFactor (hmarket.dividend q hq) hfactor' hyield
  obtain ⟨Tv, hTv⟩ := Volatility.timeTo_of_varianceAt hw
  obtain ⟨b, hb, rfl⟩ := DayCount.basis_of_yearFraction hTv
  have hsame : T = x.time := real.inj (Except.ok.inj (hT.symm.trans htime))
  have hdiscount : Real.exp (-x.riskFreeRate * x.time) = x.riskFreeFactor := by
    rw [← hriskFree.late (hsame.symm ▸ hlate), ← hriskFree.yield, hsame, max_eq_left hlate]
  rw [Volatility.varianceAt_dateTime hb] at hw
  have hlevels : v.levelAt t.maturity (.number (real x.strike)) =
      v.levelAt (.number (real (b.years v.reference d))) (.number (real x.strike)) := by
    rw [hd, Volatility.levelAt_dateTime hb]
  refine ⟨q, v, Tq, _, ⟨hq, hv, by rw [hd]; exact hTq, by rw [hd]; exact hTv⟩, fun hkept => ?_,
    fun y hlevel => ?_⟩
  · obtain ⟨σ, hσ, -⟩ := Volatility.exists_levelAt_of_kept hkept hvariance.le hw
    exact ⟨σ, by rw [hlevels, hσ]⟩
  · rw [hlevels] at hlevel
    obtain ⟨σ, w, rfl, hspread, hσ⟩ := Volatility.spreads_of_levelAt (hmarket.volatility v hv) hlevel
    refine ⟨σ, rfl, hdiscount, Readings.prorated hdiscount hdividend hspread hσ (fun hkept => ?_)
      hvariance⟩
    rw [hkept] at hspread
    exact real.inj (Except.ok.inj (hspread.symm.trans hw))

/-- What a simulation asks of the volatility of the terms. -/
theorem Terms.levelAt_of_simulation {t : Terms Exact} {v : Volatility Exact}
    (hv : t.volSurface = .volatility v) {k : ℝ} (hstrike : t.strike.read = .ok (real k))
    {s : Settings Exact} {terms : SimulationTerms Exact} (h : (t.simulation s).result = .ok terms) :
    ∃ y, (v.levelAt t.maturity (.number (real k))).result = .ok y := by
  simp only [simulation, hstrike, hv, Outcome.ofMisuse_ok, Value.asVolatility, pure_bind,
    Outcome.result_bind_eq_ok] at h
  obtain ⟨_, -, _, -, _, -, _, -, _, -, _, -, y, hy, -⟩ := h
  exact ⟨y, hy⟩

/-- On valid terms that the formula prices with a positive variance, beyond the short end of the risk-free
curve, the simulation discounts by the factor of the formula, and has the variance and the dividends of
the times at which they have been taken, in proportion to its own time. -/
theorem simulation_prorates_other_times [NormalSource Exact] (hnormals : NormalSource.IsReal)
    {t : Terms Exact} {x : Readings} (hform : t.form = .plain) (hvalid : t.validate.result = .ok ())
    (hmarket : t.HasRealMarket) (hx : t.Reads x) (hlate : 1e-4 ≤ x.time)
    (hvariance : 0 < x.variance) :
    ∃ kind q v Tq Tv, t.optionType = .optionType kind ∧ t.analyticInputs.result = .ok x.inputs ∧
      t.OwnTimes q v Tq Tv ∧
      (v.levelTime Tv = Tv → ∀ s, ∃ terms, (t.simulation s).result = .ok terms) ∧
      ∀ s terms, (t.simulation s).result = .ok terms → ∃ μ σ, x.Prorated q v Tq Tv μ σ ∧
        ∀ m, terms.model.result = .ok m → m.Simulates x kind s μ σ := by
  have hplain := (Terms.validate_plain_eq_ok hform).mp hvalid
  obtain ⟨kind, hkind⟩ := hplain.optionType
  obtain ⟨q, v, Tq, Tv, htimes, hkept, hprorated⟩ :=
    hx.exists_ownTimes hmarket hplain hlate hvariance
  have hv := htimes.volatility
  refine ⟨kind, q, v, Tq, Tv, hkind, hx.analyticInputs, htimes, fun hsame s => ?_,
    fun s terms hterms => ?_⟩
  · obtain ⟨σ, hσ⟩ := hkept hsame
    exact ⟨_, hx.simulation hkind hv hσ s⟩
  · obtain ⟨y, hy⟩ := Terms.levelAt_of_simulation hv hx.strike hterms
    obtain ⟨σ, rfl, hdiscount, hσ⟩ := hprorated y hy
    refine ⟨_, σ, hσ, fun m hm => ?_⟩
    obtain rfl : terms = x.simulationTerms σ kind s :=
      Except.ok.inj (hterms.symm.trans (hx.simulation hkind hv hy s))
    exact x.simulates_of_model hnormals hdiscount hm

/-! ## A flat market on mixed bases -/

namespace FlatMarket

noncomputable section

variable (m : FlatMarket) (kind : OptionType)

/-- The time to the maturity for the dividends and for the volatility, in years of 360 days. -/
def ownTime : ℝ := DayCount.Basis.actual360.years m.reference m.maturity

def ownDividend : Curve Exact :=
  .discount ⟨m.reference, [⟨real 0, real 1⟩, ⟨real 1, real (Real.exp (-m.dividendYield))⟩],
    some (.number (real m.dividendYield)), .basis .actual360⟩

def ownVolatility : Volatility Exact := .constant m.reference (real m.level) (.basis .actual360)

/-- The terms of the market, with dividends and a volatility in years of 360 days. -/
def mixedTerms : Terms Exact :=
  { m.terms kind with
    dividendCurve := .curve m.ownDividend
    volSurface := .volatility m.ownVolatility }

theorem ownTime_pos : 0 < m.ownTime :=
  (DayCount.Basis.years_pos_iff (by decide) _ _).mpr m.unexpired

def mixedReadings : Readings :=
  { m.readings with
    dividendFactor := Real.exp (-m.dividendYield * m.ownTime)
    variance := m.level * m.level * m.ownTime
    dividendFactor_pos := Real.exp_pos _
    variance_nonneg := mul_nonneg (mul_self_nonneg _) m.ownTime_pos.le }

end

/-- The year 2025 in years of 360 days. -/
theorem ownTime_ofRates {spot strike riskFreeRate dividendYield level : ℝ} (hspot : 0 < spot)
    (hstrike : 0 ≤ strike) :
    (ofRates spot strike riskFreeRate dividendYield level hspot hstrike).ownTime = 365 / 360 := by
  rw [ownTime, DayCount.Basis.years, days_ofRates hspot hstrike (by decide)]
  norm_num [DayCount.Basis.yearLength]

variable (m : FlatMarket) (kind : OptionType)

theorem isFlat_ownDividend : m.ownDividend.IsFlat .actual360 m.reference m.dividendYield :=
  Curve.isFlat_of_flatRate (f := .number (real m.dividendYield)) rfl rfl rfl

theorem timeTo_ownVolatility :
    (m.ownVolatility.timeTo (.dateTime m.maturity)).result = .ok (real m.ownTime) :=
  congrArg Outcome.result (Volatility.timeTo_dateTime rfl m.maturity)

theorem mixedReads : (m.mixedTerms kind).Reads m.mixedReadings where
  spot := rfl
  strike := rfl
  time := m.maturityTime kind
  riskFree := ⟨_, rfl, m.discountAt _, rfl⟩
  dividend := ⟨_, rfl, m.isFlat_ownDividend.factor_of_date m.maturity, m.isFlat_ownDividend.yields _⟩
  variance := ⟨_, rfl, Outcome.result_bind_of_ok m.timeTo_ownVolatility _⟩

theorem hasRealMarket_mixed : (m.mixedTerms kind).HasRealMarket := by
  have hflat := m.curve_isReal m.dividendYield
  exact .of_parts rfl rfl rfl (m.curve_isReal _) ⟨hflat.nodes, hflat.flatRate⟩ ⟨m.level, rfl⟩

theorem validate_mixed : (m.mixedTerms kind).validate.result = .ok () :=
  (Terms.validate_plain_eq_ok rfl).mpr
    { m.plainValid kind with dividendCurve := ⟨_, rfl⟩, volSurface := ⟨_, rfl⟩ }

end FlatMarket

/-- A year on the risk-free curve that is longer for the dividends and for the volatility. -/
theorem simulation_prorates_a_longer_year :
    letI : NormalSource Exact := ⟨Bool, fun _ => true, fun b => (real (if b then 1 else -1), !b)⟩
    let market := FlatMarket.ofRates 100 90 0.05 0.02 0.2 (by norm_num) (by norm_num)
    let t := market.mixedTerms .call
    let x := market.mixedReadings
    1e-4 ≤ x.time ∧ 0 < x.variance ∧
    ∃ kind q v Tq Tv, t.optionType = .optionType kind ∧ t.analyticInputs.result = .ok x.inputs ∧
      t.OwnTimes q v Tq Tv ∧
      (v.levelTime Tv = Tv → ∀ s, ∃ terms, (t.simulation s).result = .ok terms) ∧
      ∀ s terms, (t.simulation s).result = .ok terms → ∃ μ σ, x.Prorated q v Tq Tv μ σ ∧
        ∀ m, terms.model.result = .ok m → m.Simulates x kind s μ σ := by
  let _ : NormalSource Exact := ⟨Bool, fun _ => true, fun b => (real (if b then 1 else -1), !b)⟩
  intro market t x
  have hnormals : NormalSource.IsReal := fun b => ⟨if b then 1 else -1, rfl⟩
  have hlate : 1e-4 ≤ x.time := by
    have htime : x.time = 1 := FlatMarket.time_ofRates _ _
    rw [htime]
    norm_num
  have hvariance : 0 < x.variance := by
    have hlevel : (0 : ℝ) < 0.2 * 0.2 := by norm_num
    exact mul_pos hlevel market.ownTime_pos
  exact ⟨hlate, hvariance, simulation_prorates_other_times hnormals rfl (market.validate_mixed .call)
    (market.hasRealMarket_mixed .call) (market.mixedReads .call) hlate hvariance⟩

/-- On valid terms of mixed bases, a year before the maturity, the simulation has less variance than the
formula, and a higher forward price. -/
theorem simulation_differs_on_mixed_bases :
    let market := FlatMarket.ofRates 100 90 0.05 0.02 0.2 (by norm_num) (by norm_num)
    let t := market.mixedTerms .call
    let x := market.mixedReadings
    t.validate.result = .ok () ∧ t.maturityTime.result = .ok (real 1) ∧
      t.analyticInputs.result = .ok x.inputs ∧ 0 < x.variance ∧
      (∀ s, (t.simulation s).result = .ok (x.simulationTerms 0.2 .call s)) ∧
      0.2 ^ 2 * x.time < x.variance ∧
      x.forward < x.spot * Real.exp ((x.riskFreeRate - x.dividendYield) * x.time) := by
  intro market t x
  have htime : x.time = 1 := FlatMarket.time_ofRates _ _
  have hown : market.ownTime = 365 / 360 := FlatMarket.ownTime_ofRates _ _
  have hvariance : x.variance = 0.2 * 0.2 * market.ownTime := rfl
  have hforward : x.forward = 100 * Real.exp (-0.02 * market.ownTime - -0.05 * x.time) := by
    rw [Real.exp_sub, ← mul_div_assoc]
    rfl
  rw [hforward, hvariance, hown, htime]
  refine ⟨market.validate_mixed .call, ?_, (market.mixedReads .call).analyticInputs, by norm_num,
    fun s => (market.mixedReads .call).simulation rfl rfl rfl s, by norm_num, ?_⟩
  · rw [← htime]
    exact (market.mixedReads .call).time
  · show _ < 100 * Real.exp ((0.05 - 0.02) * 1)
    have hless : (-0.02 * (365 / 360) - -0.05 * 1 : ℝ) < (0.05 - 0.02) * 1 := by norm_num
    exact mul_lt_mul_of_pos_left (Real.exp_lt_exp.mpr hless) (by norm_num)

end OptionDesk
