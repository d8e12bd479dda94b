import OptionDesk.Engine.Analytic
import OptionDesk.Proofs.Curve.Factors
import OptionDesk.Proofs.Terms
import OptionDesk.Proofs.Volatility

/-!
# Readings of the closed formula

The closed formula reads eight numbers off the terms of an option. On real curves and a real
volatility they are real and have the signs that validation and the market give them, so a reading
carries its signs. What the formula publishes is a function of the reading and of the option type.
-/
namespace OptionDesk

open Exact

/-- The numbers that the closed formula reads off valid terms. -/
structure Readings where
  spot : ℝ
  strike : ℝ
  time : ℝ
  riskFreeFactor : ℝ
  dividendFactor : ℝ
  riskFreeRate : ℝ
  dividendYield : ℝ
  variance : ℝ
  spot_pos : 0 < spot
  strike_nonneg : 0 ≤ strike
  time_pos : 0 < time
  riskFreeFactor_pos : 0 < riskFreeFactor
  dividendFactor_pos : 0 < dividendFactor
  variance_nonneg : 0 ≤ variance

def Score.map {α β : Type} (f : α → β) : Score α → Score β
  | finite x => finite (f x)
  | above => above
  | below => below

namespace Readings

noncomputable section

variable (x : Readings)

def forward : ℝ := x.spot * x.dividendFactor / x.riskFreeFactor

def deviation : ℝ := √x.variance

/-- No variance that counts, or no strike. -/
def Certain : Prop := x.deviation < 1e-300 ∨ x.strike = 0

open Classical in
/-- The two arguments of the normal distribution. -/
def scores : Score ℝ × Score ℝ :=
  if x.Certain then
    if x.strike < x.forward then (.above, .above)
    else if x.forward < x.strike then (.below, .below)
    else (.finite 0, .finite 0)
  else
    let d := (Real.log (x.forward / x.strike) + 0.5 * x.variance) / x.deviation
    (.finite d, .finite (d - x.deviation))

/-- The inputs of the closed formula. -/
def inputs : AnalyticInputs Exact where
  spot := real x.spot
  strike := real x.strike
  volatility := real (x.deviation / √x.time)
  time := real x.time
  riskFreeFactor := real x.riskFreeFactor
  dividendFactor := real x.dividendFactor
  riskFreeRate := real x.riskFreeRate
  dividendYield := real x.dividendYield
  d1 := x.scores.1.map real
  d2 := x.scores.2.map real

end

variable (x : Readings)

theorem forward_pos : 0 < x.forward :=
  div_pos (mul_pos x.spot_pos x.dividendFactor_pos) x.riskFreeFactor_pos

theorem deviation_nonneg : 0 ≤ x.deviation := Real.sqrt_nonneg _

theorem sq_deviation : x.deviation ^ 2 = x.variance := Real.sq_sqrt x.variance_nonneg

/-- Deviations from the cutoff on are positive. -/
theorem cutoff_pos : (0 : ℝ) < 1e-300 := by
  rw [decimal_eq]
  positivity

/-- The cutoff is far below any deviation in practice. -/
theorem cutoff_le : (1e-300 : ℝ) ≤ 1 / 10 ^ 2 := by
  have hpower : (10 : ℝ) ^ 2 ≤ 10 ^ 300 := pow_le_pow_right₀ (by norm_num) (by norm_num)
  rw [decimal_eq, Nat.cast_one]
  exact one_div_le_one_div_of_le (by norm_num) hpower

theorem deviation_pos_of_not_certain (h : ¬x.Certain) : 0 < x.deviation := by
  have hlarge : (1e-300 : ℝ) ≤ x.deviation := not_lt.mp fun hsmall => h (.inl hsmall)
  exact lt_of_lt_of_le cutoff_pos hlarge

theorem strike_pos_of_not_certain (h : ¬x.Certain) : 0 < x.strike :=
  lt_of_le_of_ne x.strike_nonneg fun hzero => h (.inr hzero.symm)

theorem scores_eq :
    AnalyticInputs.scores (real x.forward) (real x.strike) (real x.deviation) =
      (x.scores.1.map real, x.scores.2.map real) := by
  have hcertain : (real x.deviation < (1e-300 : Exact) ∨ (real x.strike == 0) = true) ↔
      x.Certain := by
    rw [ofScientific_eq, zero_eq, real_lt, real_beq, decide_eq_true_eq, Certain]
  unfold AnalyticInputs.scores scores
  by_cases h : x.Certain
  · rw [if_pos (hcertain.mpr h), if_pos h]
    simp only [real_lt]
    split
    · rfl
    · split
      · rfl
      · rfl
  · have hdeviation := x.deviation_pos_of_not_certain h
    have hratio : 0 < x.forward / x.strike := div_pos x.forward_pos (x.strike_pos_of_not_certain h)
    rw [if_neg (mt hcertain.mp h), if_neg h]
    simp only [real_div _ (x.strike_pos_of_not_certain h).ne', real_log hratio, ofScientific_eq,
      real_square, real_mul, real_add, real_div _ hdeviation.ne', real_sub, sq_deviation, Score.map]

end Readings

namespace Terms

variable {t : Terms Exact} {x : Readings}

/-- The curves and the volatility of the terms are real. -/
structure HasRealMarket (t : Terms Exact) : Prop where
  riskFree : ∀ c, t.riskFreeCurve = .curve c → c.IsReal
  dividend : ∀ c, t.dividendCurve = .curve c → c.IsReal
  volatility : ∀ v, t.volSurface = .volatility v → v.IsReal

/-- Terms on two curves and one volatility, all of them real. -/
theorem HasRealMarket.of_parts {c q : Curve Exact} {v : Volatility Exact}
    (hriskFree : t.riskFreeCurve = .curve c) (hdividend : t.dividendCurve = .curve q)
    (hvolatility : t.volSurface = .volatility v) (hc : c.IsReal) (hq : q.IsReal) (hv : v.IsReal) :
    t.HasRealMarket := by
  refine ⟨fun w hw => ?_, fun w hw => ?_, fun w hw => ?_⟩
  · cases hriskFree.symm.trans hw
    exact hc
  · cases hdividend.symm.trans hw
    exact hq
  · cases hvolatility.symm.trans hw
    exact hv

/-- The terms give these readings: figures as they are written, factors and yields to maturity of
the two curves, and the variance at the strike. -/
structure Reads (t : Terms Exact) (x : Readings) : Prop where
  spot : t.underlying.read = .ok (real x.spot)
  strike : t.strike.read = .ok (real x.strike)
  time : t.maturityTime.result = .ok (real x.time)
  riskFree : ∃ c, t.riskFreeCurve = .curve c ∧
    (c.discountAt t.maturity).result = .ok (real x.riskFreeFactor) ∧
    (c.zeroYield t.maturity).result = .ok (real x.riskFreeRate)
  dividend : ∃ c, t.dividendCurve = .curve c ∧
    (c.discountAt t.maturity).result = .ok (real x.dividendFactor) ∧
    (c.zeroYield t.maturity).result = .ok (real x.dividendYield)
  variance : ∃ v, t.volSurface = .volatility v ∧
    (v.varianceAt t.maturity (.number (real x.strike))).result = .ok (real x.variance)

theorem Reads.analyticInputs (h : t.Reads x) : t.analyticInputs.result = .ok x.inputs := by
  obtain ⟨hspot, hstrike, htime, ⟨c, hc, hfactor, hrate⟩, ⟨q, hq, hdividend, hyield⟩, v, hv,
    hvariance⟩ := h
  have hforward : (Outcome.divide (real x.spot * real x.dividendFactor) (real x.riskFreeFactor)).result =
      .ok (real x.forward) := by
    rw [real_mul, Outcome.divide_real _ x.riskFreeFactor_pos.ne', Outcome.result_pure, Readings.forward]
  have hnonneg : ¬real x.variance < 0 := not_real_lt_zero.mpr x.variance_nonneg
  have hdeviation : Scalar.sqrt (real x.variance) = real x.deviation := real_sqrt x.variance_nonneg
  have hroot : Scalar.sqrt (real x.time) = real (√x.time) := real_sqrt x.time_pos.le
  have hrootpos : √x.time ≠ 0 := (Real.sqrt_pos.mpr x.time_pos).ne'
  rw [Terms.analyticInputs, hspot, hstrike, hc, hq, hv]
  simp only [Outcome.ofMisuse_ok, Value.asCurve, Value.asVolatility, pure_bind]
  rw [Outcome.result_bind_of_ok htime, Outcome.result_bind_of_ok hfactor,
    Outcome.result_bind_of_ok hdividend, Outcome.result_bind_of_ok hvariance,
    Outcome.require_of hnonneg, pure_bind, Outcome.result_bind_of_ok hforward, hdeviation,
    Outcome.result_bind_of_ok hrate, Outcome.result_bind_of_ok hyield, hroot, real_div _ hrootpos,
    x.scores_eq]
  rfl

/-- Valid terms of a European option are priced by the formula on their readings. -/
theorem Reads.priceAnalytically (h : t.Reads x) (hvalid : t.validate.result = .ok ())
    (hexercise : t.exerciseType = .exercise .european) {kind : OptionType}
    (hkind : t.optionType = .optionType kind) :
    t.priceAnalytically.result = .ok (x.inputs.greeks kind).results := by
  have hexercise' : t.exercise = pure .european := by rw [exercise, hexercise]
  rw [Terms.priceAnalytically, Outcome.result_bind_of_ok hvalid, hexercise', pure_bind,
    Outcome.require_of rfl, pure_bind, Outcome.result_bind_of_ok h.analyticInputs, hkind,
    Outcome.result_bind_of_ok (Outcome.result_report _)]
  rfl

/-- What is read off valid terms on a real market is a reading. -/
theorem exists_reads_of_analyticInputs (hmarket : t.HasRealMarket) (hvalid : t.PlainValid)
    (hform : t.form ≠ .forward) {i : AnalyticInputs Exact} (h : t.analyticInputs.result = .ok i) :
    ∃ x, t.Reads x := by
  obtain ⟨s, hs, hspot⟩ := hvalid.underlying
  obtain ⟨k, hk, hstrike⟩ : ∃ k : ℝ, 0 ≤ k ∧ t.strike.read = .ok (real k) :=
    hvalid.strike.resolve_left fun h => hform h.1
  obtain ⟨c, hc⟩ := hvalid.riskFreeCurve
  obtain ⟨q, hq⟩ := hvalid.dividendCurve
  obtain ⟨v, hv⟩ := hvalid.volSurface
  obtain ⟨T, hT, htime⟩ := hvalid.maturityTime
  have hmoment : t.maturity.IsMoment := by
    obtain ⟨d, hd⟩ := hvalid.maturity
    rw [hd]
    trivial
  rw [analyticInputs, hspot, hstrike, hc, hq, hv] at h
  simp only [Outcome.ofMisuse_ok, Value.asCurve, Value.asVolatility, pure_bind] at h
  rw [Outcome.result_bind_of_ok htime] at h
  obtain ⟨p, hp, h⟩ := Outcome.result_bind_eq_ok.mp h
  obtain ⟨p', hp', h⟩ := Outcome.result_bind_eq_ok.mp h
  obtain ⟨w, hw, h⟩ := Outcome.result_bind_eq_ok.mp h
  obtain ⟨_, hnonneg, h⟩ := Outcome.result_bind_eq_ok.mp h
  obtain ⟨_, -, h⟩ := Outcome.result_bind_eq_ok.mp h
  obtain ⟨y, hy, h⟩ := Outcome.result_bind_eq_ok.mp h
  obtain ⟨y', hy', -⟩ := Outcome.result_bind_eq_ok.mp h
  obtain ⟨p, hppos, rfl⟩ := Curve.discountAt_real (hmarket.riskFree c hc) hmoment hp
  obtain ⟨p', hppos', rfl⟩ := Curve.discountAt_real (hmarket.dividend q hq) hmoment hp'
  obtain ⟨w, rfl⟩ := Volatility.varianceAt_real (hmarket.volatility v hv) hmoment k hw
  obtain ⟨y, rfl⟩ := Curve.zeroYield_real (hmarket.riskFree c hc) hmoment hy
  obtain ⟨y', rfl⟩ := Curve.zeroYield_real (hmarket.dividend q hq) hmoment hy'
  have hwnonneg : 0 ≤ w := not_real_lt_zero.mp (Outcome.result_require_eq_ok.mp hnonneg)
  exact ⟨⟨s, k, T, p, p', y, y', w, hs, hk, hT, hppos, hppos', hwnonneg⟩, hspot, hstrike, htime,
    ⟨c, hc, hp, hy⟩, ⟨q, hq, hp', hy'⟩, v, hv, hw⟩

/-- Plain terms that are priced are valid and European, and the inputs of the formula exist. -/
theorem valid_of_priceAnalytically (hform : t.form = .plain) {r : Results Exact}
    (h : t.priceAnalytically.result = .ok r) :
    t.PlainValid ∧ t.exerciseType = .exercise .european ∧
      ∃ i, t.analyticInputs.result = .ok i := by
  obtain ⟨_, hvalidate, h⟩ := Outcome.result_bind_eq_ok.mp h
  obtain ⟨e, hexercise, h⟩ := Outcome.result_bind_eq_ok.mp h
  obtain ⟨_, hEuropean, h⟩ := Outcome.result_bind_eq_ok.mp h
  obtain ⟨i, hi, -⟩ := Outcome.result_bind_eq_ok.mp h
  refine ⟨(validate_plain_eq_ok hform).mp hvalidate, ?_, i, hi⟩
  rw [← Outcome.result_require_eq_ok.mp hEuropean]
  exact exercise_eq_ok.mp hexercise

/-- Plain terms on a real market that are priced have a reading. -/
theorem exists_reads_of_priceAnalytically (hmarket : t.HasRealMarket) (hform : t.form = .plain)
    {r : Results Exact} (h : t.priceAnalytically.result = .ok r) : ∃ x, t.Reads x := by
  obtain ⟨hvalid, -, i, hi⟩ := valid_of_priceAnalytically hform h
  exact exists_reads_of_analyticInputs hmarket hvalid (by rw [hform]; decide) hi

/-- The price of plain terms is the formula on their reading. -/
theorem Reads.results_eq (hx : t.Reads x) (hform : t.form = .plain) {r : Results Exact}
    (h : t.priceAnalytically.result = .ok r) {kind : OptionType}
    (hkind : t.optionType = .optionType kind) : r = (x.inputs.greeks kind).results := by
  obtain ⟨hvalid, heuropean, -⟩ := valid_of_priceAnalytically hform h
  have hprice := hx.priceAnalytically ((validate_plain_eq_ok hform).mpr hvalid) heuropean hkind
  exact Except.ok.inj (h.symm.trans hprice)

end Terms

end OptionDesk
