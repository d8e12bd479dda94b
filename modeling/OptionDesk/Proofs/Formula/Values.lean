import OptionDesk.Proofs.Formula.Readings

/-!
# The closed formula in real numbers

What the closed formula makes of a reading, written over the real numbers. The normal distribution
function enters only through its values at the two scores, so the formula is stated with any function
in its place.
-/
namespace OptionDesk

open Exact ProbabilityTheory

noncomputable section

/-- Exact numbers with another function in the place of the normal distribution function. -/
@[reducible] def Exact.withNormal (N : ℝ → ℝ) : Scalar Exact :=
  { (inferInstance : Scalar Exact) with
    normalCdf := fun
      | real x => real (N x)
      | above => real 1
      | below => real 0
      | undefined => undefined }

/-- The standard normal distribution function. -/
def normal : ℝ → ℝ := cdf (gaussianReal 0 1)

/-- The standard normal distribution is symmetric. -/
theorem normal_add_normal_neg (y : ℝ) : normal y + normal (-y) = 1 := by
  have hreflected : (gaussianReal 0 1).real (Set.Iic (-y)) = (gaussianReal 0 1).real (Set.Ici y) := by
    have hmap : (gaussianReal 0 1).map (fun z => -z) = gaussianReal 0 1 := by
      rw [gaussianReal_map_neg, neg_zero]
    have hpreimage : Set.preimage (fun z : ℝ => -z) (Set.Iic (-y)) = Set.Ici y := by
      ext z
      simp
    rw [← hpreimage, ← MeasureTheory.map_measureReal_apply measurable_neg measurableSet_Iic, hmap]
  have hcomplement : (gaussianReal 0 1).real (Set.Ici y) = 1 - (gaussianReal 0 1).real (Set.Iic y) := by
    have hatoms : MeasureTheory.NullSingletonClass (gaussianReal 0 1) :=
      nullSingletonClass_gaussianReal one_ne_zero
    have hedge : (gaussianReal 0 1).real (Set.Ici y) = (gaussianReal 0 1).real (Set.Ioi y) :=
      MeasureTheory.measureReal_congr MeasureTheory.Ioi_ae_eq_Ici.symm
    rw [hedge, ← Set.compl_Iic, MeasureTheory.probReal_compl_eq_one_sub measurableSet_Iic]
  rw [normal, cdf_eq_real, cdf_eq_real, hreflected, hcomplement]
  ring

theorem Exact.withNormal_normal : Exact.withNormal normal = (inferInstance : Scalar Exact) := by
  unfold Exact.withNormal normal
  congr 1

/-- A call is worth what is received less what is paid, a put the opposite. -/
def OptionType.sign : OptionType → ℝ
  | .call => 1
  | .put => -1

open Classical in
/-- The value of a plain option by the closed formula, from the factors to maturity and the variance
up to then. Without a variance that counts, or without a strike, the option is worth the forward or
nothing. -/
def blackScholes (kind : OptionType) (spot strike variance riskFreeFactor dividendFactor : ℝ) : ℝ :=
  let received := spot * dividendFactor
  let paid := strike * riskFreeFactor
  if √variance < 1e-300 ∨ strike = 0 then max (kind.sign * (received - paid)) 0
  else
    let d := (Real.log (received / paid) + variance / 2) / √variance
    kind.sign * (received * normal (kind.sign * d) - paid * normal (kind.sign * (d - √variance)))

namespace Score

/-- The probability below a score. -/
def probability (N : ℝ → ℝ) : Score ℝ → ℝ
  | finite y => N y
  | above => 1
  | below => 0

/-- The probability above a score, as the one below its opposite. -/
def complement (N : ℝ → ℝ) : Score ℝ → ℝ
  | finite y => N (-y)
  | above => 0
  | below => 1

/-- The density of the standard normal distribution at a score. -/
def height : Score ℝ → ℝ
  | finite y => Real.exp (-y ^ 2 / 2) / √(2 * Real.pi)
  | above => 0
  | below => 0

end Score

/-- Results in real numbers, as exact ones. -/
def AnalyticGreeks.exact (g : AnalyticGreeks ℝ) : AnalyticGreeks Exact where
  value := real g.value
  delta := real g.delta
  gamma := real g.gamma
  theta := real g.theta
  vega := real g.vega
  rho := real g.rho
  dividendRho := real g.dividendRho
  strikeSensitivity := real g.strikeSensitivity

namespace Readings

variable (N : ℝ → ℝ) (x : Readings)

/-- What the formula gives, with a function in the place of the normal distribution function. -/
def greeksWith (kind : OptionType) : AnalyticGreeks Exact :=
  @AnalyticInputs.greeks Exact (Exact.withNormal N) x.inputs kind

def gamma : ℝ :=
  if 0 < x.deviation then x.dividendFactor * x.scores.1.height / (x.spot * x.deviation) else 0

def vega : ℝ := x.spot * x.dividendFactor * x.scores.1.height * √x.time

/-- The part of theta that calls and puts share. -/
def decay : ℝ :=
  -(x.spot * x.dividendFactor * x.scores.1.height * (x.deviation / √x.time)) / (2 * √x.time)

def call : AnalyticGreeks ℝ :=
  let n₁ := x.scores.1.probability N
  let n₂ := x.scores.2.probability N
  { value := x.spot * x.dividendFactor * n₁ - x.strike * x.riskFreeFactor * n₂
    delta := x.dividendFactor * n₁
    gamma := x.gamma
    theta := x.decay - x.riskFreeRate * x.strike * x.riskFreeFactor * n₂
      + x.dividendYield * x.spot * x.dividendFactor * n₁
    vega := x.vega
    rho := x.strike * x.time * x.riskFreeFactor * n₂
    dividendRho := -x.spot * x.time * x.dividendFactor * n₁
    strikeSensitivity := -x.riskFreeFactor * n₂ }

def put : AnalyticGreeks ℝ :=
  let n₁ := x.scores.1.complement N
  let n₂ := x.scores.2.complement N
  { value := x.strike * x.riskFreeFactor * n₂ - x.spot * x.dividendFactor * n₁
    delta := -x.dividendFactor * n₁
    gamma := x.gamma
    theta := x.decay + x.riskFreeRate * x.strike * x.riskFreeFactor * n₂
      - x.dividendYield * x.spot * x.dividendFactor * n₁
    vega := x.vega
    rho := -x.strike * x.time * x.riskFreeFactor * n₂
    dividendRho := x.spot * x.time * x.dividendFactor * n₁
    strikeSensitivity := x.riskFreeFactor * n₂ }

def greeks : OptionType → AnalyticGreeks ℝ
  | .call => x.call N
  | .put => x.put N

end Readings

end

namespace Score

variable (N : ℝ → ℝ) (s : Score ℝ)

theorem cdf_map : @cdf Exact (Exact.withNormal N) (s.map real) = real (s.probability N) := by
  cases s <;> rfl

theorem cdf_neg_map :
    @cdf Exact (Exact.withNormal N) (@neg Exact (Exact.withNormal N) (s.map real)) =
      real (s.complement N) := by
  cases s <;> rfl

theorem density_map :
    @density Exact (Exact.withNormal N) (s.map real) = real s.height := by
  cases s with
  | finite y =>
    have hroot : √(2 * Real.pi) ≠ 0 := (Real.sqrt_pos.mpr Real.two_pi_pos).ne'
    have hdensity : Scalar.normalDensity (real y) = real (Real.exp (-y ^ 2 / 2) / √(2 * Real.pi)) := by
      have htwo : (2.0 : ℝ) = 2 := by norm_num
      have hpi : (Scalar.pi : Exact) = real Real.pi := rfl
      rw [Scalar.normalDensity, ofScientific_eq, htwo, real_square, real_neg, hpi, real_mul,
        real_sqrt Real.two_pi_pos.le, real_div _ two_ne_zero, real_exp, real_div _ hroot]
    exact hdensity
  | above => rfl
  | below => rfl

end Score

namespace Readings

variable (N : ℝ → ℝ) (x : Readings)

theorem sqrt_time_pos : 0 < √x.time := Real.sqrt_pos.mpr x.time_pos

theorem sqrt_time : @Scalar.sqrt Exact (Exact.withNormal N) (real x.time) = real (√x.time) :=
  real_sqrt x.time_pos.le

theorem deviation_inputs :
    @AnalyticInputs.deviation Exact (Exact.withNormal N) x.inputs = real x.deviation := by
  have hroot := x.sqrt_time N
  unfold AnalyticInputs.deviation
  simp only [inputs, hroot, real_mul, div_mul_cancel₀ _ x.sqrt_time_pos.ne']

theorem gamma_inputs :
    @AnalyticInputs.gamma Exact (Exact.withNormal N) x.inputs = real x.gamma := by
  unfold AnalyticInputs.gamma gamma
  rw [deviation_inputs, zero_eq]
  by_cases h : 0 < x.deviation
  · have hdivisor : x.spot * x.deviation ≠ 0 := (mul_pos x.spot_pos h).ne'
    rw [if_pos h, if_pos ((real_lt 0 x.deviation).mpr h)]
    simp only [inputs, Score.density_map, real_mul, real_div _ hdivisor]
  · rw [if_neg h, if_neg (mt (real_lt 0 x.deviation).mp h)]

theorem vega_inputs :
    @AnalyticInputs.vega Exact (Exact.withNormal N) x.inputs = real x.vega := by
  have hroot := x.sqrt_time N
  unfold AnalyticInputs.vega vega
  simp only [inputs, Score.density_map, hroot, real_mul]

theorem decay_inputs :
    @AnalyticInputs.decay Exact (Exact.withNormal N) x.inputs = real x.decay := by
  have hroot := x.sqrt_time N
  have htwo : (2.0 : ℝ) = 2 := by norm_num
  have hdivisor : 2 * √x.time ≠ 0 := mul_ne_zero two_ne_zero x.sqrt_time_pos.ne'
  unfold AnalyticInputs.decay decay
  simp only [inputs, Score.density_map, hroot, ofScientific_eq, htwo, real_mul, real_neg,
    real_div _ hdivisor]

/-- The formula gives real numbers on a reading. -/
theorem greeksWith_eq (kind : OptionType) : x.greeksWith N kind = (x.greeks N kind).exact := by
  cases kind with
  | call =>
    unfold greeksWith AnalyticInputs.greeks AnalyticInputs.call
    rw [gamma_inputs, vega_inputs, decay_inputs]
    simp only [inputs, Score.cdf_map, real_mul, real_sub, real_add, real_neg]
    rfl
  | put =>
    unfold greeksWith AnalyticInputs.greeks AnalyticInputs.put
    rw [gamma_inputs, vega_inputs, decay_inputs]
    simp only [inputs, Score.cdf_neg_map, real_mul, real_sub, real_add, real_neg]
    rfl

/-- What is published are the values under the normal distribution function. -/
theorem greeks_inputs (kind : OptionType) : x.inputs.greeks kind = (x.greeks normal kind).exact := by
  rw [← greeksWith_eq, greeksWith, Exact.withNormal_normal]

theorem normal_zero : normal 0 = 1 / 2 := by
  have hsum := normal_add_normal_neg 0
  rw [neg_zero] at hsum
  linarith

/-- The forward price is to the strike as what is received is to what is paid. -/
theorem forward_lt_strike_iff :
    x.forward < x.strike ↔ x.spot * x.dividendFactor < x.strike * x.riskFreeFactor :=
  div_lt_iff₀ x.riskFreeFactor_pos

theorem strike_lt_forward_iff :
    x.strike < x.forward ↔ x.strike * x.riskFreeFactor < x.spot * x.dividendFactor :=
  lt_div_iff₀ x.riskFreeFactor_pos

/-- Certain exercise, and the even chance when the forward price equals the strike. -/
theorem value_greeks_of_certain (h : x.Certain) (kind : OptionType) :
    (x.greeks normal kind).value =
      max (kind.sign * (x.spot * x.dividendFactor - x.strike * x.riskFreeFactor)) 0 := by
  by_cases habove : x.strike < x.forward
  · have hscores : x.scores = (.above, .above) := by
      rw [scores, if_pos h, if_pos habove]
    have hlt := x.strike_lt_forward_iff.mp habove
    cases kind with
    | call =>
      simp only [greeks, call, hscores, Score.probability, OptionType.sign, mul_one, one_mul]
      rw [max_eq_left (by linarith)]
    | put =>
      simp only [greeks, put, hscores, Score.complement, OptionType.sign, mul_zero, sub_self]
      rw [max_eq_right (by linarith)]
  · by_cases hbelow : x.forward < x.strike
    · have hscores : x.scores = (.below, .below) := by
        rw [scores, if_pos h, if_neg habove, if_pos hbelow]
      have hlt := x.forward_lt_strike_iff.mp hbelow
      cases kind with
      | call =>
        simp only [greeks, call, hscores, Score.probability, OptionType.sign, mul_zero, sub_self]
        rw [max_eq_right (by linarith)]
      | put =>
        simp only [greeks, put, hscores, Score.complement, OptionType.sign, mul_one]
        rw [max_eq_left (by linarith)]
        ring
    · have hscores : x.scores = (.finite 0, .finite 0) := by
        rw [scores, if_pos h, if_neg habove, if_neg hbelow]
      have hequal : x.spot * x.dividendFactor = x.strike * x.riskFreeFactor := by
        have hle := mt x.forward_lt_strike_iff.mpr hbelow
        have hge := mt x.strike_lt_forward_iff.mpr habove
        linarith
      cases kind with
      | call =>
        simp only [greeks, call, hscores, Score.probability, normal_zero, hequal, sub_self, mul_zero,
          max_self]
      | put =>
        simp only [greeks, put, hscores, Score.complement, neg_zero, normal_zero, hequal, sub_self,
          mul_zero, max_self]

/-- The value that the formula publishes is the closed formula. -/
theorem value_greeks (kind : OptionType) : (x.greeks normal kind).value =
    blackScholes kind x.spot x.strike x.variance x.riskFreeFactor x.dividendFactor := by
  unfold blackScholes
  by_cases h : x.Certain
  · have hcertain : √x.variance < 1e-300 ∨ x.strike = 0 := h
    rw [if_pos hcertain, value_greeks_of_certain x h]
  · have hregular : ¬(√x.variance < 1e-300 ∨ x.strike = 0) := h
    have hratio : x.forward / x.strike =
        x.spot * x.dividendFactor / (x.strike * x.riskFreeFactor) := by
      rw [forward, div_div, mul_comm x.riskFreeFactor]
    have hhalf : (0.5 : ℝ) * x.variance = x.variance / 2 := by ring
    rw [if_neg hregular]
    cases kind with
    | call =>
      simp only [greeks, call, scores, if_neg h, Score.probability, OptionType.sign, hratio, hhalf,
        deviation, one_mul]
    | put =>
      simp only [greeks, put, scores, if_neg h, Score.complement, OptionType.sign, hratio, hhalf,
        deviation, neg_one_mul]
      ring

end Readings

/-- On curves with positive factors the formula has a reading, and its value is the closed formula on
the factors to maturity. -/
theorem Terms.exists_reads_of_factors {t : Terms Exact} {c q : Curve Exact} {v : Volatility Exact}
    {b : DayCount.Basis} {P Q : ℝ → ℝ} {maturity : DateTime} {spot strike variance : ℝ}
    (hspot : 0 < spot) (hstrike : 0 ≤ strike) (hvariance : 0 ≤ variance)
    (htime : 0 < b.years c.reference maturity) (hunderlying : t.underlying.read = .ok (real spot))
    (hread : t.strike.read = .ok (real strike)) (hmaturity : t.maturity = .dateTime maturity)
    (hc : t.riskFreeCurve = .curve c) (hcdays : c.dayCount = .basis b) (hP : c.HasFactors P)
    (hq : t.dividendCurve = .curve q) (hqdays : q.dayCount = .basis b) (hQ : q.HasFactors Q)
    (hv : t.volSurface = .volatility v)
    (hvarianceAt : (v.varianceAt (.dateTime maturity) (.number (real strike))).result =
      .ok (real variance)) :
    ∃ x : Readings, t.Reads x ∧ ∀ kind, (x.greeks normal kind).value =
      blackScholes kind spot strike variance (P (b.years c.reference maturity))
        (Q (b.years q.reference maturity)) := by
  obtain ⟨y, hy⟩ := hP.zeroYield (Curve.timeTo_dateTime hcdays maturity)
  obtain ⟨y', hy'⟩ := hQ.zeroYield (Curve.timeTo_dateTime hqdays maturity)
  have hmaturityTime : t.maturityTime.result = .ok (real (b.years c.reference maturity)) := by
    rw [Terms.maturityTime, hc, hmaturity]
    exact congrArg Outcome.result (Curve.anchorTo_eq hcdays maturity)
  let x : Readings := ⟨spot, strike, _, _, _, y, y', variance, hspot, hstrike, htime,
    hP.positive (b.years c.reference maturity), hQ.positive (b.years q.reference maturity), hvariance⟩
  refine ⟨x, ⟨hunderlying, hread, hmaturityTime, ?_, ?_, ?_⟩, x.value_greeks⟩
  · exact ⟨c, hc, by rw [hmaturity]; exact ⟨hP.factor_of_date hcdays maturity, hy⟩⟩
  · exact ⟨q, hq, by rw [hmaturity]; exact ⟨hQ.factor_of_date hqdays maturity, hy'⟩⟩
  · exact ⟨v, hv, by rw [hmaturity]; exact hvarianceAt⟩

end OptionDesk
