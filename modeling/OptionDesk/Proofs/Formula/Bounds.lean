import OptionDesk.Proofs.Formula.Derivatives
import OptionDesk.Proofs.Formula.Parity

/-!
# Bounds of the closed formula

A call is worth no more than what is received and a put no more than what is paid, and neither is worth
less than certain exercise or less than nothing. The lower bound is a maximum. Let exercise be decided
by any score, and weigh what is received and what is paid by the normal distribution there: the score of
the formula is the best of all, and the limits of the others are never to exercise, which is worth
nothing, and always to exercise, which is worth the forward. Certain exercise is at the lower bound.
-/
namespace OptionDesk

open Exact Filter ProbabilityTheory Topology

theorem normal_nonneg (y : ℝ) : 0 ≤ normal y := cdf_nonneg _ y

theorem normal_le_one (y : ℝ) : normal y ≤ 1 := cdf_le_one _ y

theorem normalDensity_nonneg (y : ℝ) : 0 ≤ normalDensity y := gaussianPDFReal_nonneg 0 1 y

/-! ## Exercise at a score -/

/-- What is received less what is paid, when exercise is decided by a score. -/
noncomputable def exercisedAt (received paid deviation y : ℝ) : ℝ :=
  received * normal (y + deviation) - paid * normal y

theorem uncertainValue_call (a b s : ℝ) :
    uncertainValue .call a b s = exercisedAt a b s (firstScore a b s - s) := by
  simp only [uncertainValue, exercisedAt, OptionType.sign, one_mul, sub_add_cancel]

section

variable {a b s : ℝ}

/-- Never to exercise is worth nothing. -/
theorem tendsto_exercisedAt_atBot : Tendsto (exercisedAt a b s) atBot (𝓝 0) := by
  have hnormal : Tendsto normal atBot (𝓝 0) := tendsto_cdf_atBot _
  have hshifted : Tendsto (fun y => normal (y + s)) atBot (𝓝 0) :=
    hnormal.comp (tendsto_atBot_add_const_right _ s tendsto_id)
  have hlimit := (hshifted.const_mul a).sub (hnormal.const_mul b)
  rwa [mul_zero, mul_zero, sub_zero] at hlimit

/-- Always to exercise is worth the forward. -/
theorem tendsto_exercisedAt_atTop : Tendsto (exercisedAt a b s) atTop (𝓝 (a - b)) := by
  have hnormal : Tendsto normal atTop (𝓝 1) := tendsto_cdf_atTop _
  have hshifted : Tendsto (fun y => normal (y + s)) atTop (𝓝 1) :=
    hnormal.comp (tendsto_atTop_add_const_right _ s tendsto_id)
  have hlimit := (hshifted.const_mul a).sub (hnormal.const_mul b)
  rwa [mul_one, mul_one] at hlimit

variable (ha : 0 < a) (hb : 0 < b)

include ha hb

theorem uncertainValue_le : uncertainValue .call a b s ≤ a := by
  have hreceived := mul_le_of_le_one_right ha.le (normal_le_one (firstScore a b s))
  have hpaid := mul_nonneg hb.le (normal_nonneg (firstScore a b s - s))
  simp only [uncertainValue, OptionType.sign, one_mul]
  linarith

variable (hs : 0 < s)

include hs

theorem hasDerivAt_exercisedAt (y : ℝ) : HasDerivAt (exercisedAt a b s)
    (b * normalDensity y * (Real.exp (s * (firstScore a b s - s - y)) - 1)) y := by
  have hreceived := ((hasDerivAt_normal (y + s)).comp_add_const y s).const_mul a
  have hpaid := (hasDerivAt_normal y).const_mul b
  refine (hreceived.sub hpaid).congr_deriv ?_
  rw [received_mul_density_at ha hb hs.ne']
  ring

/-- The score of the formula is the best one: to raise the score gains up to there and loses beyond. -/
theorem exercisedAt_le (y : ℝ) :
    exercisedAt a b s y ≤ exercisedAt a b s (firstScore a b s - s) := by
  have hderiv := hasDerivAt_exercisedAt ha hb hs
  have hcontinuous : Continuous (exercisedAt a b s) :=
    continuous_iff_continuousAt.mpr fun z => (hderiv z).continuousAt
  have hdifferentiable : Differentiable ℝ (exercisedAt a b s) := fun z => (hderiv z).differentiableAt
  have hweight (z : ℝ) : 0 ≤ b * normalDensity z := mul_nonneg hb.le (normalDensity_nonneg z)
  obtain hbefore | hafter := le_total y (firstScore a b s - s)
  · have hmono : MonotoneOn (exercisedAt a b s) (Set.Iic (firstScore a b s - s)) := by
      refine monotoneOn_of_deriv_nonneg (convex_Iic _) hcontinuous.continuousOn
        hdifferentiable.differentiableOn fun z hz => ?_
      rw [interior_Iic, Set.mem_Iio] at hz
      have hgain : 0 ≤ s * (firstScore a b s - s - z) := mul_nonneg hs.le (sub_nonneg.mpr hz.le)
      rw [(hderiv z).deriv]
      exact mul_nonneg (hweight z) (sub_nonneg.mpr (Real.one_le_exp hgain))
    exact hmono hbefore (Set.mem_Iic.mpr le_rfl) hbefore
  · have hanti : AntitoneOn (exercisedAt a b s) (Set.Ici (firstScore a b s - s)) := by
      refine antitoneOn_of_deriv_nonpos (convex_Ici _) hcontinuous.continuousOn
        hdifferentiable.differentiableOn fun z hz => ?_
      rw [interior_Ici, Set.mem_Ioi] at hz
      have hloss : s * (firstScore a b s - s - z) ≤ 0 :=
        mul_nonpos_of_nonneg_of_nonpos hs.le (sub_nonpos.mpr hz.le)
      rw [(hderiv z).deriv]
      exact mul_nonpos_of_nonneg_of_nonpos (hweight z)
        (sub_nonpos.mpr (Real.exp_le_one_iff.mpr hloss))
    exact hanti (Set.mem_Ici.mpr le_rfl) hafter hafter

/-- Of the scores to compare with, the limits at both ends give the lower bound. -/
theorem max_le_uncertainValue : max (a - b) 0 ≤ uncertainValue .call a b s := by
  have hbest := exercisedAt_le ha hb hs
  rw [uncertainValue_call]
  exact max_le (le_of_tendsto' tendsto_exercisedAt_atTop hbest)
    (le_of_tendsto' tendsto_exercisedAt_atBot hbest)

end

/-! ## What is published -/

/-- The most that exercise can bring. -/
def OptionType.most (kind : OptionType) (received paid : ℝ) : ℝ :=
  match kind with
  | .call => received
  | .put => paid

/-- The numbers of an option are where no arbitrage allows them to be. -/
structure WithinBounds (x : Readings) (kind : OptionType) (g : AnalyticGreeks ℝ) : Prop where
  value_least : max (kind.sign * (x.spot * x.dividendFactor - x.strike * x.riskFreeFactor)) 0 ≤ g.value
  value_most : g.value ≤ kind.most (x.spot * x.dividendFactor) (x.strike * x.riskFreeFactor)
  delta_least : 0 ≤ kind.sign * g.delta
  delta_most : kind.sign * g.delta ≤ x.dividendFactor
  gamma : 0 ≤ g.gamma
  vega : 0 ≤ g.vega
  /-- Without variance or without a strike the value is at its lower bound. -/
  certain : x.variance = 0 ∨ x.strike = 0 →
    g.value = max (kind.sign * (x.spot * x.dividendFactor - x.strike * x.riskFreeFactor)) 0

namespace Score

variable (s : Score ℝ)

theorem probability_nonneg : 0 ≤ s.probability normal := by
  cases s with
  | finite y => exact normal_nonneg y
  | above => exact zero_le_one
  | below => exact le_rfl

theorem probability_le_one : s.probability normal ≤ 1 := by
  cases s with
  | finite y => exact normal_le_one y
  | above => exact le_rfl
  | below => exact zero_le_one

theorem height_nonneg : 0 ≤ s.height := by
  cases s with
  | finite y => exact Score.height_finite y ▸ normalDensity_nonneg y
  | above => exact le_rfl
  | below => exact le_rfl

end Score

namespace Readings

variable (x : Readings)

theorem received_pos : 0 < x.spot * x.dividendFactor := mul_pos x.spot_pos x.dividendFactor_pos

theorem paid_nonneg : 0 ≤ x.strike * x.riskFreeFactor :=
  mul_nonneg x.strike_nonneg x.riskFreeFactor_pos.le

/-- A call is worth the forward at least, or nothing, and at most what is received. -/
theorem call_bounds :
    max (x.spot * x.dividendFactor - x.strike * x.riskFreeFactor) 0 ≤ (x.call normal).value ∧
      (x.call normal).value ≤ x.spot * x.dividendFactor := by
  by_cases h : x.Certain
  · have hvalue := x.value_greeks_of_certain h .call
    rw [OptionType.sign, one_mul] at hvalue
    exact ⟨hvalue.ge, hvalue.trans_le (max_le (sub_le_self _ x.paid_nonneg) x.received_pos.le)⟩
  · have hpaid := mul_pos (x.strike_pos_of_not_certain h) x.riskFreeFactor_pos
    have hvalue : (x.call normal).value =
        uncertainValue .call (x.spot * x.dividendFactor) (x.strike * x.riskFreeFactor) x.deviation :=
      congrArg AnalyticGreeks.value (x.greeks_of_not_certain h .call)
    rw [hvalue]
    exact ⟨max_le_uncertainValue x.received_pos hpaid (x.deviation_pos_of_not_certain h),
      uncertainValue_le x.received_pos hpaid⟩

theorem gamma_nonneg : 0 ≤ x.gamma := by
  unfold gamma
  split
  · next h =>
    exact div_nonneg (mul_nonneg x.dividendFactor_pos.le (Score.height_nonneg _))
      (mul_pos x.spot_pos h).le
  · exact le_rfl

theorem vega_nonneg : 0 ≤ x.vega :=
  mul_nonneg (mul_nonneg x.received_pos.le (Score.height_nonneg _)) x.sqrt_time_pos.le

theorem certain_of_limit (h : x.variance = 0 ∨ x.strike = 0) : x.Certain := by
  refine h.imp (fun hzero => ?_) id
  rw [deviation, hzero, Real.sqrt_zero]
  exact cutoff_pos

/-- Both options are within their bounds: the put is the call less the forward. -/
theorem withinBounds (kind : OptionType) : WithinBounds x kind (x.greeks normal kind) := by
  obtain ⟨hleast, hmost⟩ := x.call_bounds
  obtain ⟨hnonneg, hone⟩ :=
    And.intro x.scores.1.probability_nonneg x.scores.1.probability_le_one
  have hdelta : (x.call normal).delta = x.dividendFactor * x.scores.1.probability normal := rfl
  have hlower := mul_nonneg x.dividendFactor_pos.le hnonneg
  have hupper := mul_le_of_le_one_right x.dividendFactor_pos.le hone
  have hparity := x.parity normal_add_normal_neg
  obtain ⟨hforward, hpositive⟩ := max_le_iff.mp hleast
  cases kind with
  | call =>
    refine ⟨?_, hmost, ?_, ?_, x.gamma_nonneg, x.vega_nonneg,
      fun h => x.value_greeks_of_certain (x.certain_of_limit h) .call⟩
    · rwa [OptionType.sign, one_mul]
    · rwa [OptionType.sign, one_mul, greeks, hdelta]
    · rwa [OptionType.sign, one_mul, greeks, hdelta]
  | put =>
    have hvalue := hparity.value
    have hputdelta := hparity.delta
    refine ⟨?_, ?_, ?_, ?_, x.gamma_nonneg, x.vega_nonneg,
      fun h => x.value_greeks_of_certain (x.certain_of_limit h) .put⟩
    · rw [OptionType.sign, greeks]
      exact max_le (by linarith) (by linarith)
    · rw [OptionType.most, greeks]
      linarith
    · rw [OptionType.sign, greeks]
      linarith
    · rw [OptionType.sign, greeks]
      linarith

end Readings

/-- Whatever the formula publishes after a calculation that succeeds is within the bounds of no
arbitrage, on any terms that give it real numbers and positive factors, and on a real market they
always do. -/
theorem formula_stays_within_bounds [NormalSource Exact] {d : Desk Exact} {p : ℕ}
    (hform : (d.get p).terms.form = .plain)
    (h : ((Engine.analytic p).calculate.run d).1.result = .ok ()) :
    ((d.get p).terms.HasRealMarket → ∃ x, (d.get p).terms.Reads x) ∧
      ∀ x, (d.get p).terms.Reads x → ∃ kind, (d.get p).terms.optionType = .optionType kind ∧
        (((Engine.analytic p).calculate.run d).2.get p).results =
          (x.greeks normal kind).exact.results ∧
        WithinBounds x kind (x.greeks normal kind) := by
  have hprice := Engine.results_analytic h
  obtain ⟨hvalid, -, -⟩ := Terms.valid_of_priceAnalytically hform hprice
  obtain ⟨kind, hkind⟩ := hvalid.optionType
  refine ⟨fun hmarket => Terms.exists_reads_of_priceAnalytically hmarket hform hprice,
    fun x hreads => ⟨kind, hkind, ?_, x.withinBounds kind⟩⟩
  rw [hreads.results_eq hform hprice hkind, Readings.greeks_inputs]

/-- A put in the money, and a call without variance on a forward price that equals the strike. -/
theorem formula_stays_within_bounds_at_the_forward :
    letI : NormalSource Exact := ⟨Unit, fun _ => (), fun _ => (real 0, ())⟩
    let regular := FlatMarket.ofRates 100 120 0.05 0.02 0.2 (by norm_num) (by norm_num)
    let level := FlatMarket.ofRates 100 100 0.05 0.05 0 (by norm_num) (by norm_num)
    let d (m : FlatMarket) (kind : OptionType) : Desk Exact :=
      Registry.empty.put 0 { Cell.blank .plain with terms := m.terms kind }
    let results (m : FlatMarket) (kind : OptionType) :=
      (((Engine.analytic 0).calculate.run (d m kind)).2.get 0).results
    (results regular .put = (regular.readings.put normal).exact.results ∧
      WithinBounds regular.readings .put (regular.readings.put normal)) ∧
    results level .call = (level.readings.call normal).exact.results ∧
      WithinBounds level.readings .call (level.readings.call normal) ∧
      (level.readings.call normal).value = 0 := by
  let _ : NormalSource Exact := ⟨Unit, fun _ => (), fun _ => (real 0, ())⟩
  intro regular level d results
  have hterms (m : FlatMarket) (kind : OptionType) : ((d m kind).get 0).terms = m.terms kind :=
    congrArg Cell.terms (Desk.get_put_self _ _ _)
  have hbounds (m : FlatMarket) (kind : OptionType) :
      results m kind = (m.readings.greeks normal kind).exact.results ∧
        WithinBounds m.readings kind (m.readings.greeks normal kind) := by
    have hform : ((d m kind).get 0).terms.form = .plain := by rw [hterms]; rfl
    obtain ⟨-, hpublished⟩ := formula_stays_within_bounds hform (m.calculate kind (hterms m kind))
    obtain ⟨kind', hkind, hresults, hwithin⟩ := hpublished m.readings (by
      rw [hterms]
      exact m.reads kind)
    rw [hterms] at hkind
    cases hkind
    exact ⟨hresults, hwithin⟩
  obtain ⟨hresults, hwithin⟩ := hbounds level .call
  refine ⟨hbounds regular .put, hresults, hwithin, ?_⟩
  have hvariance : level.readings.variance = 0 := by
    simp [level, FlatMarket.readings, FlatMarket.ofRates]
  have hequal : level.readings.spot * level.readings.dividendFactor =
      level.readings.strike * level.readings.riskFreeFactor := rfl
  have hvalue := hwithin.certain (.inl hvariance)
  rwa [hequal, sub_self, mul_zero, max_self] at hvalue

end OptionDesk
