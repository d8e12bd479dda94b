import OptionDesk.Engine.Simulated
import OptionDesk.Proofs.Curve.Yields
import OptionDesk.Proofs.Formula.FlatMarket
import OptionDesk.Proofs.Sampling.European
import OptionDesk.Proofs.Volatility.Signs

/-!
# The formula and the simulation price one model

The formula reads factors and a variance off the terms of an option, the simulation yields and a
volatility. On a common reference date and day count, and beyond the short end, the one kind of numbers
can be found from the other: the simulation discounts by the factor of the formula, and its log-prices
have the variance of the formula over the whole time, and a drift that makes their forward price the
one of the formula. Neither depends on the number of steps that the time is cut into.
-/
namespace OptionDesk

open Exact

namespace Terms

variable {t : Terms Exact} {c q : Curve Exact} {v : Volatility Exact}

/-- The curves and the volatility of the terms count time in the same way from the same date. -/
structure CommonBasis (t : Terms Exact) (c q : Curve Exact) (v : Volatility Exact) : Prop where
  riskFree : t.riskFreeCurve = .curve c
  dividend : t.dividendCurve = .curve q
  volatility : t.volSurface = .volatility v
  dividend_reference : q.reference = c.reference
  volatility_reference : v.reference = c.reference
  dividend_dayCount : q.dayCount = c.dayCount
  volatility_dayCount : v.dayCount = c.dayCount

/-- On a common basis the yields and the volatility follow from the factors and the variance. -/
theorem CommonBasis.exists_reads (h : t.CommonBasis c q v) (hvalid : t.PlainValid)
    (hform : t.form ≠ .forward) {T strike p p' w : ℝ}
    (htime : t.maturityTime.result = .ok (real T)) (hlate : 1e-4 ≤ T)
    (hstrike : t.strike.read = .ok (real strike))
    (hp : 0 < p) (hfactor : (c.discountAt t.maturity).result = .ok (real p))
    (hp' : 0 < p') (hfactor' : (q.discountAt t.maturity).result = .ok (real p'))
    (hw : 0 ≤ w)
    (hvariance : (v.varianceAt t.maturity (.number (real strike))).result = .ok (real w)) :
    ∃ x σ, t.Reads x ∧ x.time = T ∧ x.strike = strike ∧ x.riskFreeFactor = p ∧
      x.dividendFactor = p' ∧ x.variance = w ∧ x.riskFreeRate = -Real.log p / T ∧
      x.dividendYield = -Real.log p' / T ∧
      (v.levelAt t.maturity (.number (real strike))).result = .ok (real σ) ∧
      (v.levelAt (.number (real T)) (.number (real strike))).result = .ok (real σ) ∧
      σ ^ 2 * T = w := by
  obtain ⟨spot, hspot, hunderlying⟩ := hvalid.underlying
  obtain ⟨K, hK, hread⟩ : ∃ k : ℝ, 0 ≤ k ∧ t.strike.read = .ok (real k) :=
    hvalid.strike.resolve_left fun hlater => hform hlater.1
  obtain rfl : K = strike := real.inj (Except.ok.inj (hread.symm.trans hstrike))
  obtain ⟨d, hd⟩ := hvalid.maturity
  have hyears := htime
  rw [maturityTime, h.riskFree, hd] at hyears
  obtain ⟨b, hb, rfl⟩ := basis_of_yearsFrom hyears
  have hqb : q.dayCount = .basis b := h.dividend_dayCount.trans hb
  have hvb : v.dayCount = .basis b := h.volatility_dayCount.trans hb
  have hqT : b.years q.reference d = b.years c.reference d := by rw [h.dividend_reference]
  have hvT : b.years v.reference d = b.years c.reference d := by rw [h.volatility_reference]
  rw [hd] at hfactor hfactor' hvariance
  have hrate := Curve.zeroYield_eq hb hlate hp hfactor
  have hyield := Curve.zeroYield_eq hqb (by rw [hqT]; exact hlate) hp' hfactor'
  rw [hqT] at hyield
  have htotal := hvariance
  rw [Volatility.varianceAt_dateTime hvb, hvT] at htotal
  obtain ⟨σ, hlevel, hσ⟩ := Volatility.exists_levelAt hlate hw htotal
  have hdated := hlevel
  rw [← hvT, ← Volatility.levelAt_dateTime hvb] at hdated
  have hpositive : 0 < b.years c.reference d := shortEnd_pos.trans_le hlate
  refine ⟨⟨spot, K, _, p, p', _, _, w, hspot, hK, hpositive, hp, hp', hw⟩, σ, ?_, rfl, rfl, rfl, rfl,
    rfl, rfl, rfl, by rw [hd]; exact hdated, hlevel, hσ⟩
  refine ⟨hunderlying, hread, htime, ⟨c, h.riskFree, ?_⟩, ⟨q, h.dividend, ?_⟩, v, h.volatility, ?_⟩
  · rw [hd]
    exact ⟨hfactor, hrate⟩
  · rw [hd]
    exact ⟨hfactor', hyield⟩
  · rw [hd]
    exact hvariance

end Terms

/-- What a simulation is told by a reading and a volatility. -/
def Readings.simulation (x : Readings) (σ : ℝ) : SimulationInputs where
  spot := x.spot
  strike := x.strike
  dividendYield := x.dividendYield
  riskFreeRate := x.riskFreeRate
  time := x.time
  volatility := σ
  spot_pos := x.spot_pos
  strike_nonneg := x.strike_nonneg
  time_pos := x.time_pos

/-- The terms of a simulation on readings. -/
noncomputable def Readings.simulationTerms (x : Readings) (σ : ℝ) (kind : OptionType)
    (s : Settings Exact) : SimulationTerms Exact where
  optionType := .optionType kind
  underlying := .number (real x.spot)
  strike := .number (real x.strike)
  dividendYield := .number (real x.dividendYield)
  riskFreeRate := .number (real x.riskFreeRate)
  residualTime := .number (real x.time)
  volatility := .number (real σ)
  antithetic := .figure (.truth s.antithetic)
  seed := s.seed
  timeSteps := real s.timeSteps
  batchSize := s.batchSize
  workers := s.workers

theorem Readings.gives_simulationTerms (x : Readings) (σ : ℝ) (kind : OptionType)
    (s : Settings Exact) : (x.simulationTerms σ kind s).Gives kind (x.simulation σ) :=
  ⟨rfl, rfl, rfl, rfl, rfl, rfl, rfl⟩

theorem Terms.Reads.simulation {t : Terms Exact} {x : Readings} (h : t.Reads x) {kind : OptionType}
    (hkind : t.optionType = .optionType kind) {v : Volatility Exact}
    (hv : t.volSurface = .volatility v) {σ : ℝ}
    (hlevel : (v.levelAt t.maturity (.number (real x.strike))).result = .ok (real σ))
    (s : Settings Exact) : (t.simulation s).result = .ok (x.simulationTerms σ kind s) := by
  obtain ⟨hspot, hstrike, htime, ⟨c, hc, -, hrate⟩, ⟨q, hq, -, hyield⟩, -⟩ := h
  rw [Terms.simulation, hspot, hstrike, hc, hq, hv, hkind]
  simp only [Outcome.ofMisuse_ok, Value.asCurve, Value.asVolatility, pure_bind]
  rw [Outcome.result_bind_of_ok hyield, Outcome.result_bind_of_ok hrate,
    Outcome.result_bind_of_ok htime, Outcome.result_bind_of_ok hlevel]
  rfl

/-- A drift of the log-price and its volatility, as the formula has them over the whole time. -/
structure Readings.Lognormal (x : Readings) (μ σ : ℝ) : Prop where
  variance : σ ^ 2 * x.time = x.variance
  forward : x.spot * Real.exp (μ * x.time + σ ^ 2 * x.time / 2) = x.forward

/-- A model discounts payoffs by the factor of the formula, and all paths of its process, those of
every substream included, have log-returns with the given drift and volatility over the whole time. -/
structure SamplingModel.Simulates [NormalSource Exact] (m : SamplingModel Exact) (x : Readings)
    (kind : OptionType) (s : Settings Exact) (μ σ : ℝ) : Prop where
  pricer : m.pricer = .european
    ⟨kind, real x.spot, real x.strike, real x.riskFreeFactor, s.antithetic⟩
  paths : ∀ g : PathGenerator Exact, g.process = m.generator.process → ∀ n,
    ∃ rows : List (List ℝ), (∀ row ∈ rows, (row.length : ℤ) = s.timeSteps) ∧
      (NormalSource.takeRows g.process.timeSteps n g.stream).1 = rows.map (List.map real) ∧
      (g.take n).1.paths.map Path.logReturn =
        (rows.map fun row => real (μ * x.time + σ * √(x.time / s.timeSteps) * row.sum)) ∧
      (g.take n).1.antitheticLogReturns =
        rows.map fun row => real (μ * x.time - σ * √(x.time / s.timeSteps) * row.sum)

theorem Exact.toNat_trunc_intCast (n : ℤ) : (Scalar.trunc (real n)).toNat = n.toNat := by
  have h : Scalar.trunc (real (n : ℝ)) = if (0 : ℝ) ≤ n then ⌊(n : ℝ)⌋ else ⌈(n : ℝ)⌉ := rfl
  rw [h, Int.floor_intCast, Int.ceil_intCast, ite_self]

theorem Readings.exists_model [NormalSource Exact] (x : Readings) (σ : ℝ) (kind : OptionType)
    (s : Settings Exact) : (∃ m, (x.simulationTerms σ kind s).model.result = .ok m) ↔
      0 < σ ∧ 1 ≤ s.timeSteps ∧ 0 ≤ s.seed ∧ 1 ≤ s.batchSize ∧ 1 ≤ s.workers := by
  have hsteps : (¬(real s.timeSteps : Exact) < 1) ↔ 1 ≤ s.timeSteps := by
    rw [one_eq, real_lt, not_lt]
    exact_mod_cast Iff.rfl
  simp only [(x.gives_simulationTerms σ kind s).model_eq_ok, exists_and_left, exists_eq, and_true]
  constructor
  · rintro ⟨hσ, htimeSteps, hseed, hbatch, hworkers⟩
    exact ⟨hσ, hsteps.mp htimeSteps, hseed, hbatch, hworkers⟩
  · rintro ⟨hσ, htimeSteps, hseed, hbatch, hworkers⟩
    exact ⟨hσ, hsteps.mpr htimeSteps, hseed, hbatch, hworkers⟩

theorem Readings.simulates_of_model [NormalSource Exact] (hnormals : NormalSource.IsReal)
    (x : Readings) {σ : ℝ} {kind : OptionType} {s : Settings Exact} {m : SamplingModel Exact}
    (hdiscount : (x.simulation σ).discount = x.riskFreeFactor)
    (h : (x.simulationTerms σ kind s).model.result = .ok m) :
    m.Simulates x kind s (x.riskFreeRate - x.dividendYield - σ ^ 2 / 2) σ := by
  obtain ⟨hσ, hsteps, -⟩ := (x.exists_model σ kind s).mp ⟨m, h⟩
  obtain ⟨-, rfl⟩ := (x.gives_simulationTerms σ kind s).model_eq_ok.mp h
  have hlength : ((x.simulation σ).process s.timeSteps.toNat).timeSteps = s.timeSteps.toNat := rfl
  have hcast : ((s.timeSteps.toNat : ℕ) : ℝ) = s.timeSteps := by
    exact_mod_cast Int.toNat_of_nonneg (by omega)
  have hdrifted : ((x.simulation σ).process s.timeSteps.toNat).drifted =
      (x.riskFreeRate - x.dividendYield - σ ^ 2 / 2) * x.time := by
    rw [RealProcess.drifted_eq _ (by rw [hlength]; omega)]
    simp only [SimulationInputs.process, simulation]
    ring
  have hdiffused (row : List ℝ) : ((x.simulation σ).process s.timeSteps.toNat).diffused row =
      σ * √(x.time / s.timeSteps) * row.sum := by
    have hdeviation : √(σ * σ * (x.time / s.timeSteps)) = σ * √(x.time / s.timeSteps) := by
      rw [Real.sqrt_mul (mul_self_nonneg σ), Real.sqrt_mul_self hσ.le]
    rw [RealProcess.diffused, RealProcess.step, hlength, hcast]
    exact congrArg (· * row.sum) hdeviation
  have hprocess : ((x.simulationTerms σ kind s).fresh kind (x.simulation σ)).generator.process =
      ((x.simulation σ).process s.timeSteps.toNat).exact := by
    show ((x.simulation σ).process (Scalar.trunc (real (s.timeSteps : ℝ))).toNat).exact = _
    rw [toNat_trunc_intCast]
  refine ⟨?_, fun g hg n => ?_⟩
  · rw [← hdiscount]
    rfl
  · rw [hprocess] at hg
    obtain ⟨rows, hrows, htaken, hreturns, hreflected⟩ := RealProcess.exists_rows _ hnormals hg n
    simp only [hdrifted, hdiffused] at hreturns hreflected
    refine ⟨rows, fun row hrow => ?_, by rw [hg]; exact htaken, ?_, hreflected⟩
    · have hrowlength := hrows row hrow
      rw [hlength] at hrowlength
      omega
    · rw [← hreturns, PathBatch.paths, List.map_map]
      rfl

/-- The formula and the simulation of the terms, on any settings, price one model. The model of the
simulation is built exactly if the volatility is positive and the settings are in range, and the
volatility is positive unless the rule of a surface answers below zero between scattered quotes. -/
structure Terms.PricesOneModel [NormalSource Exact] (t : Terms Exact) (v : Volatility Exact)
    (x : Readings) (kind : OptionType) (μ σ : ℝ) : Prop where
  reads : t.Reads x
  optionType : t.optionType = .optionType kind
  inputs : t.analyticInputs.result = .ok x.inputs
  lognormal : x.Lognormal μ σ
  positive : v.IsNonneg → 0 < σ ∨ ∃ s, v = .surface s ∧ s.Strays (real x.strike) (real x.time)
  simulated : ∀ s : Settings Exact, ∃ terms, (t.simulation s).result = .ok terms ∧
    ((∃ m, terms.model.result = .ok m) ↔
      0 < σ ∧ 1 ≤ s.timeSteps ∧ 0 ≤ s.seed ∧ 1 ≤ s.batchSize ∧ 1 ≤ s.workers) ∧
    ∀ m, terms.model.result = .ok m → m.Simulates x kind s μ σ

/-- The drift of the simulation makes the forward price the one of the formula. -/
theorem Readings.lognormal {x : Readings} {σ : ℝ} (hvariance : σ ^ 2 * x.time = x.variance)
    (hrate : Real.exp (-x.riskFreeRate * x.time) = x.riskFreeFactor)
    (hyield : Real.exp (-x.dividendYield * x.time) = x.dividendFactor) :
    x.Lognormal (x.riskFreeRate - x.dividendYield - σ ^ 2 / 2) σ := by
  have hgrowth : (x.riskFreeRate - x.dividendYield - σ ^ 2 / 2) * x.time + σ ^ 2 * x.time / 2 =
      -x.dividendYield * x.time - -x.riskFreeRate * x.time := by ring
  refine ⟨hvariance, ?_⟩
  rw [hgrowth, Real.exp_sub, hyield, hrate, forward, mul_div_assoc]

/-- On a common reference date and day count, beyond the short end, with positive factors and a positive
variance, the formula and the simulation price one model, whose drift and variance over the whole
time are the same for all settings. -/
theorem formula_and_simulation_price_one_model [NormalSource Exact] (hnormals : NormalSource.IsReal)
    {t : Terms Exact} {c q : Curve Exact} {v : Volatility Exact} {T strike p p' w : ℝ}
    (hform : t.form = .plain) (hvalid : t.validate.result = .ok ()) (hbasis : t.CommonBasis c q v)
    (htime : t.maturityTime.result = .ok (real T)) (hlate : 1e-4 ≤ T)
    (hstrike : t.strike.read = .ok (real strike))
    (hp : 0 < p) (hfactor : (c.discountAt t.maturity).result = .ok (real p))
    (hp' : 0 < p') (hfactor' : (q.discountAt t.maturity).result = .ok (real p'))
    (hw : 0 < w)
    (hvariance : (v.varianceAt t.maturity (.number (real strike))).result = .ok (real w)) :
    ∃ x kind μ σ, x.time = T ∧ x.riskFreeFactor = p ∧ x.dividendFactor = p' ∧ x.variance = w ∧
      t.PricesOneModel v x kind μ σ := by
  have hplain := (Terms.validate_plain_eq_ok hform).mp hvalid
  obtain ⟨kind, hkind⟩ := hplain.optionType
  obtain ⟨x, σ, hreads, rfl, rfl, rfl, rfl, rfl, hrate, hyield, hlevel, htimed, hσ⟩ :=
    hbasis.exists_reads hplain (by rw [hform]; decide) htime hlate hstrike hp hfactor hp' hfactor'
      hw.le hvariance
  have hne : σ ≠ 0 := by
    rintro rfl
    rw [zero_pow two_ne_zero, zero_mul] at hσ
    exact hw.ne hσ
  have hdiscount : Real.exp (-x.riskFreeRate * x.time) = x.riskFreeFactor := by
    rw [hrate, Curve.exp_yield x.time_pos.ne' hp]
  have hcarry : Real.exp (-x.dividendYield * x.time) = x.dividendFactor := by
    rw [hyield, Curve.exp_yield x.time_pos.ne' hp']
  refine ⟨x, kind, _, σ, rfl, rfl, rfl, rfl, hreads, hkind, hreads.analyticInputs,
    Readings.lognormal hσ hdiscount hcarry, fun hnonneg => ?_, fun s => ?_⟩
  · exact (Volatility.levelAt_nonneg hnonneg htimed).imp_left fun hsign =>
      lt_of_le_of_ne hsign hne.symm
  · exact ⟨_, hreads.simulation hkind hbasis.volatility hlevel s, x.exists_model σ kind s,
    fun m hm => x.simulates_of_model hnormals hdiscount hm⟩

/-- A call on a flat market, simulated in twelve steps. -/
theorem formula_and_simulation_price_one_model_in_twelve_steps :
    letI : NormalSource Exact := ⟨Bool, fun _ => true, fun b => (real (if b then 1 else -1), !b)⟩
    let market := FlatMarket.ofRates 100 90 0.05 0.02 0.2 (by norm_num) (by norm_num)
    let s : Settings Exact := { Settings.standard with timeSteps := 12 }
    ∃ x μ σ, (market.terms .call).PricesOneModel market.volatility x .call μ σ ∧
      ∃ terms m, ((market.terms .call).simulation s).result = .ok terms ∧
        terms.model.result = .ok m ∧ m.Simulates x .call s μ σ := by
  let _ : NormalSource Exact := ⟨Bool, fun _ => true, fun b => (real (if b then 1 else -1), !b)⟩
  intro market s
  have hnormals : NormalSource.IsReal := fun b => ⟨if b then 1 else -1, rfl⟩
  have htime : market.time = 1 := FlatMarket.time_ofRates _ _
  have hbasis : (market.terms .call).CommonBasis (market.curve 0.05) (market.curve 0.02)
      market.volatility := ⟨rfl, rfl, rfl, rfl, rfl, rfl, rfl⟩
  have hvariance : 0 < market.level * market.level * market.time := by
    rw [htime]
    norm_num [market, FlatMarket.ofRates]
  obtain ⟨x, kind, μ, σ, -, -, -, -, hmodel⟩ := formula_and_simulation_price_one_model hnormals rfl
    (market.validate .call) hbasis (market.maturityTime .call) (by rw [htime]; norm_num) rfl
    (Real.exp_pos _) (market.discountAt 0.05) (Real.exp_pos _) (market.discountAt 0.02) hvariance
    (market.varianceAt _)
  have hkind := hmodel.optionType
  cases hkind
  have hpositive : 0 < σ := by
    obtain hpositive | ⟨surface, hsurface, -⟩ := hmodel.positive ⟨0.2, by norm_num, rfl⟩
    · exact hpositive
    · cases hsurface
  obtain ⟨terms, hterms, hbuilt, hsimulates⟩ := hmodel.simulated s
  obtain ⟨m, hm⟩ := hbuilt.mpr ⟨hpositive, by decide, by decide, by decide, by decide⟩
  exact ⟨x, μ, σ, hmodel, terms, m, hterms, hm, hsimulates m hm⟩

end OptionDesk
