import OptionDesk.Proofs.Formula.Scaling
import OptionDesk.Proofs.Formula.Simulation
import OptionDesk.Proofs.Sampling.CommonPaths

/-!
# The simulation on a scaled underlying

The process of the log-price knows neither of the two prices. Simulations whose prices are multiplied by
one positive number therefore draw the same paths, and every payoff is multiplied by that number: along a
path and its reflection, in every batch, and so in the merged statistics. With a number of samples for a
stopping rule the runs also end at the same place, and value and standard error are multiplied likewise.
-/
namespace OptionDesk

open Exact

/-! ## Statistics -/

namespace Samples

variable (c : ℝ) (m : Multiset ℝ)

theorem average_map_mul : average (m.map (c * ·)) = c * average m := by
  rw [average, average, Multiset.card_map, Multiset.sum_map_mul_left, Multiset.map_id', mul_div_assoc]

theorem squaredDeviations_map_mul :
    squaredDeviations (m.map (c * ·)) = c ^ 2 * squaredDeviations m := by
  have hdistance (x : ℝ) : (c * x - c * average m) ^ 2 = c ^ 2 * (x - average m) ^ 2 := by ring
  rw [squaredDeviations, squaredDeviations, average_map_mul, Multiset.map_map]
  simp only [Function.comp_apply, hdistance, Multiset.sum_map_mul_left]

theorem variance_map_mul : variance (m.map (c * ·)) = c ^ 2 * variance m := by
  rw [variance, variance, squaredDeviations_map_mul, Multiset.card_map, mul_div_assoc]

variable {c}

/-- The standard error is a length, and not a square. -/
theorem standardError_map_mul (hc : 0 ≤ c) :
    √(variance (m.map (c * ·)) / (m.map (c * ·)).card) = c * √(variance m / m.card) := by
  rw [variance_map_mul, Multiset.card_map, mul_div_assoc, Real.sqrt_mul (sq_nonneg c), Real.sqrt_sq hc]

end Samples

/-! ## Payoffs -/

theorem OptionType.gain_mul (kind : OptionType) {c : ℝ} (hc : 0 ≤ c) (strike spot : ℝ) :
    kind.gain (c * strike) (c * spot) = c * kind.gain strike spot := by
  cases kind
  all_goals rw [gain, gain, ← mul_sub, mul_max_of_nonneg _ _ hc, mul_zero]

namespace SimulationInputs

variable (i : SimulationInputs) {c : ℝ} (hc : 0 < c)

/-- The same simulation with the two prices multiplied by `c`. -/
def scaled : SimulationInputs :=
  { i with
    spot := c * i.spot
    strike := c * i.strike
    spot_pos := mul_pos hc i.spot_pos
    strike_nonneg := mul_nonneg hc.le i.strike_nonneg }

theorem scaled_one : i.scaled one_pos = i := by
  simp only [scaled, one_mul]

/-- The payoff of a path, alone or together with its reflection. -/
theorem sample_scaled (kind : OptionType) (antithetic : Bool) (logReturn reflected : ℝ) :
    (i.scaled hc).sample kind antithetic ((i.scaled hc).ends logReturn reflected) =
      c * i.sample kind antithetic (i.ends logReturn reflected) := by
  have hgain (x : ℝ) : kind.gain (c * i.strike) (c * i.spot * Real.exp x) =
      c * kind.gain i.strike (i.spot * Real.exp x) := by
    rw [mul_assoc, kind.gain_mul hc.le]
  have hdiscount : (i.scaled hc).discount = i.discount := rfl
  rw [sample, sample, hdiscount, Ends.sample, Ends.sample]
  simp only [ends, scaled, hgain]
  cases antithetic <;> simp only [if_true, if_false, Bool.false_eq_true] <;> ring

end SimulationInputs

/-! ## Models -/

namespace SimulationTerms

open SamplingModel

variable [NormalSource Exact] (hnormals : NormalSource.IsReal) (t : SimulationTerms Exact)
  (kind : OptionType) (i : SimulationInputs)

include hnormals in
/-- Models of all multiples of the two prices draw the same paths in one request. -/
theorem exists_run_addSamples_scaled {n : ℤ} (hn : 1 ≤ n) :
    ∃ payoffs : List ℝ, (payoffs.length : ℤ) = n ∧ ∀ c (hc : 0 < c),
      ((addSamples n).run (t.fresh kind (i.scaled hc))).1.result = .ok () ∧
        ((addSamples n).run (t.fresh kind (i.scaled hc))).2.statistics =
          Samples.summary ((payoffs : Multiset ℝ).map (c * ·)) := by
  let batches := (request t.batchSize.toNat 0 n).batches
  let sample (i : SimulationInputs) (x : ℝ × ℝ) : ℝ :=
    i.sample kind t.antithetic.isSet (i.ends x.1 x.2)
  obtain ⟨returns, hlength, hreturns⟩ := exists_returns_of_batches hnormals
    (i.process (Scalar.trunc t.timeSteps).toNat) (t.fresh kind i).generator rfl batches
  have hsize : (batches.map Batch.size).sum = n.toNat :=
    (congrArg List.sum (map_size_numbered 0 _)).trans (sum_batchSizes _ _)
  refine ⟨returns.map (sample i), by rw [List.length_map]; omega, fun c hc => ?_⟩
  obtain ⟨hfinite, hmerged⟩ := hreturns (i.scaled hc) kind t.antithetic.isSet
  obtain ⟨hresult, hstate⟩ := run_addSamples_of_finite (m := t.fresh kind (i.scaled hc)) hn hfinite
  have hpayoffs : returns.map (sample (i.scaled hc)) = (returns.map (sample i)).map (c * ·) := by
    rw [List.map_map]
    exact List.map_congr_left fun x _ => i.sample_scaled hc _ _ _ _
  have hdrawn := hmerged []
  rw [Multiset.coe_nil, Samples.summary_zero, List.nil_append] at hdrawn
  refine ⟨hresult, (congrArg SamplingModel.statistics hstate).trans (hdrawn.trans ?_)⟩
  rw [Multiset.map_coe, ← hpayoffs]

include hnormals in
/-- The estimate from `n` samples and the statistics behind it. -/
theorem exists_estimate_scaled {n : ℤ} (hn : 1 ≤ n) :
    ∃ payoffs : List ℝ, (payoffs.length : ℤ) = n ∧ ∀ c (hc : 0 < c),
      (t.fresh kind (i.scaled hc)).estimate n = .ok (real (c * Samples.average payoffs)) ∧
        ((valueWithSamples n).run (t.fresh kind (i.scaled hc))).2.statistics =
          Samples.summary ((payoffs : Multiset ℝ).map (c * ·)) := by
  obtain ⟨payoffs, hlength, hdrawn⟩ := t.exists_run_addSamples_scaled hnormals kind i hn
  refine ⟨payoffs, hlength, fun c hc => ?_⟩
  obtain ⟨hdraw, hstatistics⟩ := hdrawn c hc
  have hcount : (t.fresh kind (i.scaled hc)).statistics.count = 0 := rfl
  rw [← sub_zero n, ← Nat.cast_zero, ← hcount] at hdraw hstatistics
  obtain ⟨hestimate, hstate⟩ := run_valueWithSamples_of_gt (by rw [hcount]; omega) hdraw
  have hne : ((payoffs : Multiset ℝ).map (c * ·)).card ≠ 0 := by
    rw [Multiset.card_map, Multiset.coe_card]
    omega
  rw [hstate, hstatistics]
  refine ⟨?_, rfl⟩
  rw [hestimate, hstatistics, (Samples.inspects_summary _).mean, if_neg hne, Samples.average_map_mul]
  rfl

/-- There is no estimate without a sample. -/
theorem estimate_ne_ok {n : ℤ} (hn : n < 1) (value : Exact) :
    (t.fresh kind i).estimate n ≠ .ok value := by
  have hcount : (t.fresh kind i).statistics.count = 0 := rfl
  obtain hless | rfl : n < 0 ∨ n = 0 := by omega
  · have hrun := run_valueWithSamples_of_lt (m := t.fresh kind i) (by rw [hcount]; exact hless)
    rw [estimate, hrun]
    exact fun h => by cases h
  · rw [(run_valueWithSamples_of_eq (by rw [hcount]; rfl)).1]
    exact fun h => by cases h

end SimulationTerms

/-! ## Settings -/

theorem Outcome.result_ofStatistics_eq_ok {α β : Type} {x : Except (StatisticsError α) β} {b : β} :
    (ofStatistics x).result = .ok b ↔ x = .ok b := by
  cases x <;> simp

namespace Settings

open SamplingModel

variable {s : Settings Exact} {n : ℤ}

variable [NormalSource Exact] {m : SamplingModel Exact}

/-- The log of a run never fails, so a run ends well if its value and its error can be had. -/
theorem logged_eq_ok (x : Session (SamplingModel Exact) Exact Exact) {value error : Exact} :
    ((x >>= fun value => SamplingModel.errorEstimate >>= fun error => .get >>= fun m =>
      .lift (s.reportError value error m.statistics.count) >>= fun _ =>
      pure (value, error)).run m).1.result = .ok (value, error) ↔
      (x.run m).1.result = .ok value ∧ (x.run m).2.statistics.errorEstimate? = .ok error := by
  have herror (m : SamplingModel Exact) : (SamplingModel.errorEstimate.run m).1.result = .ok error ↔
      m.statistics.errorEstimate? = .ok error := by
    rw [← Outcome.result_ofStatistics_eq_ok]
    rfl
  simp only [Session.fst_run_bind, Outcome.result_bind_eq_ok, Session.run_get, Session.run_lift,
    Session.run_pure, Outcome.result_pure, result_reportError]
  constructor
  · rintro ⟨_, hx, _, he, _, -, _, -, h⟩
    cases h
    exact ⟨hx, (herror _).mp he⟩
  · rintro ⟨hx, he⟩
    exact ⟨value, hx, error, (herror _).mpr he, _, rfl, (), trivial, rfl⟩

/-- With a number of samples, value and error are those of the estimate from so many, also when the
run is timed. -/
theorem sample_eq_ok (hs : s.samples = some n) {value error : Exact} :
    (s.sample.run m).1.result = .ok (value, error) ↔ m.estimate n = .ok value ∧
      ((valueWithSamples n).run m).2.statistics.errorEstimate? = .ok error := by
  have hrun : s.run = valueWithSamples n := by rw [run, hs]
  unfold sample
  rw [hrun]
  cases s.logTimings
  · exact logged_eq_ok (valueWithSamples n)
  · exact logged_eq_ok (closing (.record .timing) (valueWithSamples n))

/-- Runs on all multiples of the two prices, of at least two samples. -/
theorem exists_sample_scaled (hnormals : NormalSource.IsReal) (hs : s.samples = some n) (hn : 2 ≤ n)
    (t : SimulationTerms Exact) (kind : OptionType) (i : SimulationInputs) :
    ∃ x e : ℝ, ∀ c (hc : 0 < c), (s.sample.run (t.fresh kind (i.scaled hc))).1.result =
      .ok (real (c * x), real (c * e)) := by
  obtain ⟨payoffs, hlength, hestimate⟩ := t.exists_estimate_scaled hnormals kind i (n := n) (by omega)
  refine ⟨Samples.average payoffs, √(Samples.variance payoffs / (payoffs : Multiset ℝ).card),
    fun c hc => ?_⟩
  obtain ⟨hvalue, hstatistics⟩ := hestimate c hc
  have henough : ¬((payoffs : Multiset ℝ).map (c * ·)).card < 2 := by
    rw [Multiset.card_map, Multiset.coe_card]
    omega
  refine (sample_eq_ok hs).mpr ⟨hvalue, ?_⟩
  rw [hstatistics, (Samples.inspects_summary _).errorEstimate, if_neg henough,
    Samples.standardError_map_mul _ hc.le]

/-- A run from nothing that succeeds has drawn two samples at least. -/
theorem two_le_of_sample (hnormals : NormalSource.IsReal) (hs : s.samples = some n)
    {t : SimulationTerms Exact} {kind : OptionType} {i : SimulationInputs} {value error : Exact}
    (h : (s.sample.run (t.fresh kind i)).1.result = .ok (value, error)) : 2 ≤ n := by
  obtain ⟨hvalue, herror⟩ := (sample_eq_ok hs).mp h
  by_contra hless
  obtain hnone | hone : n < 1 ∨ 1 ≤ n := by omega
  · exact t.estimate_ne_ok kind i hnone value hvalue
  obtain ⟨payoffs, hlength, hestimate⟩ := t.exists_estimate_scaled hnormals kind i hone
  have hfew : ((payoffs : Multiset ℝ).map (1 * ·)).card < 2 := by
    rw [Multiset.card_map, Multiset.coe_card]
    omega
  have hstatistics := (hestimate 1 one_pos).2
  rw [i.scaled_one] at hstatistics
  rw [hstatistics, (Samples.inspects_summary _).errorEstimate, if_pos hfew] at herror
  cases herror

end Settings

/-! ## Terms -/

namespace Terms

variable [NormalSource Exact] {t : Terms Exact} {c : ℝ} {underlying strike : Value Exact}
  {s : Settings Exact} {n : ℤ}

omit [NormalSource Exact] in
/-- Yields, time and volatility are told to the simulation as they were, and the prices as they are. -/
theorem simulation_withPrices {S K : ℝ} (hignores : t.IgnoresStrike) (hc : 0 < c) (hK : 0 < K)
    (hS : t.underlying.read = .ok (real S)) (hS' : underlying.read = .ok (real (c * S)))
    (hread : t.strike.read = .ok (real K)) (hread' : strike.read = .ok (real (c * K)))
    {terms : SimulationTerms Exact} (h : (t.simulation s).result = .ok terms) :
    terms.underlying = .number (real S) ∧ terms.strike = .number (real K) ∧
      ((t.withPrices underlying strike).simulation s).result =
        .ok { terms with underlying := .number (real (c * S)), strike := .number (real (c * K)) } := by
  simp only [simulation, withPrices, hS, hS', hread, hread', Outcome.ofMisuse_ok, pure_bind,
    Outcome.result_bind_eq_ok, Outcome.result_pure, Except.ok.injEq] at h ⊢
  obtain ⟨riskFree, hriskFree, dividend, hdividend, v, hv, q, hq, r, hr, T, hT, σ, hσ, rfl⟩ := h
  have hvolatility : t.volSurface = .volatility v := by
    unfold Value.asVolatility at hv
    split at hv
    · next v' hv' => rw [hv', Except.ok.inj hv]
    · cases hv
  have hσ' := (hignores v hvolatility).level _ K (c * K) σ hK (mul_pos hc hK) hσ
  exact ⟨rfl, rfl, riskFree, hriskFree, dividend, hdividend, v, hv, q, hq, r, hr, T, hT, σ, hσ', rfl⟩

/-- What the simulation makes of plain terms, it makes of all multiples of their prices. -/
theorem exists_priceBySimulation_withPrices {S K : ℝ} (hnormals : NormalSource.IsReal)
    (hform : t.form = .plain) (hignores : t.IgnoresStrike) (hc : 0 < c) (hK : 0 < K)
    (hS : t.underlying.read = .ok (real S)) (hS' : underlying.read = .ok (real (c * S)))
    (hread : t.strike.read = .ok (real K)) (hread' : strike.read = .ok (real (c * K)))
    (hs : s.samples = some n) {r : Results Exact} (h : (t.priceBySimulation s).result = .ok r) :
    ∃ r', ((t.withPrices underlying strike).priceBySimulation s).result = .ok r' ∧ r.Scales c r' := by
  simp only [priceBySimulation, Outcome.result_bind_eq_ok] at h
  obtain ⟨_, hvalidate, e, hexercise, _, heuropean, terms, hterms, m, hm, ⟨value, error⟩, hsample,
    hr⟩ := h
  have hvalid := (validate_plain_eq_ok hform).mp hvalidate
  obtain ⟨S', hS'pos, hS''⟩ := hvalid.underlying
  obtain rfl : S' = S := real.inj (Except.ok.inj (hS''.symm.trans hS))
  have hvalid' := hvalid.withPrices (mul_pos hc hS'pos) (mul_pos hc hK).le hS' hread'
  have hform' : (t.withPrices underlying strike).form = .plain := hform
  obtain ⟨hunderlying, hstrike, hterms'⟩ :=
    simulation_withPrices hignores hc hK hS hS' hread hread' hterms
  obtain ⟨kind, i, hgives, rfl, rfl⟩ := SimulationTerms.exists_gives (by rw [hunderlying]; rfl)
    (by rw [hstrike]; rfl) hm
  obtain ⟨hpasses, rfl⟩ := hgives.model_eq_ok.mp hm
  let terms' := { terms with
    underlying := .number (real (c * i.spot))
    strike := .number (real (c * i.strike)) }
  have hgives' : terms'.Gives kind (i.scaled hc) := { hgives with underlying := rfl, strike := rfl }
  have hm' : terms'.model.result = .ok (terms.fresh kind (i.scaled hc)) :=
    hgives'.model_eq_ok.mpr ⟨{ hpasses with }, rfl⟩
  -- The run at the multiple 1 is the given one, and tells how the run at `c` ends.
  obtain ⟨x, ε, hscaled⟩ := Settings.exists_sample_scaled hnormals hs
    (Settings.two_le_of_sample hnormals hs hsample) terms kind i
  have hone := hscaled 1 one_pos
  rw [i.scaled_one, hsample, one_mul, one_mul] at hone
  cases hone
  cases hr
  refine ⟨{ Results.blank with
    value := .number (real (c * x))
    errorEstimate := .number (real (c * ε)) }, ?_, ?_⟩
  · simp only [priceBySimulation, Outcome.result_bind_eq_ok]
    exact ⟨(), (validate_plain_eq_ok hform').mpr hvalid', e, hexercise, (), heuropean, terms', hterms',
      _, hm', _, hscaled c hc, rfl⟩
  · exact ⟨Value.scales_number _ _, Value.scales_null c, Value.scales_null c, Value.scales_null c,
      Value.scales_null c, Value.scales_number _ _, rfl, rfl⟩

/-- Settings in range, with at least two samples, price every reading of a European option under a
positive volatility. -/
theorem Reads.exists_priceBySimulation {x : Readings} (hx : t.Reads x) (hnormals : NormalSource.IsReal)
    (hvalid : t.validate.result = .ok ()) (heuropean : t.exerciseType = .exercise .european)
    {kind : OptionType} (hkind : t.optionType = .optionType kind) {v : Volatility Exact}
    (hv : t.volSurface = .volatility v) {σ : ℝ} (hσ : 0 < σ)
    (hlevel : (v.levelAt t.maturity (.number (real x.strike))).result = .ok (real σ))
    (hs : s.samples = some n) (hn : 2 ≤ n)
    (hrange : 1 ≤ s.timeSteps ∧ 0 ≤ s.seed ∧ 1 ≤ s.batchSize ∧ 1 ≤ s.workers) :
    ∃ value error : ℝ, (t.priceBySimulation s).result = .ok { Results.blank with
      value := .number (real value)
      errorEstimate := .number (real error) } := by
  have hexercise : t.exercise = pure .european := by rw [exercise, heuropean]
  obtain ⟨m, hm⟩ := (x.exists_model σ kind s).mpr ⟨hσ, hrange⟩
  obtain ⟨-, rfl⟩ := (x.gives_simulationTerms σ kind s).model_eq_ok.mp hm
  obtain ⟨value, error, hsample⟩ := Settings.exists_sample_scaled hnormals hs hn
    (x.simulationTerms σ kind s) kind (x.simulation σ)
  have hone := hsample 1 one_pos
  rw [SimulationInputs.scaled_one] at hone
  refine ⟨1 * value, 1 * error, ?_⟩
  rw [priceBySimulation, Outcome.result_bind_of_ok hvalid, hexercise, pure_bind, Outcome.require_of rfl,
    pure_bind, Outcome.result_bind_of_ok (hx.simulation hkind hv hlevel s),
    Outcome.result_bind_of_ok hm, Outcome.result_bind_of_ok hone]
  rfl

end Terms

end OptionDesk
