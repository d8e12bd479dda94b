import OptionDesk.Proofs.Engine.Stacks
import OptionDesk.Proofs.Sampling.Scaling

/-!
# Forward-start options on a scaled underlying

The strike of a forward-start option is a multiple of the underlying, so two options that differ in the
underlying alone are loaded as plain options whose two prices differ by one factor. Whatever engine
prices these in proportion, an amount is then in proportion to the underlying, and a performance, which
divides by the underlying, does not depend on it.
-/
namespace OptionDesk

open Exact

/-! ## Mapped results -/

namespace Value

variable {c : ℝ} {v w : Value Exact} {f g : Exact → Exact}

/-- A function of a result that respects the factor. -/
theorem Scales.onNumber (h : v.Scales c w)
    (hfg : ∀ x : ℝ, ∃ y : ℝ, f (real x) = real y ∧ g (real (c * x)) = real (c * y)) :
    (v.onNumber f).Scales c (w.onNumber g) := by
  obtain ⟨rfl, rfl⟩ | ⟨x, rfl, rfl⟩ := h
  · exact scales_null c
  · obtain ⟨y, hf, hg⟩ := hfg x
    exact .inr ⟨y, congrArg number hf, congrArg number hg⟩

/-- A function of a result that takes the factor away. -/
theorem Scales.onNumber_eq (h : v.Scales c w) (hfg : ∀ x : ℝ, g (real (c * x)) = f (real x)) :
    w.onNumber g = v.onNumber f := by
  obtain ⟨rfl, rfl⟩ | ⟨x, rfl, rfl⟩ := h
  · rfl
  · exact congrArg number (hfg x)

end Value

namespace Results.Scales

variable {c : ℝ} {r r' : Results Exact} (h : r.Scales c r') (m : Exact) (T p y x : ℝ)

include h

theorem asAmount : (r.asAmount m (real T) (real p) (real y) (real x)).Scales c
    (r'.asAmount m (real T) (real p) (real y) (real (c * x))) where
  value := .inr ⟨p * x, rfl, by simp only [Results.asAmount, real_mul, mul_left_comm]⟩
  theta := .inr ⟨y * (p * x), rfl, by simp only [Results.asAmount, real_mul, mul_left_comm]⟩
  vega := h.vega.onNumber fun z => ⟨p * z, rfl, by simp only [real_mul, mul_left_comm]⟩
  rho := h.rho.onNumber fun z => ⟨p * z, rfl, by simp only [real_mul, mul_left_comm]⟩
  dividendRho := h.dividendRho.onNumber fun z => ⟨-T * (p * x) + p * z, rfl, by
    simp only [real_neg, real_mul, real_add, mul_add, mul_left_comm]⟩
  errorEstimate := h.errorEstimate.onNumber fun z =>
    ⟨p * z, rfl, by simp only [real_mul, mul_left_comm]⟩
  delta := by simp only [Results.asAmount, h.delta, h.strikeSensitivity]
  strikeSensitivity := rfl

/-- Per unit of the underlying nothing changes. -/
theorem asPerformance (hc : c ≠ 0) (S : ℝ) :
    r'.asPerformance (real T) (real (p / (c * S))) (real y) (real (c * x)) =
      r.asPerformance (real T) (real (p / S)) (real y) (real x) := by
  have hshare (z : ℝ) : real (p / (c * S)) * real (c * z) = real (p / S) * real z := by
    rw [real_mul, real_mul, ← mul_assoc, mul_comm c S, ← div_div, div_mul_cancel₀ _ hc]
  have hmultiple {v w : Value Exact} (hvw : v.Scales c w) :
      w.onNumber (real (p / (c * S)) * ·) = v.onNumber (real (p / S) * ·) := hvw.onNumber_eq hshare
  have hrho : r'.rho.onNumber (-real T * (real (p / S) * real x) + real (p / (c * S)) * ·) =
      r.rho.onNumber (-real T * (real (p / S) * real x) + real (p / S) * ·) :=
    h.rho.onNumber_eq fun z => congrArg _ (hshare z)
  simp only [Results.asPerformance, hshare, hmultiple h.vega, hmultiple h.dividendRho,
    hmultiple h.errorEstimate, hrho]

end Results.Scales

/-! ## Loaded terms -/

namespace Terms

variable {t plain before after : Terms Exact}

theorem isLoaded_equivalent (h : t.equivalent.result = .ok plain) :
    t.IsLoaded (.blank .plain) plain := by
  have hloaded := isLoaded_loaded h (.blank .plain)
  rwa [loaded_eq isPlain_blank (isPlain_equivalent h)] at hloaded

/-- What has been loaded are views of the curves and of the volatility. -/
theorem IsLoaded.views (h : t.IsLoaded before after) (hplain : t.PlainValid) (hreset : t.ResetValid) :
    ∃ c q v r, (t.riskFreeCurve = .curve c ∧ after.riskFreeCurve = .curve (.implied c r)) ∧
      (t.dividendCurve = .curve q ∧ after.dividendCurve = .curve (.implied q r)) ∧
      t.volSurface = .volatility v ∧ after.volSurface = .volatility (.implied v r) := by
  obtain ⟨c, hc⟩ := hplain.riskFreeCurve
  obtain ⟨q, hq⟩ := hplain.dividendCurve
  obtain ⟨v, hv⟩ := hplain.volSurface
  obtain ⟨r, hr⟩ := hreset.resetDate
  have hriskFree := h.riskFreeCurve
  have hdividend := h.dividendCurve
  have hvolatility := h.volSurface
  rw [hc, hr, Value.curveFrom_eq_ok] at hriskFree
  rw [hq, hr, Value.curveFrom_eq_ok] at hdividend
  rw [hv, hr, Value.volatilityFrom_eq_ok] at hvolatility
  exact ⟨c, q, v, r, ⟨hc, hriskFree.2⟩, ⟨hq, hdividend.2⟩, hv, hvolatility.2⟩

theorem IsLoaded.hasRealMarket (h : t.IsLoaded before after) (hplain : t.PlainValid)
    (hreset : t.ResetValid) (hmarket : t.HasRealMarket) : after.HasRealMarket := by
  obtain ⟨c, q, v, r, ⟨hc, hc'⟩, ⟨hq, hq'⟩, hv, hv'⟩ := h.views hplain hreset
  -- A view is as real as what it views.
  have hriskFree : (Curve.implied c r).IsReal := hmarket.riskFree c hc
  have hdividend : (Curve.implied q r).IsReal := hmarket.dividend q hq
  have hvolatility : (Volatility.implied v r).IsReal := hmarket.volatility v hv
  exact .of_parts hc' hq' hv' hriskFree hdividend hvolatility

theorem IsLoaded.ignoresStrike (h : t.IsLoaded before after) (hplain : t.PlainValid)
    (hreset : t.ResetValid) (hignores : t.IgnoresStrike) : after.IgnoresStrike := by
  obtain ⟨c, q, v, r, -, -, hv, hv'⟩ := h.views hplain hreset
  intro w hw
  cases hv'.symm.trans hw
  exact (hignores v hv).implied r

variable {u : Value Exact} {S m c : ℝ}

theorem PlainValid.spot_pos (h : t.PlainValid) (hS : t.underlying.operand = .ok (real S)) : 0 < S := by
  obtain ⟨s, hs, hread⟩ := h.underlying
  obtain rfl : s = S := real.inj (Except.ok.inj (hread.symm.trans (Value.read_of_operand hS)))
  exact hs

theorem ResetValid.moneyness_pos (h : t.ResetValid) (hm : t.moneyness.operand = .ok (real m)) :
    0 < m := by
  obtain ⟨k, hk, hread⟩ := h.moneyness
  obtain rfl : k = m := real.inj (Except.ok.inj (hread.symm.trans (Value.read_of_operand hm)))
  exact hk

/-- Another underlying changes the two prices of the loaded option, and nothing else. -/
theorem exists_equivalent_set_underlying (hm : t.moneyness.operand = .ok (real m))
    (hS : t.underlying.operand = .ok (real S)) (hS' : u.operand = .ok (real (c * S)))
    (h : t.equivalent.result = .ok plain) :
    plain.strike.read = .ok (real (m * S)) ∧ ∃ strike, strike.read = .ok (real (c * (m * S))) ∧
      (t.set .underlying u).equivalent.result = .ok (plain.withPrices u strike) := by
  have hloaded := isLoaded_equivalent h
  obtain ⟨k, hk, hread⟩ := Value.times_real hm hS
  obtain ⟨k', hk', hread'⟩ := Value.times_real hm hS'
  cases Except.ok.inj (hk.symm.trans hloaded.strike)
  rw [mul_left_comm] at hread'
  refine ⟨hread, k', hread', ?_⟩
  have hgiven := equivalent_of_parts hk hloaded.dividendCurve hloaded.riskFreeCurve hloaded.volSurface
  have hother := equivalent_of_parts (t := t.set .underlying u) hk' hloaded.dividendCurve
    hloaded.riskFreeCurve hloaded.volSurface
  have hplain := Except.ok.inj (h.symm.trans hgiven)
  exact hother.trans (congrArg (fun p => Except.ok (p.withPrices u k')) hplain.symm)

/-! ## Prices in proportion -/

/-- Whatever a price makes of plain terms on a real market, under a volatility that does not look at the
strike, it makes of all multiples of their prices. -/
structure ScalesPrices (price : Terms Exact → Outcome Exact (Results Exact)) : Prop where
  areResults : ∀ t r, (price t).result = .ok r → r.AreResults
  scales : ∀ (t : Terms Exact) (c S K : ℝ) (underlying strike : Value Exact) (r : Results Exact),
    t.form = .plain → t.HasRealMarket → t.IgnoresStrike → 0 < c → 0 < K →
    t.underlying.read = .ok (real S) → underlying.read = .ok (real (c * S)) →
    t.strike.read = .ok (real K) → strike.read = .ok (real (c * K)) → (price t).result = .ok r →
    ∃ r', (price (t.withPrices underlying strike)).result = .ok r' ∧ r.Scales c r'

theorem scalesPrices_priceAnalytically : ScalesPrices priceAnalytically where
  areResults _ _ h f := (covers_priceAnalytically h f).1
  scales _ _ _ _ _ _ _ hform hmarket hignores hc hK hS hS' hread hread' h :=
    exists_priceAnalytically_withPrices hform hmarket hignores hc hK hS hS' hread hread' h

theorem scalesPrices_priceBySimulation [NormalSource Exact] (hnormals : NormalSource.IsReal)
    {s : Settings Exact} {n : ℤ} (hs : s.samples = some n) :
    ScalesPrices (priceBySimulation · s) where
  areResults _ _ h f := (covers_priceBySimulation h f).1
  scales _ _ _ _ _ _ _ hform _ hignores hc hK hS hS' hread hread' h :=
    exists_priceBySimulation_withPrices hnormals hform hignores hc hK hS hS' hread hread' hs h

section

variable {price : Terms Exact → Outcome Exact (Results Exact)} (hprice : ScalesPrices price)
  (hform : t.form = .forward) (hmarket : t.HasRealMarket) (hignores : t.IgnoresStrike) (hc : 0 < c)
  (hm : t.moneyness.operand = .ok (real m)) (hS : t.underlying.operand = .ok (real S))
  (hS' : u.operand = .ok (real (c * S)))

include hform hc hS hS'

/-- Validation cannot tell a positive multiple of the underlying. -/
theorem validate_set_underlying (hvalid : t.PlainValid ∧ t.ResetValid) :
    (t.set .underlying u).validate.result = .ok () := by
  have hunderlying : ∃ s : ℝ, 0 < s ∧ u.read = .ok (real s) :=
    ⟨c * S, mul_pos hc (hvalid.1.spot_pos hS), Value.read_of_operand hS'⟩
  have hform' : (t.set .underlying u).form = .forward := hform
  exact (validate_forward_eq_ok hform').mpr
    ⟨{ hvalid.1 with underlying := hunderlying }, { hvalid.2 with }⟩

include hprice hmarket hignores hm

/-- The prices of the two equivalent plain options are in proportion. -/
theorem exists_priceEquivalent_set_underlying {r : Results Exact}
    (h : (t.priceEquivalent price).result = .ok r) :
    ∃ r', ((t.set .underlying u).priceEquivalent price).result = .ok r' ∧ r.Scales c r' := by
  simp only [priceEquivalent, Outcome.result_bind_eq_ok] at h
  obtain ⟨_, hvalidate, plain, hequivalent, _, hplain, h⟩ := h
  have hvalid := (validate_forward_eq_ok hform).mp hvalidate
  have hspot := hvalid.1.spot_pos hS
  have hloaded := isLoaded_equivalent hequivalent
  have hplainform := (isPlain_equivalent hequivalent).form
  have hstrike : 0 < m * S := mul_pos (hvalid.2.moneyness_pos hm) hspot
  have hunderlying := Value.read_of_operand hS'
  obtain ⟨hread, strike, hread', hequivalent'⟩ :=
    exists_equivalent_set_underlying hm hS hS' hequivalent
  have hplainform' : (plain.withPrices u strike).form = .plain := hplainform
  have hplain' : (plain.withPrices u strike).validate.result = .ok () :=
    (validate_plain_eq_ok hplainform').mpr
      (((validate_plain_eq_ok hplainform).mp hplain).withPrices (mul_pos hc hspot)
        (mul_pos hc hstrike).le hunderlying hread')
  obtain ⟨r', hr', hscales⟩ := hprice.scales plain c S (m * S) u strike r hplainform
    (hloaded.hasRealMarket hvalid.1 hvalid.2 hmarket) (hloaded.ignoresStrike hvalid.1 hvalid.2 hignores)
    hc hstrike (by rw [hloaded.underlying, Value.read_of_operand hS]) hunderlying hread hread' h
  refine ⟨r', ?_, hscales⟩
  simp only [priceEquivalent, Outcome.result_bind_eq_ok]
  exact ⟨(), validate_set_underlying hform hc hS hS' hvalid, _, hequivalent', (), hplain', hr'⟩

end

/-! ## Decorated prices -/

/-- On a real market the readings at the reset date are real. -/
theorem ReadsReset.exists_real {field : TermField} {time factor yield : Exact}
    (h : t.ReadsReset field time factor yield) (hreset : t.ResetValid)
    (hcurve : ∀ c, t.get field = .curve c → c.IsReal) :
    ∃ T p y : ℝ, time = real T ∧ factor = real p ∧ yield = real y := by
  obtain ⟨c, hc, hfactor, hyield⟩ := h.curve
  obtain ⟨T, -, -, -, htime, -⟩ := hreset.times
  have hmoment : t.resetDate.IsMoment := by
    obtain ⟨d, hd⟩ := hreset.resetDate
    rw [hd]
    trivial
  obtain ⟨p, -, rfl⟩ := Curve.discountAt_real (hcurve c hc) hmoment hfactor
  obtain ⟨y, rfl⟩ := Curve.zeroYield_real (hcurve c hc) hmoment hyield
  exact ⟨T, p, y, Except.ok.inj (h.time.symm.trans htime), rfl, rfl⟩

end Terms

/-- What becomes of the results of a decorator when its underlying is multiplied by `c`. -/
def ForwardStyle.Scales (style : ForwardStyle) (c : ℝ) (R R' : Results Exact) : Prop :=
  match style with
  | .amount => R.Scales c R' ∧ R'.gamma = R.gamma
  | .performance => R' = R

namespace Terms

variable {t : Terms Exact} {u : Value Exact} {S m c : ℝ}
  {price : Terms Exact → Outcome Exact (Results Exact)}

/-- The two styles of mapping, on results that are in proportion. -/
theorem exists_forwardResults_set_underlying {r r' R : Results Exact} (hr : r.AreResults)
    (hr' : r'.AreResults) (hscales : r.Scales c r') (hreset : t.ResetValid) (hmarket : t.HasRealMarket)
    (hc : c ≠ 0) (hspot : S ≠ 0) (hm : t.moneyness.operand = .ok (real m))
    (hS : t.underlying.operand = .ok (real S)) (hS' : u.operand = .ok (real (c * S)))
    (style : ForwardStyle) (engine : EngineClass)
    (h : (t.forwardResults style engine r).result = .ok R) :
    ∃ R', ((t.set .underlying u).forwardResults style engine r').result = .ok R' ∧
      style.Scales c R R' := by
  cases style with
  | amount =>
    obtain ⟨time, factor, yield, v, hreads, hv, rfl⟩ := (amountResults_eq_ok hr.areMappable hm).mp h
    obtain ⟨T, p, y, rfl, rfl, rfl⟩ := hreads.exists_real hreset hmarket.dividend
    obtain ⟨hnull, -⟩ | ⟨x, hx, hx'⟩ := hscales.value
    · cases hnull.symm.trans hv
    cases hx.symm.trans hv
    refine ⟨_, (amountResults_eq_ok (t := t.set .underlying u) hr'.areMappable hm).mpr
      ⟨_, _, _, _, { hreads with }, hx', rfl⟩, hscales.asAmount _ T p y x, rfl⟩
  | performance =>
    obtain ⟨time, factor, yield, share, v, hreads, hshare, hv, rfl⟩ :=
      (performanceResults_eq_ok hr.areMappable hS).mp h
    obtain ⟨T, p, y, rfl, rfl, rfl⟩ := hreads.exists_real hreset hmarket.riskFree
    obtain ⟨hnull, -⟩ | ⟨x, hx, hx'⟩ := hscales.value
    · cases hnull.symm.trans hv
    cases hx.symm.trans hv
    rw [Outcome.divide_real p hspot] at hshare
    cases hshare
    have hshare' := congrArg Outcome.result (Outcome.divide_real p (mul_ne_zero hc hspot))
    refine ⟨_, (performanceResults_eq_ok (t := t.set .underlying u) hr'.areMappable hS').mpr
      ⟨_, _, _, _, _, { hreads with }, hshare', hx', rfl⟩, ?_⟩
    exact hscales.asPerformance T p y x hc S

theorem valid_of_priceEquivalent (hprice : ScalesPrices price) (hform : t.form = .forward)
    {r : Results Exact} (h : (t.priceEquivalent price).result = .ok r) :
    (t.PlainValid ∧ t.ResetValid) ∧ r.AreResults := by
  simp only [priceEquivalent, Outcome.result_bind_eq_ok] at h
  obtain ⟨_, hvalidate, plain, -, _, -, hgiven⟩ := h
  exact ⟨(validate_forward_eq_ok hform).mp hvalidate, hprice.areResults plain r hgiven⟩

/-- What a decorator makes of its terms, it makes of all multiples of the underlying. -/
theorem exists_priceForward_set_underlying (hprice : ScalesPrices price) (hform : t.form = .forward)
    (hmarket : t.HasRealMarket) (hignores : t.IgnoresStrike) (hc : 0 < c)
    (hm : t.moneyness.operand = .ok (real m)) (hS : t.underlying.operand = .ok (real S))
    (hS' : u.operand = .ok (real (c * S))) (style : ForwardStyle) (engine : EngineClass)
    {R : Results Exact} (h : (t.priceForward style engine price).result = .ok R) :
    ∃ R', ((t.set .underlying u).priceForward style engine price).result = .ok R' ∧
      style.Scales c R R' := by
  obtain ⟨r, hr, hconclude⟩ := Outcome.result_bind_eq_ok.mp h
  obtain ⟨r', hr', hscales⟩ :=
    exists_priceEquivalent_set_underlying hprice hform hmarket hignores hc hm hS hS' hr
  obtain ⟨hvalid, hresults⟩ := valid_of_priceEquivalent hprice hform hr
  obtain ⟨-, hresults'⟩ := valid_of_priceEquivalent (t := t.set .underlying u) hprice hform hr'
  obtain ⟨R', hR', hstyle⟩ := exists_forwardResults_set_underlying hresults hresults' hscales hvalid.2
    hmarket hc.ne' (hvalid.1.spot_pos hS).ne' hm hS hS' style engine (conclude_eq_ok.mp hconclude)
  refine ⟨R', ?_, hstyle⟩
  rw [priceForward, Outcome.result_bind_of_ok hr', conclude_eq_ok]
  exact hR'

/-- The value of an amount over the formula is the underlying at its delta. -/
theorem exists_delta_of_priceForward (hform : t.form = .forward) (hmarket : t.HasRealMarket)
    (hm : t.moneyness.operand = .ok (real m)) (hS : t.underlying.operand = .ok (real S))
    {engine : EngineClass} {R : Results Exact}
    (h : (t.priceForward .amount engine priceAnalytically).result = .ok R) :
    ∃ δ : ℝ, R.delta = .number (real δ) ∧ R.value = .number (real (S * δ)) := by
  obtain ⟨r, hr, hconclude⟩ := Outcome.result_bind_eq_ok.mp h
  obtain ⟨hvalid, hresults⟩ := valid_of_priceEquivalent scalesPrices_priceAnalytically hform hr
  simp only [priceEquivalent, Outcome.result_bind_eq_ok] at hr
  obtain ⟨_, -, plain, hequivalent, _, -, hgiven⟩ := hr
  have hloaded := isLoaded_equivalent hequivalent
  obtain ⟨k, hk, hread⟩ := Value.times_real hm hS
  cases Except.ok.inj (hk.symm.trans hloaded.strike)
  obtain ⟨δ, κ, hδ, hκ, hvalue⟩ := euler_of_priceAnalytically (isPlain_equivalent hequivalent).form
    (hloaded.hasRealMarket hvalid.1 hvalid.2 hmarket)
    (by rw [hloaded.underlying, Value.read_of_operand hS]) hread hgiven
  obtain ⟨time, factor, yield, v, hreads, hv, rfl⟩ :=
    (amountResults_eq_ok hresults.areMappable hm).mp (conclude_eq_ok.mp hconclude)
  obtain ⟨T, p, y, rfl, rfl, rfl⟩ := hreads.exists_real hvalid.2 hmarket.dividend
  cases hvalue.symm.trans hv
  refine ⟨p * (δ + m * κ), ?_, ?_⟩
  · simp only [Results.asAmount, hδ, hκ, Value.onNumbers, Value.number, real_mul, real_add]
  · have hsum : p * (S * δ + m * S * κ) = S * (p * (δ + m * κ)) := by ring
    rw [← hsum]
    rfl

end Terms

/-! ## Decorators -/

section

variable [NormalSource Exact]

/-- The closed formula, or a simulation with a number of samples for a stopping rule. -/
def Engine.HasSetSamples : Engine Exact → Prop
  | .analytic _ => True
  | .monteCarlo _ s => ∃ n, s.samples = some n
  | _ => False

theorem Engine.HasSetSamples.exists_price (hnormals : NormalSource.IsReal) {base : Engine Exact}
    (h : base.HasSetSamples) : ∃ price, base.price? = some price ∧ Terms.ScalesPrices price := by
  cases base with
  | analytic place => exact ⟨_, rfl, Terms.scalesPrices_priceAnalytically⟩
  | monteCarlo place settings =>
    obtain ⟨n, hn⟩ := h
    exact ⟨_, rfl, Terms.scalesPrices_priceBySimulation hnormals hn⟩
  | _ => exact h.elim

variable {engines : List (Engine Exact)} {q : ℕ} {style : ForwardStyle} {base : Engine Exact}
  {t : Terms Exact} {u : Value Exact} {S m c : ℝ}

/-- If the one run succeeds, then so does the other, with results in proportion. -/
theorem WellPlaced.scales_of_calculate (hnormals : NormalSource.IsReal) (hplaced : WellPlaced engines)
    (hmem : .decorator q style base ∈ engines) (hbase : base.HasSetSamples)
    (history history' : List (Engine Exact × EngineAction Exact)) (hc : 0 < c)
    (hterms : (((Desk.opening engines).after history).get q).terms = t)
    (hterms' : (((Desk.opening engines).after history').get q).terms = t.set .underlying u)
    (hmarket : t.HasRealMarket) (hignores : t.IgnoresStrike)
    (hm : t.moneyness.operand = .ok (real m)) (hS : t.underlying.operand = .ok (real S))
    (hS' : u.operand = .ok (real (c * S))) :
    let e : Engine Exact := .decorator q style base
    let d := (Desk.opening engines).after history
    let d' := (Desk.opening engines).after history'
    (e.calculate.run d).1.result = .ok () → (e.calculate.run d').1.result = .ok () ∧
      style.Scales c ((e.calculate.run d).2.get q).results ((e.calculate.run d').2.get q).results := by
  intro e d d' hok
  have hseparate : e.Separate := hplaced.separate hmem
  obtain ⟨price, hprice, hscales⟩ := hbase.exists_price hnormals
  have hform : t.form = .forward := by
    rw [← hterms]
    exact hplaced.form_after hmem history
  have hquotation := (Engine.quotation_eq_ok hseparate).mpr ⟨hok, rfl⟩
  have hquotes : e.quotation d = _ := hplaced.quotation_decorator hmem hprice history
  have hquotes' : e.quotation d' = _ := hplaced.quotation_decorator hmem hprice history'
  rw [hquotes, hterms] at hquotation
  obtain ⟨R', hR', hstyle⟩ := Terms.exists_priceForward_set_underlying hscales hform hmarket hignores hc
    hm hS hS' style base.engineClass hquotation
  rw [← hterms', ← hquotes', Engine.quotation_eq_ok hseparate] at hR'
  obtain ⟨hok', rfl⟩ := hR'
  exact ⟨hok', hstyle⟩

/-- Over the closed formula and over a simulation with a set number of samples, under a volatility that
does not look at the strike: any two histories that leave a decorator with terms that differ in the
underlying alone, by a positive factor, let it calculate in both cases or in neither. Value, theta, vega,
the sensitivities to the rates and the standard error of an amount are multiplied by the factor, or
missing from both results, and its delta is kept; a performance is kept as a whole. Over the formula an
amount is worth the underlying at its delta. -/
theorem decorators_scale_with_the_underlying (hnormals : NormalSource.IsReal)
    (hplaced : WellPlaced engines) (hmem : .decorator q style base ∈ engines)
    (hbase : base.HasSetSamples) (history history' : List (Engine Exact × EngineAction Exact))
    (hc : 0 < c) (hterms : (((Desk.opening engines).after history).get q).terms = t)
    (hterms' : (((Desk.opening engines).after history').get q).terms = t.set .underlying u)
    (hmarket : t.HasRealMarket) (hignores : t.IgnoresStrike)
    (hm : t.moneyness.operand = .ok (real m)) (hS : t.underlying.operand = .ok (real S))
    (hS' : u.operand = .ok (real (c * S))) :
    let e : Engine Exact := .decorator q style base
    let d := (Desk.opening engines).after history
    let d' := (Desk.opening engines).after history'
    ((e.calculate.run d).1.result = .ok () ↔ (e.calculate.run d').1.result = .ok ()) ∧
      ((e.calculate.run d).1.result = .ok () →
        let R := ((e.calculate.run d).2.get q).results
        let R' := ((e.calculate.run d').2.get q).results
        style.Scales c R R' ∧
          (style = .amount → ∀ p, base = .analytic p →
            ∃ δ : ℝ, R.delta = .number (real δ) ∧ R.value = .number (real (S * δ)))) := by
  intro e d d'
  have hforth := hplaced.scales_of_calculate hnormals hmem hbase history history' hc hterms hterms'
    hmarket hignores hm hS hS'
  have hinverse : c⁻¹ * (c * S) = S := inv_mul_cancel_left₀ hc.ne' S
  -- The way back is the same law for the inverse factor.
  have hback := hplaced.scales_of_calculate hnormals hmem hbase history' history (inv_pos.mpr hc)
    (t := t.set .underlying u) (u := t.underlying) hterms' hterms { hmarket with } hignores hm hS'
    (by rw [hinverse, hS])
  refine ⟨⟨fun hok => (hforth hok).1, fun hok => (hback hok).1⟩, fun hok => ⟨(hforth hok).2, ?_⟩⟩
  rintro rfl p rfl
  have hquotation := (Engine.quotation_eq_ok (hplaced.separate hmem)).mpr ⟨hok, rfl⟩
  rw [hplaced.quotation_decorator hmem rfl history, hterms] at hquotation
  have hform : t.form = .forward := by
    rw [← hterms]
    exact hplaced.form_after hmem history
  exact Terms.exists_delta_of_priceForward hform hmarket hm hS hquotation

end

/-! ## A call on two underlyings -/

section

variable [NormalSource Exact] {style : ForwardStyle} {base : Engine Exact}

/-- A client fills in the terms of a decorator over any plain engine. -/
theorem WellPlaced.terms_after_update (hplaced : WellPlaced [.decorator 1 style base, base])
    (o : ForwardStart) (exercise : ExerciseType) (stoppingTimes : List (Value Exact)) :
    (((Desk.opening [.decorator 1 style base, base]).after [(.decorator 1 style base,
      .update ((o.fields exercise stoppingTimes).map fun p => (p.1.name, p.2)))]).get 1).terms =
        o.terms exercise stoppingTimes := by
  have hblank := congrArg Cell.terms (hplaced.get_opening List.mem_cons_self)
  exact congrArg Cell.terms (o.get_after_update exercise stoppingTimes hblank)

omit [NormalSource Exact] in
/-- On flat curves a decorator publishes whatever a plain engine gives for the option that lives from the
reset date on. -/
theorem Terms.Describes.exists_priceForward {t : Terms Exact} {o : ForwardStart} (h : t.Describes o)
    {r q : ℝ} (hform : t.form = .forward) (hvalid : t.validate.result = .ok ())
    (hlater : o.start < o.finish) (hr : o.riskFree.IsFlat o.basis o.riskFree.reference r)
    (hq : o.dividend.IsFlat o.basis o.riskFree.reference q)
    {price : Terms Exact → Outcome Exact (Results Exact)}
    (hpriced : ∀ strike x, (t.fromReset o strike).Reads x →
      (t.fromReset o strike).validate.result = .ok () →
      ∃ w, (price (t.fromReset o strike)).result = .ok w ∧ w.IsPriced)
    (style : ForwardStyle) (engine : EngineClass) :
    ∃ R, (t.priceForward style engine price).result = .ok R := by
  obtain ⟨hspot, -, -⟩ := h.signs ((validate_forward_eq_ok hform).mp hvalid)
  obtain ⟨strike, x, hreads, -, hplain, hequivalent⟩ := h.exists_priceEquivalent_eq hform hvalid hlater
  obtain ⟨w, hw, hresults⟩ := hpriced strike x hreads hplain
  obtain ⟨R, hR, -⟩ := (h.startsOnFlatCurves hr hq).exists_conclude hspot.ne' hresults style engine
  exact ⟨R, (Outcome.result_bind_of_ok ((hequivalent price).trans hw) _).trans hR⟩

end

namespace ForwardStart

variable (kind : OptionType) (spot moneyness riskFreeRate dividendYield level : ℝ)
  (reference reset maturity : DateTime) (exercise : ExerciseType) (stoppingTimes : List (Value Exact))

theorem hasRealMarket_onFlatCurves : ((onFlatCurves kind spot moneyness riskFreeRate dividendYield level
    reference reset maturity).terms exercise stoppingTimes).HasRealMarket :=
  .of_parts rfl rfl rfl (Curve.isReal_flat reference riskFreeRate _)
    (Curve.isReal_flat reference dividendYield _) ⟨level, rfl⟩

theorem ignoresStrike_onFlatCurves : ((onFlatCurves kind spot moneyness riskFreeRate dividendYield level
    reference reset maturity).terms exercise stoppingTimes).IgnoresStrike := by
  intro v hv
  cases hv
  exact Volatility.ignoresStrike_constant _ _ _

end ForwardStart

/-- A call at 110 % of the underlying in the middle of a year, on underlyings of 100 and of 200: an amount
and a performance, by the formula and by a simulation of four samples. -/
theorem decorators_scale_to_twice_the_underlying :
    letI : NormalSource Exact := ⟨Bool, fun _ => true, fun b => (real (if b then 1 else -1), !b)⟩
    let newYear := Value.midnight ⟨2024, 1, 1, by decide, by decide, by decide⟩
    let midYear := Value.midnight ⟨2024, 7, 1, by decide, by decide, by decide⟩
    let yearEnd := Value.midnight ⟨2025, 1, 1, by decide, by decide, by decide⟩
    let o (spot : ℝ) := ForwardStart.onFlatCurves .call spot 1.1 0.05 0.02 0.2 newYear midYear yearEnd
    let s : Settings Exact := { Settings.standard with samples := some 4, batchSize := 3 }
    let simulation : Engine Exact := .monteCarlo 0 s
    let d (style : ForwardStyle) (base : Engine Exact) (spot : ℝ) :=
      (Desk.opening [.decorator 1 style base, base]).after [(.decorator 1 style base,
        .update (((o spot).fields .european []).map fun p => (p.1.name, p.2)))]
    let run (style : ForwardStyle) (base : Engine Exact) (spot : ℝ) :=
      (Engine.decorator 1 style base).calculate.run (d style base spot)
    let twice (style : ForwardStyle) (base : Engine Exact) : Prop :=
      (run style base 100).1.result = .ok () ∧ (run style base 200).1.result = .ok () ∧
        style.Scales 2 ((run style base 100).2.get 1).results ((run style base 200).2.get 1).results
    twice .amount (.analytic 0) ∧ twice .performance (.analytic 0) ∧ twice .amount simulation ∧
      twice .performance simulation := by
  let _ : NormalSource Exact := ⟨Bool, fun _ => true, fun b => (real (if b then 1 else -1), !b)⟩
  intro newYear midYear yearEnd o s simulation d run twice
  have hnormals : NormalSource.IsReal := fun b => ⟨if b then 1 else -1, rfl⟩
  have htwice {base : Engine Exact} (style : ForwardStyle)
      (hplaced : WellPlaced [.decorator 1 style base, base]) (hbase : base.HasSetSamples)
      {price : Terms Exact → Outcome Exact (Results Exact)} (hprice : base.price? = some price)
      (hpriced : ∀ strike x, (((o 100).terms .european []).fromReset (o 100) strike).Reads x →
        (((o 100).terms .european []).fromReset (o 100) strike).validate.result = .ok () →
        ∃ w, (price (((o 100).terms .european []).fromReset (o 100) strike)).result = .ok w ∧
          w.IsPriced) : twice style base := by
    have hterms (spot : ℝ) : ((d style base spot).get 1).terms = (o spot).terms .european [] :=
      hplaced.terms_after_update (o spot) .european []
    have hdescribes := (o 100).describes_terms .european []
    have hflat (rate : ℝ) : (Curve.discount ⟨newYear, [⟨real 0, real 1⟩], some (.number (real rate)),
        .standard⟩).IsFlat .actual365 newYear rate :=
      Curve.isFlat_of_flatRate (f := .number (real rate)) rfl rfl rfl
    obtain ⟨R, hR⟩ := hdescribes.exists_priceForward rfl
      (ForwardStart.callOfYear_valid (.inl rfl) (by decide) (by decide))
      (ForwardStart.callOfYear_later (by decide)) (hflat 0.05) (hflat 0.02) hpriced style
      base.engineClass
    have hquotation : ((Engine.decorator 1 style base).quotation (d style base 100)).result = .ok R := by
      have hquotes := hplaced.quotation_decorator List.mem_cons_self hprice
        [(.decorator 1 style base,
          .update (((o 100).fields .european []).map fun p => (p.1.name, p.2)))]
      exact (congrArg Outcome.result hquotes).trans (by rw [← hR, ← hterms 100])
    have hok : (run style base 100).1.result = .ok () :=
      ((Engine.quotation_eq_ok (hplaced.separate List.mem_cons_self)).mp hquotation).1
    have hunderlying : (Value.number (real 200)).operand = .ok (real (2 * 100)) := by norm_num
    obtain ⟨hends, hscales⟩ := decorators_scale_with_the_underlying hnormals hplaced List.mem_cons_self
      hbase _ _ two_pos (hterms 100) (hterms 200)
      (ForwardStart.hasRealMarket_onFlatCurves _ _ _ _ _ _ _ _ _ _ _)
      (ForwardStart.ignoresStrike_onFlatCurves _ _ _ _ _ _ _ _ _ _ _) rfl rfl hunderlying
    exact ⟨hok, hends.mp hok, (hscales hok).1⟩
  have hformula (style : ForwardStyle) : twice style (.analytic 0) := by
    refine htwice style (.formula_and_decorator style) trivial rfl fun strike x hx hvalid => ?_
    exact ⟨_, hx.priceAnalytically hvalid rfl rfl, ⟨_, rfl⟩,
      fun f => (AnalyticGreeks.covers_results _ f).1⟩
  have hsimulation (style : ForwardStyle) : twice style simulation := by
    have hplaced : WellPlaced [.decorator 1 style simulation, simulation] := by
      refine (WellPlaced.nil.cons ?_ ?_).cons ?_ ?_
      all_goals simp [simulation, Engine.inner?, Engine.place]
    refine htwice style hplaced ⟨4, rfl⟩ rfl fun strike x hx hvalid => ?_
    let view := Volatility.implied (.constant newYear (real 0.2) .standard) midYear
    have hview : ((Volatility.constant newYear (real 0.2) .standard).views [midYear]).result = .ok view :=
      Volatility.views_cons.mpr ⟨by decide, Volatility.views_nil.mpr rfl⟩
    have hmoment : (Value.dateTime yearEnd : Value Exact).IsMoment := trivial
    have hlevel := Volatility.levelAt_views_constant (by norm_num) hview hmoment
      (.number (real x.strike))
    obtain ⟨value, error, hw⟩ := hx.exists_priceBySimulation (s := s) (n := 4) hnormals hvalid rfl rfl
      rfl (by norm_num) hlevel rfl (by decide) ⟨by decide, by decide, by decide, by decide⟩
    exact ⟨_, hw, ⟨_, rfl⟩, fun f => (Terms.covers_priceBySimulation hw f).1⟩
  exact ⟨hformula .amount, hformula .performance, hsimulation .amount, hsimulation .performance⟩

end OptionDesk
