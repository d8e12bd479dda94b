import OptionDesk.Proofs.Engine.Failures
import OptionDesk.Proofs.Engine.ForwardSensitivities
import OptionDesk.Proofs.Engine.Mapping
import OptionDesk.Proofs.Volatility.Reanchoring

/-!
# Decorators over decorators

A decorator may price through another decorator. Loading hands the underlying down from level to level,
but each level takes the strike from its own moneyness, whatever strike has been handed down to it. So
the plain engine at the bottom of a stack prices the underlying of the outermost decorator at the
moneyness of the lowest one. Their product is that of the values as they are written: numbers multiply,
and a text is repeated.
-/
namespace OptionDesk

open Session Engine

variable {α : Type}

namespace Engine

/-- The engines below those of a chain are part of it. -/
theorem inner_mem_chain {e sub inner : Engine α} (hsub : sub ∈ e.chain)
    (hinner : sub.inner? = some inner) : inner ∈ e.chain := by
  induction e with
  | decorator place style below ih =>
    rcases List.mem_cons.mp hsub with rfl | hsub
    · cases hinner
      exact mem_chain_of_mem_inner (mem_chain_self _)
    · exact mem_chain_of_mem_inner (ih hsub)
  | _ =>
    rw [eq_of_mem_chain rfl hsub] at hinner
    cases hinner

variable [Scalar α]

/-- Loading keeps the moneyness of all terms, those that are loaded included. -/
theorem keeps_moneyness_prepare (e inner : Engine α) (style : ForwardStyle) (j : ℕ) :
    Keeps (fun d => (d.get j).terms.moneyness) (e.prepare style inner) := by
  let moneyness : Cell α → Value α := fun c => c.terms.moneyness
  have hchange (g : Cell α → Cell α) (hg : ∀ c, moneyness (g c) = moneyness c) :
      Keeps (fun d => moneyness (d.get j)) (inner.change g) := keeps_change inner fun _ => hg
  have hvalidate (e : Engine α) : Keeps (fun d => moneyness (d.get j)) e.validate :=
    (keeps_cell e _).bind fun _ => .lift _
  have hclear : Keeps (fun d => moneyness (d.get j)) (inner.clearFor style) := by
    cases style with
    | amount => exact hchange _ fun _ => rfl
    | performance => exact .pure _
  refine hclear.bind fun _ => (hvalidate e).bind fun _ => (keeps_cell e _).bind fun _ =>
    (Keeps.lift _).bind fun plain => Keeps.bind ?_ fun _ => hvalidate inner
  exact hchange _ fun _ => rfl

variable [NormalSource α]

/-- The last thing that an engine has done: it has priced the terms that it has, and published. -/
structure HasPriced (e : Engine α) (d₀ d : Desk α) : Prop where
  terms : (d.get e.place).terms = (d₀.get e.place).terms
  published : (e.outcome d₀).result = .ok (d.get e.place).results

theorem HasPriced.of_calculate {e : Engine α} (he : e.Separate) {d : Desk α}
    (h : (e.calculate.run d).1.result = .ok ()) : e.HasPriced d (e.calculate.run d).2 :=
  ⟨(publishes_quotation he d).terms, seen_eq_ok.mpr ⟨⟨(), h⟩, rfl⟩⟩

/-- The steps of a decorated calculation that succeeds. -/
theorem steps_of_calculate {place : ℕ} {style : ForwardStyle} {inner : Engine α} {d : Desk α}
    (h : ((decorator place style inner).calculate.run d).1.result = .ok ()) :
    let e := decorator place style inner
    let d₁ := ((e.prepare style inner).run d).2
    let d₂ := (inner.calculate.run d₁).2
    ((e.prepare style inner).run d).1.result = .ok () ∧ (inner.calculate.run d₁).1.result = .ok () ∧
      (e.calculate.run d).2 = ((e.conclude style inner).run d₂).2 := by
  intro e d₁ d₂
  have hrun : e.calculate.run d = _ :=
    congrArg (fun x => Session.run x d) (calculate_decorator place style inner)
  rw [hrun, fst_run_bind] at h
  obtain ⟨_, hprepare, hrest⟩ := Outcome.result_bind_eq_ok.mp h
  rw [fst_run_bind] at hrest
  obtain ⟨_, hcalculate, -⟩ := Outcome.result_bind_eq_ok.mp hrest
  refine ⟨hprepare, hcalculate, ?_⟩
  rw [hrun, snd_run_bind_ok hprepare, snd_run_bind_ok hcalculate]

/-- What a calculation through a stack makes the plain engine at its bottom price. -/
structure PricesBelow (e sub base : Engine α) (d d₀ d' : Desk α) : Prop where
  priced : base.HasPriced d₀ d'
  underlying : (d'.get base.place).terms.underlying = (d.get e.place).terms.underlying
  strike : (d.get sub.place).terms.moneyness.times (d.get e.place).terms.underlying =
    .ok (d'.get base.place).terms.strike

theorem PricesBelow.of_cell {e sub base : Engine α} {d d₀ d₂ d' : Desk α}
    (h : PricesBelow e sub base d d₀ d₂) (hcell : d'.get base.place = d₂.get base.place) :
    PricesBelow e sub base d d₀ d' := by
  obtain ⟨⟨hterms, hpublished⟩, hunderlying, hstrike⟩ := h
  rw [← hcell] at hterms hpublished hunderlying hstrike
  exact ⟨⟨hterms, hpublished⟩, hunderlying, hstrike⟩

/-- By induction on the stack: one level hands down its underlying, and keeps all moneynesses. -/
theorem exists_pricesBelow {e sub base : Engine α} (hseparate : ∀ s ∈ e.chain, s.Separate)
    (hsub : sub ∈ e.chain) (hinner : sub.inner? = some base) (hplain : base.inner? = none)
    {d : Desk α} (hok : (e.calculate.run d).1.result = .ok ()) :
    ∃ d₀, PricesBelow e sub base d d₀ (e.calculate.run d).2 := by
  induction e generalizing d with
  | decorator place style inner ih =>
    have hplaces : ∀ s ∈ inner.chain, s.place ≠ place := hseparate _ (mem_chain_self _) inner rfl
    obtain ⟨hprepare, hcalculate, hafter⟩ := steps_of_calculate hok
    have hloaded := isLoaded_of_prepare (hplaces inner inner.mem_chain_self) hprepare
    have hkept {j : ℕ} (hj : j ≠ place) :=
      keeps_conclude (e := decorator place style inner) inner style hj
    rw [hafter]
    rcases List.mem_cons.mp hsub with rfl | hsub
    · obtain rfl : inner = base := Option.some.inj hinner
      have hbase : inner.place ≠ place := hplaces inner inner.mem_chain_self
      have hpriced := HasPriced.of_calculate (separate_of_plain hplain) hcalculate
      refine ⟨_, PricesBelow.of_cell ⟨hpriced, ?_, ?_⟩ (hkept hbase _)⟩
      · rw [hpriced.terms, hloaded.underlying]
      · rw [hpriced.terms]
        exact hloaded.strike
    · have hbase : base.place ≠ place := hplaces base (inner_mem_chain hsub hinner)
      obtain ⟨d₀, hbelow⟩ :=
        ih (fun s hs => hseparate s (mem_chain_of_mem_inner hs)) hsub hcalculate
      obtain ⟨hpriced, hunderlying, hstrike⟩ := hbelow
      have hmoneyness := keeps_moneyness_prepare (.decorator place style inner) inner style sub.place d
      dsimp only at hmoneyness
      rw [hloaded.underlying] at hunderlying hstrike
      rw [hmoneyness] at hstrike
      exact ⟨d₀, PricesBelow.of_cell ⟨hpriced, hunderlying, hstrike⟩ (hkept hbase _)⟩
  | _ =>
    rw [eq_of_mem_chain rfl hsub] at hinner
    cases hinner

/-- A quotation through another engine is the quotation of that engine, once the terms are loaded. -/
theorem quotation_eq_prepare {q : ℕ} {style : ForwardStyle} {inner : Engine α}
    (hplace : inner.place ≠ q) (hinner : inner.Separate) (d : Desk α) :
    let e := decorator q style inner
    e.quotation d = (do
      ((e.prepare style inner).run d).1
      let r ← inner.quotation ((e.prepare style inner).run d).2
      (d.get q).terms.conclude style inner.engineClass r) := by
  intro e
  have hthrough : (inner.through style (d.get q).terms).seen (fun d => (d.get inner.place).results) d =
      _ := seen_of_run_eq _ (run_through (e := e) hplace style d)
  rw [seen_bind] at hthrough
  rw [quotation, hthrough, bind_assoc]
  refine Outcome.bind_congr_of_ok fun _ _ => ?_
  exact congrArg (· >>= _) (outcome_eq hinner _)

end Engine

/-- Through whatever stack a calculation runs, the plain engine at the bottom prices the underlying of the
outermost decorator, struck at the moneyness of the lowest one: the decorator's own strike if there is
no other, and otherwise a strike in which its moneyness does not occur. -/
theorem stack_is_struck_at_the_lowest_moneyness [Scalar α] [NormalSource α]
    {engines : List (Engine α)} (hplaced : WellPlaced engines) {e sub base : Engine α}
    (he : e ∈ engines) (hsub : sub ∈ e.chain) (hinner : sub.inner? = some base)
    (hplain : base.inner? = none) {d : Desk α} (hok : (e.calculate.run d).1.result = .ok ()) :
    ∃ d₀, PricesBelow e sub base d d₀ (e.calculate.run d).2 :=
  exists_pricesBelow (fun _ hs => hplaced.separate (hplaced.mem_of_mem_chain he hs)) hsub hinner
    hplain hok

/-! ## Stacks on flat markets -/

open Exact

/-- Results that a decorator can map: each is a number or nothing, and there is a value. -/
structure Results.IsPriced (r : Results Exact) : Prop where
  value : ∃ v, r.value = .number v
  areResults : r.AreResults

namespace Terms

/-- European forward-start terms on two flat curves, under a volatility whose variance is in proportion
to the time at all strikes. -/
structure StartsOnFlatMarket (t : Terms Exact) (b : DayCount.Basis)
    (reference reset expiry : DateTime) (kind : OptionType) (S m σ r q : ℝ) : Prop extends
    t.StartsOnFlatCurves b reference reset S m r q where
  form : t.form = .forward
  optionType : t.optionType = .optionType kind
  strike : t.strike = .null ∨ ∃ k : ℝ, 0 ≤ k ∧ t.strike.read = .ok (real k)
  european : t.exerciseType = .exercise .european
  maturity : t.maturity = .dateTime expiry
  volatility : ∃ v, t.volSurface = .volatility v ∧ v.dayCount = .basis b ∧ v.reference = reference ∧
    ∀ strike, v.HasVariance strike fun x => σ * σ * x

variable {t before after : Terms Exact} {b : DayCount.Basis} {reference reset expiry : DateTime}
  {kind : OptionType} {S m σ r q : ℝ}

theorem StartsOnFlatCurves.exists_conclude (h : t.StartsOnFlatCurves b reference reset S m r q)
    (hS : S ≠ 0) {w : Results Exact} (hw : w.IsPriced) (style : ForwardStyle) (engine : EngineClass) :
    ∃ R, (t.conclude style engine w).result = .ok R ∧ R.IsPriced := by
  obtain ⟨⟨v, hv⟩, hresults⟩ := hw
  simp only [conclude_eq_ok]
  cases style with
  | amount =>
    obtain ⟨c, hc, hflat⟩ := h.dividend
    refine ⟨_, (amountResults_eq_ok hresults.areMappable h.moneyness).mpr
      ⟨_, _, _, v, h.readsReset hc hflat, hv, rfl⟩, ⟨_, rfl⟩, Results.areResults_asAmount _ _ _ _ _ _⟩
  | performance =>
    obtain ⟨c, hc, hflat⟩ := h.riskFree
    have hshare := congrArg Outcome.result
      (Outcome.divide_real (Real.exp (-r * b.years reference reset)) hS)
    exact ⟨_, (performanceResults_eq_ok hresults.areMappable h.underlying).mpr
      ⟨_, _, _, _, v, h.readsReset hc hflat, hshare, hv, rfl⟩, ⟨_, rfl⟩,
      Results.areResults_asPerformance _ _ _ _ _⟩

namespace StartsOnFlatMarket

variable (h : t.StartsOnFlatMarket b reference reset expiry kind S m σ r q)

include h

theorem validate (hS : 0 < S) (hm : 0 < m) (hstart : 0 ≤ b.years reference reset)
    (hlater : b.years reference reset ≤ b.years reference expiry)
    (hlife : 0 < b.years reference expiry) : t.validate.result = .ok () := by
  obtain ⟨c, hc, hflat⟩ := h.riskFree
  obtain ⟨e, he, -⟩ := h.dividend
  obtain ⟨v, hv, -⟩ := h.volatility
  have htime : t.maturityTime.result = .ok (real (b.years reference expiry)) := by
    rw [maturityTime, hc, h.maturity]
    exact hflat.anchorTo expiry
  have hstrike : (t.form = .forward ∧ t.strike = .null) ∨
      ∃ k : ℝ, 0 ≤ k ∧ t.strike.read = .ok (real k) := h.strike.imp_left fun hnull => ⟨h.form, hnull⟩
  refine (validate_forward_eq_ok h.form).mpr ⟨?_, ?_⟩
  · exact ⟨⟨kind, h.optionType⟩, ⟨.european, h.european, .inl rfl⟩,
      ⟨S, hS, Value.read_of_operand h.underlying⟩, hstrike, ⟨e, he⟩, ⟨c, hc⟩, ⟨v, hv⟩,
      ⟨expiry, h.maturity⟩, _, hlife, htime⟩
  · exact ⟨⟨m, hm, Value.read_of_operand h.moneyness⟩, ⟨reset, h.resetDate⟩, _, _, hstart, hlater,
      h.resetTime, htime⟩

theorem exists_equivalent (hreset : reset.before reference = false) :
    ∃ plain, t.equivalent.result = .ok plain := by
  obtain ⟨c, hc, hflat⟩ := h.riskFree
  obtain ⟨e, he, hflat'⟩ := h.dividend
  obtain ⟨v, hv, -, hreference, -⟩ := h.volatility
  obtain ⟨strike, hstrike, -⟩ := Value.times_real h.moneyness h.underlying
  have hdividend : (t.dividendCurve.curveFrom t.resetDate).result = .ok (.curve (.implied e reset)) := by
    rw [he, h.resetDate, Value.curveFrom_eq_ok, hflat'.reference]
    exact ⟨hreset, rfl⟩
  have hriskFree : (t.riskFreeCurve.curveFrom t.resetDate).result = .ok (.curve (.implied c reset)) := by
    rw [hc, h.resetDate, Value.curveFrom_eq_ok, hflat.reference]
    exact ⟨hreset, rfl⟩
  have hvolatility : (t.volSurface.volatilityFrom t.resetDate).result =
      .ok (.volatility (.implied v reset)) := by
    rw [hv, h.resetDate, Value.volatilityFrom_eq_ok, hreference]
    exact ⟨hreset, rfl⟩
  exact ⟨_, equivalent_of_parts hstrike hdividend hriskFree hvolatility⟩

/-- What is loaded stands on the same flat market, seen from the reset date. -/
theorem views (hloaded : t.IsLoaded before after) :
    (∃ c, after.riskFreeCurve = .curve c ∧ c.IsFlat b reset r) ∧
    (∃ c, after.dividendCurve = .curve c ∧ c.IsFlat b reset q) ∧
    ∃ v, after.volSurface = .volatility v ∧ v.dayCount = .basis b ∧ v.reference = reset ∧
      ∀ strike, v.HasVariance strike fun x => σ * σ * x := by
  obtain ⟨c, hc, hflat⟩ := h.riskFree
  obtain ⟨e, he, hflat'⟩ := h.dividend
  obtain ⟨v, hv, hdays, -, hvariance⟩ := h.volatility
  have hriskFree := hloaded.riskFreeCurve
  have hdividend := hloaded.dividendCurve
  have hvolatility := hloaded.volSurface
  rw [hc, h.resetDate, Value.curveFrom_eq_ok] at hriskFree
  rw [he, h.resetDate, Value.curveFrom_eq_ok] at hdividend
  rw [hv, h.resetDate, Value.volatilityFrom_eq_ok] at hvolatility
  refine ⟨⟨_, hriskFree.2, hflat.implied reset⟩, ⟨_, hdividend.2, hflat'.implied reset⟩, _,
    hvolatility.2, hdays, rfl, fun strike => ?_⟩
  have hview := (hvariance strike).implied hdays hvolatility.1
  simp only [mul_add, add_sub_cancel_left] at hview
  exact hview

/-- The loaded strike. -/
theorem strike_of_isLoaded (hloaded : t.IsLoaded before after) :
    after.strike.read = .ok (real (m * S)) := by
  obtain ⟨strike, hstrike, hread⟩ := Value.times_real h.moneyness h.underlying
  rw [← Except.ok.inj (hstrike.symm.trans hloaded.strike)]
  exact hread

theorem onFlatMarket (hloaded : t.IsLoaded before after) (hlife : 0 ≤ b.years reset expiry) :
    after.OnFlatMarket b reset expiry S (m * S) σ r q := by
  obtain ⟨hriskFree, hdividend, v, hv, hdays, hreference, hvariance⟩ := h.views hloaded
  refine ⟨?_, h.strike_of_isLoaded hloaded, hloaded.maturity.trans h.maturity, hriskFree, hdividend,
    v, hv, ?_⟩
  · rw [hloaded.underlying]
    exact Value.read_of_operand h.underlying
  · rw [Volatility.varianceAt_dateTime hdays, hreference]
    exact (hvariance _).variance _ hlife

/-- One level down the terms stand on a flat market again, with a moneyness and a reset date of their
own. -/
theorem loaded {reset' : DateTime} {m' : ℝ} (hloaded : t.IsLoaded before after)
    (hstrike : 0 ≤ m * S) (hform : before.form = .forward)
    (hmoneyness : before.moneyness.operand = .ok (real m'))
    (hreset : before.resetDate = .dateTime reset') :
    after.StartsOnFlatMarket b reset reset' expiry kind S m' σ r q := by
  obtain ⟨hriskFree, hdividend, hvolatility⟩ := h.views hloaded
  exact {
    underlying := by rw [hloaded.underlying, h.underlying]
    moneyness := by rw [hloaded.moneyness, hmoneyness]
    resetDate := hloaded.resetDate.trans hreset
    riskFree := hriskFree
    dividend := hdividend
    form := hloaded.form.trans hform
    optionType := hloaded.optionType.trans h.optionType
    strike := .inr ⟨m * S, hstrike, h.strike_of_isLoaded hloaded⟩
    european := hloaded.exerciseType.trans h.european
    maturity := hloaded.maturity.trans h.maturity
    volatility := hvolatility }

/-- The formula publishes what has been loaded. -/
theorem exists_priceAnalytically (hloaded : t.IsLoaded before after) (hform : before.form = .plain)
    (hS : 0 < S) (hm : 0 < m) (hlife : 0 < b.years reset expiry) :
    after.validate.result = .ok () ∧ ∃ w, after.priceAnalytically.result = .ok w ∧ w.IsPriced := by
  have hmarket := h.onFlatMarket hloaded hlife.le
  have hK : 0 ≤ m * S := (mul_pos hm hS).le
  have hplain : after.form = .plain := hloaded.form.trans hform
  have hkind : after.optionType = .optionType kind := hloaded.optionType.trans h.optionType
  have heuropean : after.exerciseType = .exercise .european := hloaded.exerciseType.trans h.european
  refine ⟨hmarket.validate hS hK hlife hplain hkind heuropean, _,
    hmarket.priceAnalytically hS hK hlife hplain hkind heuropean, ⟨_, rfl⟩, fun f => ?_⟩
  exact (AnalyticGreeks.covers_results _ f).1

end StartsOnFlatMarket

end Terms

/-- A decorator on a flat market publishes if the engine that it prices through does, once the terms are
loaded there. -/
theorem Engine.exists_quotation_decorator [NormalSource Exact] {place : ℕ} {style : ForwardStyle}
    {inner : Engine Exact} (hplace : inner.place ≠ place) (hinner : inner.Separate) {d : Desk Exact}
    {b : DayCount.Basis} {reference reset expiry : DateTime} {kind : OptionType} {S m σ r q : ℝ}
    (ht : (d.get place).terms.StartsOnFlatMarket b reference reset expiry kind S m σ r q)
    (hS : 0 < S) (hm : 0 < m) (hreset : reset.before reference = false)
    (hlater : b.years reference reset ≤ b.years reference expiry)
    (hlife : 0 < b.years reference expiry)
    (hpriced : ∀ d₁ : Desk Exact,
      (d.get place).terms.IsLoaded (d.get inner.place).terms (d₁.get inner.place).terms →
      (∀ j, place ≠ j → inner.place ≠ j → d₁.get j = d.get j) →
      (d₁.get inner.place).terms.validate.result = .ok () ∧
        ∃ w, (inner.quotation d₁).result = .ok w ∧ w.IsPriced) :
    ∃ R, ((decorator place style inner).quotation d).result = .ok R ∧ R.IsPriced := by
  let e := decorator place style inner
  have hvalid := ht.validate hS hm (b.years_nonneg hreset) hlater hlife
  obtain ⟨plain, hplain⟩ := ht.exists_equivalent hreset
  let d₁ := ((e.prepare style inner).run d).2
  obtain ⟨hwhole, -⟩ := get_prepare (e := e) hplace style d
  have hafter : (d₁.get inner.place).terms = (d.get inner.place).terms.loaded plain :=
    hwhole.accepted plain hvalid hplain
  have hloaded : (d.get place).terms.IsLoaded (d.get inner.place).terms (d₁.get inner.place).terms := by
    rw [hafter]
    exact Terms.isLoaded_loaded hplain _
  obtain ⟨haccepted, w, hw, hresults⟩ := hpriced d₁ hloaded fun j hj hj' =>
    (avoids_prepare (e := e) hj hj' style).keeps d
  have hprepared : ((e.prepare style inner).run d).1.result = .ok () := by
    rw [result_prepare (e := e) hplace style hvalid hplain, ← hafter]
    exact haccepted
  obtain ⟨R, hR, hpricedR⟩ := ht.exists_conclude hS.ne' hresults style inner.engineClass
  refine ⟨R, ?_, hpricedR⟩
  rw [quotation_eq_prepare hplace hinner, Outcome.result_bind_of_ok hprepared,
    Outcome.result_bind_of_ok hw]
  exact hR

/-- A performance over an amount over the formula. The upper level stands on a flat market, and each level
has a moneyness of its own. -/
structure TwoLevels where
  spot : ℝ
  moneyness : ℝ
  lowerMoneyness : ℝ
  riskFreeRate : ℝ
  dividendYield : ℝ
  level : ℝ
  spot_pos : 0 < spot
  moneyness_pos : 0 < moneyness
  lowerMoneyness_pos : 0 < lowerMoneyness

namespace TwoLevels

noncomputable section

def reference : DateTime := Value.midnight ((Date.ofParts? 2024 1 1).get rfl)

def reset : DateTime := Value.midnight ((Date.ofParts? 2024 7 1).get rfl)

def lowerReset : DateTime := Value.midnight ((Date.ofParts? 2024 10 1).get rfl)

def expiry : DateTime := Value.midnight ((Date.ofParts? 2024 12 31).get rfl)

def curve (rate : ℝ) : Curve Exact :=
  .discount ⟨reference, [⟨real 0, real 1⟩], some (.number (real rate)), .standard⟩

def amount : Engine Exact := .decorator 1 .amount (.analytic 0)

def performance : Engine Exact := .decorator 2 .performance amount

variable (o : TwoLevels)

/-- All that a client fills in at the upper level. -/
def upper : Terms Exact :=
  { Terms.blank .forward with
    optionType := .optionType .call
    underlying := .number (real o.spot)
    moneyness := .number (real o.moneyness)
    dividendCurve := .curve (curve o.dividendYield)
    riskFreeCurve := .curve (curve o.riskFreeRate)
    volSurface := .volatility (.constant reference (real o.level) .standard)
    resetDate := .dateTime reset
    maturity := .dateTime expiry }

/-- At the lower level the rest is loaded. -/
def lower : Terms Exact :=
  { Terms.blank .forward with
    moneyness := .number (real o.lowerMoneyness)
    resetDate := .dateTime lowerReset }

def desk : Desk Exact :=
  (Registry.empty.put 2 { Cell.blank .forward with terms := o.upper }).put 1
    { Cell.blank .forward with terms := o.lower }

end

theorem isFlat_curve (rate : ℝ) : (curve rate).IsFlat .actual365 reference rate :=
  Curve.isFlat_of_flatRate (f := .number (real rate)) rfl rfl rfl

theorem wellPlaced : WellPlaced [performance, amount, .analytic 0] := by
  refine ((WellPlaced.nil.cons ?_ ?_).cons ?_ ?_).cons ?_ ?_
  all_goals simp [performance, amount, Engine.inner?, Engine.place]

theorem separate {e : Engine Exact} (he : e ∈ performance.chain) : e.Separate :=
  wellPlaced.separate (wellPlaced.mem_of_mem_chain List.mem_cons_self he)

theorem amount_mem_chain : amount ∈ performance.chain := List.mem_cons_of_mem _ List.mem_cons_self

variable (o : TwoLevels)

theorem startsOnFlatMarket : o.upper.StartsOnFlatMarket .actual365 reference reset expiry .call
    o.spot o.moneyness o.level o.riskFreeRate o.dividendYield where
  underlying := rfl
  moneyness := rfl
  resetDate := rfl
  riskFree := ⟨_, rfl, isFlat_curve _⟩
  dividend := ⟨_, rfl, isFlat_curve _⟩
  form := rfl
  optionType := rfl
  strike := .inl rfl
  european := rfl
  maturity := rfl
  volatility := ⟨_, rfl, rfl, rfl, fun _ => Volatility.hasVariance_constant _ _ _ _⟩

/-- Both levels publish. -/
theorem calculate [NormalSource Exact] : (performance.calculate.run o.desk).1.result = .ok () := by
  have hactual : DayCount.Basis.actual365.IsActual := by decide
  have hpositive {s t : DateTime} (h : s.before t = true) : 0 < DayCount.Basis.actual365.years s t :=
    (DayCount.Basis.years_pos_iff hactual s t).mpr h
  have hlater (s : DateTime) {t u : DateTime} (h : t.before u = true) :
      DayCount.Basis.actual365.years s t ≤ DayCount.Basis.actual365.years s u := by
    have hsum := DayCount.Basis.years_add hactual s t u
    have hlife := hpositive h
    linarith
  have hstrike : 0 ≤ o.moneyness * o.spot := (mul_pos o.moneyness_pos o.spot_pos).le
  have hupper : ∃ R, (performance.quotation o.desk).result = .ok R ∧ R.IsPriced := by
    refine Engine.exists_quotation_decorator (show amount.place ≠ 2 by decide)
      (separate amount_mem_chain) o.startsOnFlatMarket o.spot_pos o.moneyness_pos (by decide)
      (hlater _ (by decide)) (hpositive (by decide)) fun d₁ hloaded hother => ?_
    have hlower : (d₁.get 1).terms.StartsOnFlatMarket .actual365 reset lowerReset expiry .call
        o.spot o.lowerMoneyness o.level o.riskFreeRate o.dividendYield :=
      o.startsOnFlatMarket.loaded hloaded hstrike rfl rfl rfl
    have hbase : d₁.get 0 = .blank .plain := hother 0 (by decide) (by decide)
    refine ⟨hlower.validate o.spot_pos o.lowerMoneyness_pos (hpositive (by decide)).le
      (hlater _ (by decide)) (hpositive (by decide)), ?_⟩
    refine Engine.exists_quotation_decorator (show (Engine.analytic 0).place ≠ 1 by decide)
      (separate_of_plain rfl) hlower o.spot_pos o.lowerMoneyness_pos (by decide)
      (hlater _ (by decide)) (hpositive (by decide)) fun d₂ hloaded' _ => ?_
    exact hlower.exists_priceAnalytically hloaded' (congrArg (fun c => c.terms.form) hbase)
      o.spot_pos o.lowerMoneyness_pos (hpositive (by decide))
  obtain ⟨R, hR, -⟩ := hupper
  rw [(publishes_quotation (separate performance.mem_chain_self) o.desk).ends, Outcome.result_map]
  exact congrArg (Except.map fun _ => ()) hR

end TwoLevels

/-- A performance over an amount over the formula, with a moneyness on each level. -/
theorem two_levels_are_struck_at_the_lowest_moneyness :
    letI : NormalSource Exact := ⟨Unit, fun _ => (), fun _ => (real 0, ())⟩
    let o : TwoLevels :=
      ⟨100, 1.2, 0.9, 0.05, 0.02, 0.2, by norm_num, by norm_num, by norm_num⟩
    let e := TwoLevels.performance
    (e.calculate.run o.desk).1.result = .ok () ∧
      ∃ d₀, PricesBelow e TwoLevels.amount (.analytic 0) o.desk d₀ (e.calculate.run o.desk).2 := by
  let _ : NormalSource Exact := ⟨Unit, fun _ => (), fun _ => (real 0, ())⟩
  intro o e
  exact ⟨o.calculate, stack_is_struck_at_the_lowest_moneyness TwoLevels.wellPlaced
    List.mem_cons_self TwoLevels.amount_mem_chain rfl rfl o.calculate⟩

/-- Both constructions are accepted, and the performance calculates with a moneyness of 1.2 on an
underlying of 100. But the formula has priced an option that is struck at 90 and not at 120. -/
theorem upper_moneyness_is_not_priced :
    letI : NormalSource Exact := ⟨Unit, fun _ => (), fun _ => (real 0, ())⟩
    let o : TwoLevels :=
      ⟨100, 1.2, 0.9, 0.05, 0.02, 0.2, by norm_num, by norm_num, by norm_num⟩
    let e := TwoLevels.performance
    let d := o.desk
    let priced := ((e.calculate.run d).2.get 0).terms
    (Engine.decorate 1 .amount (.analytic 0)).result = .ok TwoLevels.amount ∧
      (Engine.decorate 2 .performance TwoLevels.amount).result = .ok e ∧
      (e.calculate.run d).1.result = .ok () ∧
      (d.get 2).terms.moneyness.times (d.get 2).terms.underlying = .ok (.number (real (1.2 * 100))) ∧
      priced.strike = .number (real (0.9 * 100)) ∧
      (d.get 2).terms.moneyness.times (d.get 2).terms.underlying ≠ .ok priced.strike := by
  let _ : NormalSource Exact := ⟨Unit, fun _ => (), fun _ => (real 0, ())⟩
  intro o e d priced
  obtain ⟨_, -, -, hstrike⟩ := exists_pricesBelow (fun _ => TwoLevels.separate)
    TwoLevels.amount_mem_chain rfl rfl o.calculate
  have hpriced : priced.strike = .number (real (0.9 * 100)) := (Except.ok.inj hstrike).symm
  have hown : (d.get 2).terms.moneyness.times (d.get 2).terms.underlying =
      .ok (.number (real (1.2 * 100))) := rfl
  refine ⟨rfl, rfl, o.calculate, hown, hpriced, ?_⟩
  rw [hown, hpriced]
  intro h
  have hequal : (1.2 * 100 : ℝ) = 0.9 * 100 :=
    real.inj (Figure.number.inj (Value.figure.inj (Except.ok.inj h)))
  norm_num at hequal

end OptionDesk
