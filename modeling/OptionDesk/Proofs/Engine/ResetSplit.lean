import OptionDesk.Proofs.Calendar
import OptionDesk.Proofs.Curve.Flat
import OptionDesk.Proofs.Engine.Errors
import OptionDesk.Proofs.Engine.ForwardStart

/-!
# The life of a forward-start option

A decorator loads the plain option that lives from the reset date on, and that life is counted from
there. Elapsed time adds up, so the times before and after the reset date make up the time to
maturity, and on each curve the factor to maturity is the product of the factors before and after.

In months of thirty days an interrupted count may gain or lose a day. The factors still multiply to the
factor at the sum of the two times, but this need not be the time to maturity. If all that is left after
the reset date is the last day of a month, then there may be no time left at all.
-/
namespace OptionDesk

open Exact

namespace Terms

/-- Validation says that maturity is not after the reference date only if no time is left. -/
theorem maturityTime_le_of_validate {α : Type} [Scalar α] {t : Terms α} {form : TermForm} {x : α}
    (hx : t.maturityTime.result = .ok x)
    (h : t.validate.result = .error (.terms form .maturityNotAfterReference)) : x ≤ 0 := by
  by_contra hpositive
  refine spares_validate (remote_maturityNotAfterReference form) (.inl fun y hy => ?_) h
  rwa [← Except.ok.inj (hx.symm.trans hy)]

end Terms

/-! ## The option that is loaded -/

/-- Loading takes over the equivalent plain option, and ends as the validation of what it leaves. -/
theorem Engine.run_load {α : Type} [Scalar α] (inner : Engine α) {t plain : Terms α} (d : Desk α)
    (hvalid : t.validate.result = .ok ()) (hplain : t.equivalent.result = .ok plain) :
    (((inner.load t).run d).2.get inner.place).terms = (d.get inner.place).terms.loaded plain ∧
      ((inner.load t).run d).1.result = ((d.get inner.place).terms.loaded plain).validate.result := by
  rcases hvalidate : t.validate with ⟨result, notices⟩
  rw [hvalidate] at hvalid
  cases hvalid
  rcases hequivalent : t.equivalent with ⟨result, notices'⟩
  rw [hequivalent] at hplain
  cases hplain
  rw [load, hvalidate, hequivalent, Session.run_bind_of_ok _ (Session.run_lift _ d),
    Session.run_bind_of_ok _ (Session.run_lift _ d), run_change_bind, run_validate, Desk.get_put_self]
  exact ⟨rfl, rfl⟩

namespace Terms

/-- Whatever stood there before, the loaded option has the curves that are seen from the reset date. -/
theorem view_of_loaded {α : Type} [Scalar α] {t plain : Terms α} {reset : DateTime} {c : Curve α}
    {f : TermField} (hplain : t.equivalent.result = .ok plain) (hreset : t.resetDate = .dateTime reset)
    (hf : f = .dividendCurve ∨ f = .riskFreeCurve) (hc : t.get f = .curve c) (before : Terms α) :
    (before.loaded plain).get f = .curve (.implied c reset) ∧
      (before.loaded plain).maturity = t.maturity := by
  simp only [equivalent, Outcome.result_bind_eq_ok, hreset] at hplain
  obtain ⟨_, _, q, hq, r, hr, _, _, hplain⟩ := hplain
  cases hplain
  obtain rfl | rfl := hf
  · rw [show t.dividendCurve = .curve c from hc] at hq
    exact ⟨(Value.curveFrom_eq_ok.mp hq).2, rfl⟩
  · rw [show t.riskFreeCurve = .curve c from hc] at hr
    exact ⟨(Value.curveFrom_eq_ok.mp hr).2, rfl⟩

/-- The times that count for a forward-start option and the plain one that is loaded for it. -/
structure Times (t w : Terms Exact) (reset maturity residual : ℝ) : Prop where
  reset : t.resetTime.result = .ok (real reset)
  maturity : t.maturityTime.result = .ok (real maturity)
  residual : w.maturityTime.result = .ok (real residual)

/-- Times are counted from the reference date of the risk-free curve and from the reset date. -/
theorem times_of_view {t w : Terms Exact} {c : Curve Exact} {b : DayCount.Basis}
    {reset maturity : DateTime} (hc : t.riskFreeCurve = .curve c) (hb : c.dayCount = .basis b)
    (hreset : t.resetDate = .dateTime reset) (hmaturity : t.maturity = .dateTime maturity)
    (hview : w.riskFreeCurve = .curve (.implied c reset)) (hsame : w.maturity = .dateTime maturity) :
    t.Times w (b.years c.reference reset) (b.years c.reference maturity) (b.years reset maturity) := by
  have hyears {c : Curve Exact} (hb : c.dayCount = .basis b) (d : DateTime) :
      (yearsFrom (.curve c) (.dateTime d)).result = .ok (real (b.years c.reference d)) :=
    congrArg Outcome.result (Curve.anchorTo_eq hb d)
  refine ⟨?_, ?_, ?_⟩
  · rw [resetTime, hc, hreset, hyears hb]
  · rw [maturityTime, hc, hmaturity, hyears hb]
  · rw [maturityTime, hview, hsame, hyears (c := .implied c reset) hb, Curve.reference_implied]

end Terms

/-- The factor `near` up to a reset date, the factor `far` from there on, as the view from that date has
it, and the factor `whole` at the time to which the times before and after add up. -/
structure Curve.Splits (c : Curve Exact) (b : DayCount.Basis) (reset maturity : DateTime)
    (near far whole : ℝ) : Prop where
  toReset : (c.discountAt (.dateTime reset)).result = .ok (real near)
  fromReset : ((Curve.implied c reset).discountAt (.dateTime maturity)).result = .ok (real far)
  overall : (c.discountAt (.number (real (b.years c.reference maturity +
    b.drift c.reference reset maturity / b.yearLength)))).result = .ok (real whole)
  product : far * near = whole
  toMaturity : b.drift c.reference reset maturity = 0 →
    (c.discountAt (.dateTime maturity)).result = .ok (real whole)

theorem Curve.HasFactors.splits {c : Curve Exact} {b : DayCount.Basis} {P : ℝ → ℝ} (h : c.HasFactors P)
    (hb : c.dayCount = .basis b) (reset maturity : DateTime) :
    ∃ near far whole, c.Splits b reset maturity near far whole := by
  have hview : (Curve.implied c reset).dayCount = .basis b := hb
  refine ⟨_, _, _, h.factor_of_date hb reset, (h.implied hb reset).factor_of_date hview maturity,
    h.factor _, ?_, fun hdrift => ?_⟩
  · rw [reference_implied, b.years_add_years, div_mul_cancel₀ _ (h.positive _).ne']
  · rw [h.factor_of_date hb, hdrift, Int.cast_zero, zero_div, add_zero]

/-- A real curve splits at any date, or it refuses all times. -/
theorem Curve.splits_or_refuses {c : Curve Exact} {b : DayCount.Basis} (hb : c.dayCount = .basis b)
    (hc : c.IsReal) (reset maturity : DateTime) :
    (∃ near far whole, c.Splits b reset maturity near far whole) ∨
      ∃ error, c.Refuses error ∧ (Curve.implied c reset).Refuses error := by
  by_cases hanswers : c.Answers
  · obtain ⟨p, hp⟩ := discounts_of_answers hb hc hanswers
    obtain ⟨P, hP⟩ := hp.exists_hasFactors
    exact .inl (hP.splits hb reset maturity)
  · obtain ⟨error, herror⟩ := refuses_of_not_answers hb hanswers
    exact .inr ⟨error, herror, herror.implied hb reset⟩

/-- The life of a forward-start option is divided at the reset date. For all terms that are accepted
and loaded, the times before and after the reset date add up to the time to maturity, but for the day
that a count in months of thirty days gains or loses. On each of the two curves the factors multiply
to the factor at that sum of times. The loaded option is refused for having no time left only if the
reset is at maturity, or if what is left of it is the last day of a month that such a count loses. -/
theorem life_splits_at_the_reset_date {e inner : Engine Exact} {d : Desk Exact} {plain : Terms Exact}
    (hform : (d.get e.place).terms.form = .forward)
    (hvalid : (d.get e.place).terms.validate.result = .ok ())
    (hplain : (d.get e.place).terms.equivalent.result = .ok plain) :
    let t := (d.get e.place).terms
    let w := (((e.loadInner inner).run d).2.get inner.place).terms
    ∃ (c : Curve Exact) (b : DayCount.Basis) (reset maturity : DateTime) (r T τ : ℝ),
      t.riskFreeCurve = .curve c ∧ c.dayCount = .basis b ∧ t.resetDate = .dateTime reset ∧
      t.maturity = .dateTime maturity ∧ t.Times w r T τ ∧
      r + τ = T + b.drift c.reference reset maturity / b.yearLength ∧ (b.IsActual → r + τ = T) ∧
      (∀ form, ((e.loadInner inner).run d).1.result = .error (.terms form .maturityNotAfterReference) →
        r = T ∨ b.LosesLastDay c.reference reset maturity) ∧
      ∀ f ∈ [TermField.dividendCurve, .riskFreeCurve], ∃ c : Curve Exact, t.get f = .curve c ∧
        w.get f = .curve (.implied c reset) ∧ w.maturity = .dateTime maturity ∧
        ∀ b, c.dayCount = .basis b → c.IsReal →
          (∃ near far whole, c.Splits b reset maturity near far whole) ∨
            ∃ error, c.Refuses error ∧ (Curve.implied c reset).Refuses error := by
  intro t w
  obtain ⟨hplainValid, hresetValid⟩ := (Terms.validate_forward_eq_ok hform).mp hvalid
  obtain ⟨c, hc⟩ := hplainValid.riskFreeCurve
  obtain ⟨q, hq⟩ := hplainValid.dividendCurve
  obtain ⟨maturity, hmaturity⟩ := hplainValid.maturity
  obtain ⟨reset, hreset⟩ := hresetValid.resetDate
  obtain ⟨r, T, -, hrT, hr, hT⟩ := hresetValid.times
  have hloads := Engine.run_load inner d hvalid hplain
  rw [← Engine.run_loadInner] at hloads
  obtain ⟨hloaded, hends⟩ := hloads
  have hw : w = (d.get inner.place).terms.loaded plain := hloaded
  have hviews {f : TermField} {c : Curve Exact} (hf : f = .dividendCurve ∨ f = .riskFreeCurve)
      (hc : t.get f = .curve c) :
      w.get f = .curve (.implied c reset) ∧ w.maturity = .dateTime maturity := by
    rw [hw, ← hmaturity]
    exact Terms.view_of_loaded hplain hreset hf hc _
  have hyears := hr
  rw [Terms.resetTime, hc, hreset] at hyears
  obtain ⟨b, hb, rfl⟩ := Terms.basis_of_yearsFrom hyears
  obtain ⟨hview, hsame⟩ := hviews (.inr rfl) hc
  have htimes : t.Times w _ _ _ := Terms.times_of_view hc hb hreset hmaturity hview hsame
  obtain rfl : T = b.years c.reference maturity :=
    real.inj (Except.ok.inj (hT.symm.trans htimes.maturity))
  refine ⟨c, b, reset, maturity, _, _, _, hc, hb, hreset, hmaturity, htimes, b.years_add_years _ _ _,
    fun hactual => DayCount.Basis.years_add hactual _ _ _, fun form hrefused => ?_, fun f hf => ?_⟩
  · rw [hends, ← hw] at hrefused
    have hnone := Terms.maturityTime_le_of_validate htimes.residual hrefused
    rw [zero_eq, real_le] at hnone
    exact DayCount.Basis.years_eq_or_losesLastDay hrT hnone
  · have hf : f = .dividendCurve ∨ f = .riskFreeCurve := by simpa using hf
    obtain ⟨c, hc⟩ : ∃ c, t.get f = .curve c := by
      obtain rfl | rfl := hf
      · exact ⟨q, hq⟩
      · exact ⟨c, hc⟩
    obtain ⟨hview, hsame⟩ := hviews hf hc
    exact ⟨c, hc, hview, hsame, fun b hb hreal => Curve.splits_or_refuses hb hreal reset maturity⟩

/-! ## A market that counts months of thirty days -/

/-- A forward-start call on a market of which all structures count months of thirty days. -/
structure ThirtyDayCall where
  reference : DateTime
  reset : DateTime
  maturity : DateTime

namespace ThirtyDayCall

noncomputable section

variable (o : ThirtyDayCall)

def curve (rate : ℝ) : Curve Exact :=
  .discount ⟨o.reference, [⟨real 0, real 1⟩], some (.number (real rate)), .basis .thirty360⟩

def volatility : Volatility Exact := .constant o.reference (real 0.2) (.basis .thirty360)

/-- The strike is 1.1 times the price on the reset date of a stock that is at 100. -/
def terms : Terms Exact :=
  { Terms.blank .forward with
    optionType := .optionType .call
    underlying := .number (real 100.0)
    moneyness := .number (real 1.1)
    dividendCurve := .curve (o.curve 0.02)
    riskFreeCurve := .curve (o.curve 0.05)
    volSurface := .volatility o.volatility
    resetDate := .dateTime o.reset
    maturity := .dateTime o.maturity }

/-- A desk with the terms at the place of a decorator. -/
def desk : Desk Exact := Registry.empty.put 1 { Cell.blank .forward with terms := o.terms }

/-- The call that lives from the reset date on. -/
def loaded : Terms Exact :=
  { Terms.blank .plain with
    optionType := .optionType .call
    underlying := .number (real 100.0)
    strike := .number (real (1.1 * 100.0))
    dividendCurve := .curve (.implied (o.curve 0.02) o.reset)
    riskFreeCurve := .curve (.implied (o.curve 0.05) o.reset)
    volSurface := .volatility (.implied o.volatility o.reset)
    maturity := .dateTime o.maturity }

theorem isFlat_curve (rate : ℝ) : (o.curve rate).IsFlat .thirty360 o.reference rate :=
  Curve.isFlat_of_flatRate (f := .number (real rate)) rfl rfl rfl

theorem isReal_curve (rate : ℝ) : (o.curve rate).IsReal := Curve.isReal_flat _ rate _

/-- Each of the two curves has a positive rate. -/
theorem exists_rate {f : TermField} (hf : f ∈ [TermField.dividendCurve, .riskFreeCurve]) :
    ∃ rate : ℝ, 0 < rate ∧ o.terms.get f = .curve (o.curve rate) ∧
      o.loaded.get f = .curve (.implied (o.curve rate) o.reset) := by
  obtain rfl | rfl : f = .dividendCurve ∨ f = .riskFreeCurve := by simpa using hf
  · exact ⟨0.02, by norm_num, rfl, rfl⟩
  · exact ⟨0.05, by norm_num, rfl, rfl⟩

theorem years_eq {s t : DateTime} {n : ℤ} (h : DayCount.thirtyDays s.date t.date = n) :
    DayCount.Basis.thirty360.years s t = n / 360 := by
  rw [DayCount.Basis.years, DayCount.Basis.days, h]
  rfl

theorem equivalent (h : o.reset.before o.reference = false) :
    o.terms.equivalent.result = .ok o.loaded :=
  Terms.equivalent_of_parts (t := o.terms) rfl (Value.curveFrom_eq_ok.mpr ⟨h, rfl⟩)
    (Value.curveFrom_eq_ok.mpr ⟨h, rfl⟩) (Value.volatilityFrom_eq_ok.mpr ⟨h, rfl⟩)

section

variable {o} {r T τ : ℤ} (hr : DayCount.thirtyDays o.reference.date o.reset.date = r)
  (hT : DayCount.thirtyDays o.reference.date o.maturity.date = T)
  (hτ : DayCount.thirtyDays o.reset.date o.maturity.date = τ)

include hr hT hτ in
/-- The times of the terms, in days of a year of 360. -/
theorem times : o.terms.Times o.loaded (r / 360) (T / 360) (τ / 360) := by
  have hreference : (o.curve 0.05).reference = o.reference := rfl
  have htimes : o.terms.Times o.loaded _ _ _ :=
    Terms.times_of_view (c := o.curve 0.05) (b := .thirty360) rfl rfl rfl rfl rfl rfl
  rwa [hreference, years_eq hr, years_eq hT, years_eq hτ] at htimes

include hr hT in
theorem validate (hnonneg : 0 ≤ r) (hlater : r < T) : o.terms.validate.result = .ok () := by
  obtain ⟨hreset, hmaturity, -⟩ := times hr hT rfl
  have hstart : (0 : ℝ) ≤ r / 360 := by positivity
  have hlife : (r : ℝ) / 360 < T / 360 := by
    rw [div_lt_div_iff_of_pos_right (by norm_num)]
    exact_mod_cast hlater
  refine (Terms.validate_forward_eq_ok rfl).mpr ⟨?_, ?_⟩
  · exact ⟨⟨_, rfl⟩, ⟨_, rfl, .inl rfl⟩, ⟨100.0, by norm_num, rfl⟩, .inl ⟨rfl, rfl⟩, ⟨_, rfl⟩, ⟨_, rfl⟩,
      ⟨_, rfl⟩, ⟨_, rfl⟩, _, hstart.trans_lt hlife, hmaturity⟩
  · exact ⟨⟨1.1, by norm_num, rfl⟩, ⟨_, rfl⟩, _, _, hstart, hlife.le, hreset, hmaturity⟩

include hτ in
theorem loaded_refused (h : τ ≤ 0) :
    o.loaded.validate.result = .error (.terms .plain .maturityNotAfterReference) := by
  have hresidual := (times (o := o) rfl rfl hτ).residual
  have hunderlying : (o.loaded.number .underlying).result = .ok (real 100.0) := rfl
  have hspot : (o.loaded.demand (¬real 100.0 ≤ 0) .underlyingNotPositive).result = .ok () :=
    Terms.demand_eq_ok.mpr (not_real_le_zero.mpr (by norm_num))
  have hstrike : o.loaded.checkStrike.result = .ok () := Terms.checkStrike_eq_ok.mpr
    (.inr ⟨real (1.1 * 100.0), rfl, rfl, not_real_lt_zero.mpr (by norm_num)⟩)
  have hnone : ¬¬real ((τ : ℝ) / 360) ≤ 0 := by
    have hτ : (τ : ℝ) ≤ 0 := by exact_mod_cast h
    rw [not_real_le_zero, not_lt]
    linarith
  show o.loaded.validatePlain.result = _
  rw [Terms.validatePlain, Outcome.result_bind_of_ok (b := ()) rfl,
    Outcome.result_bind_of_ok (b := .european) rfl, Outcome.result_bind_of_ok hunderlying,
    Outcome.result_bind_of_ok hspot, Outcome.result_bind_of_ok hstrike,
    Outcome.result_bind_of_ok (b := ()) rfl, Outcome.result_bind_of_ok (b := ()) rfl,
    Outcome.result_bind_of_ok (b := ()) rfl, Outcome.result_bind_of_ok (b := ()) rfl,
    Outcome.result_bind_of_ok hresidual, Terms.demand, Outcome.require_of_not hnone]
  rfl

end

/-- The decorator leaves the call that lives from the reset date on at the place of the formula. -/
theorem run_loadInner (hvalid : o.terms.validate.result = .ok ())
    (h : o.reset.before o.reference = false) :
    let run := ((Engine.decorator 1 .amount (.analytic 0)).loadInner (.analytic 0)).run o.desk
    (run.2.get 0).terms = o.loaded ∧ run.1.result = o.loaded.validate.result := by
  intro run
  have hterms : (o.desk.get 1).terms = o.terms := congrArg Cell.terms (Desk.get_put_self _ _ _)
  have hrun : run = ((Engine.analytic 0).load o.terms).run o.desk := by
    rw [← hterms]
    exact Engine.run_loadInner _ _ _
  rw [hrun]
  exact Engine.run_load (.analytic 0) o.desk hvalid (o.equivalent h)

end

end ThirtyDayCall

/-- With the reset on 31 March and maturity on 15 December, months of thirty days have one day more
before and after the reset than they have up to maturity. -/
theorem life_splits_with_a_day_more :
    let o : ThirtyDayCall :=
      { reference := Value.midnight ⟨2025, 1, 1, by decide, by decide, by decide⟩
        reset := Value.midnight ⟨2025, 3, 31, by decide, by decide, by decide⟩
        maturity := Value.midnight ⟨2025, 12, 15, by decide, by decide, by decide⟩ }
    let e : Engine Exact := .decorator 1 .amount (.analytic 0)
    let t := (o.desk.get 1).terms
    let w := (((e.loadInner (.analytic 0)).run o.desk).2.get 0).terms
    t.validate.result = .ok () ∧ t.equivalent.result = .ok o.loaded ∧
      (∃ r T τ, t.Times w r T τ ∧ r + τ = T + 1 / 360) ∧
      ∀ f ∈ [TermField.dividendCurve, .riskFreeCurve], ∃ c near far whole,
        w.get f = .curve (.implied c o.reset) ∧
        c.Splits .thirty360 o.reset o.maturity near far whole := by
  intro o e t w
  have hdays : DayCount.thirtyDays o.reference.date o.reset.date = 90 ∧
      DayCount.thirtyDays o.reference.date o.maturity.date = 344 := by decide
  have hvalid : t.validate.result = .ok () :=
    ThirtyDayCall.validate hdays.1 hdays.2 (by decide) (by decide)
  have hequivalent : t.equivalent.result = .ok o.loaded := o.equivalent (by decide)
  obtain ⟨c, b, reset, maturity, r, T, τ, hc, hb, hreset, hmaturity, htimes, hsum, -, -, hcurves⟩ :=
    @life_splits_at_the_reset_date e (.analytic 0) o.desk _ rfl hvalid hequivalent
  obtain rfl : o.curve 0.05 = c := Value.curve.inj hc
  obtain rfl : .thirty360 = b := DayCount.basis.inj hb
  obtain rfl : o.reset = reset := Value.dateTime.inj hreset
  obtain rfl : o.maturity = maturity := Value.dateTime.inj hmaturity
  refine ⟨hvalid, hequivalent, ⟨r, T, τ, htimes, ?_⟩, fun f hf => ?_⟩
  · have hdrift : DayCount.Basis.thirty360.drift o.reference o.reset o.maturity = 1 := by decide
    rw [hsum, (o.isFlat_curve 0.05).reference, hdrift, Int.cast_one]
    rfl
  · obtain ⟨c, hc, hview, -, hsplits⟩ := hcurves f hf
    obtain ⟨rate, -, hrate, -⟩ := o.exists_rate hf
    obtain rfl : o.curve rate = c := Value.curve.inj (hrate.symm.trans hc)
    obtain ⟨near, far, whole, hsplit⟩ | ⟨error, herror, -⟩ :=
      hsplits .thirty360 rfl (o.isReal_curve rate)
    · exact ⟨_, near, far, whole, hview, hsplit⟩
    · have hfactor := (o.isFlat_curve rate).factors.factor 0
      rw [herror] at hfactor
      cases hfactor

/-- With the reset on 30 January and maturity on the day after, maturity is a day later than the
reset, but the loaded option has no time left and is refused. On neither curve do the factors before
and after the reset multiply to the factor to maturity. -/
theorem last_day_of_january_is_lost :
    let o : ThirtyDayCall :=
      { reference := Value.midnight ⟨2025, 1, 1, by decide, by decide, by decide⟩
        reset := Value.midnight ⟨2025, 1, 30, by decide, by decide, by decide⟩
        maturity := Value.midnight ⟨2025, 1, 31, by decide, by decide, by decide⟩ }
    let e : Engine Exact := .decorator 1 .amount (.analytic 0)
    let t := (o.desk.get 1).terms
    let run := (e.loadInner (.analytic 0)).run o.desk
    let w := (run.2.get 0).terms
    t.validate.result = .ok () ∧ t.equivalent.result = .ok o.loaded ∧
      t.Times w (29 / 360) (30 / 360) 0 ∧
      run.1.result = .error (.terms .plain .maturityNotAfterReference) ∧
      ∀ f ∈ [TermField.dividendCurve, .riskFreeCurve], ∃ (c : Curve Exact) (near far whole : ℝ),
        t.get f = .curve c ∧ w.get f = .curve (.implied c o.reset) ∧
        (c.discountAt (.dateTime o.reset)).result = .ok (real near) ∧
        ((Curve.implied c o.reset).discountAt w.maturity).result = .ok (real far) ∧
        (c.discountAt t.maturity).result = .ok (real whole) ∧ far * near ≠ whole := by
  intro o e t run w
  have hdays : DayCount.thirtyDays o.reference.date o.reset.date = 29 ∧
      DayCount.thirtyDays o.reference.date o.maturity.date = 30 ∧
      DayCount.thirtyDays o.reset.date o.maturity.date = 0 := by decide
  obtain ⟨hr, hT, hτ⟩ := hdays
  have hvalid : t.validate.result = .ok () := ThirtyDayCall.validate hr hT (by decide) (by decide)
  obtain ⟨hloaded, hends⟩ := o.run_loadInner hvalid (by decide)
  have hw : w = o.loaded := hloaded
  have htimes : t.Times w (29 / 360) (30 / 360) 0 := by
    have htimes := ThirtyDayCall.times hr hT hτ
    rw [Int.cast_zero, zero_div, Int.cast_ofNat, Int.cast_ofNat] at htimes
    rw [hw]
    exact htimes
  have hrefused := ThirtyDayCall.loaded_refused hτ le_rfl
  refine ⟨hvalid, o.equivalent (by decide), htimes, hends.trans hrefused, fun f hf => ?_⟩
  obtain ⟨rate, hrate, hcurve, hview⟩ := o.exists_rate hf
  have hflat := o.isFlat_curve rate
  rw [hw]
  refine ⟨o.curve rate, _, _, _, hcurve, hview, hflat.factor_of_date o.reset,
    (hflat.implied o.reset).factor_of_date o.maturity, hflat.factor_of_date o.maturity, ?_⟩
  rw [ThirtyDayCall.years_eq hr, ThirtyDayCall.years_eq hT, ThirtyDayCall.years_eq hτ, ← Real.exp_add,
    ne_eq, Real.exp_eq_exp]
  push_cast
  intro hequal
  linarith

end OptionDesk
