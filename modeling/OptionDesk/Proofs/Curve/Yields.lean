import OptionDesk.Proofs.Curve.Factors

/-!
# Yields under factors

Beyond the short end the yield to a date is the logarithm of the factor at that date over the time to
it, with the opposite sign. A flat curve, which answers with its rate and never looks at a factor, is no
exception, so the factor can be found from the yield on every curve.
-/
namespace OptionDesk

open Exact

namespace Curve

/-- The time that a yield is taken over. -/
theorem clipped_eq (x : ℝ) :
    (if real x ≤ shortEnd then shortEnd else real x : Exact) = real (max x 1e-4) := by
  have hshort : (shortEnd : Exact) = real 1e-4 := by
    rw [shortEnd, ofScientific_eq]
    norm_num
  rw [hshort]
  split
  · next hearly => rw [max_eq_right ((real_le _ _).mp hearly)]
  · next hlate => rw [max_eq_left (not_le.mp (mt (real_le _ _).mpr hlate)).le]

variable {c : Curve Exact} {b : DayCount.Basis} {d : DateTime} {p : ℝ}

theorem yieldFromFactor_eq (hb : c.dayCount = .basis b) (hlate : 1e-4 ≤ b.years c.reference d)
    (hp : 0 < p) (h : (c.discountAt (.dateTime d)).result = .ok (real p)) :
    (c.yieldFromFactor (.dateTime d)).result = .ok (real (-Real.log p / b.years c.reference d)) := by
  have htime := timeTo_dateTime hb d
  have hpositive : b.years c.reference d ≠ 0 := (shortEnd_pos.trans_le hlate).ne'
  rw [discountAt_eq hb, htime, pure_bind] at h
  rw [yieldFromFactor, htime, pure_bind]
  simp only [clipped_eq, max_eq_left hlate]
  rw [Outcome.result_bind_of_ok h, real_log hp, real_neg, real_div _ hpositive]
  rfl

theorem zeroYield_eq (hb : c.dayCount = .basis b) (hlate : 1e-4 ≤ b.years c.reference d)
    (hp : 0 < p) (h : (c.discountAt (.dateTime d)).result = .ok (real p)) :
    (c.zeroYield (.dateTime d)).result = .ok (real (-Real.log p / b.years c.reference d)) := by
  cases c with
  | implied base r => exact yieldFromFactor_eq hb hlate hp h
  | discount c =>
    rw [zeroYield]
    cases hrate : c.flatRate with
    | none => exact yieldFromFactor_eq hb hlate hp h
    | some f =>
      have hpositive : 0 < b.years c.reference d := shortEnd_pos.trans_le hlate
      rw [discountAt_eq hb, timeTo_dateTime hb, pure_bind] at h
      have hfactor : (c.factorAt (real (b.years c.reference d))).result = .ok (real p) := h
      rw [DiscountCurve.result_factorAt_of_flatRate hrate] at hfactor
      cases hf : f.operand with
      | error m =>
        rw [hf] at hfactor
        cases hfactor
      | ok rate =>
        rw [hf] at hfactor
        have hflat : DiscountCurve.flatFactor rate (real (b.years c.reference d)) = real p :=
          Except.ok.inj hfactor
        obtain ⟨r, rfl⟩ := rate_real hpositive hp hflat
        have hexp : Real.exp (-r * b.years c.reference d) = p := real.inj hflat
        have hyield : -Real.log p / b.years c.reference d = r := by
          rw [← hexp, Real.log_exp, neg_mul, neg_neg, mul_div_cancel_right₀ _ hpositive.ne']
        simp only [Figure.read_of_operand hf]
        exact congrArg (Except.ok ∘ real) hyield.symm

/-- The factor is the exponential of the yield over the time. -/
theorem exp_yield {T : ℝ} (hT : T ≠ 0) (hp : 0 < p) : Real.exp (-(-Real.log p / T) * T) = p := by
  rw [neg_mul, div_mul_cancel₀ _ hT, neg_neg, Real.exp_log hp]

/-- A curve that discounts to one moment has factors at all times. -/
theorem exists_hasFactors {moment : Value Exact} {q : Exact} (hb : c.dayCount = .basis b)
    (hc : c.IsReal) (h : (c.discountAt moment).result = .ok q) : ∃ P, c.HasFactors P := by
  by_cases hanswers : c.Answers
  · obtain ⟨_, hdiscounts⟩ := discounts_of_answers hb hc hanswers
    exact hdiscounts.exists_hasFactors
  · obtain ⟨e, hrefuses⟩ := refuses_of_not_answers hb hanswers
    rw [discountAt_eq hb] at h
    obtain ⟨t, -, hfactor⟩ := Outcome.result_bind_eq_ok.mp h
    rw [hrefuses t] at hfactor
    cases hfactor

/-- A yield leads back to the factor of the time that it is taken over. -/
theorem HasFactors.exp_zeroYield {P : ℝ → ℝ} (h : c.HasFactors P) {moment : Value Exact} {x y : ℝ}
    (htime : c.timeTo moment = pure (real x)) (hy : (c.zeroYield moment).result = .ok (real y)) :
    Real.exp (-y * max x 1e-4) = P (max x 1e-4) := by
  have hpositive : max x 1e-4 ≠ 0 := (lt_max_of_lt_right shortEnd_pos).ne'
  have hfactor (hyield : (c.yieldFromFactor moment).result = .ok (real y)) :
      Real.exp (-y * max x 1e-4) = P (max x 1e-4) := by
    rw [Curve.yieldFromFactor, htime, pure_bind] at hyield
    simp only [clipped_eq] at hyield
    rw [Outcome.result_bind_of_ok (h.factor _), real_log (h.positive _), real_neg,
      real_div _ hpositive] at hyield
    rw [← real.inj (Except.ok.inj hyield), exp_yield hpositive (h.positive _)]
  cases c with
  | implied base r => exact hfactor hy
  | discount c =>
    rw [Curve.zeroYield] at hy
    cases hrate : c.flatRate with
    | none =>
      rw [hrate] at hy
      exact hfactor hy
    | some f =>
      have hflat : (c.factorAt (real (max x 1e-4))).result = .ok (real (P (max x 1e-4))) :=
        h.factor _
      rw [DiscountCurve.result_factorAt_of_flatRate hrate] at hflat
      cases hf : f.operand with
      | error m =>
        rw [hf] at hflat
        cases hflat
      | ok rate =>
        rw [hf] at hflat
        simp only [hrate, Figure.read_of_operand hf] at hy
        obtain rfl : rate = real y := Except.ok.inj hy
        exact real.inj (Except.ok.inj hflat)

/-- Converting a moment reports nothing. -/
theorem timeTo_eq_pure {moment : Value Exact} {t : Exact} (h : (c.timeTo moment).result = .ok t) :
    c.timeTo moment = pure t :=
  DayCount.timeFrom_eq_pure h

theorem exists_timeTo (hb : c.dayCount = .basis b) {moment : Value Exact} (h : moment.IsMoment) :
    ∃ x : ℝ, (c.timeTo moment).result = .ok (real x) := by
  match moment, h with
  | .dateTime d, _ => exact ⟨_, congrArg Outcome.result (timeTo_dateTime hb d)⟩
  | .figure (.number _), ⟨x, rfl⟩ => exact ⟨x, rfl⟩

theorem HasFactors.discountAt {P : ℝ → ℝ} (h : c.HasFactors P) (hb : c.dayCount = .basis b)
    {moment : Value Exact} {x : ℝ} (htime : (c.timeTo moment).result = .ok (real x)) :
    (c.discountAt moment).result = .ok (real (P x)) := by
  rw [discountAt_eq hb, Outcome.result_bind_of_ok htime, h.factor]

/-- Beyond the short end there is a yield, and it leads back to the factor. -/
theorem HasFactors.exists_zeroYield {P : ℝ → ℝ} (h : c.HasFactors P) {moment : Value Exact} {t : ℝ}
    (htime : (c.timeTo moment).result = .ok (real t)) (hlate : 1e-4 < t) :
    ∃ y : ℝ, (c.zeroYield moment).result = .ok (real y) ∧ P t = Real.exp (-y * t) := by
  obtain ⟨y, hy⟩ := h.zeroYield (timeTo_eq_pure htime)
  have hfactor := h.exp_zeroYield (timeTo_eq_pure htime) hy
  rw [max_eq_left hlate.le] at hfactor
  exact ⟨y, hy, hfactor.symm⟩

/-- The rate of an interval is what the logarithm of the factor loses over it. -/
theorem HasFactors.forwardRate {P : ℝ → ℝ} (h : c.HasFactors P) {start finish : Value Exact} {s t : ℝ}
    (hstart : (c.timeTo start).result = .ok (real s)) (hfinish : (c.timeTo finish).result = .ok (real t))
    (hst : s < t) : (c.forwardRate start finish).result =
      .ok (real ((Real.log (P s) - Real.log (P t)) / (t - s))) := by
  have hlater : ¬real t ≤ real s := by
    rw [real_le]
    exact hst.not_ge
  rw [Curve.forwardRate, Outcome.result_bind_of_ok hstart, Outcome.result_bind_of_ok hfinish,
    Outcome.require_of hlater, pure_bind, Outcome.result_bind_of_ok (h.factor s),
    Outcome.result_bind_of_ok (h.factor t), real_log (h.positive s), real_log (h.positive t), real_sub,
    real_sub, real_div _ (sub_pos.mpr hst).ne']
  rfl

end Curve

end OptionDesk
