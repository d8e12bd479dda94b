import OptionDesk.Proofs.Curve.Reanchoring

/-!
# Flat curves

A flat curve has one rate: its factors decay at that rate and every date has it as its yield. A curve
that carries a flat rate is flat, and a flat curve remains flat, at the same rate, when it is seen from
another date, although the view forgets the rate and finds it again in the factors.
-/
namespace OptionDesk

open Exact

namespace Curve

/-- One rate for all times, with time counted from a reference date on a basis. -/
structure IsFlat (c : Curve Exact) (b : DayCount.Basis) (reference : DateTime) (rate : ℝ) : Prop where
  reference : c.reference = reference
  dayCount : c.dayCount = .basis b
  factors : c.HasFactors fun x => Real.exp (-rate * x)
  yields : ∀ d, (c.zeroYield (.dateTime d)).result = .ok (real rate)

variable {c : Curve Exact} {b : DayCount.Basis} {reference : DateTime} {rate : ℝ}

theorem isFlat_of_flatRate {c : DiscountCurve Exact} {f : Figure Exact} (hc : c.flatRate = some f)
    (hf : f.operand = .ok (real rate)) (hb : c.dayCount = .basis b) :
    (discount c).IsFlat b c.reference rate where
  reference := rfl
  dayCount := hb
  factors := by
    refine ⟨fun _ => Real.exp_pos _, fun x => ?_⟩
    have hfactor := DiscountCurve.result_factorAt_of_flatRate hc (real x)
    rw [hf] at hfactor
    exact hfactor
  yields d := by
    simp only [zeroYield, hc, Figure.read_of_operand hf]
    rfl

/-- A curve of one node and one rate is real. -/
theorem isReal_flat (reference : DateTime) (rate : ℝ) (dayCount : DayCount) :
    (discount ⟨reference, [⟨real 0, real 1⟩], some (.number (real rate)), dayCount⟩).IsReal := by
  refine ⟨fun n hn => ?_, fun f hf => ?_⟩
  · obtain rfl := List.mem_singleton.mp hn
    exact ⟨0, 1, one_pos, rfl⟩
  · obtain rfl := Option.some.inj hf
    exact ⟨rate, rfl⟩

/-- The rate is found again in factors that decay at it. -/
theorem yieldFromFactor_of_decay (h : c.HasFactors fun x => Real.exp (-rate * x))
    {moment : Value Exact} {x : ℝ} (htime : c.timeTo moment = pure (real x)) :
    (c.yieldFromFactor moment).result = .ok (real rate) := by
  obtain ⟨z, hz, hclipped⟩ := clipped_real x
  have hrate : -Real.log (Real.exp (-rate * z)) / z = rate := by
    rw [Real.log_exp, neg_mul, neg_neg, mul_div_cancel_right₀ _ hz.ne']
  rw [yieldFromFactor, htime, pure_bind]
  simp only [hclipped]
  rw [Outcome.result_bind_of_ok (h.factor z), real_log (h.positive z), real_neg,
    real_div _ hz.ne', hrate]
  rfl

/-- A view of a flat curve is flat, at the same rate. -/
theorem IsFlat.implied (h : c.IsFlat b reference rate) (r : DateTime) :
    (Curve.implied c r).IsFlat b r rate := by
  have hquotient (x : ℝ) : Real.exp (-rate * (b.years c.reference r + x)) /
      Real.exp (-rate * b.years c.reference r) = Real.exp (-rate * x) := by
    rw [← Real.exp_sub]
    ring_nf
  have hfactors : (Curve.implied c r).HasFactors fun x => Real.exp (-rate * x) := by
    refine ⟨fun _ => Real.exp_pos _, fun x => ?_⟩
    rw [← hquotient x]
    exact (h.factors.implied h.dayCount r).factor x
  have hdayCount : (Curve.implied c r).dayCount = .basis b := h.dayCount
  exact ⟨rfl, hdayCount, hfactors, fun d =>
    yieldFromFactor_of_decay hfactors (timeTo_dateTime hdayCount d)⟩

/-- A chain of views of a flat curve is flat, at the same rate, on any basis. -/
theorem IsFlat.views (h : c.IsFlat b reference rate) {dates : List DateTime} {v : Curve Exact}
    (hv : (c.views dates).result = .ok v) : v.IsFlat b v.reference rate := by
  induction dates generalizing c reference with
  | nil =>
    obtain rfl := views_nil.mp hv
    exact ⟨rfl, h.dayCount, h.factors, h.yields⟩
  | cons r dates ih => exact ih (h.implied r) (views_cons.mp hv).2

section

variable (h : c.IsFlat b reference rate)

include h

theorem IsFlat.factor_of_date (d : DateTime) :
    (c.discountAt (.dateTime d)).result = .ok (real (Real.exp (-rate * b.years reference d))) := by
  rw [← h.reference]
  exact h.factors.factor_of_date h.dayCount d

/-- A curve that answers with its rate says it of every moment, and one that looks at its factors finds
it in them. -/
theorem IsFlat.zeroYield {moment : Value Exact} {x : ℝ} (htime : c.timeTo moment = pure (real x)) :
    (c.zeroYield moment).result = .ok (real rate) := by
  cases c with
  | implied base r => exact yieldFromFactor_of_decay h.factors htime
  | discount c =>
    rw [Curve.zeroYield]
    cases hrate : c.flatRate with
    | none => exact yieldFromFactor_of_decay h.factors htime
    | some f =>
      have hyield := h.yields c.reference
      rw [Curve.zeroYield, hrate] at hyield
      exact hyield

theorem IsFlat.anchorTo (d : DateTime) : (c.anchorTo d).result = .ok (real (b.years reference d)) := by
  rw [anchorTo_eq h.dayCount, h.reference, Outcome.result_pure]

end

end Curve

end OptionDesk
