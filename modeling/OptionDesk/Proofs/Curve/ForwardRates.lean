import OptionDesk.Proofs.Curve.Yields

/-!
# Curves from their rates

The rate of an interval is what the logarithm of the factor loses in it, by the year. So a curve can be
rebuilt from its rates: a factor and the rate of the interval after it give the next factor, the rate of a
long interval is the mean of the rates of its parts, and the yield gives the factor of its time. The laws
speak of the factors alone, so they hold for every kind of curve at all real times, before the reference
date and beyond the nodes too. A view of a curve has the rates of the curve at shifted times.
-/
namespace OptionDesk

open Exact

noncomputable section

/-- Rate at which a positive function of time decays over an interval. -/
def meanRate (P : ℝ → ℝ) (s t : ℝ) : ℝ := (Real.log (P s) - Real.log (P t)) / (t - s)

end

section

variable {P : ℝ → ℝ} {r s t : ℝ}

theorem meanRate_mul (h : s < t) : (t - s) * meanRate P s t = Real.log (P s) - Real.log (P t) :=
  mul_div_cancel₀ _ (sub_pos.mpr h).ne'

/-- The losses of two neighbouring intervals add up. -/
theorem meanRate_add (hrs : r < s) (hst : s < t) :
    (t - r) * meanRate P r t = (s - r) * meanRate P r s + (t - s) * meanRate P s t := by
  rw [meanRate_mul hrs, meanRate_mul hst, meanRate_mul (hrs.trans hst)]
  ring

theorem eq_mul_exp_meanRate (hP : ∀ x, 0 < P x) (h : s < t) :
    P t = P s * Real.exp (-meanRate P s t * (t - s)) := by
  have hloss : -meanRate P s t * (t - s) = Real.log (P t) - Real.log (P s) := by
    rw [neg_mul, mul_comm, meanRate_mul h, neg_sub]
  rw [hloss, Real.exp_sub, Real.exp_log (hP t), Real.exp_log (hP s), mul_div_cancel₀ _ (hP s).ne']

/-- A common divisor of the factors has no part in the rates. -/
theorem meanRate_shift (hP : ∀ x, 0 < P x) {near : ℝ} (hnear : 0 < near) (a : ℝ) :
    meanRate (fun x => P (a + x) / near) s t = meanRate P (a + s) (a + t) := by
  simp only [meanRate, Real.log_div (hP _).ne' hnear.ne', sub_sub_sub_cancel_right,
    add_sub_add_left_eq_sub]

end

namespace Curve

variable {c : Curve Exact} {b : DayCount.Basis} {P : ℝ → ℝ}

/-- The factors of a curve, and the rates that give them back. Dates and times are alike once they are
converted to years. -/
structure Reconstructs (c : Curve Exact) (P : ℝ → ℝ) (F : ℝ → ℝ → ℝ) : Prop where
  time : ∀ moment, moment.IsMoment → ∃ t : ℝ, (c.timeTo moment).result = .ok (real t)
  positive : ∀ t, 0 < P t
  factor : ∀ moment (t : ℝ), (c.timeTo moment).result = .ok (real t) →
    (c.discountAt moment).result = .ok (real (P t))
  forwardRate : ∀ start finish (s t : ℝ), (c.timeTo start).result = .ok (real s) →
    (c.timeTo finish).result = .ok (real t) → s < t →
    (c.forwardRate start finish).result = .ok (real (F s t))
  /-- There is no other refusal, and no rate of an empty interval. -/
  refused : ∀ start finish (s t : ℝ), (c.timeTo start).result = .ok (real s) →
    (c.timeTo finish).result = .ok (real t) → ∀ e,
    (c.forwardRate start finish).result = .error e ↔ t ≤ s ∧ e = .curve .emptyInterval
  next : ∀ s t, s < t → P t = P s * Real.exp (-F s t * (t - s))
  split : ∀ r s t, r < s → s < t → (t - r) * F r t = (s - r) * F r s + (t - s) * F s t
  zeroYield : ∀ moment (t : ℝ), (c.timeTo moment).result = .ok (real t) → 1e-4 < t →
    ∃ y : ℝ, (c.zeroYield moment).result = .ok (real y) ∧ P t = Real.exp (-y * t)

theorem HasFactors.forwardRate_refused (h : c.HasFactors P) {start finish : Value Exact} {s t : ℝ}
    (hstart : (c.timeTo start).result = .ok (real s)) (hfinish : (c.timeTo finish).result = .ok (real t))
    (e : PricingError Exact) :
    (c.forwardRate start finish).result = .error e ↔ t ≤ s ∧ e = .curve .emptyInterval := by
  by_cases hst : t ≤ s
  · have hempty : ¬¬real t ≤ real s := not_not.mpr ((real_le t s).mpr hst)
    rw [Curve.forwardRate, Outcome.result_bind_of_ok hstart, Outcome.result_bind_of_ok hfinish,
      Outcome.require_of_not hempty, Outcome.result_bind_of_error (Outcome.result_fail _)]
    simp [hst, eq_comm]
  · rw [h.forwardRate hstart hfinish (not_le.mp hst)]
    simp [hst]

theorem HasFactors.reconstructs (h : c.HasFactors P) (hb : c.dayCount = .basis b) :
    c.Reconstructs P (meanRate P) where
  time _ hmoment := exists_timeTo hb hmoment
  positive := h.positive
  factor _ _ htime := h.discountAt hb htime
  forwardRate _ _ _ _ hstart hfinish hst := h.forwardRate hstart hfinish hst
  refused _ _ _ _ hstart hfinish e := h.forwardRate_refused hstart hfinish e
  next _ _ hst := eq_mul_exp_meanRate h.positive hst
  split _ _ _ hrs hst := meanRate_add hrs hst
  zeroYield _ _ htime hlate := h.exists_zeroYield htime hlate

/-- The rates of a view, and its refusals, are those of the curve at times that are later by the time to
the reference date of the view. -/
def ShiftsTo (c : Curve Exact) (r : DateTime) : Prop :=
  ∃ a : ℝ, (implied c r).anchor.result = .ok (real a) ∧
    ∀ start finish (s t : ℝ), ((implied c r).timeTo start).result = .ok (real s) →
      ((implied c r).timeTo finish).result = .ok (real t) →
      ((implied c r).forwardRate start finish).result =
        (c.forwardRate (.number (real (a + s))) (.number (real (a + t)))).result

theorem HasFactors.shiftsTo (h : c.HasFactors P) (hb : c.dayCount = .basis b) (r : DateTime) :
    c.ShiftsTo r := by
  have hview := h.implied hb r
  refine ⟨b.years c.reference r, congrArg Outcome.result (anchorTo_eq hb r),
    fun start finish s t hstart hfinish => ?_⟩
  have hfrom (x : ℝ) : (c.timeTo (.number (real (b.years c.reference r + x)))).result =
      .ok (real (b.years c.reference r + x)) := rfl
  by_cases hst : s < t
  · rw [hview.forwardRate hstart hfinish hst, h.forwardRate (hfrom s) (hfrom t) (by linarith)]
    exact congrArg (Except.ok ∘ real) (meanRate_shift h.positive (h.positive _) _)
  · -- an interval that is empty stays so when it is shifted
    rw [(hview.forwardRate_refused hstart hfinish _).mpr ⟨not_lt.mp hst, rfl⟩,
      (h.forwardRate_refused (hfrom s) (hfrom t) _).mpr ⟨by linarith, rfl⟩]

/-- Every curve that can answer can be rebuilt from its rates, whether it follows one rate, is read off its
nodes or is a view of another at any depth, and its views shift the time. -/
theorem rates_reconstruct_the_curve (hc : c.IsReal) (hanswers : c.Answers)
    (hb : c.dayCount = .basis b) : ∃ P F, c.Reconstructs P F ∧ ∀ r, c.ShiftsTo r := by
  obtain ⟨_, hdiscounts⟩ := discounts_of_answers hb hc hanswers
  obtain ⟨P, hP⟩ := hdiscounts.exists_hasFactors
  exact ⟨P, meanRate P, hP.reconstructs hb, hP.shiftsTo hb⟩

/-- A curve through three nodes, seen through a view: over two years, beyond the last node, the rate is the
mean of those of the two years. -/
theorem rates_reconstruct_a_view_of_three_nodes :
    let base : Curve Exact := .discount {
      reference := Value.midnight ⟨2024, 1, 1, by decide, by decide, by decide⟩
      nodes := [⟨real 0, real 1⟩, ⟨real 1, real 0.9⟩, ⟨real 2, real 0.85⟩]
      flatRate := none
      dayCount := .basis .thirty360 }
    let view : Curve Exact := implied base (Value.midnight ⟨2024, 7, 1, by decide, by decide, by decide⟩)
    view.IsReal ∧ view.Answers ∧ view.dayCount = .basis .thirty360 ∧
      ∃ P F, view.Reconstructs P F ∧ (∀ r, view.ShiftsTo r) ∧
        2 * F 1 3 = F 1 2 + F 2 3 ∧ P 3 = P 1 * Real.exp (-F 1 3 * 2) := by
  intro base view
  have hreal : view.IsReal := by
    refine ⟨fun n hn => ?_, fun f hf => by cases hf⟩
    simp only [List.mem_cons, List.not_mem_nil, or_false] at hn
    obtain rfl | rfl | rfl := hn
    · exact ⟨0, 1, by norm_num, rfl⟩
    · exact ⟨1, 0.9, by norm_num, rfl⟩
    · exact ⟨2, 0.85, by norm_num, rfl⟩
  have hanswers : view.Answers := List.cons_ne_nil _ _
  obtain ⟨P, F, hrates, hshift⟩ := rates_reconstruct_the_curve hreal hanswers rfl
  have hmean := hrates.split 1 2 3 (by norm_num) (by norm_num)
  have hnext := hrates.next 1 3 (by norm_num)
  norm_num at hmean hnext
  exact ⟨hreal, hanswers, rfl, P, F, hrates, hshift, hmean, by rw [hnext]; norm_num⟩

end Curve

end OptionDesk
