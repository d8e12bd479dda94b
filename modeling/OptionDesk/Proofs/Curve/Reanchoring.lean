import OptionDesk.Proofs.Curve.Factors
import OptionDesk.Proofs.Views

/-!
# Views of views

A chain of views of a curve is the one view from its last date: same factors, yields and forward
rates, at every date and every time. Each view counts the time from its own reference date and asks
its base twice; the times add up along the chain, and all quotients but the last one cancel.

This needs a day count that measures elapsed time, and factors that are real and positive. A curve
that refuses a time refuses it through any chain with the same error.
-/
namespace OptionDesk

open Exact

/-- The quotient of two factors, where there are both. -/
def Outcome.quotient {α : Type} [Scalar α] (far near : Outcome α α) : Outcome α α := do
  let far ← far
  let near ← near
  Outcome.divide far near

namespace Curve

/-- View after view of a curve, from one date after another. -/
def views {α : Type} (c : Curve α) (dates : List DateTime) : Outcome α (Curve α) :=
  dates.foldlM (fun c r => c.impliedAt (.dateTime r)) c

@[simp] theorem reference_implied {α : Type} (base : Curve α) (r : DateTime) :
    (implied base r).reference = r := rfl

section Chains

variable {α : Type} {c v : Curve α} {r : DateTime} {dates : List DateTime}

theorem result_impliedAt :
    (c.impliedAt (.dateTime r)).result = .ok v ↔ r.before c.reference = false ∧ v = implied c r :=
  Value.result_view (fun d => d.before c.reference) _ (implied c)

theorem viewsForward (α : Type) :
    ViewsForward reference implied fun (c : Curve α) r => c.impliedAt (.dateTime r) :=
  ⟨fun _ _ _ => result_impliedAt, fun _ _ => rfl⟩

theorem views_nil : (c.views []).result = .ok v ↔ v = c := ViewsForward.nil

theorem views_cons : (c.views (r :: dates)).result = .ok v ↔
    r.before c.reference = false ∧ ((implied c r).views dates).result = .ok v :=
  (viewsForward α).cons

theorem views_concat : (c.views (dates ++ [r])).result = .ok v ↔
    ∃ w, (c.views dates).result = .ok w ∧ r.before w.reference = false ∧ v = implied w r :=
  (viewsForward α).concat

theorem before_views (h : (c.views dates).result = .ok v) : v.reference.before c.reference = false :=
  (viewsForward α).before h

theorem dayCount_views (h : (c.views dates).result = .ok v) : v.dayCount = c.dayCount :=
  (viewsForward α).kept (fun _ _ => rfl) h

end Chains

section Actual

variable {c : Curve Exact} {b : DayCount.Basis} (hc : c.IsReal) (hb : c.dayCount = .basis b)
  (hactual : b.IsActual)

include hc hb hactual

/-- The view of a view is a view. -/
theorem discountAt_implied_implied (r s : DateTime) (moment : Value Exact) :
    ((implied (implied c r) s).discountAt moment).result =
      ((implied c s).discountAt moment).result := by
  have hview : (implied c r).dayCount = .basis b := hb
  have hviews : (implied (implied c r) s).dayCount = .basis b := hb
  have hlast : (implied c s).dayCount = .basis b := hb
  have hmoment : (implied (implied c r) s).timeTo moment = (implied c s).timeTo moment := rfl
  have htime (t : Exact) : ((implied (implied c r) s).discountAt (.number t)).result =
      ((implied c s).discountAt (.number t)).result := by
    by_cases hanswers : c.Answers
    · obtain ⟨p, hp⟩ := discounts_of_answers hb hc hanswers
      have htwice := ((hp.implied hb r).implied hview s).factor t
      have honce := (hp.implied hb s).factor t
      have hyears : b.years c.reference r + b.years (implied c r).reference s =
          b.years c.reference s := DayCount.Basis.years_add hactual _ _ _
      obtain ⟨x, hx, hpx⟩ := hp.positive (b.years c.reference r)
      obtain ⟨y, hy, hpy⟩ := hp.positive (b.years c.reference s)
      rw [real_add_add, real_add, hyears, hpx, hpy, div_div_div_cancel hx hy] at htwice
      rw [htwice, honce, hpy]
    · obtain ⟨e, he⟩ := refuses_of_not_answers hb hanswers
      rw [(he.implied hb r).implied hview s t, he.implied hb s t]
  rw [discountAt_eq hviews, discountAt_eq hlast, hmoment]
  simp only [Outcome.result_bind, htime]

/-- Where a chain has led does not matter to the next view. -/
theorem discountAt_implied_views {dates : List DateTime} {v : Curve Exact}
    (h : (c.views dates).result = .ok v) (s : DateTime) (moment : Value Exact) :
    ((implied v s).discountAt moment).result = ((implied c s).discountAt moment).result := by
  induction dates generalizing c with
  | nil => rw [views_nil.mp h]
  | cons r dates ih =>
    have hreal : (implied c r).IsReal := hc
    have hview : (implied c r).dayCount = .basis b := hb
    rw [ih hreal hview (views_cons.mp h).2, discountAt_implied_implied hc hb hactual]

end Actual

/-- A view answers as the view of a curve from a date: its yields and forward rates are the same, and
its factors are those of the curve over the factor at that date. -/
structure SeesFrom (v c : Curve Exact) (b : DayCount.Basis) (r : DateTime) : Prop where
  reference : v.reference = r
  discountAt : ∀ moment, (v.discountAt moment).result = ((implied c r).discountAt moment).result
  zeroYield : ∀ moment, (v.zeroYield moment).result = ((implied c r).zeroYield moment).result
  forwardRate : ∀ start finish,
    (v.forwardRate start finish).result = ((implied c r).forwardRate start finish).result
  factor_of_date : ∀ d, (v.discountAt (.dateTime d)).result =
    (Outcome.quotient (c.discountAt (.dateTime d)) (c.discountAt (.dateTime r))).result
  factor_of_time : ∀ t, (v.discountAt (.number t)).result =
    (Outcome.quotient (c.discountAt (.number (real (b.years c.reference r) + t)))
      (c.discountAt (.number (real (b.years c.reference r))))).result

theorem seesFrom_implied {v c : Curve Exact} {b : DayCount.Basis} (hb : c.dayCount = .basis b)
    (hactual : b.IsActual) {r : DateTime} (hdays : v.dayCount = c.dayCount)
    (h : ∀ moment, ((implied v r).discountAt moment).result =
      ((implied c r).discountAt moment).result) : (implied v r).SeesFrom c b r := by
  have hview : (implied c r).dayCount = .basis b := hb
  have hmoment (moment : Value Exact) :
      (implied v r).timeTo moment = (implied c r).timeTo moment := by
    rw [timeTo, timeTo, dayCount, dayCount, hdays]
    rfl
  have hfactor (t : Exact) : ((implied v r).discountAt (.number t)).result =
      (Outcome.quotient (c.discountAt (.number (real (b.years c.reference r) + t)))
        (c.discountAt (.number (real (b.years c.reference r))))).result := by
    rw [h, discountAt_implied hb]
    rfl
  refine ⟨rfl, h, fun moment => ?_, fun start finish => ?_, fun d => ?_, hfactor⟩
  · simp only [zeroYield, yieldFromFactor, hmoment, Outcome.result_bind, h]
  · simp only [forwardRate, hmoment, Outcome.result_bind, h]
  · have hyears : b.years c.reference r + b.years (implied c r).reference d =
        b.years c.reference d := DayCount.Basis.years_add hactual _ _ _
    rw [h, discountAt_eq hview, timeTo_dateTime hview, pure_bind, ← h, hfactor, real_add, hyears,
      discountAt_eq hb (.dateTime d), timeTo_dateTime hb, pure_bind, discountAt_eq hb (.dateTime r),
      timeTo_dateTime hb, pure_bind]

/-- The factors of a curve and of a view of it from a date, in real numbers. -/
structure HasQuotients (v c : Curve Exact) (b : DayCount.Basis) (r : DateTime) (P : ℝ → ℝ) : Prop
    where
  base : c.HasFactors P
  base_of_date : ∀ d, (c.discountAt (.dateTime d)).result = .ok (real (P (b.years c.reference d)))
  of_date : ∀ d, (v.discountAt (.dateTime d)).result =
    .ok (real (P (b.years c.reference d) / P (b.years c.reference r)))
  of_time : ∀ x : ℝ, (v.discountAt (.number (real x))).result =
    .ok (real (P (b.years c.reference r + x) / P (b.years c.reference r)))

theorem result_quotient {far near : Outcome Exact Exact} {x y : ℝ} (hy : y ≠ 0)
    (hfar : far.result = .ok (real x)) (hnear : near.result = .ok (real y)) :
    (Outcome.quotient far near).result = .ok (real (x / y)) := by
  rw [Outcome.quotient, Outcome.result_bind_of_ok hfar, Outcome.result_bind_of_ok hnear,
    Outcome.divide_real x hy, Outcome.result_pure]

theorem SeesFrom.hasQuotients {v c : Curve Exact} {b : DayCount.Basis} {r : DateTime}
    (h : v.SeesFrom c b r) (hb : c.dayCount = .basis b) {P : ℝ → ℝ} (hP : c.HasFactors P) :
    v.HasQuotients c b r P := by
  have hdate := hP.factor_of_date hb
  have hnear : P (b.years c.reference r) ≠ 0 := (hP.positive _).ne'
  refine ⟨hP, hdate, fun d => ?_, fun x => ?_⟩
  · rw [h.factor_of_date, result_quotient hnear (hdate d) (hdate r)]
  · rw [h.factor_of_time, real_add, result_quotient hnear (hP.factor _) (hP.factor _)]

/-- A chain of views of any length is the single view from its last date, which exists. Where the
curve can answer, the factors of the chain are quotients of the positive factors of the curve. -/
theorem views_compose {c v : Curve Exact} {b : DayCount.Basis} {dates : List DateTime}
    {r : DateTime} (hc : c.IsReal) (hb : c.dayCount = .basis b) (hactual : b.IsActual)
    (h : (c.views (dates ++ [r])).result = .ok v) :
    (c.impliedAt (.dateTime r)).result = .ok (implied c r) ∧ v.SeesFrom c b r ∧
      (c.Answers → ∃ P, v.HasQuotients c b r P) := by
  obtain ⟨w, hw, hr, rfl⟩ := views_concat.mp h
  have hlater : r.before c.reference = false := DateTime.before_trans (before_views hw) hr
  have hfrom : (implied w r).SeesFrom c b r :=
    seesFrom_implied hb hactual (dayCount_views hw)
      (discountAt_implied_views hc hb hactual hw r)
  refine ⟨result_impliedAt.mpr ⟨hlater, rfl⟩, hfrom, fun hanswers => ?_⟩
  obtain ⟨p, hp⟩ := discounts_of_answers hb hc hanswers
  obtain ⟨P, hP⟩ := hp.exists_hasFactors
  exact ⟨P, hfrom.hasQuotients hb hP⟩

/-- A curve that is not flat, seen from a second date through a first. -/
theorem views_compose_of_two :
    let c : Curve Exact := .discount {
      reference := Value.midnight ⟨2024, 1, 1, by decide, by decide, by decide⟩
      nodes := [⟨real 0, real 1⟩, ⟨real 1, real 0.9⟩, ⟨real 2, real 0.85⟩]
      flatRate := none
      dayCount := .basis .actual365 }
    let first := Value.midnight ⟨2024, 7, 1, by decide, by decide, by decide⟩
    let last := Value.midnight ⟨2025, 1, 1, by decide, by decide, by decide⟩
    (implied (implied c first) last).SeesFrom c .actual365 last ∧
      ∃ P, (implied (implied c first) last).HasQuotients c .actual365 last P := by
  intro c first last
  have hreal : c.IsReal := by
    refine ⟨fun n hn => ?_, fun f hf => by cases hf⟩
    simp only [List.mem_cons, List.not_mem_nil, or_false] at hn
    obtain rfl | rfl | rfl := hn
    · exact ⟨0, 1, by norm_num, rfl⟩
    · exact ⟨1, 0.9, by norm_num, rfl⟩
    · exact ⟨2, 0.85, by norm_num, rfl⟩
  have hviews : (c.views ([first] ++ [last])).result = .ok (implied (implied c first) last) :=
    views_concat.mpr ⟨implied c first, views_cons.mpr ⟨by decide, views_nil.mpr rfl⟩, by decide, rfl⟩
  obtain ⟨-, hfrom, hquotients⟩ := views_compose hreal rfl (by decide) hviews
  have hanswers : c.Answers := List.cons_ne_nil _ _
  exact ⟨hfrom, hquotients hanswers⟩

end Curve

end OptionDesk
