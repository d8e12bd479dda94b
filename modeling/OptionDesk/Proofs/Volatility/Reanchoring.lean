import OptionDesk.Proofs.Calendar
import OptionDesk.Proofs.Volatility.Levels

/-!
# Views of views of a volatility

A chain of views has the variance of its base between the last date and the times after it. Each view
takes a difference of two variances of the one before, which is the difference of two differences; the
times add up along the chain, and all variances but two cancel. Variance that increases in time keeps
increasing after every view, so no view along the chain refuses a difference or cuts it at zero.

A constant volatility is its own view. Its variance is proportional to the time, so the times need not
add up, and any basis of the day count will do that never counts backward.
-/
namespace OptionDesk

open Exact

namespace Volatility

/-- View after view of a volatility structure, from one date after another. -/
def views {α : Type} (v : Volatility α) (dates : List DateTime) : Outcome α (Volatility α) :=
  dates.foldlM (fun v r => v.impliedAt (.dateTime r)) v

section Chains

variable {α : Type} {v w : Volatility α} {r : DateTime} {dates : List DateTime}

@[simp] theorem reference_implied (base : Volatility α) (r : DateTime) :
    (implied base r).reference = r := rfl

theorem viewsForward (α : Type) :
    ViewsForward reference implied fun (v : Volatility α) r => v.impliedAt (.dateTime r) :=
  ⟨fun _ _ _ => result_impliedAt, fun _ _ => rfl⟩

theorem views_nil : (v.views []).result = .ok w ↔ w = v := ViewsForward.nil

theorem views_cons : (v.views (r :: dates)).result = .ok w ↔
    r.before v.reference = false ∧ ((implied v r).views dates).result = .ok w :=
  (viewsForward α).cons

theorem views_concat : (v.views (dates ++ [r])).result = .ok w ↔
    ∃ u, (v.views dates).result = .ok u ∧ r.before u.reference = false ∧ w = implied u r :=
  (viewsForward α).concat

theorem before_views (h : (v.views dates).result = .ok w) : w.reference.before v.reference = false :=
  (viewsForward α).before h

theorem dayCount_views (h : (v.views dates).result = .ok w) : w.dayCount = v.dayCount :=
  (viewsForward α).kept (fun _ _ => rfl) h

end Chains

/-- The variance at a strike to all times from the reference date on, which increases. -/
structure HasVariance (v : Volatility Exact) (strike : Value Exact) (w : ℝ → ℝ) : Prop where
  variance : ∀ x : ℝ, 0 ≤ x → (v.varianceAt (.number (real x)) strike).result = .ok (real (w x))
  increasing : MonotoneOn w (Set.Ici 0)

variable {v base : Volatility Exact} {b : DayCount.Basis} {strike : Value Exact} {w : ℝ → ℝ}

theorem HasVariance.zero (h : v.HasVariance strike w) : w 0 = 0 := varianceAt_zero (h.variance 0 le_rfl)

theorem HasVariance.difference_nonneg (h : v.HasVariance strike w) {near x : ℝ} (hnear : 0 ≤ near)
    (hx : 0 ≤ x) : w near ≤ w (near + x) :=
  h.increasing (Set.mem_Ici.mpr hnear) (Set.mem_Ici.mpr (add_nonneg hnear hx))
    (le_add_of_nonneg_right hx)

/-- One view: neither its check nor its cut has an effect. -/
theorem HasVariance.implied (h : v.HasVariance strike w) (hb : v.dayCount = .basis b) {r : DateTime}
    (hr : r.before v.reference = false) :
    (implied v r).HasVariance strike fun x =>
      w (b.years v.reference r + x) - w (b.years v.reference r) := by
  have hnear : 0 ≤ b.years v.reference r := b.years_nonneg hr
  refine ⟨fun x hx => ?_, fun x hx y hy hxy => ?_⟩
  · exact varianceAt_implied_time hb (h.difference_nonneg hnear hx)
      (h.variance _ (add_nonneg hnear hx)) (h.variance _ hnear)
  · have hle : w (b.years v.reference r + x) ≤ w (b.years v.reference r + y) :=
      h.increasing (Set.mem_Ici.mpr (add_nonneg hnear hx)) (Set.mem_Ici.mpr (add_nonneg hnear hy))
        (by linarith)
    exact sub_le_sub_right hle _

/-- A chain: the inner differences cancel. -/
theorem HasVariance.views (h : base.HasVariance strike w) (hb : base.dayCount = .basis b)
    (hactual : b.IsActual) {dates : List DateTime} (hv : (base.views dates).result = .ok v) :
    v.HasVariance strike fun x =>
      w (b.years base.reference v.reference + x) - w (b.years base.reference v.reference) := by
  induction dates generalizing base w with
  | nil =>
    obtain rfl := views_nil.mp hv
    simp only [DayCount.Basis.years_self hactual, zero_add, h.zero, sub_zero]
    exact h
  | cons r dates ih =>
    obtain ⟨hr, hrest⟩ := views_cons.mp hv
    have hview : (Volatility.implied base r).dayCount = .basis b := hb
    have hchain := ih (h.implied hb hr) hview hrest
    have hyears : b.years base.reference r + b.years r v.reference =
        b.years base.reference v.reference := DayCount.Basis.years_add hactual _ _ _
    simp only [reference_implied, ← add_assoc, hyears, sub_sub_sub_cancel_right] at hchain
    exact hchain

/-- Variance in proportion to the time stays so along a chain. -/
theorem HasVariance.views_of_proportional {c : ℝ} (h : base.HasVariance strike fun x => c * x)
    (hb : base.dayCount = .basis b) {dates : List DateTime} (hv : (base.views dates).result = .ok v) :
    v.HasVariance strike fun x => c * x := by
  induction dates generalizing base with
  | nil => rwa [views_nil.mp hv]
  | cons r dates ih =>
    obtain ⟨hr, hrest⟩ := views_cons.mp hv
    have hview : (Volatility.implied base r).dayCount = .basis b := hb
    have hstep := h.implied hb hr
    simp only [mul_add, add_sub_cancel_left] at hstep
    exact ih hstep hview hrest

theorem hasVariance_constant (reference : DateTime) (level : ℝ) (dayCount : DayCount)
    (strike : Value Exact) :
    (constant reference (real level) dayCount).HasVariance strike fun x => level * level * x :=
  ⟨fun _ _ => rfl, fun _ _ _ _ hxy => mul_le_mul_of_nonneg_left hxy (mul_self_nonneg level)⟩

theorem exists_timeTo (hb : v.dayCount = .basis b) {moment : Value Exact} (h : moment.IsMoment) :
    ∃ x : ℝ, v.timeTo moment = pure (real x) := by
  match moment, h with
  | .dateTime d, _ => exact ⟨_, timeTo_dateTime hb d⟩
  | .figure (.number _), ⟨x, rfl⟩ => exact ⟨x, rfl⟩

/-- A chain of views of a constant volatility has this volatility. -/
theorem levelAt_views_constant {reference : DateTime} {level : ℝ} (hlevel : 0 ≤ level)
    {dates : List DateTime}
    (hv : ((constant reference (real level) (.basis b)).views dates).result = .ok v)
    {moment : Value Exact} (hmoment : moment.IsMoment) (strike : Value Exact) :
    (v.levelAt moment strike).result = .ok (real level) := by
  have hdays : v.dayCount = .basis b := dayCount_views hv
  have hvariance := (hasVariance_constant reference level (.basis b) strike).views_of_proportional rfl hv
  obtain ⟨x, htime⟩ := exists_timeTo hdays hmoment
  obtain rfl | ⟨dates, r, rfl⟩ := dates.eq_nil_or_concat
  · rw [views_nil.mp hv]
    rfl
  · rw [List.concat_eq_append] at hv
    obtain ⟨u, -, -, rfl⟩ := views_concat.mp hv
    have hpositive : (0 : ℝ) < max x 1e-4 := lt_max_of_lt_right shortEnd_pos
    obtain ⟨σ, hσ, hsign, hsquare⟩ := levelAt_implied htime
      (mul_nonneg (mul_self_nonneg level) hpositive.le) (hvariance.variance _ hpositive.le)
    rw [← sq, mul_left_inj' hpositive.ne', sq_eq_sq₀ hsign hlevel] at hsquare
    rwa [hsquare] at hσ

/-- What a structure answers that sees the variance of another from a date on. -/
structure SeesVariance (v base : Volatility Exact) (b : DayCount.Basis) (r : DateTime)
    (strike : Value Exact) (w : ℝ → ℝ) : Prop where
  variance_of_time : ∀ t : ℝ, 0 ≤ t → (v.varianceAt (.number (real t)) strike).result =
    .ok (real (w (b.years base.reference r + t) - w (b.years base.reference r)))
  variance_of_date : ∀ d, d.before r = false → (v.varianceAt (.dateTime d) strike).result =
    .ok (real (w (b.years base.reference d) - w (b.years base.reference r)))
  level_of_time : ∀ t : ℝ, 1e-4 ≤ t →
    ∃ σ : ℝ, (v.levelAt (.number (real t)) strike).result = .ok (real σ) ∧ 0 ≤ σ ∧
      σ ^ 2 * t = w (b.years base.reference r + t) - w (b.years base.reference r)
  level_of_date : ∀ d, 1e-4 ≤ b.years r d →
    ∃ σ : ℝ, (v.levelAt (.dateTime d) strike).result = .ok (real σ) ∧ 0 ≤ σ ∧
      σ ^ 2 * b.years r d = w (b.years base.reference d) - w (b.years base.reference r)

theorem HasVariance.seesVariance {u : Volatility Exact} {r : DateTime}
    (h : base.HasVariance strike w) (hr : 0 ≤ b.years base.reference r)
    (hactual : b.IsActual) (hdays : u.dayCount = .basis b)
    (hview : (Volatility.implied u r).HasVariance strike fun x =>
      w (b.years base.reference r + x) - w (b.years base.reference r)) :
    (Volatility.implied u r).SeesVariance base b r strike w := by
  have hdays' : (Volatility.implied u r).dayCount = .basis b := hdays
  have hyears (d : DateTime) : b.years base.reference r + b.years r d = b.years base.reference d :=
    DayCount.Basis.years_add hactual _ _ _
  have hlevel (t : ℝ) (ht : 1e-4 ≤ t) :
      ∃ σ : ℝ, ((Volatility.implied u r).levelAt (.number (real t)) strike).result = .ok (real σ) ∧
        0 ≤ σ ∧ σ ^ 2 * t = w (b.years base.reference r + t) - w (b.years base.reference r) := by
    have hpositive : (0 : ℝ) ≤ t := shortEnd_pos.le.trans ht
    have hlate : max t 1e-4 = t := max_eq_left ht
    have htime : (Volatility.implied u r).timeTo (.number (real t)) = pure (real t) := rfl
    have hlevel := levelAt_implied htime (sub_nonneg.mpr (h.difference_nonneg hr hpositive))
      (by rw [hlate]; exact hview.variance t hpositive)
    rwa [hlate] at hlevel
  refine ⟨hview.variance, fun d hd => ?_, hlevel, fun d hd => ?_⟩
  · have hnonneg : 0 ≤ b.years r d := b.years_nonneg hd
    have hvariance := hview.variance _ hnonneg
    rw [hyears] at hvariance
    rw [varianceAt_dateTime hdays']
    exact hvariance
  · obtain ⟨σ, hσ, hsign, hsquare⟩ := hlevel _ hd
    rw [hyears] at hsquare
    rw [levelAt_dateTime hdays']
    exact ⟨σ, hσ, hsign, hsquare⟩

/-- Chains of views of any length: the variance that remains of the base, with the volatility that
goes with it, and the same volatility throughout when that is constant. -/
theorem views_of_variance_compose :
    (∀ {base v : Volatility Exact} {b : DayCount.Basis} {strike : Value Exact} {w : ℝ → ℝ}
        {dates : List DateTime} {r : DateTime}, base.dayCount = .basis b → b.IsActual →
      base.HasVariance strike w → (base.views (dates ++ [r])).result = .ok v →
      v.SeesVariance base b r strike w) ∧
    ∀ {reference : DateTime} {level : ℝ} {b : DayCount.Basis} {dates : List DateTime}
        {v : Volatility Exact}, 0 ≤ level →
      ((constant reference (real level) (.basis b)).views dates).result = .ok v →
      ∀ moment strike, moment.IsMoment → (v.levelAt moment strike).result = .ok (real level) := by
  constructor
  · intro base v b strike w dates r hb hactual hw hv
    have hchain := hw.views hb hactual hv
    have hdays := dayCount_views hv
    obtain ⟨u, hu, hr, rfl⟩ := views_concat.mp hv
    have hlater : r.before base.reference = false := DateTime.before_trans (before_views hu) hr
    exact hw.seesVariance (b.years_nonneg hlater) hactual (hdays.trans hb) hchain
  · intro reference level b dates v hlevel hv moment strike hmoment
    exact levelAt_views_constant hlevel hv hmoment strike

/-- A constant volatility, seen from a second date through a first. -/
theorem views_of_variance_compose_through_two_dates :
    let base : Volatility Exact := .constant
      (Value.midnight ⟨2024, 1, 1, by decide, by decide, by decide⟩) (real 0.2) .standard
    let first := Value.midnight ⟨2024, 7, 1, by decide, by decide, by decide⟩
    let last := Value.midnight ⟨2025, 1, 1, by decide, by decide, by decide⟩
    let v : Volatility Exact := .implied (.implied base first) last
    v.SeesVariance base .actual365 last (.number (real 100)) (fun x => 0.2 * 0.2 * x) ∧
      ∀ moment strike, moment.IsMoment → (v.levelAt moment strike).result = .ok (real 0.2) := by
  intro base first last v
  have hviews : (base.views ([first] ++ [last])).result = .ok v :=
    views_concat.mpr ⟨.implied base first, views_cons.mpr ⟨by decide, views_nil.mpr rfl⟩, by decide, rfl⟩
  obtain ⟨hvariance, hlevel⟩ := views_of_variance_compose
  exact ⟨hvariance rfl (by decide) (hasVariance_constant _ 0.2 _ _) hviews,
    hlevel (by norm_num) hviews⟩

end Volatility

end OptionDesk
