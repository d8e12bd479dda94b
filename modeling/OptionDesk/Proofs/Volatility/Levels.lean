import OptionDesk.Proofs.Volatility

/-!
# Volatilities under variances

A volatility structure answers with a volatility as well as with a variance, and a view calculates the
one from the other over a time that it keeps away from zero. Where the variance to a later time is real
and not negative, so is the volatility real, and its square times the time is the variance. Only the
sign of a volatility is its own: a line through quotes may lead below zero.
-/
namespace OptionDesk

open Exact

/-- A real root is not negative. -/
theorem Exact.sqrt_eq_real {y : Exact} {x : ℝ} (h : Scalar.sqrt y = real x) : 0 ≤ x := by
  cases y with
  | real y =>
    by_cases hy : 0 ≤ y
    · rw [real_sqrt hy, real.injEq] at h
      exact h ▸ Real.sqrt_nonneg y
    · have hundefined : Scalar.sqrt (real y) = undefined := if_neg hy
      rw [hundefined] at h
      cases h
  | _ => cases h

open Classical in
/-- What is cut off at zero is not negative. -/
theorem Exact.nonneg_of_max_zero {y : Exact} {x : ℝ} (h : max y 0 = real x) : 0 ≤ x := by
  have hmax : max y (real 0) = if lt y (real 0) ∨ real 0 = undefined then real 0 else y := rfl
  rw [zero_eq, hmax] at h
  split at h
  · exact (real.inj h).le
  · next hnot =>
    subst h
    exact not_lt.mp fun hnegative => hnot (.inl hnegative)

namespace Volatility

theorem total_eq_real {level : Exact} {t w : ℝ} (h : total level (real t) = real w) :
    ∃ σ : ℝ, level = real σ ∧ σ ^ 2 * t = w := by
  obtain ⟨a, b, hsquare, htime, hw⟩ := mul_eq_real h
  obtain ⟨σ, σ', hσ, hσ', ha⟩ := mul_eq_real hsquare
  obtain rfl : t = b := Exact.real.inj htime
  obtain rfl : σ = σ' := Exact.real.inj (hσ.symm.trans hσ')
  exact ⟨σ, hσ, by rw [sq, ha, hw]⟩

theorem max_shortEnd (x : ℝ) : max (real x) (shortEnd : Exact) = real (max x 1e-4) := by
  rw [shortEnd, ofScientific_eq, real_max]
  norm_num

/-- A view has no negative variance. -/
theorem variance_nonneg_of_view {base : Volatility Exact} {r : DateTime} {moment strike : Value Exact}
    {w : ℝ} (h : ((implied base r).varianceAt moment strike).result = .ok (real w)) : 0 ≤ w := by
  obtain ⟨_, _, _, _, -, -, -, -, -, h⟩ := varianceAt_implied_eq_ok.mp h
  exact nonneg_of_max_zero h

/-- The volatility of a view is the root of its variance per unit of time. -/
theorem levelAt_implied {base : Volatility Exact} {r : DateTime} {moment strike : Value Exact}
    {x w : ℝ} (htime : (implied base r).timeTo moment = pure (real x)) (hw : 0 ≤ w)
    (h : ((implied base r).varianceAt (.number (real (max x 1e-4))) strike).result = .ok (real w)) :
    ∃ σ : ℝ, ((implied base r).levelAt moment strike).result = .ok (real σ) ∧ 0 ≤ σ ∧
      σ ^ 2 * max x 1e-4 = w := by
  have hpositive : (0 : ℝ) < max x 1e-4 := lt_max_of_lt_right shortEnd_pos
  have hquotient : 0 ≤ w / max x 1e-4 := div_nonneg hw hpositive.le
  refine ⟨√(w / max x 1e-4), ?_, Real.sqrt_nonneg _, ?_⟩
  · rw [levelAt, htime, pure_bind]
    simp only [max_shortEnd]
    rw [Outcome.result_bind_of_ok h, real_div _ hpositive.ne', real_sqrt hquotient]
    rfl
  · rw [Real.sq_sqrt hquotient, div_mul_cancel₀ _ hpositive.ne']

variable {v : Volatility Exact} {strike : Value Exact} {t w : ℝ}

/-- The time over which a structure spreads the variance, to answer for a time. -/
noncomputable def levelTime (v : Volatility Exact) (t : ℝ) : ℝ :=
  match v with
  | implied _ _ => max t 1e-4
  | _ => t

theorem levelTime_of_late (ht : 1e-4 ≤ t) : v.levelTime t = t := by
  cases v with
  | implied base r => exact max_eq_left ht
  | _ => rfl

/-- The square of a volatility times the time is the variance, at every time that is kept. -/
theorem exists_levelAt_of_kept (ht : v.levelTime t = t) (hw : 0 ≤ w)
    (h : (v.varianceAt (.number (real t)) strike).result = .ok (real w)) :
    ∃ σ : ℝ, (v.levelAt (.number (real t)) strike).result = .ok (real σ) ∧ σ ^ 2 * t = w := by
  have htime : v.timeTo (.number (real t)) = pure (real t) := rfl
  cases v with
  | constant reference level dayCount =>
    obtain ⟨σ, rfl, hσ⟩ := total_eq_real (Except.ok.inj h)
    exact ⟨σ, rfl, hσ⟩
  | surface s =>
    rw [varianceAt, htime, pure_bind] at h
    obtain ⟨level, hlevel, h⟩ := Outcome.result_bind_eq_ok.mp h
    obtain ⟨σ, rfl, hσ⟩ := total_eq_real (Except.ok.inj h)
    exact ⟨σ, by rw [levelAt, htime, pure_bind, hlevel], hσ⟩
  | implied base r =>
    have hkept : max t 1e-4 = t := ht
    obtain ⟨σ, hlevel, -, hσ⟩ := levelAt_implied htime hw (by rwa [hkept])
    exact ⟨σ, hlevel, by rwa [hkept] at hσ⟩

/-- The square of a volatility times the time is the variance, beyond the short end. -/
theorem exists_levelAt (ht : 1e-4 ≤ t) (hw : 0 ≤ w)
    (h : (v.varianceAt (.number (real t)) strike).result = .ok (real w)) :
    ∃ σ : ℝ, (v.levelAt (.number (real t)) strike).result = .ok (real σ) ∧ σ ^ 2 * t = w :=
  exists_levelAt_of_kept (levelTime_of_late ht) hw h

/-- Every volatility of a real structure spreads a variance. -/
theorem spreads_of_levelAt (hv : v.IsReal) {k : ℝ} {y : Exact}
    (h : (v.levelAt (.number (real t)) (.number (real k))).result = .ok y) :
    ∃ σ w : ℝ, y = real σ ∧
      (v.varianceAt (.number (real (v.levelTime t))) (.number (real k))).result = .ok (real w) ∧
      σ ^ 2 * v.levelTime t = w := by
  have htime : v.timeTo (.number (real t)) = pure (real t) := rfl
  have hsquare (σ : ℝ) : σ * σ * t = σ ^ 2 * t := by ring
  cases v with
  | constant reference level dayCount =>
    obtain ⟨σ, rfl⟩ := hv
    exact ⟨σ, σ * σ * t, (Except.ok.inj h).symm, rfl, (hsquare σ).symm⟩
  | surface s =>
    rw [levelAt, htime, pure_bind] at h
    obtain ⟨σ, rfl⟩ := s.query_real hv k t h
    refine ⟨σ, σ * σ * t, rfl, ?_, (hsquare σ).symm⟩
    exact Outcome.result_bind_of_ok h _
  | implied base r =>
    rw [levelAt, htime, pure_bind] at h
    simp only [max_shortEnd] at h
    obtain ⟨variance, hvariance, hroot⟩ := Outcome.result_bind_eq_ok.mp h
    obtain ⟨w, rfl⟩ := varianceAt_real (v := implied base r) hv (Value.isMoment_number _) k hvariance
    obtain ⟨σ, hlevel, -, hσ⟩ := levelAt_implied htime (variance_nonneg_of_view hvariance) hvariance
    rw [levelAt, htime, pure_bind] at hlevel
    simp only [max_shortEnd] at hlevel
    rw [Outcome.result_bind_of_ok hvariance] at hlevel
    exact ⟨σ, w, Except.ok.inj (hroot.symm.trans hlevel), hvariance, hσ⟩

/-- A date matters to a volatility only through the time to it. -/
theorem levelAt_dateTime {b : DayCount.Basis} (hb : v.dayCount = .basis b) (d : DateTime)
    (strike : Value Exact) :
    v.levelAt (.dateTime d) strike = v.levelAt (.number (real (b.years v.reference d))) strike := by
  have htime := timeTo_dateTime hb d
  have hnumber (t : Exact) : v.timeTo (.number t) = pure t := rfl
  cases v with
  | constant reference level dayCount => rfl
  | surface s => rw [levelAt, levelAt, htime, hnumber]
  | implied base r => rw [levelAt, levelAt, htime, hnumber]

end Volatility

end OptionDesk
