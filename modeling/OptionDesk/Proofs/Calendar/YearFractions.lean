import OptionDesk.Proofs.Curve.Reanchoring
import OptionDesk.Proofs.Volatility.Reanchoring

/-!
# Year fractions follow the calendar

A year fraction grows with the end of its period and shrinks with the start, on every basis, so a view of
a curve or of a volatility never stands before what it views. Periods that follow one another add up
exactly where elapsed time is counted; in months of thirty days the sum may be off by one day.
-/
namespace OptionDesk

open Exact

namespace DayCount

/-- Year fractions in the order of the dates. -/
structure FollowsCalendar (years : DateTime → DateTime → ℝ) : Prop where
  later_end : ∀ s t u, u.before t = false → years s t ≤ years s u
  later_start : ∀ s t u, t.before s = false → years t u ≤ years s u
  same : ∀ s, years s s = 0
  nonneg : ∀ s t, t.before s = false → 0 ≤ years s t

theorem Basis.followsCalendar (b : Basis) : FollowsCalendar b.years :=
  ⟨fun s _ _ h => b.years_le_of_later_end s h, fun _ _ u h => b.years_le_of_later_start u h,
    b.years_same, fun _ _ h => b.years_nonneg h⟩

/-- The sum of two periods less the whole is the days that the interruption gains. -/
theorem Basis.excess_eq (b : Basis) (r s t : DateTime) :
    b.years r s + b.years s t - b.years r t = b.drift r s t / b.yearLength :=
  sub_eq_of_eq_add' (b.years_add_years r s t)

theorem Basis.excess_mem (b : Basis) (r s t : DateTime) :
    b.years r s + b.years s t - b.years r t ∈ ({-1 / 360, 0, 1 / 360} : Set ℝ) := by
  rw [b.excess_eq]
  by_cases hb : b.IsActual
  · rw [drift_of_isActual hb, Int.cast_zero, zero_div]
    exact .inr (.inl rfl)
  · obtain rfl := eq_of_not_isActual hb
    obtain h | h | h := drift_mem .thirty360 r s t
    all_goals norm_num [h, yearLength]

end DayCount

open DayCount

/-- A view at the end of a chain stands on its base, and not before it. -/
theorem Curve.anchor_of_views {base v : Curve Exact} {b : Basis} (hb : base.dayCount = .basis b)
    {dates : List DateTime} {r : DateTime} (h : (base.views (dates ++ [r])).result = .ok v) :
    ∃ a : ℝ, 0 ≤ a ∧ v.anchor.result = .ok (real a) := by
  obtain ⟨u, hu, hr, rfl⟩ := views_concat.mp h
  have hdays : u.dayCount = .basis b := (dayCount_views hu).trans hb
  exact ⟨_, b.years_nonneg hr, congrArg Outcome.result (anchorTo_eq hdays r)⟩

theorem Volatility.anchor_of_views {base v : Volatility Exact} {b : Basis}
    (hb : base.dayCount = .basis b) {dates : List DateTime} {r : DateTime}
    (h : (base.views (dates ++ [r])).result = .ok v) :
    ∃ a : ℝ, 0 ≤ a ∧ v.anchor.result = .ok (real a) := by
  obtain ⟨u, hu, hr, rfl⟩ := views_concat.mp h
  have hdays : u.dayCount = .basis b := (dayCount_views hu).trans hb
  exact ⟨_, b.years_nonneg hr, congrArg Outcome.result (anchorTo_eq hdays r)⟩

namespace DayCount

/-- Every basis gives year fractions in the order of the dates, which add up without a remainder where
elapsed time is counted, and with at most a day more or less in months of thirty days. Whatever chain of
views of a curve or of a volatility has been made, the last one does not stand before its base. -/
theorem year_fractions_follow_the_calendar (b : Basis) : ∃ years : DateTime → DateTime → ℝ,
    (∀ s t, ((basis b).yearFraction (.dateTime s) (.dateTime t)).result = .ok (real (years s t))) ∧
    FollowsCalendar years ∧
    (b.IsActual → ∀ r s t, years r s + years s t - years r t = 0) ∧
    (∀ r s t, years r s + years s t - years r t ∈ ({-1 / 360, 0, 1 / 360} : Set ℝ)) ∧
    (∀ (base v : Curve Exact) (dates : List DateTime) (r : DateTime), base.dayCount = .basis b →
      (base.views (dates ++ [r])).result = .ok v →
      ∃ a : ℝ, 0 ≤ a ∧ v.anchor.result = .ok (real a)) ∧
    ∀ (base v : Volatility Exact) (dates : List DateTime) (r : DateTime), base.dayCount = .basis b →
      (base.views (dates ++ [r])).result = .ok v →
      ∃ a : ℝ, 0 ≤ a ∧ v.anchor.result = .ok (real a) := by
  refine ⟨b.years, fun s t => ?_, b.followsCalendar, fun hb r s t => ?_, b.excess_mem,
    fun _ _ _ _ hb h => Curve.anchor_of_views hb h, fun _ _ _ _ hb h => Volatility.anchor_of_views hb h⟩
  · rw [yearFraction_dateTime, Basis.yearFraction_eq, Outcome.result_pure]
  · rw [b.excess_eq, Basis.drift_of_isActual hb, Int.cast_zero, zero_div]

/-- The last days of a January in months of thirty days: the sum may be a day short, and so is the count
up to the 31st. A volatility is viewed from the 30th, and this view from the 31st. -/
theorem year_fractions_follow_the_end_of_january :
    let middle := Value.midnight ⟨2025, 1, 15, by decide, by decide, by decide⟩
    let last := Value.midnight ⟨2025, 1, 30, by decide, by decide, by decide⟩
    let extra := Value.midnight ⟨2025, 1, 31, by decide, by decide, by decide⟩
    let base : Volatility Exact := .constant middle (real 0.2) (.basis .thirty360)
    ∃ years : DateTime → DateTime → ℝ,
      (∀ s t, ((basis .thirty360).yearFraction (.dateTime s) (.dateTime t)).result =
        .ok (real (years s t))) ∧
      FollowsCalendar years ∧ years last extra = 0 ∧
      years middle last + years last extra - years middle extra ∈ ({-1 / 360, 0, 1 / 360} : Set ℝ) ∧
      (base.views [last, extra]).result = .ok (.implied (.implied base last) extra) ∧
      ∃ a : ℝ, 0 ≤ a ∧ (Volatility.implied (.implied base last) extra).anchor.result = .ok (real a) := by
  intro middle last extra base
  obtain ⟨years, hyears, hfollows, -, hexcess, -, hanchor⟩ := year_fractions_follow_the_calendar .thirty360
  have hviews : (base.views ([last] ++ [extra])).result = .ok (.implied (.implied base last) extra) :=
    Volatility.views_concat.mpr ⟨.implied base last,
      Volatility.views_cons.mpr ⟨by decide, Volatility.views_nil.mpr rfl⟩, by decide, rfl⟩
  have hnone : years last extra = 0 := by
    have h := (hyears last extra).symm
    rw [yearFraction_dateTime, Basis.yearFraction_eq, Outcome.result_pure] at h
    have hdays : thirtyDays last.date extra.date = 0 := by decide
    rw [real.inj (Except.ok.inj h), Basis.years, Basis.days, hdays, Int.cast_zero, zero_div]
  exact ⟨years, hyears, hfollows, hnone, hexcess middle last extra, hviews,
    hanchor base _ [last] extra rfl hviews⟩

end DayCount

end OptionDesk
