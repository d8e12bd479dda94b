import OptionDesk.DayCount.Elapsed
import OptionDesk.Proofs.Exact
import Mathlib.Tactic.Linarith

/-!
# Exact year fractions

In exact arithmetic a year fraction is a number of days over the days of a year. The actual bases
count elapsed time, so their fractions add up along any dates, in any order, and are negative exactly
when the second date comes first. Months of thirty days have neither law.
-/
namespace OptionDesk

open Exact

namespace DayCount

namespace Basis

/-- The bases that measure elapsed time. -/
def IsActual (b : Basis) : Prop := b ≠ .thirty360

instance (b : Basis) : Decidable b.IsActual := inferInstanceAs (Decidable (b ≠ .thirty360))

noncomputable section

/-- Days from one point in time to another, as the basis counts them. -/
def days : Basis → DateTime → DateTime → ℝ
  | .thirty360, s, t => thirtyDays s.date t.date
  | _, s, t => (s.microsecondsBetween t : ℝ) / 10 ^ 6 / 86400

/-- Days of a year. -/
def yearLength : Basis → ℝ
  | .actual360 => 360
  | .actual365 => 365
  | .actual36525 => 365.25
  | .thirty360 => 360

/-- The year fraction, as a real number. -/
def years (b : Basis) (s t : DateTime) : ℝ := b.days s t / b.yearLength

end

theorem yearLength_pos (b : Basis) : 0 < b.yearLength := by
  cases b <;> norm_num [yearLength]

theorem days_of_isActual {b : Basis} (hb : b.IsActual) (s t : DateTime) :
    b.days s t = (s.microsecondsBetween t : ℝ) / 10 ^ 6 / 86400 := by
  cases b with
  | thirty360 => exact absurd rfl hb
  | _ => rfl

theorem yearFraction_eq (b : Basis) (s t : DateTime) :
    (b.yearFraction s t : Exact) = real (b.years s t) := by
  have helapsed : (elapsedDays s t : Exact) =
      real ((s.microsecondsBetween t : ℝ) / 10 ^ 6 / 86400) := by
    rw [elapsedDays, ofDecimal_eq, ofScientific_eq, real_div _ (by norm_num)]
    norm_num
  have hlength : ∀ x : ℝ, real x / real b.yearLength = real (x / b.yearLength) :=
    fun x => real_div x b.yearLength_pos.ne'
  rw [years, ← hlength]
  cases b with
  | actual360 => rw [yearFraction, helapsed, ofScientific_eq]; norm_num [days, yearLength]
  | actual365 => rw [yearFraction, helapsed, ofScientific_eq]; norm_num [days, yearLength]
  | actual36525 => rw [yearFraction, helapsed, ofScientific_eq]; rfl
  | thirty360 =>
    rw [yearFraction, thirtyFraction, ofScientific_eq, intCast_eq]
    norm_num [days, yearLength]

/-- Elapsed time adds up, whatever the order of the dates. -/
theorem years_add {b : Basis} (hb : b.IsActual) (r s t : DateTime) :
    b.years r s + b.years s t = b.years r t := by
  have hmicroseconds : (r.microsecondsBetween s : ℝ) + s.microsecondsBetween t =
      r.microsecondsBetween t := by
    unfold DateTime.microsecondsBetween
    push_cast
    ring
  simp only [years, days_of_isActual hb, ← hmicroseconds]
  ring

theorem years_self {b : Basis} (hb : b.IsActual) (s : DateTime) : b.years s s = 0 := by
  have h := years_add hb s s s
  linarith

theorem years_nonneg_iff {b : Basis} (hb : b.IsActual) (s t : DateTime) :
    0 ≤ b.years s t ↔ t.before s = false := by
  have hsign : 0 ≤ b.years s t ↔ 0 ≤ s.microsecondsBetween t := by
    rw [years, days_of_isActual hb, le_div_iff₀ b.yearLength_pos, le_div_iff₀ (by norm_num),
      le_div_iff₀ (by norm_num), zero_mul, zero_mul, zero_mul, Int.cast_nonneg_iff]
  rw [hsign, DateTime.before_eq_false, DateTime.microsecondsBetween]
  omega

theorem years_pos_iff {b : Basis} (hb : b.IsActual) (s t : DateTime) :
    0 < b.years s t ↔ s.before t = true := by
  have hround : b.years s t + b.years t s = 0 := by
    rw [years_add hb, years_self hb]
  have hback := years_nonneg_iff hb t s
  constructor
  · intro hpos
    have hneg : ¬0 ≤ b.years t s := by linarith
    rwa [hback, Bool.not_eq_false] at hneg
  · intro hbefore
    have hneg : ¬0 ≤ b.years t s := by
      rw [hback, hbefore]
      exact Bool.noConfusion
    linarith

/-- Between two dates the year fraction is a real number, and is found without a notice. -/
theorem yearFraction_dates (b : Basis) (s t : DateTime) :
    (basis b).yearFraction (.dateTime s : Value Exact) (.dateTime t) = pure (real (b.years s t)) := by
  rw [yearFraction_dateTime, yearFraction_eq]

end Basis

/-- Years between two dates are counted only on a supported basis. -/
theorem basis_of_yearFraction {dayCount : DayCount} {s t : DateTime} {y : Exact}
    (h : (dayCount.yearFraction (.dateTime s) (.dateTime t)).result = .ok y) :
    ∃ b, dayCount = .basis b ∧ y = real (b.years s t) := by
  cases dayCount with
  | unsupported name => cases h
  | basis b =>
    rw [Basis.yearFraction_dates] at h
    exact ⟨b, rfl, (Except.ok.inj h).symm⟩

theorem yearFraction_real {dayCount : DayCount} {s t : DateTime} {y : Exact}
    (h : (dayCount.yearFraction (.dateTime s) (.dateTime t)).result = .ok y) :
    ∃ r : ℝ, y = real r := by
  obtain ⟨b, -, rfl⟩ := basis_of_yearFraction h
  exact ⟨_, rfl⟩

end DayCount

/-- Times from the short end on are positive. -/
theorem shortEnd_pos : (0 : ℝ) < 1e-4 := by norm_num

/-- A point in time, or a real number of years. -/
def Value.IsMoment : Value Exact → Prop
  | .dateTime _ => True
  | .figure (.number x) => ∃ r : ℝ, x = real r
  | _ => False

theorem Value.isMoment_number (x : ℝ) : (Value.number (real x)).IsMoment := ⟨x, rfl⟩

/-- Converting a point in time or a time in years reports nothing. -/
theorem DayCount.timeFrom_eq_pure {dayCount : DayCount} {reference moment : Value Exact} {t : Exact}
    (h : (dayCount.timeFrom reference moment).result = .ok t) :
    dayCount.timeFrom reference moment = pure t := by
  have hread {x : Except Misuse Exact} (hx : (.ofMisuse x : Outcome Exact Exact).result = .ok t) :
      (.ofMisuse x : Outcome Exact Exact) = pure t := by
    rw [Outcome.result_ofMisuse_eq_ok.mp hx, Outcome.ofMisuse_ok]
  cases moment with
  | dateTime d =>
    cases dayCount with
    | basis b => exact hread h
    | unsupported name => cases h
  | _ => exact hread h

theorem DayCount.timeFrom_real {dayCount : DayCount} {reference : DateTime} {moment : Value Exact}
    {t : Exact} (hmoment : moment.IsMoment)
    (h : (dayCount.timeFrom (.dateTime reference) moment).result = .ok t) : ∃ r : ℝ, t = real r := by
  match moment, hmoment with
  | .dateTime d, _ => exact yearFraction_real h
  | .figure (.number x), hx =>
    cases h
    exact hx

end OptionDesk
