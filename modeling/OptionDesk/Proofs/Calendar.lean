import OptionDesk.Proofs.DayCount

/-!
# Dates in order

Dates come in the order of their years, their months and their days, and the number of the day follows
that order: a month ends before the next begins, and so does a year. So no basis counts backward when
the second date is not before the first, the basis of thirty-day months included.

The fractions of that basis do not add up. A count that is interrupted on the way may gain or lose a day,
at the ends of months only.
-/
namespace OptionDesk

open Calendar

namespace Date

/-- Before by the calendar. -/
def Precedes (s t : Date) : Prop :=
  s.year < t.year ∨ s.year = t.year ∧ (s.month < t.month ∨ s.month = t.month ∧ s.day < t.day)

theorem daysBeforeMonth_succ {month : ℕ} (year : ℕ) (h : 1 ≤ month) :
    daysBeforeMonth year (month + 1) = daysBeforeMonth year month + daysInMonth year month := by
  obtain ⟨n, rfl⟩ := Nat.exists_eq_add_of_le' h
  rfl

theorem daysBeforeMonth_add_le (year : ℕ) {m n : ℕ} (hm : 1 ≤ m) (h : m < n) :
    daysBeforeMonth year m + daysInMonth year m ≤ daysBeforeMonth year n := by
  induction n, h using Nat.le_induction with
  | base => exact (daysBeforeMonth_succ year hm).ge
  | succ n hn ih =>
    rw [daysBeforeMonth_succ year (by omega)]
    omega

/-- The months of a year make up the year. -/
theorem daysBeforeYear_succ {year : ℕ} (h : 1 ≤ year) :
    daysBeforeYear (year + 1) = daysBeforeYear year + daysBeforeMonth year 13 := by
  obtain ⟨past, rfl⟩ := Nat.exists_eq_add_of_le' h
  have hdays : daysBeforeMonth (past + 1) 13 = if isLeap (past + 1) then 366 else 365 := by
    simp only [daysBeforeMonth, daysInMonth]
    cases isLeap (past + 1) <;> rfl
  have hcentury : past / 100 ≤ past / 4 := Nat.div_le_div_left (by norm_num) (by norm_num)
  have hfour : 100 ∣ past + 1 → 4 ∣ past + 1 := (by norm_num : 4 ∣ 100).trans
  have hhundred : 400 ∣ past + 1 → 100 ∣ past + 1 := (by norm_num : 100 ∣ 400).trans
  have hleap : isLeap (past + 1) = true ↔ 4 ∣ past + 1 ∧ (¬100 ∣ past + 1 ∨ 400 ∣ past + 1) := by
    simp [isLeap, Nat.dvd_iff_mod_eq_zero]
  simp only [daysBeforeYear, Nat.add_sub_cancel, Nat.succ_div, hdays, hleap]
  generalize past / 4 = a at hcentury ⊢
  generalize past / 100 = c at hcentury ⊢
  generalize past / 400 = e
  by_cases h4 : 4 ∣ past + 1
  · by_cases h100 : 100 ∣ past + 1
    · by_cases h400 : 400 ∣ past + 1
      · simp only [h4, h100, h400, not_true, false_or, true_and, if_true]
        omega
      · simp only [h4, h100, h400, not_true, or_false, and_false, if_true, if_false]
        omega
    · simp only [h4, h100, mt hhundred h100, not_false_iff, true_or, true_and, if_true, if_false]
      omega
  · have h100 := mt hfour h4
    simp only [h4, h100, mt hhundred h100, false_and, if_false]
    omega

theorem daysBeforeYear_add_le {y z : ℕ} (hy : 1 ≤ y) (h : y < z) :
    daysBeforeYear y + daysBeforeMonth y 13 ≤ daysBeforeYear z := by
  induction z, h using Nat.le_induction with
  | base => exact (daysBeforeYear_succ hy).ge
  | succ z hz ih =>
    rw [daysBeforeYear_succ (by omega)]
    omega

theorem ordinal_lt_of_precedes {s t : Date} (h : s.Precedes t) : s.ordinal < t.ordinal := by
  have hsyear := s.year_range.1
  have hsmonth := s.month_range
  have hsday := s.day_range.2
  have htday := t.day_range.1
  obtain hyear | ⟨hyear, hmonth | ⟨hmonth, hday⟩⟩ := h
  · have hinside : daysBeforeMonth s.year s.month + daysInMonth s.year s.month ≤
        daysBeforeMonth s.year 13 := daysBeforeMonth_add_le _ hsmonth.1 (by omega)
    have hacross := daysBeforeYear_add_le hsyear hyear
    unfold ordinal
    omega
  · have hacross := daysBeforeMonth_add_le s.year hsmonth.1 hmonth
    unfold ordinal
    rw [← hyear]
    omega
  · unfold ordinal
    rw [← hyear, ← hmonth]
    omega

end Date

theorem Date.day_le (d : Date) : d.day ≤ 31 := by
  refine d.day_range.2.trans ?_
  unfold daysInMonth
  split_ifs <;> omega

namespace DayCount

/-- The 31st is the 30th at the start of a count, and at its end too if the count starts that late. -/
theorem thirtyDays_eq (s t : Date) :
    thirtyDays s t = 360 * ((t.year : ℤ) - s.year) + 30 * ((t.month : ℤ) - s.month) +
      ((if t.day = 31 ∧ 30 ≤ s.day then 30 else t.day) - min s.day 30) := by
  have hsday := s.day_le
  have hstart : (if s.day = 31 then 30 else s.day) = min s.day 30 := by
    split_ifs <;> omega
  have hlate : min s.day 30 = 30 ↔ 30 ≤ s.day := min_eq_right_iff
  simp only [thirtyDays, hstart, hlate]

/-- A count that ends later is not shorter: what a 31st loses, the next month starts without. -/
theorem thirtyDays_le_of_later_end (s : Date) {t u : Date} (h : ¬u.Precedes t) :
    thirtyDays s t ≤ thirtyDays s u := by
  have ht := And.intro t.month_range t.day_le
  have hu := And.intro u.month_range u.day_range.1
  rw [thirtyDays_eq, thirtyDays_eq]
  unfold Date.Precedes at h
  split_ifs <;> omega

/-- A count that starts later is not longer, also where it is the start that takes a day off the end. -/
theorem thirtyDays_le_of_later_start {s t : Date} (u : Date) (h : ¬t.Precedes s) :
    thirtyDays t u ≤ thirtyDays s u := by
  have hs := And.intro s.month_range s.day_le
  have ht := And.intro t.month_range t.day_range.1
  rw [thirtyDays_eq, thirtyDays_eq]
  unfold Date.Precedes at h
  split_ifs <;> omega

theorem thirtyDays_self (s : Date) : thirtyDays s s = 0 := by
  have hs := s.day_le
  rw [thirtyDays_eq]
  split_ifs <;> omega

/-- Points in time in order lie on dates in order. -/
theorem not_precedes_of_before {s t : DateTime} (h : t.before s = false) :
    ¬t.date.Precedes s.date := by
  intro hprecedes
  have hordinal := Date.ordinal_lt_of_precedes hprecedes
  have hmidnight : (t.date.ordinal + 1) * microsecondsPerDay ≤ s.date.ordinal * microsecondsPerDay :=
    Nat.mul_le_mul_right _ hordinal
  have hinstant := DateTime.before_eq_false.mp h
  have hclock := t.microsecond_lt
  rw [Nat.succ_mul] at hmidnight
  unfold DateTime.instant at hinstant
  omega

namespace Basis

theorem eq_of_not_isActual {b : Basis} (h : ¬b.IsActual) : b = .thirty360 := not_not.mp h

theorem years_same (b : Basis) (s : DateTime) : b.years s s = 0 := by
  by_cases hb : b.IsActual
  · exact years_self hb s
  · rw [eq_of_not_isActual hb, years, days, thirtyDays_self, Int.cast_zero, zero_div]

theorem years_le_of_later_end (b : Basis) (s : DateTime) {t u : DateTime} (h : u.before t = false) :
    b.years s t ≤ b.years s u := by
  by_cases hb : b.IsActual
  · have hsum := years_add hb s t u
    have hrest := (years_nonneg_iff hb t u).mpr h
    linarith
  · obtain rfl := eq_of_not_isActual hb
    have hdays : (thirtyDays s.date t.date : ℝ) ≤ thirtyDays s.date u.date := by
      exact_mod_cast thirtyDays_le_of_later_end s.date (not_precedes_of_before h)
    exact div_le_div_of_nonneg_right hdays (yearLength_pos _).le

theorem years_le_of_later_start (b : Basis) {s t : DateTime} (u : DateTime) (h : t.before s = false) :
    b.years t u ≤ b.years s u := by
  by_cases hb : b.IsActual
  · have hsum := years_add hb s t u
    have hrest := (years_nonneg_iff hb s t).mpr h
    linarith
  · obtain rfl := eq_of_not_isActual hb
    have hdays : (thirtyDays t.date u.date : ℝ) ≤ thirtyDays s.date u.date := by
      exact_mod_cast thirtyDays_le_of_later_start u.date (not_precedes_of_before h)
    exact div_le_div_of_nonneg_right hdays (yearLength_pos _).le

/-- No basis counts backward. -/
theorem years_nonneg (b : Basis) {s t : DateTime} (h : t.before s = false) : 0 ≤ b.years s t :=
  (b.years_same s).ge.trans (b.years_le_of_later_end s h)

end Basis

/-! ## Interrupted counts -/

/-- Days that a count in months of thirty days from `r` to `t` gains when it is interrupted on `s`. A
count that ends on a 31st has a day more than one that ends on the 30th, unless it started on the 30th
or 31st. So an interruption on a 31st may gain a day, which the count that goes on from there does not
give back; and an end on a 31st may gain or lose one, as it is `s` now and not `r` from which it is
counted. -/
def thirtyDrift (r s t : Date) : ℤ :=
  (if s.day = 31 ∧ r.day < 30 then 1 else 0) +
    if t.day = 31 then (if 30 ≤ r.day then 1 else 0) - (if 30 ≤ s.day then 1 else 0) else 0

theorem thirtyDays_add (r s t : Date) :
    thirtyDays r s + thirtyDays s t = thirtyDays r t + thirtyDrift r s t := by
  have hs := s.day_le
  simp only [thirtyDays_eq, thirtyDrift]
  -- Years and months cancel; what is left depends on which of the three days are the 30th or 31st.
  split_ifs <;> omega

theorem thirtyDrift_mem (r s t : Date) :
    thirtyDrift r s t = -1 ∨ thirtyDrift r s t = 0 ∨ thirtyDrift r s t = 1 := by
  unfold thirtyDrift
  split_ifs <;> omega

/-- A day is lost only at the end of a month that is interrupted on its 30th. -/
theorem days_of_thirtyDrift_neg {r s t : Date} (h : thirtyDrift r s t < 0) :
    r.day < 30 ∧ s.day = 30 ∧ t.day = 31 := by
  have hs := s.day_le
  unfold thirtyDrift at h
  split_ifs at h <;> omega

/-- Days that a count gains when it is interrupted. Elapsed time gains none. -/
def Basis.drift : Basis → DateTime → DateTime → DateTime → ℤ
  | .thirty360, r, s, t => thirtyDrift r.date s.date t.date
  | _, _, _, _ => 0

theorem Basis.drift_of_isActual {b : Basis} (hb : b.IsActual) (r s t : DateTime) :
    b.drift r s t = 0 := by
  cases b with
  | thirty360 => exact absurd rfl hb
  | _ => rfl

/-- Year fractions add up but for the days that the count gains. -/
theorem Basis.years_add_years (b : Basis) (r s t : DateTime) :
    b.years r s + b.years s t = b.years r t + b.drift r s t / b.yearLength := by
  by_cases hb : b.IsActual
  · rw [years_add hb, drift_of_isActual hb, Int.cast_zero, zero_div, add_zero]
  · obtain rfl := eq_of_not_isActual hb
    have hdays : (thirtyDays r.date s.date : ℝ) + thirtyDays s.date t.date =
        thirtyDays r.date t.date + thirtyDrift r.date s.date t.date := by
      exact_mod_cast thirtyDays_add r.date s.date t.date
    simp only [years, days, drift, ← add_div, hdays]

theorem Basis.drift_mem (b : Basis) (r s t : DateTime) :
    b.drift r s t = -1 ∨ b.drift r s t = 0 ∨ b.drift r s t = 1 := by
  cases b with
  | thirty360 => exact thirtyDrift_mem _ _ _
  | _ => exact .inr (.inl rfl)

/-- An end on the 31st of a month, after an interruption on the 30th. Months of thirty days have that
last day if they are counted from an earlier day of a month, but not if they are counted from the
30th. -/
structure Basis.LosesLastDay (b : Basis) (r s t : DateTime) : Prop where
  basis : b = .thirty360
  start : r.date.day < 30
  stop : s.date.day = 30
  finish : t.date.day = 31
  year : s.date.year = t.date.year
  month : s.date.month = t.date.month

/-- When no day is left after an interruption, it was at the end, or the last day of a month is lost. -/
theorem Basis.years_eq_or_losesLastDay {b : Basis} {r s t : DateTime}
    (hstop : b.years r s ≤ b.years r t) (hleft : b.years s t ≤ 0) :
    b.years r s = b.years r t ∨ b.LosesLastDay r s t := by
  have hsum := b.years_add_years r s t
  by_cases hb : b.IsActual
  · rw [drift_of_isActual hb, Int.cast_zero, zero_div, add_zero] at hsum
    exact .inl (by linarith)
  · obtain rfl := eq_of_not_isActual hb
    simp only [years, days, div_le_div_iff_of_pos_right (yearLength_pos _)] at hstop
    simp only [years, days, div_le_iff₀ (yearLength_pos _), zero_mul, Int.cast_nonpos] at hleft
    rw [Int.cast_le] at hstop
    by_cases hequal : thirtyDays r.date s.date = thirtyDays r.date t.date
    · exact .inl (by simp only [years, days, hequal])
    · have hadd := thirtyDays_add r.date s.date t.date
      have hmem := thirtyDrift_mem r.date s.date t.date
      obtain ⟨hrday, hsday, htday⟩ := days_of_thirtyDrift_neg (r := r.date) (s := s.date) (t := t.date)
        (by omega)
      have hnone : thirtyDays s.date t.date = 0 := by omega
      have hmonths := And.intro s.date.month_range t.date.month_range
      rw [thirtyDays_eq, hsday, htday, if_pos ⟨rfl, le_rfl⟩, min_self, Nat.cast_ofNat, sub_self,
        add_zero] at hnone
      exact .inr ⟨rfl, hrday, hsday, htday, by omega, by omega⟩

end DayCount

end OptionDesk
