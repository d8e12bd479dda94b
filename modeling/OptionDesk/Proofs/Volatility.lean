import OptionDesk.Proofs.DayCount
import OptionDesk.Proofs.Views
import OptionDesk.Proofs.Volatility.Quotes
import OptionDesk.Volatility.Build
import OptionDesk.Volatility.Variance
import Mathlib.Data.Set.List

/-!
# Real volatilities

A volatility structure is real when it is built from real numbers: a real constant, or at least one
quote with real strike, expiry and volatility. Whatever such a structure answers to a real strike is
then real too, through all interpolation methods and any number of views: corners of a triangle that
is not flat enclose an area to divide by, and a view takes differences only.
-/
namespace OptionDesk

open Exact

def Quote.IsReal (q : Quote Exact) : Prop :=
  ∃ k e v : ℝ, q = ⟨real k, real e, real v⟩

namespace Scattered

theorem mem_of_mem_pairs {β : Type} {xs : List β} {p : β × β} (h : p ∈ pairs xs) :
    p.1 ∈ xs ∧ p.2 ∈ xs := by
  induction xs with
  | nil => cases h
  | cons x rest ih =>
    obtain hfirst | hrest := List.mem_append.mp h
    · obtain ⟨y, hy, rfl⟩ := List.mem_map.mp hfirst
      exact ⟨List.mem_cons_self, List.mem_cons_of_mem x hy⟩
    · exact ⟨List.mem_cons_of_mem x (ih hrest).1, List.mem_cons_of_mem x (ih hrest).2⟩

/-- The corners of a triangle are quotes. -/
theorem corners_mem {α : Type} {quotes : List (Quote α)} {t : Triangle α} (h : t ∈ triples quotes) :
    t.a ∈ quotes ∧ t.b ∈ quotes ∧ t.c ∈ quotes := by
  induction quotes with
  | nil => cases h
  | cons q rest ih =>
    obtain hfirst | hrest := List.mem_append.mp h
    · obtain ⟨p, hp, rfl⟩ := List.mem_map.mp hfirst
      obtain ⟨h1, h2⟩ := mem_of_mem_pairs hp
      exact ⟨List.mem_cons_self, List.mem_cons_of_mem q h1, List.mem_cons_of_mem q h2⟩
    · obtain ⟨ha, hb, hcorner⟩ := ih hrest
      exact ⟨List.mem_cons_of_mem q ha, List.mem_cons_of_mem q hb, List.mem_cons_of_mem q hcorner⟩

theorem area_real (x₁ y₁ x₂ y₂ x₃ y₃ : ℝ) :
    area (real x₁) (real y₁) (real x₂) (real y₂) (real x₃) (real y₃) =
      real ((x₂ - x₁) * (y₃ - y₁) - (y₂ - y₁) * (x₃ - x₁)) := by
  simp only [area, real_sub, real_mul]

/-- A triangle without area is flat. -/
theorem Triangle.flat_of_area_eq_zero {x₁ y₁ v₁ x₂ y₂ v₂ x₃ y₃ v₃ : ℝ}
    (h : (x₂ - x₁) * (y₃ - y₁) - (y₂ - y₁) * (x₃ - x₁) = 0) :
    (⟨⟨real x₁, real y₁, real v₁⟩, ⟨real x₂, real y₂, real v₂⟩, ⟨real x₃, real y₃, real v₃⟩⟩ :
      Triangle Exact).flat = true := by
  simp only [flat, real_sub, real_mul, real_abs, real_add, ofScientific_eq, real_le,
    decide_eq_true_eq, h, abs_zero]
  positivity

theorem volatility?_real {quotes : List (Quote Exact)} (hquotes : ∀ q ∈ quotes, q.IsReal)
    {t : Triangle Exact} (ht : t ∈ triangulation quotes) {k e : ℝ} {v : Exact}
    (h : t.volatility? (real k) (real e) = some v) : ∃ r : ℝ, v = real r := by
  obtain ⟨htriple, hkept⟩ := List.mem_filter.mp ht
  obtain ⟨ha, hb, hcorner⟩ := corners_mem htriple
  obtain ⟨x₁, y₁, v₁, ha⟩ := hquotes _ ha
  obtain ⟨x₂, y₂, v₂, hb⟩ := hquotes _ hb
  obtain ⟨x₃, y₃, v₃, hcorner⟩ := hquotes _ hcorner
  obtain ⟨a, b, c⟩ := t
  subst ha hb hcorner
  have harea : (x₂ - x₁) * (y₃ - y₁) - (y₂ - y₁) * (x₃ - x₁) ≠ 0 := by
    intro hzero
    rw [Triangle.flat_of_area_eq_zero hzero] at hkept
    cases hkept
  simp only [Triangle.volatility?, Triangle.weights, Triangle.signedArea, area_real,
    real_div _ harea] at h
  split at h
  · simp only [real_mul, real_add, Option.some.injEq] at h
    exact ⟨_, h.symm⟩
  · cases h

theorem linear_real {quotes : List (Quote Exact)} (hquotes : ∀ q ∈ quotes, q.IsReal) {k e : ℝ}
    {v : Exact} (h : linear quotes (real k) (real e) = .ok (some v)) : ∃ r : ℝ, v = real r := by
  rw [linear] at h
  split at h
  · cases h
  · obtain ⟨t, ht, hv⟩ := List.exists_of_findSome?_eq_some (Except.ok.inj h)
    exact volatility?_real hquotes ht hv

theorem mem_of_closest {α : Type} [Scalar α] {k e : α} {quotes : List (Quote α)} {q : Quote α}
    (h : closest k e quotes = some q) : q ∈ quotes := by
  cases quotes with
  | nil => cases h
  | cons first rest =>
    rw [closest, Option.some.injEq] at h
    -- The fold holds the best quote so far, which is the first or one of those already seen.
    have hfold : ∀ (rest : List (Quote α)) (best : Quote α),
        rest.foldl (fun best r => if distance k e r < distance k e best then r else best) best ∈
          best :: rest := by
      intro rest
      induction rest with
      | nil => exact fun best => List.mem_cons_self
      | cons r rest ih =>
        intro best
        rw [List.foldl_cons]
        split
        · exact List.mem_cons_of_mem best (ih r)
        · obtain heq | hmem := List.mem_cons.mp (ih best)
          · rw [heq]
            exact List.mem_cons_self
          · exact List.mem_cons_of_mem best (List.mem_cons_of_mem r hmem)
    rw [← h]
    exact hfold rest first

theorem nearest_real {quotes : List (Quote Exact)} (hquotes : ∀ q ∈ quotes, q.IsReal) {k e v : Exact}
    (h : nearest quotes k e = .ok (some v)) : ∃ r : ℝ, v = real r := by
  rw [nearest] at h
  split at h
  · cases h
  · obtain ⟨q, hq, rfl⟩ := Option.map_eq_some_iff.mp (Except.ok.inj h)
    obtain ⟨_, _, r, rfl⟩ := hquotes q (mem_of_closest hq)
    exact ⟨r, rfl⟩

theorem smooth_real {quotes : List (Quote Exact)} (hquotes : ∀ q ∈ quotes, q.IsReal) {k e : ℝ}
    {v : Exact} (h : smooth quotes (real k) (real e) = .ok (some v)) : ∃ r : ℝ, v = real r := by
  rw [smooth] at h
  split at h
  · cases h
  · next w hw =>
    split at h
    · next q hq =>
      obtain ⟨_, _, r, hr⟩ := hquotes q (List.mem_of_find?_eq_some hq)
      rw [hr] at h
      cases h
      exact ⟨r, rfl⟩
    · cases h
      exact linear_real hquotes hw

theorem rule_real {quotes : List (Quote Exact)} (hquotes : ∀ q ∈ quotes, q.IsReal)
    (method : SurfaceMethod) {k e : ℝ} {v : Exact}
    (h : rule method quotes (real k) (real e) = .ok (some v)) : ∃ r : ℝ, v = real r := by
  cases method with
  | unknown name => cases h
  | nearest =>
    simp only [rule] at h
    split at h
    · exact nearest_real hquotes h
    · cases h
  | linear =>
    simp only [rule, reduceCtorEq, if_false] at h
    split at h
    · cases h
    · split at h
      · cases h
      · exact linear_real hquotes h
  | cubic =>
    simp only [rule, if_true] at h
    split at h
    · cases h
    · split at h
      · cases h
      · exact smooth_real hquotes h

end Scattered

/-- Asked at real numbers, a rule finds a real volatility if any. -/
def ScatteredRule.IsReal (rule : ScatteredRule Exact) (quotes : List (Quote Exact)) : Prop :=
  ∀ (k e : ℝ) (v : Exact), rule quotes (real k) (real e) = .ok (some v) → Scalar.isNaN v = false →
    ∃ r : ℝ, v = real r

namespace Surface

/-- At least one quote, only real ones, and a rule that stays among real numbers. -/
structure IsReal (s : Surface Exact) : Prop where
  quotes_ne_nil : s.quotes ≠ []
  quotes : ∀ q ∈ s.quotes, q.IsReal
  rule : s.rule.IsReal s.quotes

/-- The rules that are in use stay among real numbers. -/
theorem isReal_of_rules {s : Surface Exact} (hne : s.quotes ≠ []) (hquotes : ∀ q ∈ s.quotes, q.IsReal)
    (hrules : s.rules = Scattered.rule) : s.IsReal := by
  refine ⟨hne, hquotes, fun k e v hv _ => ?_⟩
  rw [rule, hrules] at hv
  exact Scattered.rule_real hquotes s.method hv

theorem interpolate_sortedPoints_real {points : List (Point Exact)}
    (hpoints : ∀ p ∈ points, p.IsReal) (hne : points ≠ []) (x : ℝ) :
    ∃ y : ℝ, Point.interpolate (sortedPoints points) (real x) = real y := by
  refine Point.interpolate_isReal (fun p hp => hpoints p (List.mem_mergeSort.mp hp)) ?_ x
  have hlength : (sortedPoints points).length = points.length := List.length_mergeSort _
  intro hnil
  have hzero : (sortedPoints points).length = 0 := congrArg List.length hnil
  exact hne (List.eq_nil_of_length_eq_zero (hlength.symm.trans hzero))

variable {s : Surface Exact}

theorem exists_quotes (hne : s.quotes ≠ []) (hquotes : ∀ q ∈ s.quotes, q.IsReal) :
    ∃ quotes : List (Quote ℝ), quotes ≠ [] ∧ s.quotes = quotes.map Quote.exact := by
  have hrange : s.quotes ∈ Set.range (List.map Quote.exact) := by
    rw [Set.range_list_map]
    intro q hq
    obtain ⟨k, e, v, rfl⟩ := hquotes q hq
    exact ⟨⟨k, e, v⟩, rfl⟩
  obtain ⟨quotes, hquotes⟩ := hrange
  refine ⟨quotes, fun hnil => hne ?_, hquotes.symm⟩
  rw [← hquotes, hnil, List.map_nil]

theorem clamped_real (hne : s.quotes ≠ []) (hquotes : ∀ q ∈ s.quotes, q.IsReal) (k e : ℝ) :
    ∃ k' e' : ℝ, s.clamped (real k) (real e) = (real k', real e') := by
  obtain ⟨quotes, hne, hquotes⟩ := exists_quotes hne hquotes
  exact ⟨_, _, clamped_exact hquotes hne k e⟩

variable (hs : s.IsReal)

include hs

/-- A line through quotes along one axis is real. -/
theorem axis_real {point : Quote Exact → Point Exact}
    (hpoint : ∀ q, q.IsReal → (point q).IsReal) (x : ℝ) :
    ∃ y : ℝ, Point.interpolate (sortedPoints (s.quotes.map point)) (real x) = real y := by
  refine interpolate_sortedPoints_real (fun p hp => ?_) (by simpa using hs.quotes_ne_nil) x
  obtain ⟨q, hq, rfl⟩ := List.mem_map.mp hp
  exact hpoint q (hs.quotes q hq)

theorem volatilityWith_real (k e : ℝ) {v : Exact}
    (h : volatilityWith s.rule s (real k) (real e) = .ok (some v)) : ∃ r : ℝ, v = real r := by
  rw [volatilityWith] at h
  split at h
  · obtain ⟨y, hy⟩ : ∃ y : ℝ, Point.interpolate
        (sortedPoints (s.quotes.map fun q => ⟨q.expiry, q.volatility⟩)) (real e) = real y :=
      axis_real hs (by rintro _ ⟨_, x, y, rfl⟩; exact ⟨x, y, rfl⟩) e
    rw [hy] at h
    cases h
    exact ⟨y, rfl⟩
  · split at h
    · obtain ⟨y, hy⟩ : ∃ y : ℝ, Point.interpolate
          (sortedPoints (s.quotes.map fun q => ⟨q.strike, q.volatility⟩)) (real k) = real y :=
        axis_real hs (by rintro _ ⟨x, _, y, rfl⟩; exact ⟨x, y, rfl⟩) k
      rw [hy] at h
      cases h
      exact ⟨y, rfl⟩
    · cases hrule : s.rule s.quotes (real k) (real e) with
      | error m =>
        rw [hrule] at h
        cases h
      | ok u =>
        rw [hrule] at h
        obtain ⟨hu, hdefined⟩ := Option.filter_eq_some_iff.mp (Except.ok.inj h)
        rw [hu] at hrule
        exact hs.rule k e v hrule (by simpa using hdefined)

theorem query_real (k e : ℝ) {v : Exact}
    (h : (s.query (.number (real k)) (.number (real e))).result = .ok v) : ∃ r : ℝ, v = real r := by
  obtain ⟨k', e', hclamped⟩ := clamped_real hs.quotes_ne_nil hs.quotes k e
  simp only [query, queryWith, Value.operand_number, Outcome.ofMisuse_ok, pure_bind, hclamped] at h
  obtain ⟨w, hw, h⟩ := Outcome.result_bind_eq_ok.mp h
  cases hrule : volatilityWith s.rule s (real k') (real e') with
  | error m =>
    rw [hrule] at hw
    cases hw
  | ok u =>
    rw [hrule] at hw
    cases hw
    cases w with
    | none => cases h
    | some w =>
      cases h
      exact volatilityWith_real hs k' e' hrule

end Surface

namespace Volatility

/-- A volatility structure is real when the one under its views is. -/
def IsReal : Volatility Exact → Prop
  | constant _ level _ => ∃ r : ℝ, level = real r
  | surface s => s.IsReal
  | implied base _ => base.IsReal

/-- All that a view does: it asks its base at two times, and what it answers is a difference that it does
not refuse, cut at zero. -/
theorem varianceAt_implied_eq_ok {α : Type} [Scalar α] {base : Volatility α} {r : DateTime}
    {moment strike : Value α} {w : α} :
    ((implied base r).varianceAt moment strike).result = .ok w ↔ ∃ a t far near,
      (base.anchorTo r).result = .ok a ∧ ((implied base r).timeTo moment).result = .ok t ∧
      (base.varianceAt (.number (a + t)) strike).result = .ok far ∧
      (base.varianceAt (.number a) strike).result = .ok near ∧
      ¬far - near < -1e-14 ∧ max (far - near) 0 = w := by
  simp only [varianceAt, Outcome.result_bind_eq_ok, Outcome.result_require_eq_ok, Outcome.result_pure,
    Except.ok.injEq]
  constructor
  · rintro ⟨a, ha, t, ht, far, hfar, near, hnear, _, hkept, hw⟩
    exact ⟨a, t, far, near, ha, ht, hfar, hnear, hkept, hw⟩
  · rintro ⟨a, t, far, near, ha, ht, hfar, hnear, hkept, hw⟩
    exact ⟨a, ha, t, ht, far, hfar, near, hnear, (), hkept, hw⟩

/-- Real structures have real variances. -/
theorem varianceAt_real {v : Volatility Exact} (hv : v.IsReal) {moment : Value Exact}
    (hmoment : moment.IsMoment) (k : ℝ) {w : Exact}
    (h : (v.varianceAt moment (.number (real k))).result = .ok w) : ∃ r : ℝ, w = real r := by
  induction v generalizing moment w with
  | constant reference level dayCount =>
    obtain ⟨r, rfl⟩ := hv
    obtain ⟨t, ht, h⟩ := Outcome.result_bind_eq_ok.mp h
    obtain ⟨x, rfl⟩ := DayCount.timeFrom_real hmoment ht
    cases h
    exact ⟨_, rfl⟩
  | surface s =>
    obtain ⟨t, ht, h⟩ := Outcome.result_bind_eq_ok.mp h
    obtain ⟨x, rfl⟩ := DayCount.timeFrom_real hmoment ht
    obtain ⟨u, hu, h⟩ := Outcome.result_bind_eq_ok.mp h
    obtain ⟨y, rfl⟩ := s.query_real hv k x hu
    cases h
    exact ⟨_, rfl⟩
  | implied base r ih =>
    obtain ⟨a, t, far, near, ha, ht, hfar, hnear, -, h⟩ := varianceAt_implied_eq_ok.mp h
    obtain ⟨A, rfl⟩ := DayCount.yearFraction_real ha
    obtain ⟨x, rfl⟩ := DayCount.timeFrom_real hmoment ht
    obtain ⟨y, rfl⟩ := ih hv (Value.isMoment_number (A + x)) hfar
    obtain ⟨z, rfl⟩ := ih hv (Value.isMoment_number A) hnear
    rw [real_sub, zero_eq, real_max] at h
    exact ⟨_, h.symm⟩

/-! ## Forward variances -/

theorem result_impliedAt {α : Type} {v w : Volatility α} {r : DateTime} :
    (v.impliedAt (.dateTime r)).result = .ok w ↔
      r.before v.reference = false ∧ w = implied v r :=
  Value.result_view (fun d => d.before v.reference) _ (implied v)

section Supported

variable {v : Volatility Exact} {b : DayCount.Basis} (hb : v.dayCount = .basis b)

include hb

theorem anchorTo_eq (r : DateTime) : v.anchorTo r = pure (real (b.years v.reference r)) := by
  rw [anchorTo, yearFraction, hb, DayCount.Basis.yearFraction_dates]

theorem timeTo_dateTime (d : DateTime) :
    v.timeTo (.dateTime d) = pure (real (b.years v.reference d)) := by
  rw [timeTo, hb]
  exact DayCount.Basis.yearFraction_dates b v.reference d

/-- A date matters to a structure only through the time to it. -/
theorem varianceAt_dateTime (d : DateTime) (strike : Value Exact) :
    v.varianceAt (.dateTime d) strike =
      v.varianceAt (.number (real (b.years v.reference d))) strike := by
  have htime := timeTo_dateTime hb d
  have hnumber (t : Exact) : v.timeTo (.number t) = pure t := rfl
  cases v with
  | constant reference level dayCount => rw [varianceAt, varianceAt, htime, hnumber]
  | surface s => rw [varianceAt, varianceAt, htime, hnumber]
  | implied base r => rw [varianceAt, varianceAt, htime, hnumber]

/-- A difference that is negative by more than rounding is refused, and any other one is cut at zero. -/
theorem result_varianceAt_implied {r : DateTime} {x : ℝ} {strike : Value Exact} {far near : ℝ}
    (hfar : (v.varianceAt (.number (real (b.years v.reference r + x))) strike).result =
      .ok (real far))
    (hnear : (v.varianceAt (.number (real (b.years v.reference r))) strike).result =
      .ok (real near)) :
    ((implied v r).varianceAt (.number (real x)) strike).result =
      if far - near < -1e-14 then
        .error (.volatility (.negativeForwardVariance (real (far - near)) (real x) strike))
      else .ok (real (max (far - near) 0)) := by
  have htime : (implied v r).timeTo (.number (real x)) = pure (real x) := rfl
  have hlimit : real (far - near) < (-1e-14 : Exact) ↔ far - near < -1e-14 := by
    rw [ofScientific_eq, real_neg, real_lt]
  rw [varianceAt, anchorTo_eq hb, htime, pure_bind, pure_bind, real_add,
    Outcome.result_bind_of_ok hfar, Outcome.result_bind_of_ok hnear]
  simp only [real_sub, zero_eq, real_max]
  by_cases hnegative : far - near < -1e-14
  · rw [Outcome.require_of_not (not_not_intro (hlimit.mpr hnegative)), if_pos hnegative]
    rfl
  · rw [Outcome.require_of (mt hlimit.mp hnegative), if_neg hnegative]
    rfl

/-- Variance that does not decrease is passed on as the difference. -/
theorem varianceAt_implied_time {r : DateTime} {x : ℝ} {strike : Value Exact} {far near : ℝ}
    (h : near ≤ far)
    (hfar : (v.varianceAt (.number (real (b.years v.reference r + x))) strike).result =
      .ok (real far))
    (hnear : (v.varianceAt (.number (real (b.years v.reference r))) strike).result =
      .ok (real near)) :
    ((implied v r).varianceAt (.number (real x)) strike).result = .ok (real (far - near)) := by
  have hdifference : 0 ≤ far - near := sub_nonneg.mpr h
  have hpositive : ¬far - near < -1e-14 := not_lt.mpr (le_trans (by norm_num) hdifference)
  rw [result_varianceAt_implied hb hfar hnear, if_neg hpositive, max_eq_left hdifference]

theorem varianceAt_implied {r d : DateTime} {strike : Value Exact} {far near : ℝ} (h : near ≤ far)
    (hfar : (v.varianceAt (.number (real (b.years v.reference r + b.years r d))) strike).result =
      .ok (real far))
    (hnear : (v.varianceAt (.number (real (b.years v.reference r))) strike).result =
      .ok (real near)) :
    ((implied v r).varianceAt (.dateTime d) strike).result = .ok (real (far - near)) := by
  have hview : (implied v r).dayCount = .basis b := hb
  rw [varianceAt_dateTime hview]
  exact varianceAt_implied_time hb h hfar hnear

end Supported

theorem total_zero {level : Exact} {w : ℝ} (h : total level (real 0) = real w) : w = 0 := by
  rw [total] at h
  obtain hzero | hundefined := mul_zero_eq (level * level)
  · rw [hzero, real.injEq] at h
    exact h.symm
  · rw [hundefined] at h
    cases h

/-- A real variance at time zero is zero. -/
theorem varianceAt_zero {v : Volatility Exact} {strike : Value Exact} {w : ℝ}
    (h : (v.varianceAt (.number (real 0)) strike).result = .ok (real w)) : w = 0 := by
  cases v with
  | constant reference level dayCount => exact total_zero (Except.ok.inj h)
  | surface s =>
    obtain ⟨t, ht, h⟩ := Outcome.result_bind_eq_ok.mp h
    cases ht
    obtain ⟨u, -, h⟩ := Outcome.result_bind_eq_ok.mp h
    exact total_zero (Except.ok.inj h)
  | implied base r =>
    obtain ⟨a, t, far, near, ha, ht, hfar, hnear, -, h⟩ := varianceAt_implied_eq_ok.mp h
    obtain ⟨A, rfl⟩ := DayCount.yearFraction_real ha
    cases ht
    rw [real_add, add_zero] at hfar
    cases hfar.symm.trans hnear
    obtain hzero | hundefined := sub_self_eq far
    · rw [hzero, zero_eq, real_max, max_self] at h
      exact (real.inj h).symm
    · rw [hundefined, zero_eq, max_undefined] at h
      cases h

end Volatility

end OptionDesk
