import OptionDesk.Proofs.Calendar
import OptionDesk.Proofs.Interpolation.TotalVariance
import OptionDesk.Proofs.Volatility
import OptionDesk.Proofs.Volatility.Quotes

/-!
# Forward variance of quoted term structures

Quotes at one strike are free of calendar arbitrage if their total variances do not fall from one expiry to
the next. A surface interpolates their volatilities, not their total variances, and between two expiries the
total variance may rise above the later one. A view from there subtracts it and finds a negative forward
variance at that expiry, which it refuses. This is all that can go wrong: if the variance at the reference
date of a view is not above that of a later quote, the view answers at all times.
-/
namespace OptionDesk

open Exact

namespace Quote

/-- Quotes at one strike and at different positive expiries, whose total variances do not fall in time. -/
structure FreeOfArbitrage (quotes : List (Quote ℝ)) : Prop where
  ne_nil : quotes ≠ []
  one_strike : ∀ q ∈ quotes, ∀ r ∈ quotes, q.strike = r.strike
  distinct : (quotes.map expiry).Nodup
  rises : Point.RisesInTotal (quotes.map overExpiry)

variable {quotes : List (Quote ℝ)}

/-- The volatility over time that the quotes stand for. -/
noncomputable def curve (quotes : List (Quote ℝ)) : ℝ → ℝ := Point.height (quotes.map overExpiry)

theorem FreeOfArbitrage.joins (h : FreeOfArbitrage quotes) :
    Point.Joins (quotes.map overExpiry) (curve quotes) :=
  Point.joins_height (by simpa using h.ne_nil) (by rw [List.map_map]; exact h.distinct)

end Quote

namespace Volatility

open Quote

/-- The structure has a variance that is not negative at all times from its reference date on, at every
strike. -/
def HasVariances (v : Volatility Exact) : Prop :=
  ∀ x : ℝ, 0 ≤ x → ∀ k : ℝ, ∃ w : ℝ, 0 ≤ w ∧
    (v.varianceAt (.number (real x)) (.number (real k))).result = .ok (real w)

section View

variable {quotes : List (Quote ℝ)} (h : FreeOfArbitrage quotes) {s : Surface Exact}
  (hs : s.quotes = quotes.map exact)

include h hs

theorem varianceAt_surface (x k : ℝ) :
    ((surface s).varianceAt (.number (real x)) (.number (real k))).result =
      .ok (real (Point.total (curve quotes) x)) := by
  have htime : (surface s).timeTo (.number (real x)) = pure (real x) := rfl
  have hquery : (s.query (.number (real k)) (.number (real x))).result = .ok (real (curve quotes x)) :=
    Surface.query_of_strikes h.ne_nil hs s.rule h.one_strike h.distinct k x
  rw [varianceAt, htime, pure_bind, Outcome.result_bind_of_ok hquery]
  simp only [total, real_mul, Outcome.result_pure, Point.total, sq]

variable {b : DayCount.Basis} (hb : s.dayCount = .basis b) (r : DateTime)

include hb

theorem varianceAt_view (x k : ℝ) :
    let a := b.years s.reference r
    let d := Point.total (curve quotes) (a + x) - Point.total (curve quotes) a
    ((implied (surface s) r).varianceAt (.number (real x)) (.number (real k))).result =
      if d < -1e-14 then
        .error (.volatility (.negativeForwardVariance (real d) (real x) (.number (real k))))
      else .ok (real (max d 0)) :=
  result_varianceAt_implied (v := surface s) hb (varianceAt_surface h hs _ k) (varianceAt_surface h hs _ k)

/-- A view answers everywhere exactly if no later quote has less total variance than there is at its
reference date. -/
theorem hasVariances_iff : HasVariances (implied (surface s) r) ↔
    Point.StaysBelow (quotes.map overExpiry) (curve quotes) 1e-14 (b.years s.reference r) := by
  have hpoints : quotes.map overExpiry ≠ [] := by simpa using h.ne_nil
  rw [Point.staysBelow_iff hpoints h.joins h.rises (by norm_num)]
  constructor
  · intro hview y hay
    obtain ⟨w, -, hw⟩ := hview (y - b.years s.reference r) (sub_nonneg.mpr hay) 0
    rw [varianceAt_view h hs hb r, add_sub_cancel] at hw
    by_contra hbelow
    rw [if_pos (by linarith)] at hw
    cases hw
  · intro hall x hx k
    have hle := hall (b.years s.reference r + x) (le_add_of_nonneg_right hx)
    refine ⟨_, le_max_right _ 0, (varianceAt_view h hs hb r x k).trans (if_neg ?_)⟩
    linarith

/-- At a later quote of less total variance the view refuses. -/
theorem refused_at_quote {q : Quote ℝ} (hq : q ∈ quotes)
    (hless : q.volatility ^ 2 * q.expiry + 1e-14 < Point.total (curve quotes) (b.years s.reference r))
    (k : ℝ) :
    ((implied (surface s) r).varianceAt (.number (real (q.expiry - b.years s.reference r)))
        (.number (real k))).result =
      .error (.volatility (.negativeForwardVariance
        (real (q.volatility ^ 2 * q.expiry - Point.total (curve quotes) (b.years s.reference r)))
        (real (q.expiry - b.years s.reference r)) (.number (real k)))) := by
  have hlevel : curve quotes q.expiry = q.volatility :=
    h.joins.through q.overExpiry (List.mem_map_of_mem hq)
  have hfar : Point.total (curve quotes) q.expiry = q.volatility ^ 2 * q.expiry := by
    rw [Point.total, hlevel]
  have hview := varianceAt_view h hs hb r (q.expiry - b.years s.reference r) k
  simp only [add_sub_cancel, hfar] at hview
  rw [hview, if_pos (by linarith)]

end View

/-- A view of quotes free of arbitrage, from the time `a` on. It can be made at every date that is not before
the reference date of the quotes, and it has variances that are not negative at all times and strikes exactly
if the total variance at `a` is not above that of any later quote, by more than what is taken for rounding;
where it is above, the view refuses at the expiry of the quote. If `a` is not between two neighbouring
expiries it is never above, nor is it where the volatility between them does not fall too steeply. -/
theorem forward_variances_of_quotes {quotes : List (Quote ℝ)} (h : FreeOfArbitrage quotes)
    {s : Surface Exact} (hs : s.quotes = quotes.map exact) {b : DayCount.Basis}
    (hb : s.dayCount = .basis b) {r : DateTime} (hr : r.before s.reference = false) :
    ∃ (v : Volatility Exact) (f : ℝ → ℝ) (a : ℝ),
      ((surface s).impliedAt (.dateTime r)).result = .ok v ∧ Point.Joins (quotes.map overExpiry) f ∧
      v.anchor.result = .ok (real a) ∧ 0 ≤ a ∧
      (v.HasVariances ↔ ∀ q ∈ quotes, a ≤ q.expiry →
        f a ^ 2 * a ≤ q.volatility ^ 2 * q.expiry + 1e-14) ∧
      (∀ q ∈ quotes, q.volatility ^ 2 * q.expiry + 1e-14 < f a ^ 2 * a → ∀ k : ℝ,
        (v.varianceAt (.number (real (q.expiry - a))) (.number (real k))).result =
          .error (.volatility (.negativeForwardVariance
            (real (q.volatility ^ 2 * q.expiry - f a ^ 2 * a)) (real (q.expiry - a))
            (.number (real k))))) ∧
      ((∀ p q, Point.Neighbours (quotes.map overExpiry) p q → p.x < a → a < q.x →
        2 * (p.y - q.y) * q.x ≤ q.y * (q.x - p.x)) → v.HasVariances) := by
  have hanchor : (implied (surface s) r).anchor = pure (real (b.years s.reference r)) :=
    anchorTo_eq (v := surface s) hb r
  have hpoints : quotes.map overExpiry ≠ [] := by simpa using h.ne_nil
  have hquotes : Point.StaysBelow (quotes.map overExpiry) (curve quotes) 1e-14 (b.years s.reference r) ↔
      ∀ q ∈ quotes, b.years s.reference r ≤ q.expiry → curve quotes (b.years s.reference r) ^ 2 *
        b.years s.reference r ≤ q.volatility ^ 2 * q.expiry + 1e-14 :=
    List.forall_mem_map
  refine ⟨implied (surface s) r, curve quotes, b.years s.reference r, result_impliedAt.mpr ⟨hr, rfl⟩, h.joins,
    congrArg Outcome.result hanchor, b.years_nonneg hr, (hasVariances_iff h hs hb r).trans hquotes,
    fun q hq hless k => refused_at_quote h hs hb r hq hless k, fun hslope => ?_⟩
  exact (hasVariances_iff h hs hb r).mpr
    (Point.staysBelow_of_neighbours hpoints h.joins h.rises (by norm_num) hslope)

/-- Rising volatilities, seen from between their two expiries. -/
theorem forward_variances_of_rising_volatilities :
    let start := Value.midnight ⟨2025, 1, 1, by decide, by decide, by decide⟩
    let between := Value.midnight ⟨2026, 7, 1, by decide, by decide, by decide⟩
    let quotes : List (Quote ℝ) := [⟨100, 1, 0.2⟩, ⟨100, 2, 0.25⟩]
    let s : Surface Exact := ⟨start, quotes.map exact, .linear, .standard, Scattered.rule⟩
    FreeOfArbitrage quotes ∧
      ∃ v, ((surface s).impliedAt (.dateTime between)).result = .ok v ∧ v.HasVariances := by
  intro start between quotes s
  have hrises : Point.RisesInTotal (quotes.map overExpiry) := by
    refine ⟨?_, ?_, ?_⟩
    all_goals norm_num [quotes, overExpiry]
  have hquotes : FreeOfArbitrage quotes :=
    ⟨List.cons_ne_nil _ _, by simp [quotes], by norm_num [quotes], hrises⟩
  have hlater : between.before start = false := by decide
  obtain ⟨v, f, a, hview, -, -, -, -, -, henough⟩ :=
    forward_variances_of_quotes hquotes (s := s) rfl rfl hlater
  refine ⟨hquotes, v, hview, henough fun p q hpq _ _ => ?_⟩
  have hlevel : p.y ≤ q.y := by
    have hleft := hpq.left
    have hright := hpq.right
    have hbefore := hpq.before
    simp only [quotes, List.map_cons, List.map_nil, List.mem_cons, List.not_mem_nil, or_false]
      at hleft hright
    obtain rfl | rfl := hleft
    · obtain rfl | rfl := hright
      · exact le_rfl
      · norm_num [overExpiry]
    · obtain rfl | rfl := hright
      · norm_num [overExpiry] at hbefore
      · exact le_rfl
  have hwidth : 0 ≤ q.x - p.x := sub_nonneg.mpr hpq.before.le
  have hlate := hrises.positive q hpq.right
  have hfalls : 2 * (p.y - q.y) * q.x ≤ 0 :=
    mul_nonpos_of_nonpos_of_nonneg (by linarith) hlate.le
  exact hfalls.trans (mul_nonneg (hrises.nonneg q hpq.right) hwidth)

/-- Falling volatilities of equal total variance, seen from between their two expiries: at the later one the
view finds less variance than there already was. -/
theorem equal_total_variances_imply_negative_variance :
    let start := Value.midnight ⟨2025, 1, 1, by decide, by decide, by decide⟩
    let between := Value.midnight ⟨2027, 1, 1, by decide, by decide, by decide⟩
    let quotes : List (Quote ℝ) := [⟨100, 1, 0.4⟩, ⟨100, 4, 0.2⟩]
    let s : Surface Exact := ⟨start, quotes.map exact, .linear, .standard, Scattered.rule⟩
    FreeOfArbitrage quotes ∧ ∃ v, ((surface s).impliedAt (.dateTime between)).result = .ok v ∧
      (v.varianceAt (.number (real 2)) (.number (real 100))).result =
        .error (.volatility (.negativeForwardVariance (real (-14 / 225)) (real 2) (.number (real 100)))) := by
  intro start between quotes s
  have hrises : Point.RisesInTotal (quotes.map overExpiry) := by
    refine ⟨?_, ?_, ?_⟩
    all_goals norm_num [quotes, overExpiry]
  have hquotes : FreeOfArbitrage quotes :=
    ⟨List.cons_ne_nil _ _, by simp [quotes], by norm_num [quotes], hrises⟩
  have hlater : between.before start = false := by decide
  have hview : ((surface s).impliedAt (.dateTime between)).result = .ok (implied (surface s) between) :=
    result_impliedAt.mpr ⟨hlater, rfl⟩
  have htwo : DayCount.Basis.actual365.years start between = 2 := by
    have helapsed : start.microsecondsBetween between = 730 * 86400 * 10 ^ 6 := by decide
    rw [DayCount.Basis.years, DayCount.Basis.days_of_isActual (by decide), helapsed,
      DayCount.Basis.yearLength]
    norm_num
  have hlevel : curve quotes 2 = 1 / 3 := by
    have hneighbours : Point.Neighbours (quotes.map overExpiry) ⟨1, 0.4⟩ ⟨4, 0.2⟩ := by
      refine ⟨by simp [quotes, overExpiry], by simp [quotes, overExpiry], by norm_num, ?_⟩
      simp [quotes, overExpiry]
    rw [hquotes.joins.straight _ _ hneighbours 2 (by norm_num)]
    norm_num
  have hless : (0.2 : ℝ) ^ 2 * 4 + 1e-14 < Point.total (curve quotes) 2 := by
    rw [Point.total, hlevel]
    norm_num
  rw [← htwo] at hless
  have hrefused := refused_at_quote (q := ⟨100, 4, 0.2⟩) hquotes (s := s) rfl rfl between
    (by simp [quotes]) hless 100
  have hdifference : (0.2 : ℝ) ^ 2 * 4 - Point.total (curve quotes) 2 = -14 / 225 := by
    rw [Point.total, hlevel]
    norm_num
  have hremaining : (4 : ℝ) - 2 = 2 := by norm_num
  simp only [s, htwo, hdifference, hremaining] at hrefused
  exact ⟨hquotes, _, hview, hrefused⟩

end Volatility

end OptionDesk
