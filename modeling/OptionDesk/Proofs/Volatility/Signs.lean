import OptionDesk.Proofs.Volatility.Levels

/-!
# Signs of volatilities

Volatilities are quoted without a negative sign. Interpolation along a line keeps it so, and a view takes a
root. Between scattered quotes the sign is the one that the rule of the surface answers with. The rules
that are in use keep it as well, with two exceptions. A triangle of quotes is used for points that lie
outside it by no more than rounding, where one of the weights is negative, and nothing is said of the
smooth method, which may swing below the quotes that it passes through.
-/
namespace OptionDesk

open Exact

/-- A quote in real numbers of a volatility that is not negative. -/
def Quote.IsNonneg (q : Quote Exact) : Prop :=
  ∃ k e v : ℝ, 0 ≤ v ∧ q = ⟨real k, real e, real v⟩

theorem Quote.IsNonneg.isReal {q : Quote Exact} (h : q.IsNonneg) : q.IsReal := by
  obtain ⟨k, e, v, -, rfl⟩ := h
  exact ⟨k, e, v, rfl⟩

theorem Quote.IsNonneg.volatility {q : Quote Exact} (h : q.IsNonneg) {σ : ℝ}
    (hσ : q.volatility = real σ) : 0 ≤ σ := by
  obtain ⟨k, e, v, hv, rfl⟩ := h
  obtain rfl : v = σ := real.inj hσ
  exact hv

namespace Scattered

/-- The triangle answers for a point that lies outside it. -/
def Triangle.Strays (t : Triangle Exact) (k e : Exact) : Prop :=
  (t.volatility? k e).isSome ∧
    ((t.weights k e).1 < 0 ∨ (t.weights k e).2.1 < 0 ∨ (t.weights k e).2.2 < 0)

/-- A weight that is not negative keeps the sign of a volatility. -/
theorem weighted_nonneg {weight : Exact} {q : Quote Exact} {x : ℝ} (hq : q.IsNonneg)
    (hweight : ¬weight < 0) (h : weight * q.volatility = real x) : 0 ≤ x := by
  obtain ⟨a, b, rfl, hvolatility, rfl⟩ := mul_eq_real h
  exact mul_nonneg (not_real_lt_zero.mp hweight) (hq.volatility hvolatility)

theorem Triangle.nonneg_or_strays {t : Triangle Exact} (ha : t.a.IsNonneg) (hb : t.b.IsNonneg)
    (hcorner : t.c.IsNonneg) {k e : Exact} {σ : ℝ} (h : t.volatility? k e = some (real σ)) :
    0 ≤ σ ∨ t.Strays k e := by
  obtain ⟨u, v, w, hweights⟩ : ∃ u v w, t.weights k e = (u, v, w) := ⟨_, _, _, rfl⟩
  have hanswers : (t.volatility? k e).isSome := by
    rw [h]
    rfl
  unfold Strays
  simp only [volatility?, hweights] at h ⊢
  by_cases hinside : u < 0 ∨ v < 0 ∨ w < 0
  · rw [volatility?, hweights] at hanswers
    exact .inr ⟨hanswers, hinside⟩
  · simp only [not_or] at hinside
    obtain ⟨hu, hv, hw⟩ := hinside
    split at h
    · obtain ⟨first, third, hfirst, hthird, rfl⟩ := add_eq_real (Option.some.inj h)
      obtain ⟨x, y, hx, hy, rfl⟩ := add_eq_real hfirst
      have hxnonneg := weighted_nonneg ha hu hx
      have hynonneg := weighted_nonneg hb hv hy
      have hznonneg := weighted_nonneg hcorner hw hthird
      exact .inl (by linarith)
    · cases h

variable {quotes : List (Quote Exact)} (hquotes : ∀ q ∈ quotes, q.IsNonneg) {k e : Exact} {σ : ℝ}

include hquotes

theorem linear_nonneg (h : linear quotes k e = .ok (some (real σ))) :
    0 ≤ σ ∨ ∃ t ∈ triangulation quotes, t.Strays k e := by
  rw [linear] at h
  split at h
  · cases h
  · obtain ⟨t, ht, hvolatility⟩ := List.exists_of_findSome?_eq_some (Except.ok.inj h)
    obtain ⟨ha, hb, hcorner⟩ := corners_mem (List.mem_filter.mp ht).1
    obtain hnonneg | hstrays := Triangle.nonneg_or_strays (hquotes _ ha) (hquotes _ hb)
      (hquotes _ hcorner) hvolatility
    · exact .inl hnonneg
    · exact .inr ⟨t, ht, hstrays⟩

theorem nearest_nonneg (h : nearest quotes k e = .ok (some (real σ))) : 0 ≤ σ := by
  rw [nearest] at h
  split at h
  · cases h
  · obtain ⟨q, hq, hvolatility⟩ := Option.map_eq_some_iff.mp (Except.ok.inj h)
    exact (hquotes q (mem_of_closest hq)).volatility hvolatility

theorem rule_nonneg (method : SurfaceMethod) (h : rule method quotes k e = .ok (some (real σ))) :
    0 ≤ σ ∨ method = .cubic ∨ ∃ t ∈ triangulation quotes, t.Strays k e := by
  cases method with
  | unknown name => cases h
  | cubic => exact .inr (.inl rfl)
  | nearest =>
    simp only [rule] at h
    split at h
    · exact .inl (nearest_nonneg hquotes h)
    · cases h
  | linear =>
    simp only [rule, reduceCtorEq, if_false] at h
    split at h
    · cases h
    · split at h
      · cases h
      · exact (linear_nonneg hquotes h).imp_right .inr

end Scattered

namespace Surface

/-- Between scattered quotes the rule of the surface answers a query below zero. -/
structure Strays (s : Surface Exact) (k e : Exact) : Prop where
  scattered : single s.strikes = false ∧ single s.expiries = false
  negative : ∃ r : ℝ, r < 0 ∧ s.rule s.quotes (s.clamped k e).1 (s.clamped k e).2 = .ok (some (real r))

/-- The rules that are in use stray only where they are smooth, or where a triangle answers from outside. -/
theorem Strays.cubic_or_triangle {s : Surface Exact} {k e : Exact} (h : s.Strays k e)
    (hrules : s.rules = Scattered.rule) (hquotes : ∀ q ∈ s.quotes, q.IsNonneg) :
    s.method = .cubic ∨
      ∃ t ∈ Scattered.triangulation s.quotes, t.Strays (s.clamped k e).1 (s.clamped k e).2 := by
  obtain ⟨r, hnegative, hanswer⟩ := h.negative
  rw [rule, hrules] at hanswer
  exact (Scattered.rule_nonneg hquotes s.method hanswer).resolve_left (not_le.mpr hnegative)

variable {s : Surface Exact} (hne : s.quotes ≠ []) (hquotes : ∀ q ∈ s.quotes, q.IsNonneg)

include hne hquotes

theorem axis_nonneg {point : Quote Exact → Point Exact}
    (hpoint : ∀ q, q.IsNonneg → (point q).HeightIn (Set.Ici 0)) {x σ : ℝ}
    (h : Point.interpolate (sortedPoints (s.quotes.map point)) (real x) = real σ) : 0 ≤ σ := by
  have hheights : ∀ p ∈ sortedPoints (s.quotes.map point), p.HeightIn (Set.Ici 0) := by
    intro p hp
    obtain ⟨q, hq, rfl⟩ := List.mem_map.mp (List.mem_mergeSort.mp hp)
    exact hpoint q (hquotes q hq)
  have hpoints : sortedPoints (s.quotes.map point) ≠ [] := by
    have hlength : (sortedPoints (s.quotes.map point)).length = s.quotes.length := by
      rw [sortedPoints, List.length_mergeSort, List.length_map]
    intro hnil
    rw [hnil, List.length_nil] at hlength
    exact hne (List.eq_nil_of_length_eq_zero hlength.symm)
  obtain ⟨y, hy, hinterpolate⟩ := Point.interpolate_mem (convex_Ici 0) hheights hpoints x
  obtain rfl : y = σ := real.inj (hinterpolate.symm.trans h)
  exact hy

/-- A quoted surface answers with a negative volatility only where it strays. -/
theorem query_nonneg {k e σ : ℝ}
    (h : (s.query (.number (real k)) (.number (real e))).result = .ok (real σ)) :
    0 ≤ σ ∨ s.Strays (real k) (real e) := by
  obtain ⟨k', e', hclamped⟩ := clamped_real hne (fun q hq => (hquotes q hq).isReal) k e
  simp only [query, queryWith, Value.operand_number, Outcome.ofMisuse_ok, pure_bind, hclamped] at h
  obtain ⟨w, hw, h⟩ := Outcome.result_bind_eq_ok.mp h
  have hanswer : volatilityWith s.rule s (real k') (real e') = .ok (some (real σ)) := by
    cases w with
    | none => cases h
    | some w =>
      cases h
      exact Outcome.result_ofMisuse_eq_ok.mp hw
  rw [volatilityWith] at hanswer
  split at hanswer
  · refine .inl (axis_nonneg hne hquotes ?_ (Option.some.inj (Except.ok.inj hanswer)))
    rintro _ ⟨_, x, y, hy, rfl⟩
    exact ⟨x, y, hy, rfl⟩
  · next hstrikes =>
    split at hanswer
    · refine .inl (axis_nonneg hne hquotes ?_ (Option.some.inj (Except.ok.inj hanswer)))
      rintro _ ⟨x, _, y, hy, rfl⟩
      exact ⟨x, y, hy, rfl⟩
    · next hexpiries =>
      cases hrule : s.rule s.quotes (real k') (real e') with
      | error m =>
        rw [hrule] at hanswer
        cases hanswer
      | ok u =>
        rw [hrule] at hanswer
        obtain ⟨rfl, -⟩ := Option.filter_eq_some_iff.mp (Except.ok.inj hanswer)
        refine (le_or_gt 0 σ).imp_right fun hnegative => ⟨?_, σ, hnegative, ?_⟩
        · exact ⟨Bool.eq_false_iff.mpr hstrikes, Bool.eq_false_iff.mpr hexpiries⟩
        · rw [hclamped]
          exact hrule

end Surface

namespace Volatility

/-- No volatility is quoted with a negative sign. -/
def IsNonneg : Volatility Exact → Prop
  | constant _ level _ => ∃ r : ℝ, 0 ≤ r ∧ level = real r
  | surface s => s.quotes ≠ [] ∧ ∀ q ∈ s.quotes, q.IsNonneg
  | implied base _ => base.IsNonneg

/-- A volatility is negative only where a surface strays. -/
theorem levelAt_nonneg {v : Volatility Exact} (hv : v.IsNonneg) {t k σ : ℝ}
    (h : (v.levelAt (.number (real t)) (.number (real k))).result = .ok (real σ)) :
    0 ≤ σ ∨ ∃ s, v = .surface s ∧ s.Strays (real k) (real t) := by
  cases v with
  | constant r level dayCount =>
    obtain ⟨a, ha, rfl⟩ := hv
    have hlevel : (.ok (real a) : Except (PricingError Exact) Exact) = .ok (real σ) := h
    cases hlevel
    exact .inl ha
  | surface s =>
    have htime : (surface s).timeTo (.number (real t)) = pure (real t) := rfl
    rw [levelAt, htime, pure_bind] at h
    obtain hnonneg | hstrays := Surface.query_nonneg hv.1 hv.2 h
    · exact .inl hnonneg
    · exact .inr ⟨s, rfl, hstrays⟩
  | implied base r =>
    rw [levelAt] at h
    obtain ⟨_, -, h⟩ := Outcome.result_bind_eq_ok.mp h
    obtain ⟨_, -, h⟩ := Outcome.result_bind_eq_ok.mp h
    exact .inl (sqrt_eq_real (Except.ok.inj h))

end Volatility

end OptionDesk
