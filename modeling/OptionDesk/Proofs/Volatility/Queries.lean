import OptionDesk.DayCount.Elapsed
import OptionDesk.Proofs.Volatility.Quotes
import OptionDesk.Volatility.Scattered
import Mathlib.Analysis.Convex.Combination
import Mathlib.LinearAlgebra.AffineSpace.FiniteDimensional

/-!
# Queries between scattered quotes

How the space between scattered quotes is filled is not said here: a rule is only relied on to average the
quoted volatilities on the convex hull of the quotes, and to find nothing outside. The quoted ranges make a
rectangle around the hull, and a query that is moved into the rectangle may still lie outside the hull. With
quotes at the four corners of the rectangle the two are the same, and every query is answered.
-/
namespace OptionDesk

open Exact

namespace Quote

/-- Where the quotes lie in the plane of strikes and expiries. -/
def places (quotes : List (Quote ℝ)) : Set (ℝ × ℝ) := {p | ∃ q ∈ quotes, (q.strike, q.expiry) = p}

def levels (quotes : List (Quote ℝ)) : Set ℝ := {v | ∃ q ∈ quotes, q.volatility = v}

/-- There is a quote at each corner of the quoted ranges. -/
def HasCorners (quotes : List (Quote ℝ)) : Prop :=
  ({lowest strike quotes, highest strike quotes} : Set ℝ) ×ˢ
    {lowest expiry quotes, highest expiry quotes} ⊆ places quotes

/-- What a rule between scattered quotes is relied on for: on the convex hull of the quotes it averages their
volatilities, and outside it has none or an undefined one. -/
structure AveragesOnHull (rule : ScatteredRule Exact) (quotes : List (Quote ℝ)) : Prop where
  inside : ∀ k e, (k, e) ∈ convexHull ℝ (places quotes) →
    ∃ v ∈ convexHull ℝ (levels quotes), rule (quotes.map exact) (real k) (real e) = .ok (some (real v))
  outside : ∀ k e, (k, e) ∉ convexHull ℝ (places quotes) →
    rule (quotes.map exact) (real k) (real e) = .ok none ∨
      rule (quotes.map exact) (real k) (real e) = .ok (some undefined)

variable {quotes : List (Quote ℝ)}

/-- Averages of the quoted volatilities are between the least and the greatest of them. -/
theorem convexHull_levels_subset :
    convexHull ℝ (levels quotes) ⊆ Set.Icc (lowest volatility quotes) (highest volatility quotes) := by
  refine convexHull_min ?_ (convex_Icc _ _)
  rintro _ ⟨q, hq, rfl⟩
  exact mem_range hq

theorem HasCorners.rectangle_subset (h : HasCorners quotes) (hne : quotes ≠ []) :
    Set.Icc (lowest strike quotes) (highest strike quotes) ×ˢ
      Set.Icc (lowest expiry quotes) (highest expiry quotes) ⊆ convexHull ℝ (places quotes) := by
  have hcorners := convexHull_mono (𝕜 := ℝ) h
  rwa [convexHull_prod, convexHull_pair, convexHull_pair, segment_eq_Icc (lowest_le_highest hne),
    segment_eq_Icc (lowest_le_highest hne)] at hcorners

/-- Quotes that share a coordinate lie on a line. -/
theorem collinear_of_strikes (h : ∀ q ∈ quotes, ∀ r ∈ quotes, q.strike = r.strike) (hne : quotes ≠ []) :
    Collinear ℝ (places quotes) := by
  obtain ⟨p, hp⟩ := List.exists_mem_of_ne_nil quotes hne
  have hplace : (p.strike, p.expiry) ∈ places quotes := ⟨p, hp, rfl⟩
  refine (collinear_iff_of_mem hplace).mpr ⟨(0, 1), ?_⟩
  rintro _ ⟨q, hq, rfl⟩
  refine ⟨q.expiry - p.expiry, Prod.ext ?_ ?_⟩
  · simp [h q hq p hp]
  · simp

theorem collinear_of_expiries (h : ∀ q ∈ quotes, ∀ r ∈ quotes, q.expiry = r.expiry) (hne : quotes ≠ []) :
    Collinear ℝ (places quotes) := by
  obtain ⟨p, hp⟩ := List.exists_mem_of_ne_nil quotes hne
  have hplace : (p.strike, p.expiry) ∈ places quotes := ⟨p, hp, rfl⟩
  refine (collinear_iff_of_mem hplace).mpr ⟨(1, 0), ?_⟩
  rintro _ ⟨q, hq, rfl⟩
  refine ⟨q.strike - p.strike, Prod.ext ?_ ?_⟩
  · simp
  · simp [h q hq p hp]

end Quote

namespace Surface

open Quote

/-- What a query at a real strike and expiry comes to. -/
noncomputable def ask (s : Surface Exact) (rule : ScatteredRule Exact) (k e : ℝ) :
    Except (PricingError Exact) Exact :=
  (s.queryWith rule (.number (real k)) (.number (real e))).result

section Plane

variable {s : Surface Exact} {quotes : List (Quote ℝ)} (hs : s.quotes = quotes.map exact)
  (hplane : ¬Collinear ℝ (places quotes)) {rule : ScatteredRule Exact}
  (hrule : AveragesOnHull rule quotes)

include hplane

theorem ne_nil_of_not_collinear : quotes ≠ [] := by
  rintro rfl
  have hnone : places [] = ∅ := by simp [places]
  rw [hnone] at hplane
  exact hplane (collinear_empty ℝ (ℝ × ℝ))

include hs

/-- Quotes that are not on a line are left to the rule. -/
theorem volatilityWith_of_not_collinear (rule : ScatteredRule Exact) (k e : Exact) :
    volatilityWith rule s k e = (rule (quotes.map exact) k e).map (·.filter (!Scalar.isNaN ·)) := by
  have hne := ne_nil_of_not_collinear hplane
  have hstrikes : ¬single s.strikes = true := fun hsingle =>
    hplane (collinear_of_strikes ((single_strikes_iff hne hs).mp hsingle) hne)
  have hexpiries : ¬single s.expiries = true := fun hsingle =>
    hplane (collinear_of_expiries ((single_expiries_iff hne hs).mp hsingle) hne)
  rw [volatilityWith, if_neg hstrikes, if_neg hexpiries, hs]

include hrule

theorem ask_of_mem_hull {k e : ℝ}
    (h : (within strike quotes k, within expiry quotes e) ∈ convexHull ℝ (places quotes)) :
    ∃ v ∈ Set.Icc (lowest volatility quotes) (highest volatility quotes), s.ask rule k e = .ok (real v) := by
  obtain ⟨v, hv, hfound⟩ := hrule.inside _ _ h
  refine ⟨v, convexHull_levels_subset hv, ?_⟩
  rw [ask, result_queryWith hs (ne_nil_of_not_collinear hplane),
    volatilityWith_of_not_collinear hs hplane, hfound]
  rfl

theorem ask_of_notMem_hull {k e : ℝ}
    (h : (within strike quotes k, within expiry quotes e) ∉ convexHull ℝ (places quotes)) :
    s.ask rule k e = .error (.volatility (.uncovered (.number (real k)) (.number (real e)))) := by
  rw [ask, result_queryWith hs (ne_nil_of_not_collinear hplane),
    volatilityWith_of_not_collinear hs hplane]
  obtain hnone | hundefined := hrule.outside _ _ h
  · rw [hnone]
    rfl
  · rw [hundefined]
    rfl

/-- A query is answered among the quoted volatilities or it is not covered, and some corner is not either. -/
theorem ask_of_not_collinear (k e : ℝ) :
    (∃ v ∈ Set.Icc (lowest volatility quotes) (highest volatility quotes), s.ask rule k e = .ok (real v)) ∨
      s.ask rule k e = .error (.volatility (.uncovered (.number (real k)) (.number (real e)))) ∧
        ¬HasCorners quotes := by
  have hne := ne_nil_of_not_collinear hplane
  by_cases hcovered : (within strike quotes k, within expiry quotes e) ∈ convexHull ℝ (places quotes)
  · exact .inl (ask_of_mem_hull hs hplane hrule hcovered)
  · exact .inr ⟨ask_of_notMem_hull hs hplane hrule hcovered, fun hcorners =>
      hcovered (hcorners.rectangle_subset hne ⟨within_mem hne k, within_mem hne e⟩)⟩

end Plane

section Axis

variable {quotes quotes' : List (Quote ℝ)} (hperm : quotes'.Perm quotes) (hne : quotes ≠ [])
  {s : Surface Exact} (hs : s.quotes = quotes'.map exact) (rule : ScatteredRule Exact) (k e : ℝ)

include hperm hne hs

/-- The line over the expiries does not depend on the order of the quotes. -/
theorem ask_of_strikes (hshared : ∀ q ∈ quotes, ∀ r ∈ quotes, q.strike = r.strike)
    (hdistinct : (quotes.map expiry).Nodup) :
    s.ask rule k e = .ok (real (Point.height (quotes.map overExpiry) e)) := by
  have hne' : quotes' ≠ [] := fun hnil => hne (hnil ▸ hperm).nil_eq.symm
  have hplaces : ((quotes.map overExpiry).map Point.x).Nodup := by rwa [List.map_map]
  rw [ask, query_of_strikes hne' hs rule
    (fun q hq r hr => hshared q (hperm.mem_iff.mp hq) r (hperm.mem_iff.mp hr))
    ((hperm.map expiry).nodup_iff.mpr hdistinct),
    ← Point.height_eq_of_perm (hperm.symm.map overExpiry) hplaces]

/-- The line over the strikes does not depend on the order of the quotes. -/
theorem ask_of_expiries (hshared : ∀ q ∈ quotes, ∀ r ∈ quotes, q.expiry = r.expiry)
    (hdistinct : (quotes.map strike).Nodup) :
    s.ask rule k e = .ok (real (Point.height (quotes.map overStrike) k)) := by
  have hne' : quotes' ≠ [] := fun hnil => hne (hnil ▸ hperm).nil_eq.symm
  have hplaces : ((quotes.map overStrike).map Point.x).Nodup := by rwa [List.map_map]
  rw [ask, query_of_expiries hne' hs rule
    (fun q hq r hr => hshared q (hperm.mem_iff.mp hq) r (hperm.mem_iff.mp hr))
    ((hperm.map strike).nodup_iff.mpr hdistinct),
    ← Point.height_eq_of_perm (hperm.symm.map overStrike) hplaces]

end Axis

/-- All queries of a surface of real quotes. What a query finds depends on the clamped point alone; at a
single strike it follows the quotes over the expiries and at a single expiry over the strikes, in whatever
order they come; and otherwise, with a rule that averages on the hull of the quotes, it stays among the
quoted volatilities or is refused, which it never is with a quote at each corner. -/
theorem queries_follow_the_quotes {quotes : List (Quote ℝ)} (hne : quotes ≠ []) :
    (∀ s : Surface Exact, s.quotes = quotes.map exact → ∀ rule k e v, s.ask rule k e = .ok v ↔
      s.ask rule (within strike quotes k) (within expiry quotes e) = .ok v) ∧
    ((∀ q ∈ quotes, ∀ r ∈ quotes, q.strike = r.strike) → (quotes.map expiry).Nodup →
      ∃ f, Point.Joins (quotes.map overExpiry) f ∧
        ∀ (s : Surface Exact) (quotes' : List (Quote ℝ)), quotes'.Perm quotes →
          s.quotes = quotes'.map exact → ∀ rule k e, s.ask rule k e = .ok (real (f e))) ∧
    ((∀ q ∈ quotes, ∀ r ∈ quotes, q.expiry = r.expiry) → (quotes.map strike).Nodup →
      ∃ f, Point.Joins (quotes.map overStrike) f ∧
        ∀ (s : Surface Exact) (quotes' : List (Quote ℝ)), quotes'.Perm quotes →
          s.quotes = quotes'.map exact → ∀ rule k e, s.ask rule k e = .ok (real (f k))) ∧
    (¬Collinear ℝ (places quotes) → ∀ rule, AveragesOnHull rule quotes →
      ∀ s : Surface Exact, s.quotes = quotes.map exact → ∀ k e,
        (∃ v ∈ Set.Icc (lowest volatility quotes) (highest volatility quotes),
          s.ask rule k e = .ok (real v)) ∨
        s.ask rule k e = .error (.volatility (.uncovered (.number (real k)) (.number (real e)))) ∧
          ¬HasCorners quotes) := by
  refine ⟨fun s hs rule k e v => result_queryWith_within hs hne rule k e v, fun hshared hdistinct => ?_,
    fun hshared hdistinct => ?_, fun hplane rule hrule s hs k e =>
      ask_of_not_collinear hs hplane hrule k e⟩
  · have hsome : quotes.map overExpiry ≠ [] := by simpa using hne
    have hjoins := Point.joins_height hsome (by rwa [List.map_map])
    exact ⟨_, hjoins, fun s quotes' hperm hs rule k e =>
      ask_of_strikes hperm hne hs rule k e hshared hdistinct⟩
  · have hsome : quotes.map overStrike ≠ [] := by simpa using hne
    have hjoins := Point.joins_height hsome (by rwa [List.map_map])
    exact ⟨_, hjoins, fun s quotes' hperm hs rule k e =>
      ask_of_expiries hperm hne hs rule k e hshared hdistinct⟩

/-! ### A term structure, a smile and a rectangle -/

/-- Quotes at the corners of a rectangle, on a plane. -/
noncomputable def corners : List (Quote ℝ) := [⟨90, 1, 0.3⟩, ⟨110, 0.5, 0.25⟩, ⟨90, 0.5, 0.2⟩, ⟨110, 1, 0.35⟩]

open Classical in
/-- The rule that follows the plane on the rectangle. -/
noncomputable def planeRule : ScatteredRule Exact := fun _ k e =>
  match k, e with
  | real k, real e =>
    .ok (if k ∈ Set.Icc 90 110 ∧ e ∈ Set.Icc 0.5 1 then
      some (real (0.2 + 0.0025 * (k - 90) + 0.2 * (e - 0.5))) else none)
  | _, _ => .ok none

theorem lowest_corners : lowest strike corners = 90 ∧ lowest expiry corners = 0.5 ∧
    lowest volatility corners = 0.2 := by
  have hne : corners ≠ [] := List.cons_ne_nil _ _
  refine ⟨(isLeast_lowest hne).unique ?_, (isLeast_lowest hne).unique ?_, (isLeast_lowest hne).unique ?_⟩
  all_goals
    constructor
    · simp [corners]
    · rintro _ ⟨q, hq, rfl⟩
      simp only [corners, List.mem_cons, List.not_mem_nil, or_false] at hq
      obtain rfl | rfl | rfl | rfl := hq <;> norm_num

theorem highest_corners : highest strike corners = 110 ∧ highest expiry corners = 1 ∧
    highest volatility corners = 0.35 := by
  have hne : corners ≠ [] := List.cons_ne_nil _ _
  refine ⟨(isGreatest_highest hne).unique ?_, (isGreatest_highest hne).unique ?_,
    (isGreatest_highest hne).unique ?_⟩
  all_goals
    constructor
    · simp [corners]
    · rintro _ ⟨q, hq, rfl⟩
      simp only [corners, List.mem_cons, List.not_mem_nil, or_false] at hq
      obtain rfl | rfl | rfl | rfl := hq <;> norm_num

theorem hasCorners_corners : HasCorners corners := by
  obtain ⟨hk₀, he₀, -⟩ := lowest_corners
  obtain ⟨hk₁, he₁, -⟩ := highest_corners
  rw [HasCorners, hk₀, hk₁, he₀, he₁]
  rintro ⟨k, e⟩ ⟨rfl | rfl, rfl | rfl⟩
  all_goals simp [places, corners]

theorem hull_corners : convexHull ℝ (places corners) = Set.Icc 90 110 ×ˢ Set.Icc 0.5 1 := by
  obtain ⟨hk₀, he₀, -⟩ := lowest_corners
  obtain ⟨hk₁, he₁, -⟩ := highest_corners
  have hrectangle := hasCorners_corners.rectangle_subset (List.cons_ne_nil _ _)
  rw [hk₀, hk₁, he₀, he₁] at hrectangle
  refine (convexHull_min ?_ ((convex_Icc 90 110).prod (convex_Icc 0.5 1))).antisymm hrectangle
  rintro _ ⟨q, hq, rfl⟩
  have hstrike := mem_range (f := strike) hq
  have hexpiry := mem_range (f := expiry) hq
  rw [hk₀, hk₁] at hstrike
  rw [he₀, he₁] at hexpiry
  exact ⟨hstrike, hexpiry⟩

theorem averagesOnHull_corners : AveragesOnHull planeRule corners := by
  refine ⟨fun k e hin => ?_, fun k e hout => .inl ?_⟩
  · rw [hull_corners] at hin
    obtain ⟨hk, he⟩ : k ∈ Set.Icc 90 110 ∧ e ∈ Set.Icc 0.5 1 := hin
    have hleast : (0.2 : ℝ) ∈ levels corners := ⟨⟨90, 0.5, 0.2⟩, by simp [corners], rfl⟩
    have hgreatest : (0.35 : ℝ) ∈ levels corners := ⟨⟨110, 1, 0.35⟩, by simp [corners], rfl⟩
    refine ⟨0.2 + 0.0025 * (k - 90) + 0.2 * (e - 0.5), ?_, ?_⟩
    · refine segment_subset_convexHull hleast hgreatest ?_
      rw [segment_eq_Icc (by norm_num)]
      exact ⟨by linarith [hk.1, he.1], by linarith [hk.2, he.2]⟩
    · exact congrArg Except.ok (if_pos ⟨hk, he⟩)
  · rw [hull_corners] at hout
    exact congrArg Except.ok (if_neg hout)

theorem not_collinear_corners : ¬Collinear ℝ (places corners) := by
  intro hcollinear
  have hplace (q : Quote ℝ) (hq : q ∈ corners) : (q.strike, q.expiry) ∈ places corners := ⟨q, hq, rfl⟩
  have hfirst := hplace ⟨90, 0.5, 0.2⟩ (by simp [corners])
  obtain ⟨⟨a, b⟩, hline⟩ := (collinear_iff_of_mem hfirst).mp hcollinear
  obtain ⟨r, hr⟩ := hline _ (hplace ⟨110, 0.5, 0.25⟩ (by simp [corners]))
  obtain ⟨t, ht⟩ := hline _ (hplace ⟨90, 1, 0.3⟩ (by simp [corners]))
  simp only [Prod.smul_mk, smul_eq_mul, vadd_eq_add, Prod.mk_add_mk, Prod.mk.injEq] at hr ht
  -- the line is level, since two corners have one expiry, and a third corner has another
  have hr0 : r ≠ 0 := by
    rintro rfl
    linarith [hr.1]
  have hb : b = 0 := by
    have hproduct : r * b = 0 := by linarith [hr.2]
    exact (mul_eq_zero.mp hproduct).resolve_left hr0
  rw [hb] at ht
  linarith [ht.2]

/-- Two expiries out of order between which a query lies, two strikes beyond which one lies, and a rectangle
of quotes that answers everywhere, outside as at its corner. -/
theorem three_surfaces_follow_their_quotes :
    let reference := Value.midnight ((Date.ofParts? 2025 1 1).get rfl)
    let term : Surface Exact :=
      ⟨reference, [⟨real 100, real 2, real 0.3⟩, ⟨real 100, real 0.5, real 0.2⟩], .linear, .standard,
        Scattered.rule⟩
    let smile : Surface Exact :=
      ⟨reference, [⟨real 120, real 1, real 0.2⟩, ⟨real 80, real 1, real 0.3⟩], .nearest, .standard,
        Scattered.rule⟩
    let rectangle : Surface Exact := ⟨reference, corners.map exact, .linear, .standard, Scattered.rule⟩
    term.ask (Scattered.rule .linear) 70 1.25 = .ok (real 0.25) ∧
      smile.ask (Scattered.rule .nearest) 300 5 = .ok (real 0.2) ∧
      (∀ v, rectangle.ask planeRule 500 9 = .ok v ↔ rectangle.ask planeRule 110 1 = .ok v) ∧
      ∃ v ∈ Set.Icc (0.2 : ℝ) 0.35, rectangle.ask planeRule 500 9 = .ok (real v) := by
  intro reference term smile rectangle
  have hcorners : corners ≠ [] := List.cons_ne_nil _ _
  obtain ⟨hk₀, he₀, hv₀⟩ := lowest_corners
  obtain ⟨hk₁, he₁, hv₁⟩ := highest_corners
  refine ⟨?_, ?_, ?_, ?_⟩
  · let late : Quote ℝ := ⟨100, 2, 0.3⟩
    let early : Quote ℝ := ⟨100, 0.5, 0.2⟩
    obtain ⟨f, hjoins, hf⟩ := (queries_follow_the_quotes (List.cons_ne_nil late [early])).2.1
      (by simp [late, early]) (by norm_num [late, early])
    have hneighbours : Point.Neighbours ([late, early].map overExpiry) early.overExpiry late.overExpiry := by
      refine ⟨by simp, by simp, by norm_num [overExpiry, late, early], ?_⟩
      simp [overExpiry, late, early]
    rw [hf term [late, early] (.refl _) rfl (Scattered.rule .linear) 70 1.25,
      hjoins.straight _ _ hneighbours 1.25 (by norm_num [overExpiry, late, early])]
    norm_num [overExpiry, late, early]
  · let high : Quote ℝ := ⟨120, 1, 0.2⟩
    let low : Quote ℝ := ⟨80, 1, 0.3⟩
    obtain ⟨f, hjoins, hf⟩ := (queries_follow_the_quotes (List.cons_ne_nil high [low])).2.2.1
      (by simp [high, low]) (by norm_num [high, low])
    have hlast : ∀ q ∈ [high, low].map overStrike, q.x ≤ high.overStrike.x := by
      norm_num [overStrike, high, low]
    rw [hf smile [high, low] (.refl _) rfl (Scattered.rule .nearest) 300 5,
      hjoins.after high.overStrike (by simp) hlast 300 (by norm_num [overStrike, high])]
    rfl
  · intro v
    have hwithin := (queries_follow_the_quotes hcorners).1 rectangle rfl planeRule 500 9 v
    rwa [within, within, hk₀, hk₁, he₀, he₁, max_eq_left (by norm_num), max_eq_left (by norm_num),
      min_eq_right (by norm_num), min_eq_right (by norm_num)] at hwithin
  · obtain hanswered | ⟨-, hmissing⟩ := (queries_follow_the_quotes hcorners).2.2.2 not_collinear_corners
      planeRule averagesOnHull_corners rectangle rfl 500 9
    · rwa [hv₀, hv₁] at hanswered
    · exact absurd hasCorners_corners hmissing

end Surface

end OptionDesk
