import OptionDesk.Proofs.Interpolation.Sorted
import Mathlib.Analysis.MeanInequalities

/-!
# Total variance along a line of volatilities

The total variance at a place is the square of the volatility there times the place. Where the volatility
follows a broken line through points, the total variance may fall between two points even if it does not
fall from one point to the next: it rises and then may fall on each segment, so it is never below the lesser
of its values at two ends. From any place on, it therefore comes down at most to its value at a later point.
-/
namespace OptionDesk

namespace Point

/-- Square of the volatility at a place, times the place. -/
def total (f : ℝ → ℝ) (x : ℝ) : ℝ := f x ^ 2 * x

/-- Points of volatilities at positive times, whose total variances do not fall in time. -/
structure RisesInTotal (points : List (Point ℝ)) : Prop where
  positive : ∀ p ∈ points, 0 < p.x
  nonneg : ∀ p ∈ points, 0 ≤ p.y
  rises : ∀ p ∈ points, ∀ q ∈ points, p.x ≤ q.x → p.y ^ 2 * p.x ≤ q.y ^ 2 * q.x

/-! ## Two places -/

/-- Between two places the total variance of a straight volatility is not below both of its end values:
the means of the volatilities and of the places are not below their geometric means. -/
theorem min_total_le {v₁ v₂ x₁ x₂ s t : ℝ} (hv₁ : 0 ≤ v₁) (hv₂ : 0 ≤ v₂) (hx₁ : 0 ≤ x₁) (hx₂ : 0 ≤ x₂)
    (hs : 0 ≤ s) (ht : 0 ≤ t) (hst : s + t = 1) :
    min (v₁ ^ 2 * x₁) (v₂ ^ 2 * x₂) ≤ (s * v₁ + t * v₂) ^ 2 * (s * x₁ + t * x₂) := by
  have hlevels := Real.geom_mean_le_arith_mean2_weighted hs ht hv₁ hv₂ hst
  have hplaces := Real.geom_mean_le_arith_mean2_weighted hs ht hx₁ hx₂ hst
  have hsquare {v : ℝ} (hv : 0 ≤ v) (u : ℝ) : (v ^ 2) ^ u = (v ^ u) ^ 2 := by
    rw [sq, Real.mul_rpow hv hv, sq]
  have hmin : 0 ≤ min (v₁ ^ 2 * x₁) (v₂ ^ 2 * x₂) := le_min (by positivity) (by positivity)
  calc min (v₁ ^ 2 * x₁) (v₂ ^ 2 * x₂)
      = min (v₁ ^ 2 * x₁) (v₂ ^ 2 * x₂) ^ s * min (v₁ ^ 2 * x₁) (v₂ ^ 2 * x₂) ^ t := by
        rw [← Real.rpow_add_of_nonneg hmin hs ht, hst, Real.rpow_one]
    _ ≤ (v₁ ^ 2 * x₁) ^ s * (v₂ ^ 2 * x₂) ^ t := by
        gcongr
        · exact min_le_left _ _
        · exact min_le_right _ _
    _ = (v₁ ^ s * v₂ ^ t) ^ 2 * (x₁ ^ s * x₂ ^ t) := by
        rw [Real.mul_rpow (sq_nonneg v₁) hx₁, Real.mul_rpow (sq_nonneg v₂) hx₂, hsquare hv₁, hsquare hv₂]
        ring
    _ ≤ (s * v₁ + t * v₂) ^ 2 * (s * x₁ + t * x₂) := by gcongr

theorem total_le_of_level {f : ℝ → ℝ} {x y : ℝ} (hlevel : f x = f y) (hxy : x ≤ y) :
    total f x ≤ total f y := by
  rw [total, total, hlevel]
  exact mul_le_mul_of_nonneg_left hxy (sq_nonneg _)

/-- Up to a second point the total variance stays below the one there, if the volatility does not fall too
steeply toward it. -/
theorem total_le_of_slope {v σ x d : ℝ} (hv : 0 ≤ v) (hd : 0 ≤ d) (hdx : d ≤ x) (hend : 0 ≤ v + σ * d)
    (hslope : 2 * σ * x ≤ v) : (v + σ * d) ^ 2 * (x - d) ≤ v ^ 2 * x := by
  have hx : 0 ≤ x := hd.trans hdx
  obtain hrises | hfalls := le_total σ 0
  · have hlevel : v + σ * d ≤ v := add_le_of_nonpos_right (mul_nonpos_of_nonpos_of_nonneg hrises hd)
    have hplace : x - d ≤ x := sub_le_self x hd
    gcongr
  · have hgain : 0 ≤ σ * d := mul_nonneg hfalls hd
    have hloss : σ * x * (2 * v + σ * d) ≤ (v + σ * d) ^ 2 := by
      have hhalf : σ * x * (2 * v + σ * d) ≤ v / 2 * (2 * v + σ * d) :=
        mul_le_mul_of_nonneg_right (by linarith) (by positivity)
      have hsquare : v / 2 * (2 * v + σ * d) ≤ (v + σ * d) ^ 2 := by
        have hproduct := mul_nonneg hv hgain
        nlinarith [sq_nonneg (σ * d)]
      exact hhalf.trans hsquare
    have hdifference : v ^ 2 * x - (v + σ * d) ^ 2 * (x - d) =
        d * ((v + σ * d) ^ 2 - σ * x * (2 * v + σ * d)) := by ring
    have hnonneg : 0 ≤ d * ((v + σ * d) ^ 2 - σ * x * (2 * v + σ * d)) :=
      mul_nonneg hd (sub_nonneg.mpr hloss)
    linarith

/-! ## One segment -/

section Segment

variable {points : List (Point ℝ)} {f : ℝ → ℝ} (hf : Joins points f) (h : RisesInTotal points)
  {p q : Point ℝ} (hpq : Neighbours points p q) {x y : ℝ}

include hf h hpq

theorem nonneg_of_mem_segment (hx : x ∈ Set.Icc p.x q.x) : 0 ≤ f x := by
  have hlow : 0 ≤ min p.y q.y := le_min (h.nonneg p hpq.left) (h.nonneg q hpq.right)
  exact hlow.trans (hf.between p q hpq x hx).1

/-- The total variance does not fall below both ends of a piece of a segment. -/
theorem min_total_le_total (hpx : p.x ≤ x) (hxy : x ≤ y) (hyq : y ≤ q.x) :
    min (total f x) (total f q.x) ≤ total f y := by
  obtain hlt | rfl := (hxy.trans hyq).lt_or_eq
  · have hwidth : 0 < q.x - x := sub_pos.mpr hlt
    have hslope : 0 < q.x - p.x := sub_pos.mpr hpq.before
    have hx : 0 ≤ x := (h.positive p hpq.left).le.trans hpx
    have hfx := hf.straight p q hpq x ⟨hpx, hxy.trans hyq⟩
    have hfq := hf.straight p q hpq q.x ⟨hpq.before.le, le_rfl⟩
    have hfy := hf.straight p q hpq y ⟨hpx.trans hxy, hyq⟩
    have hplace : (q.x - y) / (q.x - x) * x + (y - x) / (q.x - x) * q.x = y := by
      field_simp
      ring
    have hlevel : (q.x - y) / (q.x - x) * f x + (y - x) / (q.x - x) * f q.x = f y := by
      rw [hfx, hfq, hfy]
      field_simp
      ring
    have hmeans := min_total_le (nonneg_of_mem_segment hf h hpq ⟨hpx, hxy.trans hyq⟩)
      (nonneg_of_mem_segment hf h hpq ⟨hpq.before.le, le_rfl⟩) hx (hx.trans hlt.le)
      (div_nonneg (sub_nonneg.mpr hyq) hwidth.le) (div_nonneg (sub_nonneg.mpr hxy) hwidth.le)
      (by rw [← add_div, sub_add_sub_cancel, div_self hwidth.ne'])
    rwa [hplace, hlevel] at hmeans
  · obtain rfl := le_antisymm hyq hxy
    exact min_le_left _ _

end Segment

/-! ## The whole line -/

section Line

variable {points : List (Point ℝ)} (hne : points ≠ []) {f : ℝ → ℝ} (hf : Joins points f)
  (h : RisesInTotal points) {a : ℝ}

/-- No later point has less total variance than a place, by more than a slack. -/
def StaysBelow (points : List (Point ℝ)) (f : ℝ → ℝ) (slack a : ℝ) : Prop :=
  ∀ p ∈ points, a ≤ p.x → total f a ≤ p.y ^ 2 * p.x + slack

include hne hf h

/-- What holds at the later points holds at all later places. -/
theorem StaysBelow.total_le {slack : ℝ} (hslack : 0 ≤ slack) (hbelow : StaysBelow points f slack a) {y : ℝ}
    (hay : a ≤ y) : total f a ≤ total f y + slack := by
  have hpoint {p : Point ℝ} (hp : p ∈ points) : total f p.x = p.y ^ 2 * p.x := by
    rw [total, hf.through p hp]
  obtain ⟨p, hp, hfirst, hyp⟩ | ⟨p, q, hpq, hpy, hyq⟩ | ⟨p, hp, hlast, hpy⟩ := located hne y
  · have hlevel : f a = f y := by
      rw [hf.before p hp hfirst a (hay.trans hyp), hf.before p hp hfirst y hyp]
    have hle := total_le_of_level hlevel hay
    linarith
  · obtain hinside | houtside := le_or_gt p.x a
    · have hleast := min_total_le_total hf h hpq hinside hay hyq.le
      have hnext := hbelow q hpq.right (hay.trans hyq.le)
      rw [hpoint hpq.right] at hleast
      obtain hle | hle := min_le_iff.mp hleast
      · linarith
      · linarith
    · have hleast := min_total_le_total hf h hpq le_rfl hpy hyq.le
      have hbefore := hbelow p hpq.left houtside.le
      rw [hpoint hpq.left, hpoint hpq.right,
        min_eq_left (h.rises p hpq.left q hpq.right hpq.before.le)] at hleast
      linarith
  · have hlevel : f p.x = f y := by
      rw [hf.after p hp hlast p.x le_rfl, hf.after p hp hlast y hpy]
    obtain hinside | houtside := le_or_gt p.x a
    · have hle := total_le_of_level ((hf.after p hp hlast a hinside).trans
        (hf.after p hp hlast y hpy).symm) hay
      linarith
    · have hle := total_le_of_level hlevel hpy
      have hbefore := hbelow p hp houtside.le
      rw [hpoint hp] at hle
      linarith

theorem staysBelow_iff {slack : ℝ} (hslack : 0 ≤ slack) :
    StaysBelow points f slack a ↔ ∀ y, a ≤ y → total f a ≤ total f y + slack := by
  refine ⟨fun hbelow y hay => hbelow.total_le hne hf h hslack hay, fun hall p hp hap => ?_⟩
  have hle := hall p.x hap
  rwa [total, total, hf.through p hp] at hle

/-- It is enough that the volatility does not fall too steeply between the neighbours around the place, if
there are any. -/
theorem staysBelow_of_neighbours {slack : ℝ} (hslack : 0 ≤ slack)
    (hslope : ∀ p q, Neighbours points p q → p.x < a → a < q.x →
      2 * (p.y - q.y) * q.x ≤ q.y * (q.x - p.x)) : StaysBelow points f slack a := by
  intro r hr har
  have hsame (heq : a = r.x) : total f a ≤ r.y ^ 2 * r.x + slack := by
    rw [heq, total, hf.through r hr]
    linarith
  obtain ⟨p, hp, hfirst, hap⟩ | ⟨p, q, hpq, hpa, haq⟩ | ⟨p, hp, hlast, hpa⟩ := located hne a
  · have hlevel : f a = f p.x := by
      rw [hf.before p hp hfirst a hap, hf.through p hp]
    have hle := total_le_of_level hlevel hap
    have hrises := h.rises p hp r hr (hfirst r hr)
    rw [total, total, hf.through p hp] at hle
    rw [total]
    linarith
  · obtain hbefore | hafter := hpq.nothing_between r hr
    · exact hsame (le_antisymm har (hbefore.trans hpa))
    · have hrises := h.rises q hpq.right r hr hafter
      obtain rfl | hinside := hpa.eq_or_lt
      · have hfirst := h.rises p hpq.left q hpq.right hpq.before.le
        rw [total, hf.through p hpq.left]
        linarith
      · have hwidth : 0 < q.x - p.x := sub_pos.mpr hpq.before
        have hlevel : f a = q.y + (p.y - q.y) / (q.x - p.x) * (q.x - a) := by
          rw [hf.straight p q hpq a ⟨hpa, haq.le⟩]
          field_simp
          ring
        have hsteep : 2 * ((p.y - q.y) / (q.x - p.x)) * q.x ≤ q.y := by
          have hquotient : 2 * ((p.y - q.y) / (q.x - p.x)) * q.x = 2 * (p.y - q.y) * q.x / (q.x - p.x) := by
            ring
          rw [hquotient, div_le_iff₀ hwidth]
          exact hslope p q hpq hinside haq
        have hnonneg := nonneg_of_mem_segment hf h hpq ⟨hpa, haq.le⟩
        rw [hlevel] at hnonneg
        have hle := total_le_of_slope (h.nonneg q hpq.right) (sub_nonneg.mpr haq.le)
          (by linarith [h.positive p hpq.left]) hnonneg hsteep
        rw [sub_sub_cancel, ← hlevel] at hle
        rw [total]
        linarith
  · exact hsame (le_antisymm har ((hlast r hr).trans hpa))

end Line

end Point

end OptionDesk
