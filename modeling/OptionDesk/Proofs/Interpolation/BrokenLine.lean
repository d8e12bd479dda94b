import OptionDesk.Proofs.Interpolation
import Mathlib.Topology.Algebra.Ring.Real
import Mathlib.Topology.Order.Lattice

/-!
# Broken lines as sums of drops

Through points in order the broken line is the height of the last point and, for each pair of
neighbours, the part of the drop between them that is still ahead. Each of these parts is a continuous
function on the whole line, level outside its segment and falling if the drop is not negative, so nothing
has to be glued at the points: the line is continuous, and it falls if the heights of the points do.
-/
namespace OptionDesk

open Exact

namespace Point

noncomputable section

/-- A point with real coordinates, as an exact one. -/
def exact (p : Point ℝ) : Point Exact := ⟨real p.x, real p.y⟩

/-- The part of the drop from one point to the next that is still ahead. -/
def ahead (p q : Point ℝ) (x : ℝ) : ℝ :=
  (p.y - q.y) * ((q.x - max p.x (min x q.x)) / (q.x - p.x))

/-- The height of the broken line through points in order. -/
def brokenLine : Point ℝ → List (Point ℝ) → ℝ → ℝ
  | p, [], _ => p.y
  | p, q :: rest, x => ahead p q x + brokenLine q rest x

end

@[simp] theorem x_exact (p : Point ℝ) : p.exact.x = real p.x := rfl

@[simp] theorem y_exact (p : Point ℝ) : p.exact.y = real p.y := rfl

/-! ## One segment -/

section Segment

variable {p q : Point ℝ} {x : ℝ} (h : p.x < q.x)

include h

theorem ahead_of_le (hx : x ≤ p.x) : ahead p q x = p.y - q.y := by
  rw [ahead, min_eq_left (hx.trans h.le), max_eq_left hx, div_self (sub_pos.mpr h).ne', mul_one]

theorem ahead_of_ge (hx : q.x ≤ x) : ahead p q x = 0 := by
  rw [ahead, min_eq_right hx, max_eq_right h.le, sub_self, zero_div, mul_zero]

omit h in
theorem ahead_of_mem (hp : p.x ≤ x) (hq : x ≤ q.x) :
    ahead p q x = (p.y - q.y) * ((q.x - x) / (q.x - p.x)) := by
  rw [ahead, min_eq_left hq, max_eq_right hp]

omit h in
theorem continuous_ahead : Continuous (ahead p q) := by
  unfold ahead
  fun_prop

theorem antitone_ahead (hdrop : q.y ≤ p.y) : Antitone (ahead p q) := by
  intro x y hxy
  refine mul_le_mul_of_nonneg_left ?_ (sub_nonneg.mpr hdrop)
  gcongr

/-- On its segment the line through two points, and their drop ahead of the second one, are the same. -/
theorem ahead_add_eq (hp : p.x ≤ x) (hq : x ≤ q.x) :
    ahead p q x + q.y = (q.y - p.y) / (q.x - p.x) * (x - p.x) + p.y := by
  have hwidth : q.x - p.x ≠ 0 := (sub_pos.mpr h).ne'
  rw [ahead_of_mem hp hq]
  field_simp
  ring

end Segment

/-! ## The whole line -/

theorem continuous_brokenLine (p : Point ℝ) (points : List (Point ℝ)) :
    Continuous (brokenLine p points) := by
  induction points generalizing p with
  | nil => exact continuous_const
  | cons q points ih => exact continuous_ahead.add (ih q)

section Ordered

variable {p : Point ℝ} {points : List (Point ℝ)} {x : ℝ}
  (h : (p :: points).Pairwise fun p q => p.x < q.x)

include h

theorem x_le_of_mem {q : Point ℝ} (hq : q ∈ p :: points) : p.x ≤ q.x := by
  obtain rfl | hq := List.mem_cons.mp hq
  · exact le_rfl
  · exact (List.rel_of_pairwise_cons h hq).le

/-- Up to its first point the line is level. -/
theorem brokenLine_of_le (hx : x ≤ p.x) : brokenLine p points x = p.y := by
  induction points generalizing p with
  | nil => rfl
  | cons q points ih =>
    have hpq : p.x < q.x := List.rel_of_pairwise_cons h List.mem_cons_self
    rw [brokenLine, ahead_of_le hpq hx, ih h.of_cons (hx.trans hpq.le), sub_add_cancel]

/-- On the segment between two neighbours the line is the line through them. -/
theorem brokenLine_of_neighbours {q r : Point ℝ} (hqr : [q, r] <:+: p :: points) (hq : q.x ≤ x)
    (hr : x ≤ r.x) : brokenLine p points x = (r.y - q.y) / (r.x - q.x) * (x - q.x) + q.y := by
  induction points generalizing p with
  | nil =>
    have hlength := hqr.length_le
    simp at hlength
  | cons s points ih =>
    have hps : p.x < s.x := List.rel_of_pairwise_cons h List.mem_cons_self
    obtain hfirst | hlater := List.infix_cons_iff.mp hqr
    · obtain ⟨rfl, hrest⟩ := List.cons_prefix_cons.mp hfirst
      obtain ⟨rfl, -⟩ := List.cons_prefix_cons.mp hrest
      rw [brokenLine, brokenLine_of_le h.of_cons hr, ahead_add_eq hps hq hr]
    · have hsq : s.x ≤ q.x := x_le_of_mem h.of_cons (hlater.subset List.mem_cons_self)
      rw [brokenLine, ahead_of_ge hps (hsq.trans hq), zero_add, ih h.of_cons hlater]

/-- The line goes through its points. -/
theorem brokenLine_of_mem {q : Point ℝ} (hq : q ∈ p :: points) : brokenLine p points q.x = q.y := by
  induction points generalizing p with
  | nil =>
    rw [List.mem_singleton.mp hq]
    rfl
  | cons r points ih =>
    have hpr : p.x < r.x := List.rel_of_pairwise_cons h List.mem_cons_self
    obtain rfl | hlater := List.mem_cons.mp hq
    · exact brokenLine_of_le h le_rfl
    · rw [brokenLine, ahead_of_ge hpr (x_le_of_mem h.of_cons hlater), zero_add, ih h.of_cons hlater]

/-- From its last point on the line is level. -/
theorem brokenLine_of_ge (hx : (points.getLastD p).x ≤ x) :
    brokenLine p points x = (points.getLastD p).y := by
  induction points generalizing p with
  | nil => rfl
  | cons q points ih =>
    have hpq : p.x < q.x := List.rel_of_pairwise_cons h List.mem_cons_self
    have hlast : q.x ≤ (points.getLastD q).x := x_le_of_mem h.of_cons List.getLastD_mem_cons
    rw [List.getLastD_cons] at hx ⊢
    rw [brokenLine, ahead_of_ge hpq (hlast.trans hx), zero_add, ih h.of_cons hx]

/-- Between its ends the line through points of a straight one is that straight line. -/
theorem brokenLine_of_proportional {a : ℝ} (hheights : ∀ q ∈ p :: points, q.y = a * q.x)
    (hfirst : p.x ≤ x) (hlast : x ≤ (points.getLastD p).x) : brokenLine p points x = a * x := by
  induction points generalizing p with
  | nil =>
    obtain rfl : x = p.x := le_antisymm hlast hfirst
    exact hheights p List.mem_cons_self
  | cons q points ih =>
    have hpq : p.x < q.x := List.rel_of_pairwise_cons h List.mem_cons_self
    have hrest : ∀ r ∈ q :: points, r.y = a * r.x := fun r hr => hheights r (List.mem_cons_of_mem _ hr)
    rw [brokenLine]
    by_cases hnext : x ≤ q.x
    · have hslope : a * q.x - a * p.x = a * (q.x - p.x) := (mul_sub _ _ _).symm
      rw [brokenLine_of_le h.of_cons hnext, ahead_add_eq hpq hfirst hnext,
        hheights p List.mem_cons_self, hrest q List.mem_cons_self, hslope,
        mul_div_cancel_right₀ _ (sub_pos.mpr hpq).ne']
      ring
    · have hlate : q.x ≤ x := (not_le.mp hnext).le
      rw [List.getLastD_cons] at hlast
      rw [ahead_of_ge hpq hlate, zero_add, ih h.of_cons hrest hlate hlast]

/-- The line falls if the heights of its points do. -/
theorem antitone_brokenLine (hheights : (p :: points).Pairwise fun p q => q.y ≤ p.y) :
    Antitone (brokenLine p points) := by
  induction points generalizing p with
  | nil => exact antitone_const
  | cons q points ih =>
    have hpq : p.x < q.x := List.rel_of_pairwise_cons h List.mem_cons_self
    have hdrop : q.y ≤ p.y := List.rel_of_pairwise_cons hheights List.mem_cons_self
    exact (antitone_ahead hpq hdrop).add (ih h.of_cons hheights.of_cons)

theorem follow_exact (hx : p.x ≤ x) :
    follow (real x) p.exact (points.map exact) = real (brokenLine p points x) := by
  induction points generalizing p with
  | nil => rfl
  | cons q points ih =>
    have hpq : p.x < q.x := List.rel_of_pairwise_cons h List.mem_cons_self
    rw [List.map_cons, follow, brokenLine, x_exact, x_exact, y_exact, real_beq]
    by_cases hnext : q.x ≤ x
    · rw [if_pos ((real_le q.x x).mpr hnext), ih h.of_cons hnext, ahead_of_ge hpq hnext, zero_add]
    · have hbefore : x ≤ q.x := (not_le.mp hnext).le
      rw [if_neg (mt (real_le q.x x).mp hnext), brokenLine_of_le h.of_cons hbefore,
        ahead_add_eq hpq hx hbefore]
      split
      · next hfirst =>
        rw [of_decide_eq_true hfirst, sub_self, mul_zero, zero_add]
      · exact line_real hpq.ne p.y q.y x

/-- Interpolation between real points follows the broken line through them. -/
theorem interpolate_exact : interpolate ((p :: points).map exact) (real x) =
    real (brokenLine p points x) := by
  cases points with
  | nil => rfl
  | cons q points =>
    rw [List.map_cons, List.map_cons, interpolate, isNaN_real, if_neg Bool.false_ne_true,
      List.getLastD_map, x_exact, x_exact, y_exact, y_exact]
    by_cases hafter : (points.getLastD q).x < x
    · have hlast : ((q :: points).getLastD p).x ≤ x := by
        rw [List.getLastD_cons]
        exact hafter.le
      rw [if_pos ((real_lt _ x).mpr hafter), brokenLine_of_ge h hlast, List.getLastD_cons]
    · rw [if_neg (mt (real_lt _ x).mp hafter)]
      by_cases hbefore : x < p.x
      · rw [if_pos ((real_lt x p.x).mpr hbefore), brokenLine_of_le h hbefore.le]
      · rw [if_neg (mt (real_lt x p.x).mp hbefore)]
        exact follow_exact h (not_lt.mp hbefore)

/-- The line stays among the heights of its points. -/
theorem brokenLine_mem {s : Set ℝ} (hs : Convex ℝ s) (hheights : ∀ q ∈ p :: points, q.y ∈ s) :
    brokenLine p points x ∈ s := by
  have hpoints : ∀ q ∈ (p :: points).map exact, q.HeightIn s := by
    intro q hq
    obtain ⟨r, hr, rfl⟩ := List.mem_map.mp hq
    exact ⟨r.x, r.y, hheights r hr, rfl⟩
  obtain ⟨y, hy, heq⟩ := interpolate_mem hs hpoints (List.cons_ne_nil _ _) x
  rw [interpolate_exact h, real.injEq] at heq
  rwa [heq]

end Ordered

end Point

end OptionDesk
