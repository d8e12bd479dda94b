import OptionDesk.Interpolation
import OptionDesk.Proofs.Exact
import Mathlib.Analysis.Convex.Basic
import Mathlib.Tactic.Linarith

/-!
# Broken lines through real points

The broken line through points with real coordinates has a real height at every real place, whatever
the order of the points: a segment is only used between a point that is not after the place and one
that is, so its ends are apart. The height lies among those of the points: any convex set that holds
their heights holds it too.
-/
namespace OptionDesk

open Exact

namespace Point

/-- Both coordinates are real. -/
def IsReal (p : Point Exact) : Prop := ∃ x y : ℝ, p = ⟨real x, real y⟩

/-- Both coordinates are real, and the height is in a set. -/
def HeightIn (s : Set ℝ) (p : Point Exact) : Prop := ∃ x y : ℝ, y ∈ s ∧ p = ⟨real x, real y⟩

/-- The height of a segment whose ends are apart. -/
theorem line_real {x₁ x₂ : ℝ} (h : x₁ ≠ x₂) (y₁ y₂ x : ℝ) :
    line ⟨real x₁, real y₁⟩ ⟨real x₂, real y₂⟩ (real x) =
      real ((y₂ - y₁) / (x₂ - x₁) * (x - x₁) + y₁) := by
  have hslope : real (y₂ - y₁) / real (x₂ - x₁) = real ((y₂ - y₁) / (x₂ - x₁)) :=
    real_div _ (sub_ne_zero.mpr h.symm)
  simp only [line, real_sub, hslope, real_mul, real_add, isNaN_real, Bool.not_false, if_true]

section Convex

variable {s : Set ℝ} (hs : Convex ℝ s)

include hs

/-- Between its ends a segment is between their heights. -/
theorem segment_mem {x₁ x₂ y₁ y₂ x : ℝ} (h₁ : x₁ ≤ x) (h₂ : x < x₂) (hy₁ : y₁ ∈ s) (hy₂ : y₂ ∈ s) :
    (y₂ - y₁) / (x₂ - x₁) * (x - x₁) + y₁ ∈ s := by
  have hwidth : 0 < x₂ - x₁ := by linarith
  have hshare : (x - x₁) / (x₂ - x₁) ∈ Set.Icc (0 : ℝ) 1 :=
    ⟨div_nonneg (by linarith) hwidth.le, (div_le_one hwidth).mpr (by linarith)⟩
  have hmem := hs.add_smul_sub_mem hy₁ hy₂ hshare
  have hheight : y₁ + ((x - x₁) / (x₂ - x₁)) • (y₂ - y₁) =
      (y₂ - y₁) / (x₂ - x₁) * (x - x₁) + y₁ := by
    rw [smul_eq_mul]
    ring
  rwa [hheight] at hmem

theorem follow_mem {x : ℝ} {p : Point Exact} {points : List (Point Exact)} (hp : p.HeightIn s)
    (hbefore : p.x ≤ real x) (hpoints : ∀ q ∈ points, q.HeightIn s) :
    ∃ y ∈ s, follow (real x) p points = real y := by
  induction points generalizing p with
  | nil =>
    obtain ⟨x₁, y₁, hy₁, rfl⟩ := hp
    exact ⟨y₁, hy₁, rfl⟩
  | cons q points ih =>
    have hq : q.HeightIn s := hpoints q List.mem_cons_self
    rw [follow]
    by_cases hnext : q.x ≤ real x
    · rw [if_pos hnext]
      exact ih hq hnext fun r hr => hpoints r (List.mem_cons_of_mem _ hr)
    · rw [if_neg hnext]
      obtain ⟨x₁, y₁, hy₁, rfl⟩ := hp
      obtain ⟨x₂, y₂, hy₂, rfl⟩ := hq
      rw [real_le] at hbefore hnext
      split
      · exact ⟨y₁, hy₁, rfl⟩
      · exact ⟨_, segment_mem hs hbefore (not_le.mp hnext) hy₁ hy₂,
          line_real (by linarith : x₁ < x₂).ne y₁ y₂ x⟩

/-- The broken line stays among the heights of its points. -/
theorem interpolate_mem {points : List (Point Exact)} (hpoints : ∀ p ∈ points, p.HeightIn s)
    (hne : points ≠ []) (x : ℝ) : ∃ y ∈ s, interpolate points (real x) = real y := by
  match points, hne with
  | [p], _ =>
    obtain ⟨x₁, y₁, hy₁, rfl⟩ := hpoints p List.mem_cons_self
    exact ⟨y₁, hy₁, rfl⟩
  | p :: q :: rest, _ =>
    have hp : p.HeightIn s := hpoints p List.mem_cons_self
    have hrest : ∀ r ∈ q :: rest, r.HeightIn s := fun r hr => hpoints r (List.mem_cons_of_mem _ hr)
    have hlast : (rest.getLastD q).HeightIn s := by
      apply hrest
      rw [List.getLastD_eq_getLast?]
      cases h : rest.getLast? with
      | none => exact List.mem_cons_self
      | some r => exact List.mem_cons_of_mem _ (List.mem_of_getLast? h)
    simp only [interpolate, isNaN_real, Bool.false_eq_true, if_false]
    split
    · obtain ⟨x₁, y₁, hy₁, hpoint⟩ := hlast
      exact ⟨y₁, hy₁, by rw [hpoint]⟩
    · split
      · obtain ⟨x₁, y₁, hy₁, rfl⟩ := hp
        exact ⟨y₁, hy₁, rfl⟩
      · next hbefore =>
        refine follow_mem hs hp ?_ hrest
        obtain ⟨x₁, y₁, -, rfl⟩ := hp
        rw [real_lt, not_lt] at hbefore
        exact (real_le x₁ x).mpr hbefore

end Convex

/-- Real points have a real height at every real place. -/
theorem interpolate_isReal {points : List (Point Exact)} (hpoints : ∀ p ∈ points, p.IsReal)
    (hne : points ≠ []) (x : ℝ) : ∃ y : ℝ, interpolate points (real x) = real y := by
  have hheights : ∀ p ∈ points, p.HeightIn Set.univ := by
    intro p hp
    obtain ⟨a, b, rfl⟩ := hpoints p hp
    exact ⟨a, b, trivial, rfl⟩
  obtain ⟨y, -, hy⟩ := interpolate_mem convex_univ hheights hne x
  exact ⟨y, hy⟩

end Point

end OptionDesk
