import OptionDesk.Proofs.Interpolation.BrokenLine
import OptionDesk.Volatility.Surface
import Mathlib.Data.List.Perm.Basic
import Mathlib.Data.Set.Finite.Lemmas
import Mathlib.Order.Interval.Set.UnorderedInterval

/-!
# Points in any order

Points at different places are put in order before a broken line is laid through them, so the line does
not depend on the order that they are given in. It goes through each point, is straight between
neighbours, stays between their heights and is level before the first and after the last point.
-/
namespace OptionDesk

open Exact

namespace Point

noncomputable section

/-- The points from left to right. -/
def sorted (points : List (Point ℝ)) : List (Point ℝ) := points.mergeSort fun p q => decide (p.x ≤ q.x)

/-- Height of the broken line through the points. -/
def height (points : List (Point ℝ)) (x : ℝ) : ℝ :=
  match sorted points with
  | [] => 0
  | p :: rest => brokenLine p rest x

end

/-- One point follows another one from left to right, with none between them. -/
structure Neighbours (points : List (Point ℝ)) (p q : Point ℝ) : Prop where
  left : p ∈ points
  right : q ∈ points
  before : p.x < q.x
  nothing_between : ∀ r ∈ points, r.x ≤ p.x ∨ q.x ≤ r.x

/-- A function follows the points: straight between neighbours, and level beyond the ends. -/
structure Joins (points : List (Point ℝ)) (f : ℝ → ℝ) : Prop where
  through : ∀ p ∈ points, f p.x = p.y
  straight : ∀ p q, Neighbours points p q → ∀ x ∈ Set.Icc p.x q.x,
    f x = (q.y - p.y) / (q.x - p.x) * (x - p.x) + p.y
  between : ∀ p q, Neighbours points p q → ∀ x ∈ Set.Icc p.x q.x, f x ∈ Set.uIcc p.y q.y
  before : ∀ p ∈ points, (∀ q ∈ points, p.x ≤ q.x) → ∀ x ≤ p.x, f x = p.y
  after : ∀ p ∈ points, (∀ q ∈ points, q.x ≤ p.x) → ∀ x ≥ p.x, f x = p.y

variable {points points' : List (Point ℝ)}

/-! ## Sorting -/

@[simp] theorem mem_sorted {p : Point ℝ} : p ∈ sorted points ↔ p ∈ points := List.mem_mergeSort

theorem perm_sorted (points : List (Point ℝ)) : (sorted points).Perm points := List.mergeSort_perm _ _

theorem sorted_ne_nil (h : points ≠ []) : sorted points ≠ [] := by
  intro hnil
  have hperm := perm_sorted points
  rw [hnil] at hperm
  exact h hperm.nil_eq.symm

theorem increasing_sorted (h : (points.map Point.x).Nodup) :
    (sorted points).Pairwise fun p q => p.x < q.x := by
  have hordered : (sorted points).Pairwise fun p q => p.x ≤ q.x := by
    have hpairs : (sorted points).Pairwise fun p q => decide (p.x ≤ q.x) = true :=
      List.pairwise_mergeSort
        (fun p q r hpq hqr => decide_eq_true ((of_decide_eq_true hpq).trans (of_decide_eq_true hqr)))
        (fun p q => by simpa using le_total p.x q.x) points
    simpa only [decide_eq_true_eq] using hpairs
  have hdistinct : (sorted points).Pairwise fun p q => p.x ≠ q.x :=
    List.pairwise_map.mp (((perm_sorted points).map Point.x).nodup_iff.mpr h)
  exact hordered.imp₂ (fun _ _ hle hne => lt_of_le_of_ne hle hne) hdistinct

theorem sorted_eq_of_perm (h : points.Perm points') (hdistinct : (points.map Point.x).Nodup) :
    sorted points = sorted points' := by
  have hdistinct' : (points'.map Point.x).Nodup := (h.map Point.x).nodup_iff.mp hdistinct
  refine List.Perm.eq_of_pairwise (fun p q _ _ hpq hqp => absurd (hpq.trans hqp) (lt_irrefl _))
    (increasing_sorted hdistinct) (increasing_sorted hdistinct') ?_
  exact (perm_sorted points).trans (h.trans (perm_sorted points').symm)

theorem height_eq_of_perm (h : points.Perm points') (hdistinct : (points.map Point.x).Nodup) :
    height points = height points' := by
  funext x
  rw [height, height, sorted_eq_of_perm h hdistinct]

theorem height_singleton (p : Point ℝ) (x : ℝ) : height [p] x = p.y := by
  rw [height, sorted, List.mergeSort_singleton]
  rfl

theorem sortedPoints_exact (points : List (Point ℝ)) :
    Surface.sortedPoints (points.map exact) = (sorted points).map exact := by
  refine (List.map_mergeSort fun p _ q _ => ?_).symm
  have hdefined : Scalar.isNaN q.exact.x = false := rfl
  rw [Surface.orderedBefore, hdefined, Bool.or_false]
  exact decide_eq_decide.mpr (real_le p.x q.x).symm

theorem interpolate_sortedPoints (hne : points ≠ []) (hdistinct : (points.map Point.x).Nodup) (x : ℝ) :
    interpolate (Surface.sortedPoints (points.map exact)) (real x) = real (height points x) := by
  have hincreasing := increasing_sorted hdistinct
  rw [sortedPoints_exact, height]
  cases hsorted : sorted points with
  | nil => exact absurd hsorted (sorted_ne_nil hne)
  | cons p rest =>
    rw [hsorted] at hincreasing
    exact interpolate_exact hincreasing

/-! ## Neighbours -/

/-- Neighbours stand next to each other in order. -/
theorem Neighbours.adjacent {l : List (Point ℝ)} (hl : l.Pairwise fun p q => p.x < q.x) {p q : Point ℝ}
    (h : Neighbours l p q) : [p, q] <:+: l := by
  induction l with
  | nil => exact absurd h.left List.not_mem_nil
  | cons a l ih =>
    have hfirst : ∀ r ∈ l, a.x < r.x := fun r hr => List.rel_of_pairwise_cons hl hr
    have hq : q ∈ l := by
      obtain rfl | hq := List.mem_cons.mp h.right
      · exact absurd h.before (x_le_of_mem hl h.left).not_gt
      · exact hq
    obtain rfl | hp := List.mem_cons.mp h.left
    · cases l with
      | nil => exact absurd hq List.not_mem_nil
      | cons b l =>
        obtain rfl | hlater := List.mem_cons.mp hq
        · exact (List.prefix_append [p, q] l).isInfix
        · have hbq : b.x < q.x := List.rel_of_pairwise_cons hl.of_cons hlater
          obtain hle | hle := h.nothing_between b (List.mem_cons_of_mem _ List.mem_cons_self)
          · exact absurd (hfirst b List.mem_cons_self) hle.not_gt
          · exact absurd hbq hle.not_gt
    · exact List.infix_cons (ih hl.of_cons ⟨hp, hq, h.before, fun r hr =>
        h.nothing_between r (List.mem_cons_of_mem _ hr)⟩)

/-- Of the points with a property there is one furthest to the left and one furthest to the right. -/
theorem exists_extremes {P : Point ℝ → Prop} (h : ∃ p ∈ points, P p) :
    (∃ p ∈ points, P p ∧ ∀ q ∈ points, P q → p.x ≤ q.x) ∧
      ∃ p ∈ points, P p ∧ ∀ q ∈ points, P q → q.x ≤ p.x := by
  have hfinite : {p | p ∈ points ∧ P p}.Finite := points.finite_toSet.subset fun p hp => hp.1
  have hnonempty : {p | p ∈ points ∧ P p}.Nonempty := h
  obtain ⟨p, ⟨hp, hPp⟩, hleast⟩ := Set.exists_min_image _ Point.x hfinite hnonempty
  obtain ⟨r, ⟨hr, hPr⟩, hgreatest⟩ := Set.exists_max_image _ Point.x hfinite hnonempty
  exact ⟨⟨p, hp, hPp, fun q hq hPq => hleast q ⟨hq, hPq⟩⟩,
    r, hr, hPr, fun q hq hPq => hgreatest q ⟨hq, hPq⟩⟩

/-- Every place is up to the first point, between two neighbours, or from the last point on. -/
theorem located (hne : points ≠ []) (x : ℝ) :
    (∃ p ∈ points, (∀ q ∈ points, p.x ≤ q.x) ∧ x ≤ p.x) ∨
      (∃ p q, Neighbours points p q ∧ p.x ≤ x ∧ x < q.x) ∨
      ∃ p ∈ points, (∀ q ∈ points, q.x ≤ p.x) ∧ p.x ≤ x := by
  obtain ⟨r, hr⟩ := List.exists_mem_of_ne_nil points hne
  by_cases hbefore : ∃ p ∈ points, p.x ≤ x
  · obtain ⟨p, hp, hpx, hlast⟩ := (exists_extremes hbefore).2
    by_cases hafter : ∃ q ∈ points, x < q.x
    · obtain ⟨q, hq, hxq, hfirst⟩ := (exists_extremes hafter).1
      exact .inr (.inl ⟨p, q, ⟨hp, hq, hpx.trans_lt hxq, fun s hs =>
        (le_or_gt s.x x).imp (hlast s hs) (hfirst s hs)⟩, hpx, hxq⟩)
    · push Not at hafter
      exact .inr (.inr ⟨p, hp, fun q hq => hlast q hq (hafter q hq), hpx⟩)
  · push Not at hbefore
    obtain ⟨p, hp, -, hfirst⟩ := (exists_extremes (P := fun _ => True) ⟨r, hr, trivial⟩).1
    exact .inl ⟨p, hp, fun q hq => hfirst q hq trivial, (hbefore p hp).le⟩

theorem Neighbours.congr (hmem : ∀ p, p ∈ points ↔ p ∈ points') {p q : Point ℝ}
    (h : Neighbours points p q) : Neighbours points' p q :=
  ⟨(hmem p).mp h.left, (hmem q).mp h.right, h.before, fun r hr => h.nothing_between r ((hmem r).mpr hr)⟩

/-- Neither the order of the points matters nor their repetitions. -/
theorem Joins.congr {f : ℝ → ℝ} (h : Joins points f) (hmem : ∀ p, p ∈ points ↔ p ∈ points') :
    Joins points' f := by
  have hneighbours {p q : Point ℝ} (hpq : Neighbours points' p q) : Neighbours points p q :=
    hpq.congr fun r => (hmem r).symm
  refine ⟨fun p hp => h.through p ((hmem p).mpr hp), fun p q hpq => h.straight p q (hneighbours hpq),
    fun p q hpq => h.between p q (hneighbours hpq), fun p hp hfirst => ?_, fun p hp hlast => ?_⟩
  · exact h.before p ((hmem p).mpr hp) fun q hq => hfirst q ((hmem q).mp hq)
  · exact h.after p ((hmem p).mpr hp) fun q hq => hlast q ((hmem q).mp hq)

/-- The broken line through points in order follows them. -/
theorem joins_brokenLine {p : Point ℝ} {rest : List (Point ℝ)}
    (h : (p :: rest).Pairwise fun p q => p.x < q.x) : Joins (p :: rest) (brokenLine p rest) := by
  have hstraight (q r : Point ℝ) (hqr : Neighbours (p :: rest) q r) (x : ℝ) (hx : x ∈ Set.Icc q.x r.x) :=
    brokenLine_of_neighbours h (hqr.adjacent h) hx.1 hx.2
  have hthrough (q : Point ℝ) (hq : q ∈ p :: rest) := brokenLine_of_mem h hq
  refine ⟨hthrough, hstraight, fun q r hqr x hx => ?_, fun q hq hfirst x hx => ?_, fun q hq hlast x hx => ?_⟩
  · obtain hlt | rfl := hx.2.lt_or_eq
    · rw [hstraight q r hqr x hx]
      exact segment_mem (convex_uIcc q.y r.y) hx.1 hlt Set.left_mem_uIcc Set.right_mem_uIcc
    · rw [hthrough r hqr.right]
      exact Set.right_mem_uIcc
  · have hle : q.x ≤ p.x := hfirst p List.mem_cons_self
    rw [brokenLine_of_le h (hx.trans hle), ← hthrough q hq, brokenLine_of_le h hle]
  · have hge : (rest.getLastD p).x ≤ q.x := hlast _ List.getLastD_mem_cons
    rw [brokenLine_of_ge h (hge.trans hx), ← hthrough q hq, brokenLine_of_ge h hge]

theorem joins_height (hne : points ≠ []) (hdistinct : (points.map Point.x).Nodup) :
    Joins points (height points) := by
  have hincreasing := increasing_sorted hdistinct
  have hmem (p : Point ℝ) : p ∈ sorted points ↔ p ∈ points := mem_sorted
  unfold height
  cases hsorted : sorted points with
  | nil => exact absurd hsorted (sorted_ne_nil hne)
  | cons p rest =>
    rw [hsorted] at hincreasing hmem
    exact (joins_brokenLine hincreasing).congr hmem

end Point

end OptionDesk
