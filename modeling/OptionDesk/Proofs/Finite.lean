import OptionDesk.Interpolation
import OptionDesk.Proofs.Exact

/-!
# Finite numbers

A check refuses what compares as too small, and an undefined number does not compare at all, so what is left
after a check is read off only when the number is finite. For that a few laws of order are enough. They
hold in exact arithmetic, whatever function its exponential is, and also where differences are rounded.

To stay among finite numbers is another matter: exact arithmetic does, and an arithmetic that overflows or
underflows does not. Where it holds, a line through finite points has finite heights.
-/
namespace OptionDesk

namespace Scalar

/-- Finite numbers compare as numbers do, and a difference is on the side of zero on which it should be. -/
structure OrdersFinite (α : Type) [Scalar α] : Prop where
  pos_of_not_le : ∀ x : α, isFinite x = true → ¬x ≤ 0 → 0 < x
  nonneg_of_not_lt : ∀ x : α, isFinite x = true → ¬x < 0 → 0 ≤ x
  lt_of_not_sub_le : ∀ x y : α, isFinite x = true → isFinite y = true → ¬y - x ≤ 0 → x < y
  lt_trans : ∀ x y z : α, isFinite x = true → isFinite y = true → isFinite z = true →
    x < y → y < z → x < z

/-- What is calculated from finite numbers is finite, and neither a difference nor an exponential vanishes. -/
structure IsUnbounded (α : Type) [Scalar α] : Prop where
  defined : ∀ x : α, isFinite x = true → isNaN x = false
  neg : ∀ x : α, isFinite x = true → isFinite (-x) = true
  add : ∀ x y : α, isFinite x = true → isFinite y = true → isFinite (x + y) = true
  sub : ∀ x y : α, isFinite x = true → isFinite y = true → isFinite (x - y) = true
  mul : ∀ x y : α, isFinite x = true → isFinite y = true → isFinite (x * y) = true
  div : ∀ x y : α, isFinite x = true → isFinite y = true → 0 < y → isFinite (x / y) = true
  sub_pos : ∀ x y : α, isFinite x = true → isFinite y = true → x < y → 0 < y - x
  log : ∀ x : α, isFinite x = true → 0 < x → isFinite (log x) = true
  exp : ∀ x : α, isFinite x = true → isFinite (exp x) = true ∧ 0 < exp x

end Scalar

namespace Exact

theorem ordersFinite_withExp (exp : Exact → Exact) : @Scalar.OrdersFinite Exact (withExp exp) := by
  let _ := withExp exp
  refine ⟨fun x hx h => ?_, fun x hx h => ?_, fun x y hx hy h => ?_, fun x y z hx hy hz hxy hyz => ?_⟩
  · obtain ⟨r, rfl⟩ := isFinite_iff.mp hx
    exact not_real_le_zero.mp h
  · obtain ⟨r, rfl⟩ := isFinite_iff.mp hx
    exact (real_le 0 r).mpr (not_real_lt_zero.mp h)
  · obtain ⟨r, rfl⟩ := isFinite_iff.mp hx
    obtain ⟨s, rfl⟩ := isFinite_iff.mp hy
    have hpositive : 0 < s + -r := not_real_le_zero.mp h
    exact (real_lt r s).mpr (by linarith)
  · obtain ⟨r, rfl⟩ := isFinite_iff.mp hx
    obtain ⟨s, rfl⟩ := isFinite_iff.mp hy
    obtain ⟨t, rfl⟩ := isFinite_iff.mp hz
    exact lt_trans (α := ℝ) hxy hyz

theorem ordersFinite : Scalar.OrdersFinite Exact := ordersFinite_withExp Scalar.exp

theorem isUnbounded : Scalar.IsUnbounded Exact where
  defined x hx := by
    obtain ⟨r, rfl⟩ := isFinite_iff.mp hx
    rfl
  neg x hx := by
    obtain ⟨r, rfl⟩ := isFinite_iff.mp hx
    rfl
  add x y hx hy := isFinite_add.mpr ⟨hx, hy⟩
  sub x y hx hy := by
    obtain ⟨r, rfl⟩ := isFinite_iff.mp hx
    obtain ⟨s, rfl⟩ := isFinite_iff.mp hy
    rfl
  mul x y hx hy := isFinite_mul.mpr ⟨hx, hy⟩
  div x y hx hy hpositive := by
    obtain ⟨r, rfl⟩ := isFinite_iff.mp hx
    obtain ⟨s, rfl⟩ := isFinite_iff.mp hy
    rw [real_div r (ne_of_gt hpositive)]
    rfl
  sub_pos x y hx hy hlt := by
    obtain ⟨r, rfl⟩ := isFinite_iff.mp hx
    obtain ⟨s, rfl⟩ := isFinite_iff.mp hy
    rw [real_sub, zero_eq, real_lt]
    exact sub_pos.mpr hlt
  log x hx hpositive := by
    obtain ⟨r, rfl⟩ := isFinite_iff.mp hx
    rw [real_log hpositive]
    rfl
  exp x hx := by
    obtain ⟨r, rfl⟩ := isFinite_iff.mp hx
    exact ⟨rfl, Real.exp_pos r⟩

/-- An exponential with a range like that of binary64 numbers: it vanishes far below zero and is infinite far
above. -/
noncomputable def rangedExp : Exact → Exact
  | real x => if x < -746 then real 0 else if 710 < x then above else real (Real.exp x)
  | x => Scalar.exp x

end Exact

/-! ## Lines -/

namespace Point

variable {α : Type} [Scalar α]

structure IsFinite (p : Point α) : Prop where
  x : Scalar.isFinite p.x = true
  y : Scalar.isFinite p.y = true

variable (hα : Scalar.IsUnbounded α) {x : α}

include hα

theorem isFinite_line {p q : Point α} (hp : p.IsFinite) (hq : q.IsFinite) (hpq : p.x < q.x)
    (hx : Scalar.isFinite x = true) : Scalar.isFinite (line p q x) = true := by
  have hslope : Scalar.isFinite ((q.y - p.y) / (q.x - p.x)) = true :=
    hα.div _ _ (hα.sub _ _ hq.y hp.y) (hα.sub _ _ hq.x hp.x) (hα.sub_pos _ _ hp.x hq.x hpq)
  have hheight : Scalar.isFinite ((q.y - p.y) / (q.x - p.x) * (x - p.x) + p.y) = true :=
    hα.add _ _ (hα.mul _ _ hslope (hα.sub _ _ hx hp.x)) hp.y
  simp only [line, hα.defined _ hheight, Bool.not_false, if_true]
  exact hheight

theorem isFinite_follow {p : Point α} {points : List (Point α)} (hp : p.IsFinite)
    (hpoints : ∀ q ∈ points, q.IsFinite) (hsorted : (p :: points).Pairwise fun p q => p.x < q.x)
    (hx : Scalar.isFinite x = true) : Scalar.isFinite (follow x p points) = true := by
  induction points generalizing p with
  | nil => exact hp.y
  | cons q points ih =>
    have hq := hpoints q List.mem_cons_self
    rw [List.pairwise_cons] at hsorted
    rw [follow]
    split
    · exact ih hq (fun r hr => hpoints r (List.mem_cons_of_mem _ hr)) hsorted.2
    · split
      · exact hp.y
      · exact isFinite_line hα hp hq (hsorted.1 q List.mem_cons_self) hx

/-- Through finite points in order a broken line has finite heights. -/
theorem isFinite_interpolate {points : List (Point α)} (hne : points ≠ [])
    (hpoints : ∀ p ∈ points, p.IsFinite) (hsorted : points.Pairwise fun p q => p.x < q.x)
    (hx : Scalar.isFinite x = true) : Scalar.isFinite (interpolate points x) = true := by
  match points, hne with
  | [p], _ => exact (hpoints p List.mem_cons_self).y
  | p :: q :: rest, _ =>
    have hlast : rest.getLastD q ∈ p :: q :: rest := List.mem_cons_of_mem _ List.getLastD_mem_cons
    have hrest : ∀ r ∈ q :: rest, r.IsFinite := fun r hr => hpoints r (List.mem_cons_of_mem _ hr)
    simp only [interpolate]
    split
    · exact hx
    · split
      · exact (hpoints _ hlast).y
      · split
        · exact (hpoints p List.mem_cons_self).y
        · exact isFinite_follow hα (hpoints p List.mem_cons_self) hrest hsorted hx

end Point

end OptionDesk
