import OptionDesk.Proofs.Binary64
import OptionDesk.Proofs.Curve.LogLinear

/-!
# What construction lets through

A curve is sound if its times are finite and increase, its factors are finite and positive, and there is a
node unless it follows a flat rate. Construction refuses a step between two times, or a factor, that is at
most zero. An undefined number is not at most zero, nor is an infinite one above, and in an empty list
there is nothing to refuse, so all of these are let through. They are all that is, in exact arithmetic and
among the numbers on which the library runs: a curve that has been built is sound exactly if its entries are
finite and it has a node or a rate.

A sound curve answers every time with the exponential of a number, unless its rate is a text, with which
nothing can be calculated. The answer is positive and finite as long as the arithmetic neither overflows nor
underflows. No check sees to that: where an exponential vanishes far below zero, so does a factor.
-/
namespace OptionDesk

open Exact

namespace Node

/-- Time and factor are finite numbers. -/
structure IsFinite {α : Type} [Scalar α] (n : Node α) : Prop where
  time : Scalar.isFinite n.time = true
  factor : Scalar.isFinite n.factor = true

theorem isFinite_exact (n : Node ℝ) : n.exact.IsFinite := ⟨rfl, rfl⟩

end Node

namespace DiscountCurve

section

variable {α : Type} [Scalar α] {c : DiscountCurve α}

/-- The curve that is meant: nodes in order with positive factors, and something to answer from. -/
structure IsSound (c : DiscountCurve α) : Prop where
  finite : ∀ n ∈ c.nodes, n.IsFinite
  increasing : c.nodes.Pairwise fun m n => m.time < n.time
  positive : ∀ n ∈ c.nodes, 0 < n.factor
  node_or_rate : c.flatRate = none → c.nodes ≠ []

/-- The number that the factor at a time is the exponential of. -/
def exponent (c : DiscountCurve α) (t : α) : Except Misuse α :=
  match c.flatRate with
  | some f => f.operand.map fun r => -r * t
  | none => .ok (Point.interpolate (c.nodes.map fun n => ⟨n.time, Scalar.log n.factor⟩) t)

/-- Among finite entries the refusals leave nothing but increasing times and positive factors. -/
theorem isSound_of_ofNodes (hα : Scalar.OrdersFinite α) {reference : DateTime} {nodes : List (Node α)}
    {flatRate : Value α} {dayCount : DayCount}
    (h : (ofNodes reference nodes flatRate dayCount).result = .ok c)
    (hfinite : ∀ n ∈ c.nodes, n.IsFinite) (hnode : c.flatRate = none → c.nodes ≠ []) : c.IsSound := by
  obtain ⟨hincreasing, hpositive, rate, -, rfl⟩ := ofNodes_eq_ok h
  have htimes : ∀ t ∈ nodes.map Node.time, Scalar.isFinite t = true :=
    List.forall_mem_map.mpr fun n hn => (hfinite n hn).time
  exact ⟨hfinite, List.pairwise_map.mp (pairwise_of_increasing hα htimes hincreasing),
    fun n hn => hα.pos_of_not_le _ (hfinite n hn).factor (hpositive n hn), hnode⟩

theorem exists_ofNodes_of_ofPoints {reference times factors flatRate : Value α} {dayCount : DayCount}
    (h : (ofPoints reference times factors flatRate dayCount).result = .ok c) :
    ∃ r nodes, (ofNodes r nodes flatRate dayCount).result = .ok c := by
  simp only [ofPoints, Outcome.result_bind_eq_ok] at h
  obtain ⟨r, -, ts, -, ps, -, h⟩ := h
  split at h
  · obtain ⟨_, -, h⟩ := Outcome.result_bind_eq_ok.mp h
    exact ⟨r, _, h⟩
  · cases h

/-- A sound curve has a factor at every time. -/
theorem IsSound.factorAt (h : c.IsSound) (hrate : ∀ f, c.flatRate = some f → ∃ r, f.operand = .ok r)
    (t : α) : ∃ y, c.exponent t = .ok y ∧ (c.factorAt t).result = .ok (Scalar.exp y) := by
  cases hflat : c.flatRate with
  | none =>
    refine ⟨_, ?_, result_factorAt_of_nodes hflat (h.node_or_rate hflat) t⟩
    rw [exponent, hflat]
  | some f =>
    obtain ⟨r, hr⟩ := hrate f hflat
    refine ⟨-r * t, ?_, ?_⟩
    · rw [exponent, hflat]
      simp only [hr, Except.map]
    · rw [result_factorAt_of_flatRate hflat, hr]
      rfl

theorem IsSound.isFinite_exponent (hα : Scalar.IsUnbounded α) (h : c.IsSound)
    (hread : ∀ f, c.flatRate = some f → ∃ r, f.read = .ok r ∧ Scalar.isFinite r = true) {t y : α}
    (ht : Scalar.isFinite t = true) (hy : c.exponent t = .ok y) : Scalar.isFinite y = true := by
  rw [exponent] at hy
  cases hflat : c.flatRate with
  | none =>
    simp only [hflat, Except.ok.injEq] at hy
    have hpoints : ∀ p ∈ c.nodes.map fun n => (⟨n.time, Scalar.log n.factor⟩ : Point α), p.IsFinite :=
      List.forall_mem_map.mpr fun n hn =>
        ⟨(h.finite n hn).time, hα.log _ (h.finite n hn).factor (h.positive n hn)⟩
    rw [← hy]
    exact Point.isFinite_interpolate hα (mt List.map_eq_nil_iff.mp (h.node_or_rate hflat)) hpoints
      (h.increasing.map _ fun _ _ hlt => hlt) ht
  | some f =>
    obtain ⟨r, hr, hfinite⟩ := hread f hflat
    simp only [hflat] at hy
    cases hx : f.operand with
    | error e =>
      rw [hx] at hy
      cases hy
    | ok x =>
      rw [hx] at hy
      cases hy
      cases (Figure.read_of_operand hx).symm.trans hr
      exact hα.mul _ _ (hα.neg _ hfinite) ht

/-- Whatever is given for times, factors and flat rate: a curve that has been built is sound exactly if its
entries are finite and it has a node or a rate, and then it discounts to every moment. What it answers is
positive and finite in an arithmetic without bounds. -/
theorem built_curves_are_sound_if_finite (hα : Scalar.OrdersFinite α)
    {reference times factors flatRate : Value α} {dayCount : DayCount}
    (h : (ofPoints reference times factors flatRate dayCount).result = .ok c) :
    (c.IsSound ↔ (∀ n ∈ c.nodes, n.IsFinite) ∧ (c.flatRate = none → c.nodes ≠ [])) ∧
      (c.IsSound → (∀ f, c.flatRate = some f → ∃ r, f.operand = .ok r) → ∀ moment t,
        ((Curve.discount c).timeTo moment).result = .ok t →
        ∃ y, c.exponent t = .ok y ∧ ((Curve.discount c).discountAt moment).result = .ok (Scalar.exp y) ∧
          (Scalar.IsUnbounded α → Scalar.isFinite t = true →
            Scalar.isFinite (Scalar.exp y) = true ∧ 0 < Scalar.exp y)) := by
  obtain ⟨r, nodes, hbuilt⟩ := exists_ofNodes_of_ofPoints h
  refine ⟨⟨fun hsound => ⟨hsound.finite, hsound.node_or_rate⟩, fun hfinite =>
    isSound_of_ofNodes hα hbuilt hfinite.1 hfinite.2⟩, fun hsound hrate moment t htime => ?_⟩
  obtain ⟨y, hy, hfactor⟩ := hsound.factorAt hrate t
  refine ⟨y, hy, ?_, fun hunbounded ht => ?_⟩
  · rw [Curve.discountAt, Outcome.result_bind_of_ok htime, hfactor]
  · exact hunbounded.exp y
      (hsound.isFinite_exponent hunbounded (read_flatRate_of_ofNodes hbuilt) ht hy)

end

/-- A curve through three nodes, one of them before the reference date with a factor above one, in exact
arithmetic and among the numbers on which the library runs. -/
theorem three_finite_nodes_are_sound :
    let reference := Value.midnight ((Date.ofParts? 2025 1 1).get rfl)
    let times : Value Exact := .list [.number (real (-1)), .number (real 0), .number (real 2)]
    let factors : Value Exact := .list [.number (real 1.1), .number (real 1), .number (real 0.9)]
    let floatTimes : Value Float := .list [.number (-1), .number 0, .number 2]
    let floatFactors : Value Float := .list [.number 1.1, .number 1, .number 0.9]
    (∃ c, (ofPoints (.dateTime reference) times factors .null .standard).result = .ok c ∧ c.IsSound ∧
      ∃ p : ℝ, 0 < p ∧ ((Curve.discount c).discountAt (.number (real 0.5))).result = .ok (real p)) ∧
    ∃ c, (ofPoints (.dateTime reference) floatTimes floatFactors .null .standard).result = .ok c ∧
      c.IsSound := by
  intro reference times factors floatTimes floatFactors
  constructor
  · let nodes : List (Node ℝ) := [⟨-1, 1.1⟩, ⟨0, 1⟩, ⟨2, 0.9⟩]
    have hincreasing : nodes.Pairwise fun m n => m.time < n.time := by
      simp only [nodes, List.pairwise_cons, List.forall_mem_cons]
      norm_num
    have hpositive : ∀ n ∈ nodes, 0 < n.factor := by
      simp only [nodes, List.forall_mem_cons]
      norm_num
    have hbuilt : (ofPoints (.dateTime reference) times factors .null .standard).result =
        .ok ⟨reference, nodes.map Node.exact, none, .standard⟩ :=
      result_ofNodes hincreasing hpositive reference .null .standard
    obtain ⟨hsound, hdiscount⟩ := built_curves_are_sound_if_finite ordersFinite hbuilt
    have hfinite : ∀ n ∈ nodes.map Node.exact, n.IsFinite :=
      List.forall_mem_map.mpr fun n _ => n.isFinite_exact
    have hnodes := hsound.mpr ⟨hfinite, fun _ => List.cons_ne_nil _ _⟩
    obtain ⟨y, -, hvalue, hanswer⟩ :=
      hdiscount hnodes (fun f hf => by cases hf) (.number (real 0.5)) (real 0.5) rfl
    obtain ⟨hreal, hfactor⟩ := hanswer isUnbounded rfl
    obtain ⟨p, hp⟩ := isFinite_iff.mp hreal
    rw [hp] at hvalue hfactor
    exact ⟨_, hbuilt, hnodes, p, hfactor, hvalue⟩
  · let c : DiscountCurve Float := ⟨reference, [⟨-1, 1.1⟩, ⟨0, 1⟩, ⟨2, 0.9⟩], none, .standard⟩
    have hbuilt : (ofPoints (.dateTime reference) floatTimes floatFactors .null .standard).result =
        .ok c := rfl
    obtain ⟨hsound, -⟩ := built_curves_are_sound_if_finite Binary64.ordersFinite hbuilt
    have hfinite : ∀ n ∈ c.nodes, n.IsFinite := by
      simp only [c, List.forall_mem_cons]
      exact ⟨⟨rfl, rfl⟩, ⟨rfl, rfl⟩, ⟨rfl, rfl⟩, fun _ hn => absurd hn List.not_mem_nil⟩
    exact ⟨c, hbuilt, hsound.mpr ⟨hfinite, fun _ => List.cons_ne_nil _ _⟩⟩

/-- An undefined factor is not refused, and is what the curve answers at its time; nor is a curve without
a node, which cannot answer. -/
theorem undefined_factors_and_empty_lists_are_let_through :
    let reference := Value.midnight ((Date.ofParts? 2025 1 1).get rfl)
    (∃ c, (ofPoints (.dateTime reference) (.list [.number (real 0), .number (real 1)])
        (.list [.number (real 1), .number undefined]) .null .standard).result = .ok c ∧ ¬c.IsSound ∧
      ((Curve.discount c).discountAt (.number (real 1))).result = .ok undefined) ∧
    ∃ c, (ofPoints (.dateTime reference) (.list []) (.list []) (.null : Value Exact) .standard).result =
        .ok c ∧ ¬c.IsSound ∧
      ((Curve.discount c).discountAt (.number (real 0.5))).result = .error (.misuse .noElements) := by
  intro reference
  constructor
  · let c : DiscountCurve Exact := ⟨reference, [⟨real 0, real 1⟩, ⟨real 1, undefined⟩], none, .standard⟩
    have hordered : increasing (c.nodes.map Node.time) = true := by
      simp [c, increasing]
    have hpassed : ∀ n ∈ c.nodes, ¬n.factor ≤ 0 := by
      simp [c, not_undefined_le]
    have hbuilt : (ofNodes reference c.nodes .null .standard).result = .ok c :=
      result_ofNodes_of_passes hordered hpassed
    refine ⟨c, hbuilt, fun hsound => ?_, ?_⟩
    · have hfinite := hsound.finite ⟨real 1, undefined⟩ (by simp [c])
      cases hfinite.factor
    · have hlast : c.interpolated (real 1) = undefined := by
        norm_num [c, interpolated, Point.interpolate, Point.follow, Scalar.log, Scalar.exp]
      exact (result_factorAt_of_nodes rfl (List.cons_ne_nil _ _) (real 1)).trans
        (congrArg Except.ok hlast)
  · let c : DiscountCurve Exact := ⟨reference, [], none, .standard⟩
    exact ⟨c, rfl, fun hsound => hsound.node_or_rate rfl rfl, rfl⟩

/-- Where the exponential vanishes far below zero, a sound curve may follow a rate that leaves nothing of a
factor: the factor at the node is smaller than the tolerance of the check. -/
theorem vanishing_factors_are_let_through :
    letI := Exact.withExp rangedExp
    let reference := Value.midnight ((Date.ofParts? 2025 1 1).get rfl)
    ∃ c, (ofPoints (.dateTime reference) (.list [.number (real 0), .number (real 1)])
        (.list [.number (real 1), .number (real 1e-20)]) (.number (real 800)) .standard).result = .ok c ∧
      c.IsSound ∧ ((Curve.discount c).discountAt (.number (real 1))).result = .ok (real 0) := by
  -- the exponential is taken in two places, and the rest is settled without it
  have hone : ¬(real 1 : Exact) ≤ 0 := not_real_le_zero.mpr one_pos
  have hsmall : ¬(real 1e-20 : Exact) ≤ 0 := not_real_le_zero.mpr (by norm_num)
  have hstep : increasing [real 0, real 1] = true := by
    simp [increasing]
  have hequal : Scalar.isClose 1e-10 1e-12 (real 1) (real 1) = true := by
    simp [Scalar.isClose, real_beq]
  have hwithin : Scalar.isClose 1e-10 1e-12 (real 1e-20) (real 0) = true := by
    norm_num [Scalar.isClose, abs_of_pos]
  have hunit : rangedExp (-real 800 * real 0) = real 1 := by
    norm_num [rangedExp]
  have hvanishes : rangedExp (-real 800 * real 1) = real 0 := by
    norm_num [rangedExp]
  let scalar := Exact.withExp rangedExp
  intro reference
  let nodes : List (Node Exact) := [⟨real 0, real 1⟩, ⟨real 1, real 1e-20⟩]
  let c : DiscountCurve Exact := ⟨reference, nodes, some (.number (real 800)), .standard⟩
  have hfinite : ∀ n ∈ nodes, n.IsFinite := by
    simp only [nodes, List.forall_mem_cons]
    exact ⟨⟨rfl, rfl⟩, ⟨rfl, rfl⟩, fun _ hn => absurd hn List.not_mem_nil⟩
  have hnow : flatFactor (real 800) (real 0) = real 1 := hunit
  have hlater : flatFactor (real 800) (real 1) = real 0 := hvanishes
  have hfollows : followsRate nodes (real 800) = true := by
    simp only [followsRate, nodes, List.all_cons, List.all_nil, Bool.and_true, Bool.and_eq_true, hnow,
      hlater]
    exact ⟨hequal, hwithin⟩
  have hrate : (checkFlatRate nodes (.number (real 800))).result = .ok c.flatRate := by
    have hnumber : Scalar.isFinite (real 800) = true := rfl
    rw [checkFlatRate, Figure.read_number, Outcome.ofMisuse_ok, pure_bind,
      Outcome.require_of hnumber, Outcome.require_of hfollows]
    rfl
  have hbuilt : (ofNodes reference nodes (.number (real 800)) .standard).result = .ok c := by
    have hordered : increasing (nodes.map Node.time) = true := hstep
    have hpassed : ∀ n ∈ nodes, ¬n.factor ≤ 0 := by
      simp only [nodes, List.forall_mem_cons]
      exact ⟨hone, hsmall, fun _ hn => absurd hn List.not_mem_nil⟩
    rw [result_ofNodes_of_passes hordered hpassed, hrate]
    rfl
  have hsound : c.IsSound :=
    isSound_of_ofNodes (ordersFinite_withExp rangedExp) hbuilt hfinite fun hnone => by cases hnone
  exact ⟨c, hbuilt, hsound, congrArg Except.ok hlater⟩

end DiscountCurve

end OptionDesk
