import OptionDesk.Curve.Rates
import OptionDesk.Proofs.DayCount
import OptionDesk.Proofs.Finite
import OptionDesk.Proofs.Interpolation

/-!
# Discount factors of real curves

A curve is real when it is built from real numbers: nodes at real times with positive factors, and a
flat rate, if any, that reads as a real number. Such a curve, seen through any number of views, either
refuses every time with the same error or gives every real time a positive real factor.
-/
namespace OptionDesk

open Exact

/-- Only zero is refused as a divisor. -/
theorem Outcome.divide_of_ne_zero (x : Exact) {y : ℝ} (hy : y ≠ 0) :
    Outcome.divide x (real y) = pure (x / real y) := by
  rw [Outcome.divide, zero_eq, real_beq, decide_eq_false hy]
  rfl

theorem Outcome.divide_real (x : ℝ) {y : ℝ} (hy : y ≠ 0) :
    Outcome.divide (real x) (real y) = pure (real (x / y)) := by
  rw [divide_of_ne_zero _ hy, real_div x hy]

namespace DiscountCurve

/-- The nodes are at real times and have positive factors, and a flat rate is a real number. -/
structure IsReal (c : DiscountCurve Exact) : Prop where
  nodes : ∀ n ∈ c.nodes, ∃ t p : ℝ, 0 < p ∧ n = ⟨real t, real p⟩
  flatRate : ∀ f, c.flatRate = some f → ∃ r : ℝ, f.read = .ok (real r)

/-- Finite times that have passed the check increase. -/
theorem pairwise_of_increasing {α : Type} [Scalar α] (hα : Scalar.OrdersFinite α) {times : List α}
    (hfinite : ∀ t ∈ times, Scalar.isFinite t = true) (h : increasing times = true) :
    times.Pairwise (· < ·) := by
  induction times with
  | nil => exact .nil
  | cons s times ih =>
    cases times with
    | nil => exact List.pairwise_singleton _ s
    | cons t times =>
      rw [increasing, Bool.and_eq_true, Bool.not_eq_true', decide_eq_false_iff_not] at h
      have hrest := ih (fun u hu => hfinite u (List.mem_cons_of_mem _ hu)) h.2
      have hs := hfinite s List.mem_cons_self
      have ht := hfinite t (List.mem_cons_of_mem _ List.mem_cons_self)
      have hst : s < t := hα.lt_of_not_sub_le s t hs ht h.1
      -- the check compares neighbours, and the order carries over to all later times
      have hlater : ∀ u ∈ times, s < u := fun u hu =>
        hα.lt_trans s t u hs ht (hfinite u (List.mem_cons_of_mem _ (List.mem_cons_of_mem _ hu))) hst
          (List.rel_of_pairwise_cons hrest hu)
      exact .cons (List.forall_mem_cons.mpr ⟨hst, hlater⟩) hrest

section Built

variable {α : Type} [Scalar α] {reference : DateTime} {nodes : List (Node α)} {flatRate : Value α}
  {dayCount : DayCount} {c : DiscountCurve α}

/-- Nodes that pass the checks are accepted if their flat rate is; the warning makes no difference to what is
built. -/
theorem result_ofNodes_of_passes (hordered : increasing (nodes.map Node.time) = true)
    (hpositive : ∀ n ∈ nodes, ¬n.factor ≤ 0) : (ofNodes reference nodes flatRate dayCount).result =
      (checkFlatRate nodes flatRate).result.map fun rate => ⟨reference, nodes, rate, dayCount⟩ := by
  have hfactors : nodes.all (fun n => !decide (n.factor ≤ 0)) = true := by
    rw [List.all_eq_true]
    intro n hn
    rw [Bool.not_eq_true', decide_eq_false_iff_not]
    exact hpositive n hn
  rw [ofNodes, Outcome.require_of hordered, Outcome.require_of hfactors, pure_bind, pure_bind]
  split
  · rw [Outcome.result_bind_of_ok (Outcome.result_report _)]
    exact Outcome.result_bind _ _
  · exact Outcome.result_bind _ _

/-- A curve that is built has the nodes it was given, which have passed the checks, and a flat rate that has
been checked against them. -/
theorem ofNodes_eq_ok (h : (ofNodes reference nodes flatRate dayCount).result = .ok c) :
    increasing (nodes.map Node.time) = true ∧ (∀ n ∈ nodes, ¬n.factor ≤ 0) ∧
      ∃ rate, (checkFlatRate nodes flatRate).result = .ok rate ∧ c = ⟨reference, nodes, rate, dayCount⟩ := by
  have hpasses := h
  simp only [ofNodes, Outcome.result_bind_eq_ok, Outcome.result_require_eq_ok] at hpasses
  obtain ⟨_, hincreasing, _, hall, -⟩ := hpasses
  have hpositive : ∀ n ∈ nodes, ¬n.factor ≤ 0 := fun n hn => by
    simpa using List.all_eq_true.mp hall n hn
  rw [result_ofNodes_of_passes hincreasing hpositive] at h
  refine ⟨hincreasing, hpositive, ?_⟩
  cases hrate : (checkFlatRate nodes flatRate).result with
  | error e =>
    rw [hrate] at h
    cases h
  | ok rate =>
    rw [hrate] at h
    exact ⟨rate, rfl, (Except.ok.inj h).symm⟩

/-- A flat rate that is accepted is the one that was given, and reads as a finite number. -/
theorem checkFlatRate_eq_ok {g : Figure α} {rate : Option (Figure α)}
    (h : (checkFlatRate nodes (.figure g)).result = .ok rate) :
    rate = some g ∧ ∃ x, g.read = .ok x ∧ Scalar.isFinite x = true := by
  simp only [checkFlatRate, Outcome.result_bind_eq_ok, Outcome.result_require_eq_ok,
    Outcome.result_ofMisuse_eq_ok, Outcome.result_pure, Except.ok.injEq] at h
  obtain ⟨x, hx, _, hfinite, _, _, rfl⟩ := h
  exact ⟨rfl, x, hx, hfinite⟩

/-- The flat rate of a curve that is built reads as a finite number. -/
theorem read_flatRate_of_ofNodes (h : (ofNodes reference nodes flatRate dayCount).result = .ok c)
    (f : Figure α) (hf : c.flatRate = some f) : ∃ x, f.read = .ok x ∧ Scalar.isFinite x = true := by
  obtain ⟨-, -, rate, hrate, rfl⟩ := ofNodes_eq_ok h
  obtain rfl : rate = some f := hf
  cases flatRate with
  | figure g =>
    obtain ⟨hg, hread⟩ := checkFlatRate_eq_ok hrate
    rwa [← Option.some.inj hg] at hread
  | _ => cases hrate

theorem result_factorAt_of_flatRate {f : Figure α} (hc : c.flatRate = some f) (t : α) :
    (c.factorAt t).result = ((Outcome.ofMisuse f.operand).result.map fun r => flatFactor r t) := by
  simp only [factorAt, factorTable, hc]
  cases f.operand <;> rfl

theorem result_factorAt_of_nodes (hc : c.flatRate = none) (hne : c.nodes ≠ []) (t : α) :
    (c.factorAt t).result = .ok (c.interpolated t) := by
  obtain ⟨n, rest, hnodes⟩ := List.exists_cons_of_ne_nil hne
  rw [factorAt, factorTable, hc, hnodes]
  simp only
  split <;> rfl

end Built

/-- The logarithms of positive factors are real, and so is every point of the line through them. -/
theorem interpolated_real {c : DiscountCurve Exact} (hc : c.IsReal) (hne : c.nodes ≠ []) (x : ℝ) :
    ∃ p : ℝ, 0 < p ∧ c.interpolated (real x) = real p := by
  have hpoints : ∀ p ∈ c.nodes.map fun n => (⟨n.time, Scalar.log n.factor⟩ : Point Exact),
      p.IsReal := by
    intro p hp
    obtain ⟨n, hn, rfl⟩ := List.mem_map.mp hp
    obtain ⟨t, q, hq, rfl⟩ := hc.nodes n hn
    exact ⟨t, Real.log q, by rw [real_log hq]⟩
  obtain ⟨y, hy⟩ := Point.interpolate_isReal hpoints (by simpa using hne) x
  exact ⟨Real.exp y, Real.exp_pos y, by rw [interpolated, hy, real_exp]⟩

/-- A curve can answer when it has a flat rate to calculate with, or else any node. -/
def Answers (c : DiscountCurve Exact) : Prop :=
  match c.flatRate with
  | some f => ∃ x, f.operand = .ok x
  | none => c.nodes ≠ []

theorem factorAt_of_answers {c : DiscountCurve Exact} (hc : c.IsReal) (h : c.Answers) :
    ∃ p : Exact → Exact, (∀ t, (c.factorAt t).result = .ok (p t)) ∧
      ∀ x : ℝ, ∃ y : ℝ, 0 < y ∧ p (real x) = real y := by
  cases hrate : c.flatRate with
  | none =>
    have hne : c.nodes ≠ [] := by simpa only [Answers, hrate] using h
    exact ⟨c.interpolated, result_factorAt_of_nodes hrate hne, interpolated_real hc hne⟩
  | some f =>
    obtain ⟨x, hx⟩ : ∃ x, f.operand = .ok x := by simpa only [Answers, hrate] using h
    obtain ⟨r, hr⟩ := hc.flatRate f hrate
    have hxr : x = real r := Except.ok.inj ((Figure.read_of_operand hx).symm.trans hr)
    refine ⟨flatFactor (real r), fun t => ?_, fun y => ⟨Real.exp (-r * y), Real.exp_pos _, rfl⟩⟩
    rw [result_factorAt_of_flatRate hrate, hx, hxr]
    rfl

theorem factorAt_of_not_answers {c : DiscountCurve Exact} (h : ¬c.Answers) :
    ∃ e, ∀ t, (c.factorAt t).result = .error e := by
  cases hrate : c.flatRate with
  | none =>
    have hnodes : c.nodes = [] := by simpa only [Answers, hrate, not_not] using h
    refine ⟨.misuse .noElements, fun t => ?_⟩
    rw [factorAt, factorTable, hrate, hnodes]
    rfl
  | some f =>
    cases hf : f.operand with
    | ok x =>
      have hnone : ¬∃ y, f.operand = .ok y := by simpa only [Answers, hrate] using h
      exact absurd ⟨x, hf⟩ hnone
    | error m =>
      refine ⟨.misuse m, fun t => ?_⟩
      rw [result_factorAt_of_flatRate hrate, hf]
      rfl

end DiscountCurve

namespace Curve

/-- All that a view does: it asks its base at two times, and answers the quotient of the factors. -/
theorem discountAt_implied_eq_ok {α : Type} [Scalar α] {base : Curve α} {r : DateTime}
    {moment : Value α} {p : α} :
    ((implied base r).discountAt moment).result = .ok p ↔ ∃ a t far near,
      (base.anchorTo r).result = .ok a ∧ ((implied base r).timeTo moment).result = .ok t ∧
      (base.discountAt (.number (a + t))).result = .ok far ∧
      (base.discountAt (.number a)).result = .ok near ∧ (Outcome.divide far near).result = .ok p := by
  simp only [discountAt, Outcome.result_bind_eq_ok]
  constructor
  · rintro ⟨a, ha, t, ht, far, hfar, near, hnear, hp⟩
    exact ⟨a, t, far, near, ha, ht, hfar, hnear, hp⟩
  · rintro ⟨a, t, far, near, ha, ht, hfar, hnear, hp⟩
    exact ⟨a, ha, t, ht, far, hfar, near, hnear, hp⟩

/-- A curve is real when the curve under its views is. -/
def IsReal : Curve Exact → Prop
  | discount c => c.IsReal
  | implied base _ => base.IsReal

/-- A curve can answer when the curve under its views can. -/
def Answers : Curve Exact → Prop
  | discount c => c.Answers
  | implied base _ => base.Answers

/-- The curve gives every time a factor, and a positive one to every real time. -/
structure Discounts (c : Curve Exact) (p : Exact → Exact) : Prop where
  factor : ∀ t, (c.discountAt (.number t)).result = .ok (p t)
  positive : ∀ x : ℝ, ∃ y : ℝ, 0 < y ∧ p (real x) = real y

/-- The curve refuses every time with the same error. -/
def Refuses (c : Curve Exact) (e : PricingError Exact) : Prop :=
  ∀ t, (c.discountAt (.number t)).result = .error e

/-- The positive factors of a curve at all real times. -/
structure HasFactors (c : Curve Exact) (P : ℝ → ℝ) : Prop where
  positive : ∀ x, 0 < P x
  factor : ∀ x : ℝ, (c.discountAt (.number (real x))).result = .ok (real (P x))

theorem Discounts.exists_hasFactors {c : Curve Exact} {p : Exact → Exact} (h : c.Discounts p) :
    ∃ P : ℝ → ℝ, c.HasFactors P := by
  choose P hP using h.positive
  exact ⟨P, fun x => (hP x).1, fun x => by rw [h.factor, (hP x).2]⟩

section Supported

variable {c : Curve Exact} {b : DayCount.Basis} (hb : c.dayCount = .basis b)

include hb

theorem anchorTo_eq (r : DateTime) : c.anchorTo r = pure (real (b.years c.reference r)) := by
  rw [anchorTo, yearFraction, hb, DayCount.Basis.yearFraction_dates]

theorem timeTo_dateTime (d : DateTime) :
    c.timeTo (.dateTime d) = pure (real (b.years c.reference d)) := by
  rw [timeTo, hb]
  exact DayCount.Basis.yearFraction_dates b c.reference d

/-- A date or time matters to a curve only through the time to it. -/
theorem discountAt_eq (moment : Value Exact) :
    c.discountAt moment = c.timeTo moment >>= fun t => c.discountAt (.number t) := by
  cases c with
  | discount c => rfl
  | implied base r =>
    have hbase : base.dayCount = .basis b := hb
    have htime : ∀ t : Exact, (implied base r).timeTo (.number t) = pure t := fun _ => rfl
    simp only [discountAt, anchorTo_eq hbase, htime, pure_bind]

/-- The factor of a view is a quotient of two factors of its base. -/
theorem discountAt_implied (r : DateTime) (t : Exact) :
    (implied c r).discountAt (.number t) =
      (do
        let far ← c.discountAt (.number (real (b.years c.reference r) + t))
        let near ← c.discountAt (.number (real (b.years c.reference r)))
        Outcome.divide far near) := by
  have htime : (implied c r).timeTo (.number t) = pure t := rfl
  rw [discountAt, anchorTo_eq hb, htime, pure_bind, pure_bind]

theorem Discounts.implied {p : Exact → Exact} (h : c.Discounts p) (r : DateTime) :
    (Curve.implied c r).Discounts fun t =>
      p (real (b.years c.reference r) + t) / p (real (b.years c.reference r)) := by
  obtain ⟨near, hnear, hpnear⟩ := h.positive (b.years c.reference r)
  refine ⟨fun t => ?_, fun x => ?_⟩
  · rw [discountAt_implied hb, Outcome.result_bind_of_ok (h.factor _),
      Outcome.result_bind_of_ok (h.factor _), hpnear, Outcome.divide_of_ne_zero _ hnear.ne',
      Outcome.result_pure]
  · obtain ⟨far, hfar, hpfar⟩ := h.positive (b.years c.reference r + x)
    exact ⟨far / near, div_pos hfar hnear, by rw [real_add, hpfar, hpnear, real_div _ hnear.ne']⟩

theorem HasFactors.factor_of_date {P : ℝ → ℝ} (h : c.HasFactors P) (d : DateTime) :
    (c.discountAt (.dateTime d)).result = .ok (real (P (b.years c.reference d))) := by
  rw [discountAt_eq hb, timeTo_dateTime hb, pure_bind, h.factor]

theorem HasFactors.implied {P : ℝ → ℝ} (h : c.HasFactors P) (r : DateTime) :
    (Curve.implied c r).HasFactors fun x =>
      P (b.years c.reference r + x) / P (b.years c.reference r) := by
  have hnear := h.positive (b.years c.reference r)
  refine ⟨fun x => div_pos (h.positive _) hnear, fun x => ?_⟩
  rw [discountAt_implied hb, real_add, Outcome.result_bind_of_ok (h.factor _),
    Outcome.result_bind_of_ok (h.factor _), Outcome.divide_real _ hnear.ne', Outcome.result_pure]

theorem Refuses.implied {e : PricingError Exact} (h : c.Refuses e) (r : DateTime) :
    (Curve.implied c r).Refuses e := by
  intro t
  rw [discountAt_implied hb]
  exact Outcome.result_bind_of_error (h _) _

theorem discounts_of_answers (hc : c.IsReal) (h : c.Answers) : ∃ p, c.Discounts p := by
  induction c with
  | discount c =>
    obtain ⟨p, hp, hpositive⟩ := DiscountCurve.factorAt_of_answers hc h
    exact ⟨p, hp, hpositive⟩
  | implied base r ih =>
    have hbase : base.dayCount = .basis b := hb
    obtain ⟨p, hp⟩ := ih hbase hc h
    exact ⟨_, hp.implied hbase r⟩

theorem refuses_of_not_answers (h : ¬c.Answers) : ∃ e, c.Refuses e := by
  induction c with
  | discount c => exact DiscountCurve.factorAt_of_not_answers h
  | implied base r ih =>
    have hbase : base.dayCount = .basis b := hb
    obtain ⟨e, he⟩ := ih hbase h
    exact ⟨e, he.implied hbase r⟩

end Supported

/-- Yields are taken over a positive time. -/
theorem clipped_real (x : ℝ) :
    ∃ z : ℝ, 0 < z ∧ (if real x ≤ shortEnd then shortEnd else real x : Exact) = real z := by
  rw [shortEnd, ofScientific_eq]
  split
  · exact ⟨_, by norm_num, rfl⟩
  · next hlate =>
    rw [real_le, not_le] at hlate
    exact ⟨x, lt_trans (by norm_num) hlate, rfl⟩

/-! ## What a real curve answers -/

variable {c : Curve Exact} {moment : Value Exact} (hc : c.IsReal) (hmoment : moment.IsMoment)

include hc hmoment

theorem discountAt_real {p : Exact} (h : (c.discountAt moment).result = .ok p) :
    ∃ x : ℝ, 0 < x ∧ p = real x := by
  induction c generalizing moment p with
  | discount c =>
    obtain ⟨t, ht, hp⟩ := Outcome.result_bind_eq_ok.mp h
    obtain ⟨x, rfl⟩ := DayCount.timeFrom_real hmoment ht
    by_cases hanswers : c.Answers
    · obtain ⟨q, hq, hpositive⟩ := DiscountCurve.factorAt_of_answers hc hanswers
      obtain ⟨y, hy, hqy⟩ := hpositive x
      rw [hq, hqy] at hp
      exact ⟨y, hy, (Except.ok.inj hp).symm⟩
    · obtain ⟨e, he⟩ := DiscountCurve.factorAt_of_not_answers hanswers
      rw [he] at hp
      cases hp
  | implied base r ih =>
    obtain ⟨a, t, far, near, ha, ht, hfar, hnear, h⟩ := discountAt_implied_eq_ok.mp h
    obtain ⟨A, rfl⟩ := DayCount.yearFraction_real ha
    obtain ⟨x, rfl⟩ := DayCount.timeFrom_real hmoment ht
    obtain ⟨y, hy, rfl⟩ := ih hc (Value.isMoment_number (A + x)) hfar
    obtain ⟨z, hz, rfl⟩ := ih hc (Value.isMoment_number A) hnear
    rw [Outcome.divide_real y hz.ne', Outcome.result_pure] at h
    exact ⟨y / z, div_pos hy hz, (Except.ok.inj h).symm⟩

theorem yieldFromFactor_real {y : Exact} (h : (c.yieldFromFactor moment).result = .ok y) :
    ∃ r : ℝ, y = real r := by
  obtain ⟨t, ht, h⟩ := Outcome.result_bind_eq_ok.mp h
  obtain ⟨x, rfl⟩ := DayCount.timeFrom_real hmoment ht
  obtain ⟨z, hz, hshort⟩ := clipped_real x
  simp only [hshort] at h
  obtain ⟨p, hp, h⟩ := Outcome.result_bind_eq_ok.mp h
  obtain ⟨w, hw, rfl⟩ := discountAt_real hc (Value.isMoment_number z) hp
  rw [real_log hw, real_neg, real_div _ hz.ne'] at h
  exact ⟨_, (Except.ok.inj h).symm⟩

theorem zeroYield_real {y : Exact} (h : (c.zeroYield moment).result = .ok y) :
    ∃ r : ℝ, y = real r := by
  cases c with
  | implied base r => exact yieldFromFactor_real hc hmoment h
  | discount c =>
    rw [zeroYield] at h
    cases hrate : c.flatRate with
    | none =>
      rw [hrate] at h
      exact yieldFromFactor_real hc hmoment h
    | some f =>
      obtain ⟨r, hr⟩ := hc.flatRate f hrate
      simp only [hrate, hr] at h
      exact ⟨r, (Except.ok.inj h).symm⟩

omit hc hmoment

/-- Only a real rate has a positive real factor. -/
theorem rate_real {x : Exact} {t p : ℝ} (ht : 0 < t) (hp : 0 < p)
    (h : DiscountCurve.flatFactor x (real t) = real p) : ∃ r : ℝ, x = real r := by
  cases x with
  | real r => exact ⟨r, rfl⟩
  | above =>
    have hzero : DiscountCurve.flatFactor above (real t) = real 0 := by
      show Scalar.exp (infinite (-1 * t)) = real 0
      have hnegative : ¬0 < -1 * t := by linarith
      rw [infinite, if_neg hnegative, if_pos (by linarith)]
      rfl
    rw [hzero, real.injEq] at h
    exact absurd h hp.ne
  | below =>
    have hinfinite : DiscountCurve.flatFactor below (real t) = above := by
      show Scalar.exp (infinite (1 * t)) = above
      rw [infinite, one_mul, if_pos ht]
      rfl
    rw [hinfinite] at h
    cases h
  | undefined =>
    have hundefined : DiscountCurve.flatFactor undefined (real t) = undefined := by
      show Scalar.exp (infinite (0 * t)) = undefined
      rw [infinite, zero_mul, if_neg (lt_irrefl 0), if_neg (lt_irrefl 0)]
      rfl
    rw [hundefined] at h
    cases h

theorem HasFactors.yieldFromFactor {P : ℝ → ℝ} (h : c.HasFactors P) {x : ℝ}
    (htime : c.timeTo moment = pure (real x)) :
    ∃ y : ℝ, (c.yieldFromFactor moment).result = .ok (real y) := by
  obtain ⟨z, hz, hshort⟩ := clipped_real x
  refine ⟨-Real.log (P z) / z, ?_⟩
  rw [Curve.yieldFromFactor, htime, pure_bind]
  simp only [hshort]
  rw [Outcome.result_bind_of_ok (h.factor z), real_log (h.positive z), real_neg, real_div _ hz.ne']
  rfl

/-- A curve with positive factors has real yields. -/
theorem HasFactors.zeroYield {P : ℝ → ℝ} (h : c.HasFactors P) {x : ℝ}
    (htime : c.timeTo moment = pure (real x)) :
    ∃ y : ℝ, (c.zeroYield moment).result = .ok (real y) := by
  cases c with
  | implied base r => exact h.yieldFromFactor htime
  | discount c =>
    rw [Curve.zeroYield]
    cases hrate : c.flatRate with
    | none => exact h.yieldFromFactor htime
    | some f =>
      have hone : (c.factorAt (real 1)).result = .ok (real (P 1)) := h.factor 1
      rw [DiscountCurve.result_factorAt_of_flatRate hrate] at hone
      cases hf : f.operand with
      | error m =>
        rw [hf] at hone
        cases hone
      | ok rate =>
        rw [hf] at hone
        obtain ⟨r, rfl⟩ := rate_real one_pos (h.positive 1) (Except.ok.inj hone)
        exact ⟨r, by simp only [Figure.read_of_operand hf]; rfl⟩

/-- A flat curve has exponential factors. -/
theorem hasFactors_of_flatRate {c : DiscountCurve Exact} {r : ℝ}
    (h : c.flatRate = some (.number (real r))) :
    (discount c).HasFactors fun x => Real.exp (-r * x) :=
  ⟨fun _ => Real.exp_pos _, fun x => DiscountCurve.result_factorAt_of_flatRate h (real x)⟩

end Curve

end OptionDesk
