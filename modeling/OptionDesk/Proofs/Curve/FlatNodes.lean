import OptionDesk.Proofs.Curve.Flat
import OptionDesk.Proofs.Curve.LogLinear

/-!
# Flat curves and their nodes

A curve at one rate never looks at its nodes, and answers a yield without a factor. Both short cuts agree
with the long way: the nodes of such a curve divide its time evenly and lie on the exponential, so the
curve that is read off them alone has the same factors, without a warning, up to the last node; and the
yield that is computed from a factor is the rate again, at all times. Views of the curve go the long way,
and have the same rate however often the view is taken.
-/
namespace OptionDesk

open Exact

/-- All entries of a table are real numbers between two bounds. -/
def Table.Within (ts : Table Exact) (lower upper : ℝ) : Prop :=
  ∀ x ∈ ts.entries, ∃ t ∈ Set.Icc lower upper, x = real t

/-! ## Nodes on the exponential -/

namespace Node

noncomputable section

/-- The node of a time under a rate. -/
def ofRate (rate time : ℝ) : Node ℝ := ⟨time, Real.exp (-rate * time)⟩

end

variable (rate time : ℝ)

@[simp] theorem time_ofRate : (ofRate rate time).time = time := rfl

@[simp] theorem factor_ofRate : (ofRate rate time).factor = Real.exp (-rate * time) := rfl

theorem factor_ofRate_pos : 0 < (ofRate rate time).factor := Real.exp_pos _

@[simp] theorem logPoint_ofRate : (ofRate rate time).logPoint = ⟨time, -rate * time⟩ := by
  rw [logPoint, factor_ofRate, Real.log_exp, time_ofRate]

theorem exact_ofRate : (ofRate rate time).exact =
    ⟨real time, DiscountCurve.flatFactor (real rate) (real time)⟩ := rfl

end Node

namespace DiscountCurve

variable {c : DiscountCurve Exact} {first : Node ℝ} {rest : List (Node ℝ)} {rate : ℝ}

/-- Nodes on an exponential are joined by it. -/
theorem Through.interpolated_of_rate (h : c.Through first rest)
    (hrate : ∀ n ∈ first :: rest, n = Node.ofRate rate n.time) {t : ℝ}
    (ht : t ∈ Set.Icc first.time (rest.getLastD first).time) :
    c.interpolated (real t) = flatFactor (real rate) (real t) := by
  have hlast : ((rest.map Node.logPoint).getLastD first.logPoint).x = (rest.getLastD first).time := by
    rw [List.getLastD_map]
    rfl
  have hheights : ∀ q ∈ first.logPoint :: rest.map Node.logPoint, q.y = -rate * q.x := by
    rw [← List.map_cons]
    intro q hq
    obtain ⟨n, hn, rfl⟩ := List.mem_map.mp hq
    rw [hrate n hn, Node.logPoint_ofRate]
  have hline := Point.brokenLine_of_proportional (pairwise_logPoint h.increasing) hheights ht.1
    (by rw [hlast]; exact ht.2)
  rw [h.interpolated_eq, hline]
  rfl

/-- A table within the nodes is answered with the exponential, and without a warning. -/
theorem Through.factorTable_of_rate (h : c.Through first rest)
    (hrate : ∀ n ∈ first :: rest, n = Node.ofRate rate n.time) {ts : Table Exact}
    (hts : ts.Within first.time (rest.getLastD first).time) :
    c.factorTable ts = pure (ts.map (flatFactor (real rate))) := by
  have hinside : ¬outside (real first.time) (real (rest.getLastD first).time) ts = true := by
    rw [outside_iff]
    rintro ⟨x, hx, hout⟩
    obtain ⟨t, ht, rfl⟩ := hts x hx
    rw [real_lt, real_lt] at hout
    obtain hout | hout := hout
    · exact hout.not_ge ht.1
    · exact hout.not_ge ht.2
  have hentries : ts.map c.interpolated = ts.map (flatFactor (real rate)) := by
    refine ts.map_congr fun x hx => ?_
    obtain ⟨t, ht, rfl⟩ := hts x hx
    exact h.interpolated_of_rate hrate ht
  rw [h.factorTable_eq, if_neg hinside, hentries]

theorem factorTable_of_flatRate (h : c.flatRate = some (.number (real rate))) (ts : Table Exact) :
    c.factorTable ts = pure (ts.map (flatFactor (real rate))) := by
  rw [factorTable, h]
  rfl

theorem factorAt_of_flatRate (h : c.flatRate = some (.number (real rate))) (t : Exact) :
    c.factorAt t = pure (flatFactor (real rate) t) := by
  rw [factorAt, factorTable_of_flatRate h]
  rfl

/-! ## The grid -/

noncomputable section

/-- Times that divide a span into equal steps. -/
def evenTimes (span : ℝ) (steps : ℕ) : List ℝ :=
  (List.range (steps + 1)).map fun i : ℕ => i * (span / steps)

end

section Grid

variable (span : ℝ) {steps : ℕ} (hsteps : steps ≠ 0)

include hsteps

theorem evenGrid_real : evenGrid 0 (real span) steps = (evenTimes span steps).map real := by
  obtain ⟨n, rfl⟩ := Nat.exists_eq_succ_of_ne_zero hsteps
  have hcount : ((n + 1 : ℕ) : ℝ) ≠ 0 := Nat.cast_ne_zero.mpr hsteps
  rw [evenTimes, List.range_succ, List.map_append, List.map_append, List.map_singleton,
    List.map_singleton, mul_div_cancel₀ _ hcount, List.map_map, evenGrid]
  simp only [zero_eq, natCast_eq, real_sub, sub_zero, real_div _ hcount, real_mul, real_add, add_zero]
  rfl

theorem pairwise_evenTimes (hspan : 0 < span) : (evenTimes span steps).Pairwise (· < ·) := by
  have hstep : 0 < span / steps := div_pos hspan (Nat.cast_pos.mpr (Nat.pos_of_ne_zero hsteps))
  rw [evenTimes, List.pairwise_map]
  exact List.pairwise_lt_range.imp fun hij => mul_lt_mul_of_pos_right (Nat.cast_lt.mpr hij) hstep

/-- The grid runs from zero to the span. -/
theorem evenTimes_eq_cons : ∃ times, evenTimes span steps = 0 :: times ∧ times.getLastD 0 = span := by
  have hcount : (steps : ℝ) ≠ 0 := Nat.cast_ne_zero.mpr hsteps
  have hlast : (evenTimes span steps).getLast? = some span := by
    rw [evenTimes, List.range_succ, List.map_append, List.map_singleton, mul_div_cancel₀ _ hcount,
      List.getLast?_concat]
  have hcons : evenTimes span steps = 0 :: (evenTimes span steps).tail := by
    rw [evenTimes, List.range_succ_eq_map, List.map_cons, Nat.cast_zero, zero_mul, List.tail_cons]
  refine ⟨_, hcons, ?_⟩
  rw [hcons, List.getLast?_cons] at hlast
  rw [List.getLastD_eq_getLast?]
  exact Option.some.inj hlast

end Grid

/-! ## Building at one rate -/

/-- The nodes alone: a curve that is read off them. -/
def unrated (c : DiscountCurve Exact) : DiscountCurve Exact := { c with flatRate := none }

/-- Nodes on the exponential follow the rate. -/
theorem checkFlatRate_ofRate (rate : ℝ) (times : List ℝ) :
    (checkFlatRate (times.map fun t => (Node.ofRate rate t).exact) (.number (real rate))).result =
      .ok (some (.number (real rate))) := by
  have hfollows : followsRate (times.map fun t => (Node.ofRate rate t).exact) (real rate) = true := by
    rw [followsRate, List.all_map, List.all_eq_true]
    intro t _
    rw [Function.comp_apply, Node.exact_ofRate, Scalar.isClose, Bool.or_eq_true]
    exact .inl ((real_beq _ _).trans (decide_eq_true rfl))
  rw [checkFlatRate, Figure.read_number, Outcome.ofMisuse_ok, pure_bind,
    Outcome.require_of (isFinite_real rate), Outcome.require_of hfollows]
  rfl

section Flat

variable {reference : DateTime} {rateValue endTime : Value Exact} {span steps : ℝ}
  {dayCount : DayCount}

/-- A flat curve keeps the number that its rate reads as. -/
theorem flatRate_of_flat {referenceValue : Value Exact} {steps : Exact}
    (hrate : rateValue.read = .ok (real rate))
    (h : (flat referenceValue rateValue endTime steps dayCount).result = .ok c) :
    c.flatRate = some (.number (real rate)) := by
  simp only [flat, hrate, Outcome.ofMisuse_ok, pure_bind, Outcome.result_bind_eq_ok] at h
  obtain ⟨_, -, _, -, _, -, _, -, h⟩ := h
  obtain ⟨-, -, kept, hkept, rfl⟩ := ofNodes_eq_ok h
  exact (checkFlatRate_eq_ok hkept).1

variable (hrate : rateValue.read = .ok (real rate)) (hend : endTime.operand = .ok (real span))
  (hspan : 0 < span) (hsteps : 1 ≤ steps)

include hrate hend hspan hsteps

theorem result_flat : (flat (.dateTime reference) rateValue endTime (real steps) dayCount).result =
    .ok ⟨reference, (evenTimes span ⌊steps⌋₊).map fun t => (Node.ofRate rate t).exact,
      some (.number (real rate)), dayCount⟩ := by
  have hfloor : ⌊steps⌋₊ ≠ 0 := (Nat.floor_pos.mpr hsteps).ne'
  have hcount : (Scalar.trunc (real steps)).toNat = ⌊steps⌋₊ := by
    show (if 0 ≤ steps then ⌊steps⌋ else ⌈steps⌉).toNat = ⌊steps⌋₊
    rw [if_pos (zero_le_one.trans hsteps), Int.floor_toNat]
  have hlate : ¬real span ≤ 0 := not_real_le_zero.mpr hspan
  have hmany : ¬real steps < 1 := by
    rw [one_eq, real_lt]
    exact hsteps.not_gt
  have hordered : ((evenTimes span ⌊steps⌋₊).map (Node.ofRate rate)).Pairwise
      fun m n => m.time < n.time :=
    (pairwise_evenTimes span hfloor hspan).map _ fun _ _ hlt => hlt
  have hpositive : ∀ n ∈ (evenTimes span ⌊steps⌋₊).map (Node.ofRate rate), 0 < n.factor := by
    rw [List.forall_mem_map]
    exact fun t _ => Node.factor_ofRate_pos rate t
  have hbuilt := result_ofNodes hordered hpositive reference (.number (real rate)) dayCount
  rw [List.map_map] at hbuilt
  have hchecked := checkFlatRate_ofRate rate (evenTimes span ⌊steps⌋₊)
  rw [flat, hend, Outcome.ofMisuse_ok, pure_bind, Outcome.require_of hlate, pure_bind,
    Outcome.require_of hmany, pure_bind, hrate, Outcome.ofMisuse_ok, pure_bind, Value.referenceDate,
    pure_bind, hcount, evenGrid_real span hfloor]
  -- what is left builds from the grid times and their factors
  show (ofNodes reference (((evenTimes span ⌊steps⌋₊).map real).map fun t =>
    ⟨t, flatFactor (real rate) t⟩) (.number (real rate)) dayCount).result = _
  rw [List.map_map]
  refine hbuilt.trans ?_
  rw [Function.comp_def, hchecked]
  rfl

end Flat

/-- A curve with a flat rate answers as the long way does: from its nodes as far as they go, and for its
yield from a factor. -/
structure FollowsNodes (c : DiscountCurve Exact) (rate span : ℝ) : Prop where
  factor : ∀ t : ℝ, (c.factorAt (real t)).result = .ok (real (Real.exp (-rate * t)))
  /-- The nodes are a curve of their own from zero to the end of the span. -/
  nodes : ∃ first rest, c.unrated.Through first rest ∧ first.time = 0 ∧
    (rest.getLastD first).time = span
  table : ∀ ts : Table Exact, ts.Within 0 span → c.factorTable ts = c.unrated.factorTable ts
  zeroYield : ∀ moment (t : ℝ), ((Curve.discount c).timeTo moment).result = .ok (real t) →
    (Curve.discount c).zeroYield moment = (Curve.discount c).yieldFromFactor moment

/-- The two ways to a yield agree, down to what they report. -/
theorem zeroYield_eq_yieldFromFactor (h : c.flatRate = some (.number (real rate)))
    {moment : Value Exact} {t : ℝ} (htime : ((Curve.discount c).timeTo moment).result = .ok (real t)) :
    (Curve.discount c).zeroYield moment = (Curve.discount c).yieldFromFactor moment := by
  -- whichever time the long way takes in place of `t`, the rate cancels it
  obtain ⟨z, hz, hclipped⟩ := Curve.clipped_real t
  have hfactor : (Curve.discount c).discountAt (.number (real z)) =
      pure (real (Real.exp (-rate * z))) := factorAt_of_flatRate h (real z)
  have hrate : -Real.log (Real.exp (-rate * z)) / z = rate := by
    rw [Real.log_exp, neg_mul, neg_neg, mul_div_cancel_right₀ _ hz.ne']
  rw [Curve.zeroYield, h, Curve.yieldFromFactor, Curve.timeTo_eq_pure htime, pure_bind]
  simp only [hclipped]
  rw [hfactor, pure_bind, real_log (Real.exp_pos _), real_neg, real_div _ hz.ne', hrate]
  rfl

theorem followsNodes_of_times {times : List ℝ} {span : ℝ} (hrate : c.flatRate = some (.number (real rate)))
    (hnodes : c.nodes = (0 :: times).map fun t => (Node.ofRate rate t).exact)
    (hordered : (0 :: times).Pairwise (· < ·)) (hlast : times.getLastD 0 = span) :
    c.FollowsNodes rate span := by
  have hthrough : c.unrated.Through (Node.ofRate rate 0) (times.map (Node.ofRate rate)) := by
    refine ⟨?_, rfl, ?_, ?_⟩
    · rw [← List.map_cons, List.map_map]
      exact hnodes
    · rw [← List.map_cons]
      exact hordered.map _ fun _ _ hlt => hlt
    · rw [← List.map_cons, List.forall_mem_map]
      exact fun t _ => Node.factor_ofRate_pos rate t
  have hend : ((times.map (Node.ofRate rate)).getLastD (Node.ofRate rate 0)).time = span := by
    rw [List.getLastD_map, Node.time_ofRate, hlast]
  have hon : ∀ n ∈ Node.ofRate rate 0 :: times.map (Node.ofRate rate), n = Node.ofRate rate n.time := by
    rw [← List.map_cons, List.forall_mem_map]
    exact fun t _ => rfl
  refine ⟨fun t => ?_, ⟨_, _, hthrough, rfl, hend⟩, fun ts hts => ?_, fun moment t htime =>
    zeroYield_eq_yieldFromFactor hrate htime⟩
  · rw [factorAt_of_flatRate hrate]
    rfl
  · have hwithin : ts.Within (Node.ofRate rate 0).time
        ((times.map (Node.ofRate rate)).getLastD (Node.ofRate rate 0)).time := by
      rwa [hend]
    rw [factorTable_of_flatRate hrate, hthrough.factorTable_of_rate hon hwithin]

end DiscountCurve

namespace Curve

/-- One rate, as the yield of every moment and as the rate of every interval. -/
structure HasOneRate (c : Curve Exact) (rate : ℝ) : Prop where
  time : ∀ moment, moment.IsMoment → ∃ t : ℝ, (c.timeTo moment).result = .ok (real t)
  zeroYield : ∀ moment (t : ℝ), (c.timeTo moment).result = .ok (real t) →
    (c.zeroYield moment).result = .ok (real rate)
  forwardRate : ∀ start finish (s t : ℝ), (c.timeTo start).result = .ok (real s) →
    (c.timeTo finish).result = .ok (real t) → s < t →
    (c.forwardRate start finish).result = .ok (real rate)

theorem IsFlat.hasOneRate {c : Curve Exact} {b : DayCount.Basis} {reference : DateTime} {rate : ℝ}
    (h : c.IsFlat b reference rate) : c.HasOneRate rate where
  time _ hmoment := exists_timeTo h.dayCount hmoment
  zeroYield _ _ htime := h.zeroYield (timeTo_eq_pure htime)
  forwardRate _ _ s t hstart hfinish hst := by
    have hwidth : t - s ≠ 0 := (sub_pos.mpr hst).ne'
    have hrate : (Real.log (Real.exp (-rate * s)) - Real.log (Real.exp (-rate * t))) / (t - s) = rate := by
      rw [Real.log_exp, Real.log_exp]
      field_simp
      ring
    rw [h.factors.forwardRate hstart hfinish hst, hrate]

end Curve

/-- A curve is built at any finite rate. Its two short cuts agree with the long way, and so do all chains
of views of it, which only know the long way, on any basis. -/
theorem short_cuts_agree_with_the_nodes (reference : DateTime) (dayCount : DayCount)
    {rateValue endTime : Value Exact} {rate span steps : ℝ} (hrate : rateValue.read = .ok (real rate))
    (hend : endTime.operand = .ok (real span)) (hspan : 0 < span) (hsteps : 1 ≤ steps) :
    ∃ c, (DiscountCurve.flat (.dateTime reference) rateValue endTime (real steps) dayCount).result =
        .ok c ∧
      c.reference = reference ∧ c.dayCount = dayCount ∧ c.FollowsNodes rate span ∧
      ∀ b, dayCount = .basis b → ∀ dates v, ((Curve.discount c).views dates).result = .ok v →
        v.HasOneRate rate := by
  have hfloor : ⌊steps⌋₊ ≠ 0 := (Nat.floor_pos.mpr hsteps).ne'
  obtain ⟨times, htimes, hlast⟩ := DiscountCurve.evenTimes_eq_cons span hfloor
  have hordered := DiscountCurve.pairwise_evenTimes span hfloor hspan
  obtain ⟨c, hc⟩ : ∃ c : DiscountCurve Exact, c = ⟨reference,
      (DiscountCurve.evenTimes span ⌊steps⌋₊).map fun t => (Node.ofRate rate t).exact,
      some (.number (real rate)), dayCount⟩ := ⟨_, rfl⟩
  have hflatRate : c.flatRate = some (.number (real rate)) := by rw [hc]
  have hdays : c.dayCount = dayCount := by rw [hc]
  refine ⟨c, ?_, by rw [hc], hdays, ?_, ?_⟩
  · rw [hc]
    exact DiscountCurve.result_flat hrate hend hspan hsteps
  · rw [htimes] at hordered hc
    exact DiscountCurve.followsNodes_of_times hflatRate (by rw [hc]) hordered hlast
  · intro b hb dates v hviews
    have hflat := Curve.isFlat_of_flatRate hflatRate (Figure.operand_number _) (hdays.trans hb)
    exact (hflat.views hviews).hasOneRate

/-- A curve at a negative rate in three steps, and a view of a view of it on the basis of thirty-day
months. -/
theorem short_cuts_agree_with_three_steps :
    let reference := Value.midnight ⟨2024, 1, 31, by decide, by decide, by decide⟩
    let first := Value.midnight ⟨2024, 2, 29, by decide, by decide, by decide⟩
    let last := Value.midnight ⟨2024, 3, 31, by decide, by decide, by decide⟩
    ∃ c, (DiscountCurve.flat (.dateTime reference) (.number (real (-0.01))) (.number (real 2)) (real 3)
        (.basis .thirty360)).result = .ok c ∧
      c.FollowsNodes (-0.01) 2 ∧
      (((Curve.discount c).views [first, last]).result =
        .ok (.implied (.implied (.discount c) first) last)) ∧
      (Curve.implied (.implied (.discount c) first) last).HasOneRate (-0.01) := by
  intro reference first last
  obtain ⟨c, hbuilt, hreference, -, hnodes, hviews⟩ :=
    short_cuts_agree_with_the_nodes reference (.basis .thirty360) (Value.read_number (real (-0.01)))
      (Value.operand_number (real 2)) (by norm_num) (by norm_num : (1 : ℝ) ≤ 3)
  have hfirst : first.before (Curve.discount c).reference = false := by
    show first.before c.reference = false
    rw [hreference]
    decide
  have hlast : last.before first = false := by decide
  have hchain : ((Curve.discount c).views [first, last]).result =
      .ok (.implied (.implied (.discount c) first) last) :=
    Curve.views_cons.mpr ⟨hfirst, Curve.views_cons.mpr ⟨hlast, Curve.views_nil.mpr rfl⟩⟩
  exact ⟨c, hbuilt, hnodes, hchain, hviews .thirty360 rfl _ _ hchain⟩

end OptionDesk
