import OptionDesk.Proofs.Curve.FlatNodes

/-!
# Curves from zero rates

A curve is built from any zero rates whose times increase from zero, and gives them back: the yield at a
node is the rate that was quoted for it. In between, what a rate comes to over its time runs on straight
lines from node to node, and it stays what it is at the last one. Equal rates make the curve that is flat
at this rate, whatever the grids of the two. All this is read off the logarithms of the factors, and the
short end only limits where a yield is taken over its own time.
-/
namespace OptionDesk

open Exact

/-! ## Lists of real numbers -/

namespace Value

/-- The value is read as a list of real numbers. -/
def Lists (v : Value Exact) (xs : List ℝ) : Prop :=
  ∃ table, v.table = .ok table ∧ table.vector? = some (xs.map real)

variable (xs : List ℝ)

theorem commonLengths_numbers : commonLengths (xs.map fun x => (number (real x) : Value Exact)) =
    some [] := by
  induction xs with
  | nil => rfl
  | cons x xs ih =>
    cases xs with
    | nil => rfl
    | cons y xs =>
      rw [List.map_cons] at ih
      rw [List.map_cons, List.map_cons, commonLengths, ih]
      rfl

theorem readRows_numbers : readRows (xs.map fun x => (number (real x) : Value Exact)) =
    .ok ((xs.map real).map .entry) := by
  induction xs with
  | nil => rfl
  | cons x xs ih =>
    rw [List.map_cons, readRows, ih]
    rfl

theorem lists_numbers : (list (xs.map fun x => number (real x))).Lists xs := by
  refine ⟨.rows ((xs.map real).map .entry), ?_, Table.vector?_entries _⟩
  rw [table, lengths, commonLengths_numbers, readEntries, readRows_numbers]
  rfl

end Value

/-- A zero rate for a time. -/
structure ZeroRate where
  time : ℝ
  rate : ℝ

namespace ZeroRate

noncomputable section

/-- What the rate comes to over its time. -/
def accrued (q : ZeroRate) : ℝ := q.time * q.rate

def node (q : ZeroRate) : Node ℝ := Node.ofRate q.rate q.time

end

variable (q : ZeroRate)

@[simp] theorem time_node : q.node.time = q.time := rfl

@[simp] theorem log_factor_node : Real.log q.node.factor = -q.accrued := by
  rw [node, Node.factor_ofRate, Real.log_exp, accrued, neg_mul, mul_comm]

end ZeroRate

namespace DiscountCurve

variable {c : DiscountCurve Exact} {first : ZeroRate} {rest : List ZeroRate} {P : ℝ → ℝ}

/-- The yield at a moment, multiplied by the time to it. -/
def Accrues (c : DiscountCurve Exact) (moment : Value Exact) (t amount : ℝ) : Prop :=
  ∃ y : ℝ, ((Curve.discount c).zeroYield moment).result = .ok (real y) ∧ t * y = amount

/-- The answers of a curve that keeps the zero rates it was built from. -/
structure KeepsRates (c : DiscountCurve Exact) (first : ZeroRate) (rest : List ZeroRate) : Prop where
  node : ∀ q ∈ first :: rest, 1e-4 < q.time → ∀ moment,
    ((Curve.discount c).timeTo moment).result = .ok (real q.time) →
    ((Curve.discount c).zeroYield moment).result = .ok (real q.rate)
  between : ∀ p q, [p, q] <:+: first :: rest → ∀ moment (t : ℝ),
    ((Curve.discount c).timeTo moment).result = .ok (real t) → t ∈ Set.Icc p.time q.time → 1e-4 < t →
    c.Accrues moment t ((q.accrued - p.accrued) / (q.time - p.time) * (t - p.time) + p.accrued)
  beyond : ∀ moment (t : ℝ), ((Curve.discount c).timeTo moment).result = .ok (real t) →
    (rest.getLastD first).time ≤ t → 1e-4 < t → c.Accrues moment t (rest.getLastD first).accrued
  /-- Equal rates make a flat curve, and tables are answered alike up to the last node. -/
  flat : ∀ rate, (∀ q ∈ first :: rest, q.rate = rate) →
    ∀ reference rateValue endTime steps dayCount f, rateValue.read = .ok (real rate) →
      (flat reference rateValue endTime steps dayCount).result = .ok f →
      ∀ ts : Table Exact, ts.Within first.time (rest.getLastD first).time →
        c.factorTable ts = f.factorTable ts

theorem accrues_of_log (h : (Curve.discount c).HasFactors P) {moment : Value Exact} {t amount : ℝ}
    (htime : ((Curve.discount c).timeTo moment).result = .ok (real t)) (hlate : 1e-4 < t)
    (hlog : Real.log (P t) = -amount) : c.Accrues moment t amount := by
  obtain ⟨y, hy, hfactor⟩ := h.exists_zeroYield htime hlate
  rw [hfactor, Real.log_exp, neg_mul, neg_inj, mul_comm] at hlog
  exact ⟨y, hy, hlog⟩

theorem Through.keepsRates (h : c.Through first.node (rest.map ZeroRate.node)) :
    c.KeepsRates first rest := by
  have hlinear := logLinear_exp_brokenLine h.increasing h.positive
  have hfactors : (Curve.discount c).HasFactors _ := ⟨hlinear.positive, h.tabulates.factor⟩
  have hlast : (rest.map ZeroRate.node).getLastD first.node = (rest.getLastD first).node :=
    List.getLastD_map
  have hmem {q : ZeroRate} (hq : q ∈ first :: rest) : q.node ∈ first.node :: rest.map ZeroRate.node :=
    List.mem_map_of_mem hq
  constructor
  case node =>
    intro q hq hlate moment htime
    have hlog : Real.log (Real.exp _) = -q.accrued :=
      (congrArg Real.log (hlinear.node q.node (hmem hq))).trans q.log_factor_node
    obtain ⟨y, hy, haccrued⟩ := accrues_of_log hfactors htime hlate hlog
    -- yield and rate come to the same over a time that is not zero
    have hpositive : q.time ≠ 0 := (shortEnd_pos.trans hlate).ne'
    rwa [← mul_left_cancel₀ hpositive haccrued]
  case between =>
    intro p q hpq moment t htime ht hlate
    have hneighbours : [p.node, q.node] <:+: first.node :: rest.map ZeroRate.node :=
      hpq.map ZeroRate.node
    refine accrues_of_log hfactors htime hlate ?_
    rw [hlinear.affine _ _ hneighbours t ht, p.log_factor_node, q.log_factor_node, p.time_node,
      q.time_node]
    ring
  case beyond =>
    intro moment t htime hbeyond hlate
    refine accrues_of_log hfactors htime hlate ?_
    rw [hlinear.after t (by rwa [hlast]), hlast, ZeroRate.log_factor_node]
  case flat =>
    intro rate hrates reference rateValue endTime steps dayCount f hrate hflat ts hts
    have hon : ∀ n ∈ first.node :: rest.map ZeroRate.node, n = Node.ofRate rate n.time := by
      rw [← List.map_cons, List.forall_mem_map]
      intro q hq
      rw [ZeroRate.node, hrates q hq, Node.time_ofRate]
    rw [h.factorTable_of_rate hon (by rwa [hlast]), factorTable_of_flatRate (flatRate_of_flat hrate hflat)]

/-! ## Building from zero rates -/

section

variable {times rates : Value Exact} {second : ZeroRate}
  (htimes : times.Lists ((first :: second :: rest).map ZeroRate.time))
  (hrates : rates.Lists ((first :: second :: rest).map ZeroRate.rate))
  (hstart : first.time = 0) (hordered : (first :: second :: rest).Pairwise fun p q => p.time < q.time)

include htimes hrates hstart hordered

theorem result_ofZeroRates (reference : DateTime) (dayCount : DayCount) :
    (ofZeroRates (.dateTime reference) times rates dayCount).result =
      .ok ⟨reference, ((first :: second :: rest).map ZeroRate.node).map Node.exact, none, dayCount⟩ := by
  obtain ⟨timeTable, htimeTable, htimeVector⟩ := htimes
  obtain ⟨rateTable, hrateTable, hrateVector⟩ := hrates
  have hnodes : List.zipWith (fun t z : Exact => (⟨t, flatFactor z t⟩ : Node Exact))
      (((first :: second :: rest).map ZeroRate.time).map real)
      (((first :: second :: rest).map ZeroRate.rate).map real) =
      ((first :: second :: rest).map ZeroRate.node).map Node.exact := by
    rw [List.map_map, List.map_map, List.map_map, List.zipWith_map, List.zipWith_self]
    rfl
  have hlengths : (((first :: second :: rest).map ZeroRate.time).map real).length =
      (((first :: second :: rest).map ZeroRate.rate).map real).length := by
    simp only [List.length_map]
  have hzero : Scalar.isClose 1e-5 1e-8 (real first.time) 0 = true := by
    rw [hstart, Scalar.isClose, Bool.or_eq_true]
    exact .inl ((real_beq 0 0).trans (decide_eq_true rfl))
  have hpositive : ∀ n ∈ (first :: second :: rest).map ZeroRate.node, 0 < n.factor := by
    rw [List.forall_mem_map]
    exact fun q _ => Node.factor_ofRate_pos q.rate q.time
  have hbuilt := result_ofNodes (hordered.map ZeroRate.node fun _ _ hlt => hlt) hpositive reference
    .null dayCount
  rw [ofZeroRates, htimeTable, hrateTable, Outcome.ofMisuse_ok, Outcome.ofMisuse_ok, pure_bind, pure_bind,
    htimeVector, hrateVector]
  dsimp only
  rw [Outcome.require_of hlengths, pure_bind, hnodes]
  simp only [List.map_cons]
  rw [Outcome.require_of hzero, pure_bind, Value.referenceDate, pure_bind]
  exact hbuilt

/-- Zero rates whose times increase from zero make a curve, and the curve keeps them. -/
theorem zero_rates_are_kept (reference : DateTime) (dayCount : DayCount) :
    ∃ c, (ofZeroRates (.dateTime reference) times rates dayCount).result = .ok c ∧
      c.KeepsRates first (second :: rest) := by
  refine ⟨_, result_ofZeroRates htimes hrates hstart hordered reference dayCount,
    Through.keepsRates ⟨rfl, rfl, ?_, ?_⟩⟩
  · rw [← List.map_cons]
    exact hordered.map ZeroRate.node fun _ _ hlt => hlt
  · rw [← List.map_cons, List.forall_mem_map]
    exact fun q _ => Node.factor_ofRate_pos q.rate q.time

end

/-- Four zero rates, one of them for a time within the short end: at a node, between two of them and beyond
the last. -/
theorem four_zero_rates_are_kept :
    let reference := Value.midnight ((Date.ofParts? 2025 1 1).get rfl)
    let first : ZeroRate := ⟨0, 0.02⟩
    let rest : List ZeroRate := [⟨5e-5, 0.03⟩, ⟨1, 0.03⟩, ⟨2, 0.04⟩]
    let times : Value Exact := .list (((first :: rest).map ZeroRate.time).map fun x => .number (real x))
    let rates : Value Exact := .list (((first :: rest).map ZeroRate.rate).map fun x => .number (real x))
    first.time = 0 ∧ (first :: rest).Pairwise (fun p q => p.time < q.time) ∧
      ∃ c, (ofZeroRates (.dateTime reference) times rates .standard).result = .ok c ∧
        c.KeepsRates first rest ∧
        ((Curve.discount c).zeroYield (.number (real 2))).result = .ok (real 0.04) ∧
        c.Accrues (.number (real 1.5)) 1.5 0.055 ∧ c.Accrues (.number (real 5)) 5 0.08 := by
  intro reference first rest times rates
  have hordered : (first :: rest).Pairwise fun p q => p.time < q.time := by
    simp only [first, rest, List.pairwise_cons, List.forall_mem_cons]
    norm_num
  obtain ⟨c, hbuilt, hkept⟩ := zero_rates_are_kept (Value.lists_numbers _) (Value.lists_numbers _) rfl
    hordered reference .standard
  have hbetween := hkept.between ⟨1, 0.03⟩ ⟨2, 0.04⟩ ⟨[first, ⟨5e-5, 0.03⟩], [], rfl⟩ (.number (real 1.5))
    1.5 rfl (by norm_num) (by norm_num)
  have hbeyond := hkept.beyond (.number (real 5)) 5 rfl (by simp; norm_num) (by norm_num)
  refine ⟨rfl, hordered, c, hbuilt, hkept, ?_, ?_, ?_⟩
  · exact hkept.node ⟨2, 0.04⟩ (by simp) (by norm_num) _ rfl
  · norm_num [ZeroRate.accrued] at hbetween ⊢
    exact hbetween
  · norm_num [ZeroRate.accrued, rest] at hbeyond ⊢
    exact hbeyond

end DiscountCurve

end OptionDesk
