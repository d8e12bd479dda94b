import OptionDesk.Proofs.Curve.Yields
import OptionDesk.Proofs.Interpolation.BrokenLine

/-!
# Log-linear curves

A curve without a flat rate is read off its nodes. Through nodes at increasing times with positive
factors it goes as the exponential of the broken line through their logarithms: it takes the factors of
the nodes, has one rate between two neighbours and is level beyond the ends, and it is positive,
continuous and within the bounds of its factors, and falls if they do. Tables are read entry by entry,
with one warning if any entry is beyond the ends.
-/
namespace OptionDesk

open Exact

namespace Node

noncomputable section

/-- A node with real time and factor, as an exact one. -/
def exact (n : Node ℝ) : Node Exact := ⟨real n.time, real n.factor⟩

def logPoint (n : Node ℝ) : Point ℝ := ⟨n.time, Real.log n.factor⟩

end

@[simp] theorem time_exact (n : Node ℝ) : n.exact.time = real n.time := rfl

theorem map_time_exact (nodes : List (Node ℝ)) :
    (nodes.map exact).map time = (nodes.map time).map real := by
  rw [List.map_map, List.map_map]
  rfl

theorem exp_logPoint {n : Node ℝ} (h : 0 < n.factor) : Real.exp n.logPoint.y = n.factor :=
  Real.exp_log h

end Node

/-- A function of time that goes through nodes in the order of their times: its logarithm is affine
between neighbours and level beyond the ends. -/
structure LogLinear (first : Node ℝ) (rest : List (Node ℝ)) (P : ℝ → ℝ) : Prop where
  node : ∀ n ∈ first :: rest, P n.time = n.factor
  affine : ∀ m n, [m, n] <:+: first :: rest → ∀ t ∈ Set.Icc m.time n.time, Real.log (P t) =
    (Real.log n.factor - Real.log m.factor) / (n.time - m.time) * (t - m.time) + Real.log m.factor
  between : ∀ m n, [m, n] <:+: first :: rest → ∀ t ∈ Set.Icc m.time n.time,
    P t ∈ Set.uIcc m.factor n.factor
  before : ∀ t ≤ first.time, P t = first.factor
  after : ∀ t, (rest.getLastD first).time ≤ t → P t = (rest.getLastD first).factor
  positive : ∀ t, 0 < P t
  /-- No bound of the factors is passed, neither the smallest nor the largest of them. -/
  bounded : ∀ lower upper, (∀ n ∈ first :: rest, n.factor ∈ Set.Icc lower upper) →
    ∀ t, P t ∈ Set.Icc lower upper
  continuous : Continuous P
  antitone : (first :: rest).Pairwise (fun m n => n.factor ≤ m.factor) → Antitone P

section

variable {first : Node ℝ} {rest : List (Node ℝ)}
  (hincreasing : (first :: rest).Pairwise fun m n => m.time < n.time)
  (hpositive : ∀ n ∈ first :: rest, 0 < n.factor)

include hincreasing

theorem pairwise_logPoint :
    (first.logPoint :: rest.map Node.logPoint).Pairwise fun p q => p.x < q.x := by
  rw [← List.map_cons]
  exact hincreasing.map Node.logPoint fun _ _ hlt => hlt

theorem brokenLine_logPoint_of_neighbours {m n : Node ℝ} (hmn : [m, n] <:+: first :: rest) {t : ℝ}
    (ht : t ∈ Set.Icc m.time n.time) :
    Point.brokenLine first.logPoint (rest.map Node.logPoint) t =
      (Real.log n.factor - Real.log m.factor) / (n.time - m.time) * (t - m.time) + Real.log m.factor :=
  Point.brokenLine_of_neighbours (pairwise_logPoint hincreasing) (hmn.map Node.logPoint) ht.1 ht.2

include hpositive

/-- The exponential of a broken line stays in any interval that holds the factors. -/
theorem exp_brokenLine_mem {s : Set ℝ} (hs : s.OrdConnected)
    (hfactors : ∀ n ∈ first :: rest, n.factor ∈ s) (t : ℝ) :
    Real.exp (Point.brokenLine first.logPoint (rest.map Node.logPoint) t) ∈ s := by
  have hconvex : Convex ℝ (Set.preimage Real.exp s) :=
    convex_iff_ordConnected.mpr (hs.preimage_mono Real.exp_monotone)
  refine Point.brokenLine_mem (pairwise_logPoint hincreasing) hconvex fun q hq => ?_
  rw [← List.map_cons] at hq
  obtain ⟨n, hn, rfl⟩ := List.mem_map.mp hq
  rw [Set.mem_preimage, Node.exp_logPoint (hpositive n hn)]
  exact hfactors n hn

theorem logLinear_exp_brokenLine : LogLinear first rest fun t =>
    Real.exp (Point.brokenLine first.logPoint (rest.map Node.logPoint) t) := by
  have hsorted := pairwise_logPoint hincreasing
  have hlast : rest.getLastD first ∈ first :: rest := List.getLastD_mem_cons
  constructor
  case node =>
    intro n hn
    have hmem : n.logPoint ∈ first.logPoint :: rest.map Node.logPoint := List.mem_map_of_mem hn
    have hnode := Point.brokenLine_of_mem hsorted hmem
    exact (congrArg Real.exp hnode).trans (Node.exp_logPoint (hpositive n hn))
  case affine =>
    intro m n hmn t ht
    rw [Real.log_exp, brokenLine_logPoint_of_neighbours hincreasing hmn ht]
  case between =>
    -- on the segment the line is the one through its two ends alone
    intro m n hmn t ht
    have hsegment : [m, n].Pairwise fun m n => m.time < n.time := hincreasing.sublist hmn.sublist
    have hends : ∀ k ∈ [m, n], k.factor ∈ Set.uIcc m.factor n.factor := by
      simp
    have hmem := exp_brokenLine_mem hsegment (fun k hk => hpositive k (hmn.subset hk))
      Set.ordConnected_uIcc hends t
    rwa [brokenLine_logPoint_of_neighbours hsegment List.infix_rfl ht,
      ← brokenLine_logPoint_of_neighbours hincreasing hmn ht] at hmem
  case before =>
    intro t ht
    exact (congrArg Real.exp (Point.brokenLine_of_le hsorted ht)).trans
      (Node.exp_logPoint (hpositive first List.mem_cons_self))
  case after =>
    intro t ht
    have hpoint : (rest.map Node.logPoint).getLastD first.logPoint = (rest.getLastD first).logPoint :=
      List.getLastD_map
    have hlevel := Point.brokenLine_of_ge (x := t) hsorted (by rw [hpoint]; exact ht)
    rw [hpoint] at hlevel
    exact (congrArg Real.exp hlevel).trans (Node.exp_logPoint (hpositive _ hlast))
  case positive => exact fun t => Real.exp_pos _
  case bounded =>
    intro lower upper hfactors t
    exact exp_brokenLine_mem hincreasing hpositive Set.ordConnected_Icc hfactors t
  case continuous => exact Real.continuous_exp.comp (Point.continuous_brokenLine _ _)
  case antitone =>
    intro hfall
    have hlogs : (first :: rest).Pairwise fun m n => Real.log n.factor ≤ Real.log m.factor :=
      hfall.imp_of_mem fun _ hn hle => Real.log_le_log (hpositive _ hn) hle
    have hheights : (first.logPoint :: rest.map Node.logPoint).Pairwise fun p q => q.y ≤ p.y := by
      rw [← List.map_cons]
      exact hlogs.map Node.logPoint fun _ _ hle => hle
    exact Real.exp_monotone.comp_antitone (Point.antitone_brokenLine hsorted hheights)

end

/-- Inside a segment the rate of any interval is the one between the neighbours. -/
theorem LogLinear.rate_eq {first : Node ℝ} {rest : List (Node ℝ)} {P : ℝ → ℝ}
    (h : LogLinear first rest P) {m n : Node ℝ} (hmn : [m, n] <:+: first :: rest) {s t : ℝ}
    (hs : m.time ≤ s) (hst : s < t) (ht : t ≤ n.time) :
    (Real.log (P s) - Real.log (P t)) / (t - s) =
      (Real.log m.factor - Real.log n.factor) / (n.time - m.time) := by
  have hwidth : n.time - m.time ≠ 0 := by
    intro hzero
    linarith
  have hinterval : t - s ≠ 0 := (sub_pos.mpr hst).ne'
  rw [h.affine m n hmn s ⟨hs, hst.le.trans ht⟩, h.affine m n hmn t ⟨hs.trans hst.le, ht⟩]
  field_simp
  ring

namespace DiscountCurve

/-- The curve has real nodes at increasing times with positive factors, and no flat rate. -/
structure Through (c : DiscountCurve Exact) (first : Node ℝ) (rest : List (Node ℝ)) : Prop where
  nodes : c.nodes = (first :: rest).map Node.exact
  flatRate : c.flatRate = none
  increasing : (first :: rest).Pairwise fun m n => m.time < n.time
  positive : ∀ n ∈ first :: rest, 0 < n.factor

/-- An entry of a table is before the first node or after the last one. -/
def Extrapolates (first : Node ℝ) (rest : List (Node ℝ)) (ts : Table Exact) : Prop :=
  ∃ t ∈ ts.entries, t < real first.time ∨ real (rest.getLastD first).time < t

/-- The curve answers with a function of time: at a single time, entry by entry in a table, and with one
rate for all intervals between two neighbours. -/
structure Tabulates (c : DiscountCurve Exact) (first : Node ℝ) (rest : List (Node ℝ)) (P : ℝ → ℝ) :
    Prop where
  factor : ∀ t : ℝ, (c.factorAt (real t)).result = .ok (real (P t))
  table : ∃ f : Exact → Exact, (∀ t, (c.factorAt t).result = .ok (f t)) ∧
    ∀ ts, (c.factorTable ts).result = .ok (ts.map f)
  warned : ∀ ts, Extrapolates first rest ts → (c.factorTable ts).notices =
    [.warning (.extrapolated (real first.time) (real (rest.getLastD first).time))]
  silent : ∀ ts, ¬Extrapolates first rest ts → (c.factorTable ts).notices = []
  forwardRate : ∀ m n, [m, n] <:+: first :: rest → ∀ (start finish : Value Exact) (s t : ℝ),
    ((Curve.discount c).timeTo start).result = .ok (real s) →
    ((Curve.discount c).timeTo finish).result = .ok (real t) → m.time ≤ s → s < t → t ≤ n.time →
    ((Curve.discount c).forwardRate start finish).result =
      .ok (real ((Real.log m.factor - Real.log n.factor) / (n.time - m.time)))

variable {c : DiscountCurve Exact} {first : Node ℝ} {rest : List (Node ℝ)}

theorem Through.interpolated_eq (h : c.Through first rest) (t : ℝ) : c.interpolated (real t) =
    real (Real.exp (Point.brokenLine first.logPoint (rest.map Node.logPoint) t)) := by
  have hpoints : (c.nodes.map fun n => (⟨n.time, Scalar.log n.factor⟩ : Point Exact)) =
      (first.logPoint :: rest.map Node.logPoint).map Point.exact := by
    rw [h.nodes, ← List.map_cons, List.map_map, List.map_map]
    refine List.map_congr_left fun n hn => ?_
    show (⟨real n.time, Scalar.log (real n.factor)⟩ : Point Exact) = _
    rw [real_log (h.positive n hn)]
    rfl
  rw [interpolated, hpoints, Point.interpolate_exact (pairwise_logPoint h.increasing), real_exp]

/-- A table is read entry by entry, and whether it warns depends on all its entries together. -/
theorem Through.factorTable_eq (h : c.Through first rest) (ts : Table Exact) :
    c.factorTable ts = (do
      if outside (real first.time) (real (rest.getLastD first).time) ts then
        Outcome.report (.warning (.extrapolated (real first.time) (real (rest.getLastD first).time)))
      return ts.map c.interpolated) := by
  have hlast : ((rest.map Node.exact).getLastD first.exact).time = real (rest.getLastD first).time := by
    rw [List.getLastD_map, Node.time_exact]
  rw [factorTable, h.flatRate, h.nodes, List.map_cons]
  simp only [hlast, Node.time_exact]

theorem outside_iff {ts : Table Exact} :
    outside (real first.time) (real (rest.getLastD first).time) ts = true ↔
      Extrapolates first rest ts := by
  simp only [outside, Extrapolates, List.any_eq_true, Bool.or_eq_true, decide_eq_true_eq]

theorem Through.tabulates (h : c.Through first rest) : c.Tabulates first rest fun t =>
    Real.exp (Point.brokenLine first.logPoint (rest.map Node.logPoint) t) := by
  have hlinear := logLinear_exp_brokenLine h.increasing h.positive
  have hne : c.nodes ≠ [] := by
    rw [h.nodes]
    exact List.cons_ne_nil _ _
  have hentry := result_factorAt_of_nodes h.flatRate hne
  have hfactor (t : ℝ) := (hentry (real t)).trans (congrArg Except.ok (h.interpolated_eq t))
  have hfactors : (Curve.discount c).HasFactors _ := ⟨hlinear.positive, hfactor⟩
  refine ⟨hfactor, ⟨c.interpolated, hentry, fun ts => ?_⟩, fun ts hts => ?_, fun ts hts => ?_, ?_⟩
  · rw [h.factorTable_eq]
    split
    · rfl
    · rfl
  · rw [h.factorTable_eq, if_pos (outside_iff.mpr hts)]
    rfl
  · rw [h.factorTable_eq, if_neg (mt outside_iff.mp hts)]
    rfl
  · intro m n hmn start finish s t hstart hfinish hs hst ht
    rw [hfactors.forwardRate hstart hfinish hst, hlinear.rate_eq hmn hs hst ht]

/-! ## Curves that are built -/

theorem increasing_of_pairwise {times : List ℝ} (h : times.Pairwise (· < ·)) :
    DiscountCurve.increasing (times.map real) = true := by
  rw [← List.isChain_iff_pairwise] at h
  induction h with
  | nil => rfl
  | singleton t => rfl
  | cons_cons hst _ ih =>
    rw [List.map_cons, List.map_cons, DiscountCurve.increasing, real_sub, Bool.and_eq_true,
      Bool.not_eq_true', decide_eq_false_iff_not, not_real_le_zero, sub_pos]
    exact ⟨hst, ih⟩

/-- Real nodes in order with positive factors are accepted if their flat rate is. -/
theorem result_ofNodes {nodes : List (Node ℝ)} (hincreasing : nodes.Pairwise fun m n => m.time < n.time)
    (hpositive : ∀ n ∈ nodes, 0 < n.factor) (reference : DateTime) (flatRate : Value Exact)
    (dayCount : DayCount) : (ofNodes reference (nodes.map Node.exact) flatRate dayCount).result =
      (checkFlatRate (nodes.map Node.exact) flatRate).result.map fun rate =>
        ⟨reference, nodes.map Node.exact, rate, dayCount⟩ := by
  have hordered : DiscountCurve.increasing ((nodes.map Node.exact).map Node.time) = true := by
    rw [Node.map_time_exact]
    exact increasing_of_pairwise (hincreasing.map Node.time fun _ _ hlt => hlt)
  exact result_ofNodes_of_passes hordered
    (List.forall_mem_map.mpr fun n hn => not_real_le_zero.mpr (hpositive n hn))

/-- Construction from real nodes sees to their order and their signs. -/
theorem ordered_of_ofNodes {reference : DateTime} {nodes : List (Node ℝ)} {flatRate : Value Exact}
    {dayCount : DayCount}
    (h : (ofNodes reference (nodes.map Node.exact) flatRate dayCount).result = .ok c) :
    (nodes.Pairwise fun m n => m.time < n.time) ∧ ∀ n ∈ nodes, 0 < n.factor := by
  obtain ⟨hincreasing, hpositive, -⟩ := ofNodes_eq_ok h
  have hfinite : ∀ t ∈ (nodes.map Node.exact).map Node.time, Scalar.isFinite t = true := by
    rw [Node.map_time_exact, List.forall_mem_map]
    exact fun _ _ => rfl
  have hordered := pairwise_of_increasing ordersFinite hfinite hincreasing
  rw [List.pairwise_map, List.pairwise_map] at hordered
  exact ⟨hordered,
    fun n hn => not_real_le_zero.mp (hpositive n.exact (List.mem_map_of_mem hn))⟩

theorem through_of_ofNodes {reference : DateTime} {dayCount : DayCount}
    (h : (ofNodes reference ((first :: rest).map Node.exact) .null dayCount).result = .ok c) :
    c.Through first rest := by
  obtain ⟨hincreasing, hpositive⟩ := ordered_of_ofNodes h
  obtain ⟨-, -, rate, hrate, rfl⟩ := ofNodes_eq_ok h
  exact ⟨rfl, (Except.ok.inj hrate).symm, hincreasing, hpositive⟩

/-- A curve that is read off its nodes is log-linear between them, and answers so wherever it is
asked. -/
theorem nodes_are_joined_log_linearly (h : c.Through first rest) :
    ∃ P, LogLinear first rest P ∧ c.Tabulates first rest P :=
  ⟨_, logLinear_exp_brokenLine h.increasing h.positive, h.tabulates⟩

/-- A curve that has been built through three nodes with falling factors, at a node, beyond the last one
and on the second segment. -/
theorem three_nodes_are_joined_log_linearly :
    let reference := Value.midnight ((Date.ofParts? 2025 1 1).get rfl)
    let first : Node ℝ := ⟨0, 1⟩
    let rest : List (Node ℝ) := [⟨1, 0.95⟩, ⟨3, 0.9⟩]
    ∃ c, (ofNodes reference ((first :: rest).map Node.exact) .null .standard).result = .ok c ∧
      ∃ P, LogLinear first rest P ∧ c.Tabulates first rest P ∧ P 1 = 0.95 ∧ P 5 = 0.9 ∧
        P 2 ∈ Set.uIcc 0.95 0.9 ∧ Antitone P := by
  intro reference first rest
  have hincreasing : increasing (((first :: rest).map Node.exact).map Node.time) = true := by
    simp only [first, rest, List.map_cons, List.map_nil, Node.time_exact, increasing, real_sub, zero_eq,
      real_le]
    norm_num
  have hpositive : ((first :: rest).map Node.exact).all (fun n => !decide (n.factor ≤ 0)) = true := by
    simp only [first, rest, List.map_cons, List.map_nil, Node.exact, zero_eq]
    norm_num
  have hbuilt : (ofNodes reference ((first :: rest).map Node.exact) .null .standard).result =
      .ok ⟨reference, (first :: rest).map Node.exact, none, .standard⟩ := by
    rw [ofNodes, Outcome.require_of hincreasing, Outcome.require_of hpositive, pure_bind, pure_bind]
    split
    · rfl
    · rfl
  obtain ⟨P, hP, htabulates⟩ := nodes_are_joined_log_linearly (through_of_ofNodes hbuilt)
  refine ⟨_, hbuilt, P, hP, htabulates, ?_, ?_, ?_, hP.antitone ?_⟩
  · exact hP.node ⟨1, 0.95⟩ (by simp [rest])
  · exact hP.after 5 (by simp [rest]; norm_num)
  · exact hP.between ⟨1, 0.95⟩ ⟨3, 0.9⟩ ⟨[first], [], rfl⟩ 2 (by norm_num)
  · simp only [first, rest, List.pairwise_cons, List.forall_mem_cons]
    norm_num

end DiscountCurve

end OptionDesk
