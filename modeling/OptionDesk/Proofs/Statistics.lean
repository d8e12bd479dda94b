import OptionDesk.Proofs.Exact
import OptionDesk.Statistics.Ledger
import Mathlib.Algebra.BigOperators.Ring.Multiset
import Mathlib.Order.ConditionallyCompleteLattice.Finset
import Mathlib.Tactic.FieldSimp

/-!
# Summaries of multisets of samples

In exact arithmetic an accumulator is a function of the multiset of its samples: the count, the mean,
the sum of squared deviations from the mean, and the range. The three updates of an accumulator, by
one sample, by a batch and by another accumulator, are three ways to compute that function on a larger
multiset. A ledger of named accumulators therefore holds the summaries of what its accepted entries
put together, whatever the order and the grouping of the entries.
-/
namespace OptionDesk

namespace Samples

noncomputable section

/-- The arithmetic mean. -/
def average (m : Multiset ℝ) : ℝ := m.sum / m.card

def squaredDeviations (m : Multiset ℝ) : ℝ := (m.map fun x => (x - average m) ^ 2).sum

/-- The unbiased sample variance. -/
def variance (m : Multiset ℝ) : ℝ := squaredDeviations m / (m.card - 1)

def lowest (m : Multiset ℝ) : ℝ := sInf {x | x ∈ m}

def highest (m : Multiset ℝ) : ℝ := sSup {x | x ∈ m}

/-- The accumulator of a multiset of samples. -/
def summary (m : Multiset ℝ) : Accumulator Exact where
  count := m.card
  mean := .real (average m)
  deviations := .real (squaredDeviations m)
  least := .real (lowest m)
  greatest := .real (highest m)

end

@[simp] theorem count_summary (m : Multiset ℝ) : (summary m).count = m.card := rfl

/-! ## Mean and deviations -/

/-- Squared distances from any centre, in terms of the power sums. -/
theorem sum_squared_distances (m : Multiset ℝ) (c : ℝ) :
    (m.map fun x => (x - c) ^ 2).sum = (m.map (· ^ 2)).sum - 2 * c * m.sum + m.card * c ^ 2 := by
  induction m using Multiset.induction_on with
  | empty => simp
  | cons x m ih =>
    rw [Multiset.map_cons, Multiset.sum_cons, ih, Multiset.map_cons, Multiset.sum_cons,
      Multiset.sum_cons, Multiset.card_cons, Nat.cast_add, Nat.cast_one]
    ring

theorem squaredDeviations_eq (m : Multiset ℝ) :
    squaredDeviations m = (m.map (· ^ 2)).sum - m.sum ^ 2 / m.card := by
  rw [squaredDeviations, sum_squared_distances, average]
  by_cases hm : m = 0
  · simp [hm]
  · have hn : (m.card : ℝ) ≠ 0 := by simpa using hm
    field_simp
    ring

theorem squaredDeviations_nonneg (m : Multiset ℝ) : 0 ≤ squaredDeviations m := by
  apply Multiset.sum_nonneg
  intro y hy
  obtain ⟨x, _, rfl⟩ := Multiset.mem_map.mp hy
  exact sq_nonneg _

theorem variance_nonneg (m : Multiset ℝ) : 0 ≤ variance m := by
  by_cases hm : m = 0
  · simp [hm, variance, squaredDeviations]
  · have hn : (1 : ℝ) ≤ m.card := by exact_mod_cast Multiset.card_pos.mpr hm
    exact div_nonneg (squaredDeviations_nonneg m) (by linarith)

theorem average_add {s t : Multiset ℝ} (hs : s ≠ 0) (ht : t ≠ 0) :
    average s + (average t - average s) * t.card / ((s.card + t.card : ℕ) : ℝ) =
      average (s + t) := by
  have hns : (s.card : ℝ) ≠ 0 := by simpa using hs
  have hnt : (t.card : ℝ) ≠ 0 := by simpa using ht
  have hn : (s.card : ℝ) + t.card ≠ 0 := by positivity
  simp only [average, Multiset.sum_add, Multiset.card_add, Nat.cast_add]
  field_simp
  ring

theorem squaredDeviations_add {s t : Multiset ℝ} (hs : s ≠ 0) (ht : t ≠ 0) :
    squaredDeviations s + (squaredDeviations t +
      (average t - average s) * (average t - average s) * s.card * t.card /
        ((s.card + t.card : ℕ) : ℝ)) = squaredDeviations (s + t) := by
  have hns : (s.card : ℝ) ≠ 0 := by simpa using hs
  have hnt : (t.card : ℝ) ≠ 0 := by simpa using ht
  have hn : (s.card : ℝ) + t.card ≠ 0 := by positivity
  simp only [squaredDeviations_eq, average, Multiset.sum_add, Multiset.card_add, Multiset.map_add,
    Nat.cast_add]
  field_simp
  ring

theorem average_cons (x : ℝ) (s : Multiset ℝ) :
    average s + (x - average s) / ((s.card + 1 : ℕ) : ℝ) = average (x ::ₘ s) := by
  by_cases hs : s = 0
  · simp [hs, average]
  have hns : (s.card : ℝ) ≠ 0 := by simpa using hs
  have hn : (s.card : ℝ) + 1 ≠ 0 := by positivity
  simp only [average, Multiset.sum_cons, Multiset.card_cons, Nat.cast_add, Nat.cast_one]
  field_simp
  ring

/-- One more sample adds the product of its distances from the mean before and the mean after. -/
theorem squaredDeviations_cons (x : ℝ) (s : Multiset ℝ) :
    squaredDeviations s + (x - average s) * (x - average (x ::ₘ s)) =
      squaredDeviations (x ::ₘ s) := by
  by_cases hs : s = 0
  · simp [hs, average, squaredDeviations]
  have hns : (s.card : ℝ) ≠ 0 := by simpa using hs
  have hn : (s.card : ℝ) + 1 ≠ 0 := by positivity
  simp only [squaredDeviations_eq, average, Multiset.sum_cons, Multiset.card_cons,
    Multiset.map_cons, Nat.cast_add, Nat.cast_one]
  field_simp
  ring

/-! ## Range -/

theorem isLeast_lowest {m : Multiset ℝ} (hm : m ≠ 0) : IsLeast {x | x ∈ m} (lowest m) := by
  have hne : {x | x ∈ m}.Nonempty := Multiset.exists_mem_of_ne_zero hm
  exact ⟨hne.csInf_mem m.finite_toSet, fun x hx => csInf_le m.finite_toSet.bddBelow hx⟩

theorem isGreatest_highest {m : Multiset ℝ} (hm : m ≠ 0) :
    IsGreatest {x | x ∈ m} (highest m) := by
  have hne : {x | x ∈ m}.Nonempty := Multiset.exists_mem_of_ne_zero hm
  exact ⟨hne.csSup_mem m.finite_toSet, fun x hx => le_csSup m.finite_toSet.bddAbove hx⟩

theorem lowest_add {s t : Multiset ℝ} (hs : s ≠ 0) (ht : t ≠ 0) :
    lowest (s + t) = min (lowest s) (lowest t) := by
  have hunion : {x | x ∈ s + t} = {x | x ∈ s} ∪ {x | x ∈ t} := by
    ext x
    simp
  rw [lowest, hunion, csInf_union s.finite_toSet.bddBelow (Multiset.exists_mem_of_ne_zero hs)
    t.finite_toSet.bddBelow (Multiset.exists_mem_of_ne_zero ht)]
  rfl

theorem highest_add {s t : Multiset ℝ} (hs : s ≠ 0) (ht : t ≠ 0) :
    highest (s + t) = max (highest s) (highest t) := by
  have hunion : {x | x ∈ s + t} = {x | x ∈ s} ∪ {x | x ∈ t} := by
    ext x
    simp
  rw [highest, hunion, csSup_union s.finite_toSet.bddAbove (Multiset.exists_mem_of_ne_zero hs)
    t.finite_toSet.bddAbove (Multiset.exists_mem_of_ne_zero ht)]
  rfl

@[simp] theorem lowest_singleton (x : ℝ) : lowest {x} = x := by simp [lowest]

@[simp] theorem highest_singleton (x : ℝ) : highest {x} = x := by simp [highest]

/-- Taking the lesser of all entries of a list from a lower end onwards extends that end. -/
theorem foldl_min {s : Multiset ℝ} (hs : s ≠ 0) (xs : List ℝ) :
    (xs.map Exact.real).foldl min (.real (lowest s)) = .real (lowest (s + xs)) := by
  induction xs generalizing s with
  | nil => simp
  | cons x xs ih =>
    have hx : ({x} : Multiset ℝ) ≠ 0 := Multiset.singleton_ne_zero x
    have hsx : s + {x} ≠ 0 := by simp
    have hstep : min (lowest s) x = lowest (s + {x}) := by
      rw [lowest_add hs hx, lowest_singleton]
    rw [List.map_cons, List.foldl_cons, Exact.real_min, hstep, ih hsx, add_assoc,
      Multiset.singleton_add, Multiset.cons_coe]

theorem foldl_max {s : Multiset ℝ} (hs : s ≠ 0) (xs : List ℝ) :
    (xs.map Exact.real).foldl max (.real (highest s)) = .real (highest (s + xs)) := by
  induction xs generalizing s with
  | nil => simp
  | cons x xs ih =>
    have hx : ({x} : Multiset ℝ) ≠ 0 := Multiset.singleton_ne_zero x
    have hsx : s + {x} ≠ 0 := by simp
    have hstep : max (highest s) x = highest (s + {x}) := by
      rw [highest_add hs hx, highest_singleton]
    rw [List.map_cons, List.foldl_cons, Exact.real_max, hstep, ih hsx, add_assoc,
      Multiset.singleton_add, Multiset.cons_coe]

/-! ## The updates of an accumulator -/

@[simp] theorem summary_zero : summary 0 = Accumulator.empty := by
  simp [summary, Accumulator.empty, average, squaredDeviations, lowest, highest]

/-- Merging the summaries of two multisets gives the summary of their union, with the parts of one
counted beside those of the other. -/
theorem merge_summary (s t : Multiset ℝ) : (summary s).merge (summary t) = summary (s + t) := by
  by_cases ht : t = 0
  · rw [ht, summary_zero, Accumulator.merge_empty, add_zero]
  by_cases hs : s = 0
  · rw [hs, summary_zero, Accumulator.empty_merge, count_summary, zero_add,
      if_neg (by simpa using ht)]
  have hcount : ((s.card + t.card : ℕ) : ℝ) ≠ 0 := by
    have := Multiset.card_pos.mpr hs
    positivity
  unfold Accumulator.merge
  rw [if_neg (by simpa using ht), if_neg (by simpa using hs)]
  simp only [summary, Exact.natCast_eq, Exact.real_sub, Exact.real_mul, Exact.real_add,
    Exact.real_div _ hcount, Exact.real_min, Exact.real_max, average_add hs ht,
    squaredDeviations_add hs ht, lowest_add hs ht, highest_add hs ht, Multiset.card_add]

theorem push_summary (s : Multiset ℝ) (x : ℝ) :
    (summary s).push (.real x) = summary (x ::ₘ s) := by
  have hcount : ((s.card + 1 : ℕ) : ℝ) ≠ 0 := by positivity
  have hmean : (summary s).mean + (.real x - (summary s).mean) / (((summary s).count + 1 : ℕ) : Exact) =
      .real (average (x ::ₘ s)) := by
    simp only [summary, Exact.natCast_eq, Exact.real_sub, Exact.real_div _ hcount, Exact.real_add,
      average_cons]
  have hdeviations : (summary s).deviations +
      (.real x - (summary s).mean) * (.real x - .real (average (x ::ₘ s))) =
      .real (squaredDeviations (x ::ₘ s)) := by
    simp only [summary, Exact.real_sub, Exact.real_mul, Exact.real_add, squaredDeviations_cons]
  have hrange : (if (summary s).count = 0 then Exact.real x else min (summary s).least (.real x)) =
        .real (lowest (x ::ₘ s)) ∧
      (if (summary s).count = 0 then Exact.real x else max (summary s).greatest (.real x)) =
        .real (highest (x ::ₘ s)) := by
    by_cases hs : s = 0
    · have hn : (summary s).count = 0 := by rw [hs, count_summary, Multiset.card_zero]
      rw [if_pos hn, if_pos hn, hs]
      simp
    · have hx : ({x} : Multiset ℝ) ≠ 0 := Multiset.singleton_ne_zero x
      have hcons : x ::ₘ s = s + {x} := by rw [add_comm, Multiset.singleton_add]
      have hn : (summary s).count ≠ 0 := by simpa using hs
      rw [if_neg hn, if_neg hn, hcons, lowest_add hs hx, highest_add hs hx]
      simp [summary]
  simp only [Accumulator.push, hmean, hdeviations, hrange.1, hrange.2]
  simp [summary]

/-- The two passes over a batch, for the mean and then for the deviations from it. -/
theorem ofList_summary (xs : List ℝ) : Accumulator.ofList (xs.map .real) = summary xs := by
  cases xs with
  | nil => exact summary_zero.symm
  | cons x rest =>
    have hcount : ((rest.length + 1 : ℕ) : ℝ) ≠ 0 := by positivity
    have hmean : Scalar.sum (Exact.real x :: rest.map Exact.real) / ((rest.length + 1 : ℕ) : Exact) =
        .real (average ↑(x :: rest)) := by
      rw [← List.map_cons, Exact.sum_real, Exact.natCast_eq, Exact.real_div _ hcount]
      rfl
    have hdeviations : Scalar.sum ((Exact.real x :: rest.map Exact.real).map
        fun y => Scalar.square (y - .real (average ↑(x :: rest)))) =
        .real (squaredDeviations ↑(x :: rest)) := by
      rw [← List.map_cons, List.map_map, squaredDeviations, Multiset.map_coe, Multiset.sum_coe,
        ← Exact.sum_real, List.map_map]
      congr 2
      funext y
      simp
    have hsingle : ({x} : Multiset ℝ) ≠ 0 := Multiset.singleton_ne_zero x
    have hleast := foldl_min hsingle rest
    have hgreatest := foldl_max hsingle rest
    rw [lowest_singleton, Multiset.singleton_add, Multiset.cons_coe] at hleast
    rw [highest_singleton, Multiset.singleton_add, Multiset.cons_coe] at hgreatest
    rw [List.map_cons] at hdeviations
    simp only [List.map_cons, Accumulator.ofList, List.length_cons, List.length_map, hmean,
      hdeviations, hleast, hgreatest]
    rfl

/-! ## Inspection -/

/-- What an accumulator answers about a multiset: mean and range need one sample at least, and what
is derived from the variance needs two. -/
structure Inspects (s : Accumulator Exact) (m : Multiset ℝ) : Prop where
  mean : s.mean? = if m.card = 0 then .error (.noSamples .mean) else .ok (.real (average m))
  least : s.least? = if m.card = 0 then .error (.noSamples .least) else .ok (.real (lowest m))
  greatest : s.greatest? =
    if m.card = 0 then .error (.noSamples .greatest) else .ok (.real (highest m))
  range : m = 0 ∨ IsLeast {x | x ∈ m} (lowest m) ∧ IsGreatest {x | x ∈ m} (highest m)
  variance : s.variance? = if m.card < 2 then .error .fewerThanTwo else .ok (.real (variance m))
  variance_nonneg : 0 ≤ Samples.variance m
  standardDeviation : s.standardDeviation? =
    if m.card < 2 then .error .fewerThanTwo else .ok (.real (Real.sqrt (Samples.variance m)))
  errorEstimate : s.errorEstimate? = if m.card < 2 then .error .fewerThanTwo
    else .ok (.real (Real.sqrt (Samples.variance m / m.card)))

theorem variance?_summary (m : Multiset ℝ) : (summary m).variance? =
    if m.card < 2 then .error .fewerThanTwo else .ok (.real (variance m)) := by
  unfold Accumulator.variance?
  rw [count_summary]
  by_cases h : m.card < 2
  · rw [if_pos h, if_pos h]
  · have hcast : ((m.card - 1 : ℕ) : ℝ) = m.card - 1 := by
      rw [Nat.cast_sub (by omega), Nat.cast_one]
    have hn : ((m.card - 1 : ℕ) : ℝ) ≠ 0 := by
      have : m.card - 1 ≠ 0 := by omega
      exact_mod_cast this
    rw [if_neg h, if_neg h, Exact.natCast_eq]
    show Except.ok (Exact.real (squaredDeviations m) / _) = _
    rw [Exact.real_div _ hn, hcast, variance]

theorem inspects_summary (m : Multiset ℝ) : Inspects (summary m) m := by
  refine ⟨rfl, rfl, rfl, ?_, variance?_summary m, variance_nonneg m, ?_, ?_⟩
  · by_cases hm : m = 0
    · exact .inl hm
    · exact .inr ⟨isLeast_lowest hm, isGreatest_highest hm⟩
  · rw [Accumulator.standardDeviation?, variance?_summary]
    by_cases h : m.card < 2
    · rw [if_pos h, if_pos h]
      rfl
    · rw [if_neg h, if_neg h]
      show Except.ok (Scalar.sqrt (Exact.real (variance m))) = _
      rw [Exact.real_sqrt (variance_nonneg m)]
  · rw [Accumulator.errorEstimate?, variance?_summary]
    by_cases h : m.card < 2
    · rw [if_pos h, if_pos h]
      rfl
    · have hn : (m.card : ℝ) ≠ 0 := by
        have : m.card ≠ 0 := by omega
        exact_mod_cast this
      have hnonneg : 0 ≤ variance m / m.card := div_nonneg (variance_nonneg m) (Nat.cast_nonneg _)
      rw [if_neg h, if_neg h]
      show Except.ok (Scalar.sqrt (Exact.real (variance m) / (m.card : Exact))) = _
      rw [Exact.natCast_eq, Exact.real_div _ hn, Exact.real_sqrt hnonneg]

end Samples

end OptionDesk
