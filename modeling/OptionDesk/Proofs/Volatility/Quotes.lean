import OptionDesk.Proofs.Interpolation.Sorted
import OptionDesk.Proofs.Statistics

/-!
# Quotes of real numbers

A query of a surface is moved into the ranges of the quoted strikes and expiries before anything else, and
only there. Where all quotes share a strike, what is left is the line through their volatilities over the
expiries, and where they share an expiry the line over the strikes, in whatever order the quotes come.
-/
namespace OptionDesk

open Exact

namespace Quote

/-- A quote of real numbers, as an exact one. -/
def exact (q : Quote ℝ) : Quote Exact := ⟨real q.strike, real q.expiry, real q.volatility⟩

/-- The quote as a point of a term structure. -/
def overExpiry {α : Type} (q : Quote α) : Point α := ⟨q.expiry, q.volatility⟩

/-- The quote as a point of a smile. -/
def overStrike {α : Type} (q : Quote α) : Point α := ⟨q.strike, q.volatility⟩

noncomputable section

variable (f : Quote ℝ → ℝ) (quotes : List (Quote ℝ))

/-- The least of one of the numbers that the quotes hold. -/
def lowest : ℝ := Samples.lowest (quotes.map f)

/-- The greatest of one of the numbers that the quotes hold. -/
def highest : ℝ := Samples.highest (quotes.map f)

/-- The nearest number in the range of the quotes. -/
def within (x : ℝ) : ℝ := min (max x (lowest f quotes)) (highest f quotes)

end

variable {f : Quote ℝ → ℝ} {quotes : List (Quote ℝ)} (hne : quotes ≠ [])

include hne

theorem isLeast_lowest : IsLeast {x | ∃ q ∈ quotes, f q = x} (lowest f quotes) := by
  have hsamples : ((quotes.map f : List ℝ) : Multiset ℝ) ≠ 0 := by simpa using hne
  simpa [lowest] using Samples.isLeast_lowest hsamples

theorem isGreatest_highest : IsGreatest {x | ∃ q ∈ quotes, f q = x} (highest f quotes) := by
  have hsamples : ((quotes.map f : List ℝ) : Multiset ℝ) ≠ 0 := by simpa using hne
  simpa [highest] using Samples.isGreatest_highest hsamples

omit hne in
theorem mem_range {q : Quote ℝ} (hq : q ∈ quotes) :
    f q ∈ Set.Icc (lowest f quotes) (highest f quotes) :=
  ⟨(isLeast_lowest (List.ne_nil_of_mem hq)).2 ⟨q, hq, rfl⟩,
    (isGreatest_highest (List.ne_nil_of_mem hq)).2 ⟨q, hq, rfl⟩⟩

theorem lowest_le_highest : lowest f quotes ≤ highest f quotes := by
  obtain ⟨q, hq⟩ := List.exists_mem_of_ne_nil quotes hne
  exact (mem_range hq).1.trans (mem_range hq).2

theorem within_mem (x : ℝ) :
    within f quotes x ∈ Set.Icc (lowest f quotes) (highest f quotes) :=
  ⟨le_min (le_max_right _ _) (lowest_le_highest hne), min_le_right _ _⟩

omit hne in
theorem within_of_mem {x : ℝ} (hx : x ∈ Set.Icc (lowest f quotes) (highest f quotes)) :
    within f quotes x = x := by
  rw [within, max_eq_left hx.1, min_eq_left hx.2]

theorem within_of_le {x : ℝ} (hx : x ≤ lowest f quotes) : within f quotes x = lowest f quotes := by
  rw [within, max_eq_right hx, min_eq_left (lowest_le_highest hne)]

omit hne in
theorem within_of_ge {x : ℝ} (hx : highest f quotes ≤ x) :
    within f quotes x = highest f quotes :=
  min_eq_right (hx.trans (le_max_left _ _))

end Quote

namespace Surface

open Quote

/-! ## Ranges -/

theorem least_map_real {rs : List ℝ} (hne : rs ≠ []) :
    least (rs.map real) = real (Samples.lowest rs) := by
  obtain ⟨r, rest, rfl⟩ := List.exists_cons_of_ne_nil hne
  have hfold := Samples.foldl_min (Multiset.singleton_ne_zero r) (r :: rest)
  have hsame : Samples.lowest ({r} + ((r :: rest : List ℝ) : Multiset ℝ)) = Samples.lowest (r :: rest) := by
    simp [Samples.lowest]
  rw [Samples.lowest_singleton, hsame] at hfold
  exact hfold

theorem greatest_map_real {rs : List ℝ} (hne : rs ≠ []) :
    greatest (rs.map real) = real (Samples.highest rs) := by
  obtain ⟨r, rest, rfl⟩ := List.exists_cons_of_ne_nil hne
  have hfold := Samples.foldl_max (Multiset.singleton_ne_zero r) (r :: rest)
  have hsame : Samples.highest ({r} + ((r :: rest : List ℝ) : Multiset ℝ)) = Samples.highest (r :: rest) := by
    simp [Samples.highest]
  rw [Samples.highest_singleton, hsame] at hfold
  exact hfold

theorem single_map_real {rs : List ℝ} (hne : rs ≠ []) :
    single (rs.map real) = true ↔ ∀ x ∈ rs, ∀ y ∈ rs, x = y := by
  obtain ⟨r, rest, rfl⟩ := List.exists_cons_of_ne_nil hne
  have hdefined : ((r :: rest).map real).all Scalar.isNaN = false := rfl
  rw [single, hdefined, Bool.or_false, List.map_cons, List.headD_cons, ← List.map_cons, List.all_map,
    List.all_eq_true]
  simp only [Function.comp_apply, real_beq, decide_eq_true_eq]
  exact ⟨fun h x hx y hy => (h x hx).trans (h y hy).symm, fun h x hx => h x hx r List.mem_cons_self⟩

/-! ## Queries -/

/-- What a query comes to, from what is found at the clamped point. -/
def answer {α : Type} (strike expiry : Value α) :
    Except Misuse (Option α) → Except (PricingError α) α
  | .ok (some v) => .ok v
  | .ok none => .error (.volatility (.uncovered strike expiry))
  | .error m => .error (.misuse m)

section Queries

variable {s : Surface Exact} {quotes : List (Quote ℝ)} (hs : s.quotes = quotes.map exact)
  (hne : quotes ≠ [])

include hs

theorem strikes_exact : s.strikes = (quotes.map strike).map real := by
  rw [strikes, hs, List.map_map, List.map_map]
  rfl

theorem expiries_exact : s.expiries = (quotes.map expiry).map real := by
  rw [expiries, hs, List.map_map, List.map_map]
  rfl

include hne

theorem clamped_exact (k e : ℝ) : s.clamped (real k) (real e) =
    (real (within strike quotes k), real (within expiry quotes e)) := by
  have hmap (f : Quote ℝ → ℝ) : quotes.map f ≠ [] := by simpa using hne
  simp only [clamped, Scalar.clamp, strikes_exact hs, expiries_exact hs, least_map_real (hmap _),
    greatest_map_real (hmap _), real_max, real_min]
  rfl

/-- Whatever the rule, it is asked at the clamped point alone. -/
theorem result_queryWith (rule : ScatteredRule Exact) (k e : ℝ) :
    (s.queryWith rule (.number (real k)) (.number (real e))).result =
      answer (.number (real k)) (.number (real e))
        (volatilityWith rule s (real (within strike quotes k)) (real (within expiry quotes e))) := by
  simp only [queryWith, Value.operand_number, Outcome.ofMisuse_ok, pure_bind, clamped_exact hs hne]
  cases volatilityWith rule s (real (within strike quotes k)) (real (within expiry quotes e)) with
  | error m => rfl
  | ok v =>
    cases v with
    | none => rfl
    | some v => rfl

/-- Moving a query into the quoted ranges does not change what it finds. -/
theorem result_queryWith_within (rule : ScatteredRule Exact) (k e : ℝ) (v : Exact) :
    (s.queryWith rule (.number (real k)) (.number (real e))).result = .ok v ↔
      (s.queryWith rule (.number (real (within strike quotes k)))
        (.number (real (within expiry quotes e)))).result = .ok v := by
  rw [result_queryWith hs hne, result_queryWith hs hne, within_of_mem (within_mem hne k),
    within_of_mem (within_mem hne e)]
  generalize volatilityWith rule s _ _ = found
  match found with
  | .ok (some v) => exact Iff.rfl
  | .ok none => exact iff_of_false (fun h => by cases h) fun h => by cases h
  | .error m => exact Iff.rfl

end Queries

/-! ## One axis -/

section Axis

variable {quotes : List (Quote ℝ)} (hne : quotes ≠ [])

include hne

/-- Beyond the quotes the line is level, so a query need not be moved for it. -/
theorem height_within {place : Quote ℝ → Point ℝ} (hdistinct : ((quotes.map place).map Point.x).Nodup)
    (x : ℝ) : Point.height (quotes.map place) (within (fun q => (place q).x) quotes x) =
      Point.height (quotes.map place) x := by
  have hjoins := Point.joins_height (by simpa using hne) hdistinct
  obtain ⟨⟨p, hp, hlowest⟩, hleast⟩ := isLeast_lowest (f := fun q => (place q).x) hne
  obtain ⟨⟨r, hr, hhighest⟩, hgreatest⟩ := isGreatest_highest (f := fun q => (place q).x) hne
  have hplace {q : Quote ℝ} (hq : q ∈ quotes) : place q ∈ quotes.map place := List.mem_map_of_mem hq
  obtain hbefore | hfrom := le_total x (lowest (fun q => (place q).x) quotes)
  · have hfirst : ∀ q ∈ quotes.map place, (place p).x ≤ q.x := by
      rw [List.forall_mem_map, hlowest]
      exact fun q hq => hleast ⟨q, hq, rfl⟩
    rw [within_of_le hne hbefore, ← hlowest, hjoins.through _ (hplace hp),
      hjoins.before _ (hplace hp) hfirst x (hbefore.trans_eq hlowest.symm)]
  · obtain hupto | hafter := le_total x (highest (fun q => (place q).x) quotes)
    · rw [within_of_mem ⟨hfrom, hupto⟩]
    · have hlast : ∀ q ∈ quotes.map place, q.x ≤ (place r).x := by
        rw [List.forall_mem_map, hhighest]
        exact fun q hq => hgreatest ⟨q, hq, rfl⟩
      rw [within_of_ge hafter, ← hhighest, hjoins.through _ (hplace hr),
        hjoins.after _ (hplace hr) hlast x (hhighest.trans_le hafter)]

variable {s : Surface Exact} (hs : s.quotes = quotes.map exact) (rule : ScatteredRule Exact)

include hs

theorem single_strikes_iff :
    single s.strikes = true ↔ ∀ q ∈ quotes, ∀ r ∈ quotes, q.strike = r.strike := by
  rw [strikes_exact hs, single_map_real (by simpa using hne)]
  simp only [List.forall_mem_map]

theorem single_expiries_iff :
    single s.expiries = true ↔ ∀ q ∈ quotes, ∀ r ∈ quotes, q.expiry = r.expiry := by
  rw [expiries_exact hs, single_map_real (by simpa using hne)]
  simp only [List.forall_mem_map]

theorem volatilityWith_of_strikes (hshared : ∀ q ∈ quotes, ∀ r ∈ quotes, q.strike = r.strike)
    (hdistinct : (quotes.map expiry).Nodup) (k : Exact) (e : ℝ) :
    volatilityWith rule s k (real e) =
      .ok (some (real (Point.height (quotes.map overExpiry) e))) := by
  have hplaces : s.quotes.map overExpiry = (quotes.map overExpiry).map Point.exact := by
    rw [hs, List.map_map, List.map_map]
    rfl
  have hsome : quotes.map overExpiry ≠ [] := by simpa using hne
  have hline := Point.interpolate_sortedPoints hsome (by rwa [List.map_map]) e
  rw [volatilityWith, if_pos ((single_strikes_iff hne hs).mpr hshared), ← hline, ← hplaces]
  rfl

theorem volatilityWith_of_expiries (hshared : ∀ q ∈ quotes, ∀ r ∈ quotes, q.expiry = r.expiry)
    (hdistinct : (quotes.map strike).Nodup) (k e : ℝ) :
    volatilityWith rule s (real k) (real e) =
      .ok (some (real (Point.height (quotes.map overStrike) k))) := by
  by_cases hstrikes : ∀ q ∈ quotes, ∀ r ∈ quotes, q.strike = r.strike
  · -- both coordinates are shared, so there is one quote and the other axis is looked at
    obtain ⟨q, rfl⟩ : ∃ q, quotes = [q] := by
      match quotes, hne with
      | [q], _ => exact ⟨q, rfl⟩
      | q :: r :: rest, _ =>
        have hequal := hstrikes q List.mem_cons_self r (List.mem_cons_of_mem _ List.mem_cons_self)
        rw [List.map_cons, List.map_cons, hequal] at hdistinct
        exact absurd List.mem_cons_self (List.nodup_cons.mp hdistinct).1
    rw [volatilityWith_of_strikes hne hs rule hstrikes (List.nodup_singleton _) (real k) e]
    have hline : Point.height ([q].map overExpiry) e = Point.height ([q].map overStrike) k :=
      (Point.height_singleton q.overExpiry e).trans (Point.height_singleton q.overStrike k).symm
    rw [hline]
  · have hplaces : s.quotes.map overStrike = (quotes.map overStrike).map Point.exact := by
      rw [hs, List.map_map, List.map_map]
      rfl
    have hsome : quotes.map overStrike ≠ [] := by simpa using hne
    have hline := Point.interpolate_sortedPoints hsome (by rwa [List.map_map]) k
    rw [volatilityWith, if_neg (mt (single_strikes_iff hne hs).mp hstrikes),
      if_pos ((single_expiries_iff hne hs).mpr hshared), ← hline, ← hplaces]
    rfl

/-- At a single strike a query follows the term structure, and its strike does not matter. -/
theorem query_of_strikes (hshared : ∀ q ∈ quotes, ∀ r ∈ quotes, q.strike = r.strike)
    (hdistinct : (quotes.map expiry).Nodup) (k e : ℝ) :
    (s.queryWith rule (.number (real k)) (.number (real e))).result =
      .ok (real (Point.height (quotes.map overExpiry) e)) := by
  rw [result_queryWith hs hne, volatilityWith_of_strikes hne hs rule hshared hdistinct, answer]
  exact congrArg (Except.ok ∘ real) (height_within hne (by rwa [List.map_map]) e)

/-- At a single expiry a query follows the smile, and its expiry does not matter. -/
theorem query_of_expiries (hshared : ∀ q ∈ quotes, ∀ r ∈ quotes, q.expiry = r.expiry)
    (hdistinct : (quotes.map strike).Nodup) (k e : ℝ) :
    (s.queryWith rule (.number (real k)) (.number (real e))).result =
      .ok (real (Point.height (quotes.map overStrike) k)) := by
  rw [result_queryWith hs hne, volatilityWith_of_expiries hne hs rule hshared hdistinct, answer]
  exact congrArg (Except.ok ∘ real) (height_within hne (by rwa [List.map_map]) k)

end Axis

end Surface

end OptionDesk
