import OptionDesk.Proofs.Engine.Frame
import OptionDesk.Proofs.Sampling
import OptionDesk.Proofs.Sampling.European
import OptionDesk.Proofs.Sampling.NoArbitrage

/-!
# Estimates on common paths

Simulated European options that differ in the option type and the strike alone are priced on the same
paths: after any history of requests their models have drawn the same final prices in the same order,
and their statistics are summaries of the payoffs there. Every estimate is then an average of payoffs
over one list of paths, and the relations of no arbitrage, which hold on each path, hold of the
estimates, exactly and however the samples come in batches.
-/
namespace OptionDesk

open Exact

/-! ## Payoffs of a batch -/

namespace EuropeanPricer

variable {α : Type} [Scalar α]

/-- The sample of a path, from its log-return and that of its reflection. -/
def worth (p : EuropeanPricer α) (logReturn reflected : α) : α :=
  if p.antithetic then p.discount * (0.5 * (p.payoff logReturn + p.payoff reflected))
  else p.discount * p.payoff logReturn

theorem priceBatch_eq (p : EuropeanPricer α) {b : PathBatch α} {ι : Type} {rows : List ι} {f g : ι → α}
    (hreturns : b.logReturns = rows.map f) (hreflected : b.antitheticLogReturns = rows.map g) :
    p.priceBatch b = rows.map fun row => p.worth (f row) (g row) := by
  rw [priceBatch, hreturns, hreflected]
  unfold worth
  cases p.antithetic with
  | false => rw [if_neg Bool.false_ne_true, List.map_map]; rfl
  | true => rw [if_pos rfl, List.zipWith_map, List.zipWith_self]; rfl

end EuropeanPricer

namespace SimulationInputs

variable (i : SimulationInputs)

/-- Where a path with this log-return ends, and where its reflection does. -/
noncomputable def ends (logReturn reflected : ℝ) : Ends where
  price := i.spot * Real.exp logReturn
  reflected := i.spot * Real.exp reflected
  price_pos := mul_pos i.spot_pos (Real.exp_pos _)
  reflected_pos := mul_pos i.spot_pos (Real.exp_pos _)

/-- The sample of a path in the model of these numbers. -/
noncomputable def sample (kind : OptionType) (antithetic : Bool) (e : Ends) : ℝ :=
  e.sample i.discount antithetic kind i.strike

theorem payoff_pricer (kind : OptionType) (antithetic : Bool) (x : ℝ) :
    (i.pricer kind antithetic).payoff (real x) =
      real (kind.gain i.strike (i.spot * Real.exp x)) := by
  rw [EuropeanPricer.payoff, real_exp]
  exact kind.payoff_real _ _

theorem priceBatch_pricer {kind : OptionType} {antithetic : Bool} {b : PathBatch Exact}
    {ι : Type} {rows : List ι} {f g : ι → ℝ} (hreturns : b.logReturns = rows.map fun row => real (f row))
    (hreflected : b.antitheticLogReturns = rows.map fun row => real (g row)) :
    (PathPricer.european (i.pricer kind antithetic)).priceBatch b =
      ((rows.map fun row => i.ends (f row) (g row)).map (i.sample kind antithetic)).map real := by
  have hdiscount : (i.pricer kind antithetic).discount = real i.discount := rfl
  rw [PathPricer.priceBatch, EuropeanPricer.priceBatch_eq _ hreturns hreflected, List.map_map,
    List.map_map]
  refine List.map_congr_left fun row _ => ?_
  rw [EuropeanPricer.worth, payoff_pricer, payoff_pricer, hdiscount]
  cases antithetic with
  | false => rfl
  | true => rfl

end SimulationInputs

namespace SamplingModel

/-! ## Estimates -/

section Estimates

variable {α : Type} [Scalar α] [NormalSource α]

/-- What a call for the estimate from `n` samples answers. -/
def estimate (m : SamplingModel α) (n : ℤ) : Except (PricingError α) α :=
  ((valueWithSamples n).run m).1.result

/-- A model after calls for estimates. -/
def driven (m : SamplingModel α) (calls : List ℤ) : SamplingModel α :=
  calls.foldl (fun m n => ((valueWithSamples n).run m).2) m

variable {m : SamplingModel α} {n : ℤ}

theorem run_valueWithSamples_of_lt (h : n < m.statistics.count) : (valueWithSamples n).run m =
    (.fail (.simulation (.fewerThanDrawn n m.statistics.count)), m) := by
  unfold valueWithSamples
  dsimp only [Session.run, Session.lift, Session.get, Bind.bind, Session.bind, Outcome.pure]
  rw [Outcome.require_of_not (not_not_intro h)]
  rfl

theorem run_valueWithSamples_of_eq (h : n = m.statistics.count) :
    m.estimate n = (Outcome.ofStatistics m.statistics.mean?).result ∧
      ((valueWithSamples n).run m).2 = m := by
  have henough : ¬n < m.statistics.count := by omega
  have hnone : ¬(m.statistics.count : ℤ) < n := by omega
  unfold estimate valueWithSamples
  dsimp only [Session.run, Session.lift, Session.get, Bind.bind, Session.bind, Outcome.pure]
  rw [Outcome.require_of henough, if_neg hnone]
  exact ⟨rfl, rfl⟩

theorem run_valueWithSamples_of_gt (h : m.statistics.count < n)
    (hdraw : ((addSamples (n - m.statistics.count)).run m).1.result = .ok ()) :
    let m' := ((addSamples (n - m.statistics.count)).run m).2
    m.estimate n = (Outcome.ofStatistics m'.statistics.mean?).result ∧
      ((valueWithSamples n).run m).2 = m' := by
  have henough : ¬n < m.statistics.count := by omega
  have hfirst := Session.fst_run_bind (addSamples (n - m.statistics.count)) (fun _ => mean) m
  have hsecond := Session.snd_run_bind_ok (f := fun _ => mean) hdraw
  have hresult := (congrArg Outcome.result hfirst).trans (Outcome.result_bind_of_ok hdraw _)
  unfold estimate valueWithSamples
  dsimp only [Session.run, Session.lift, Session.get, Bind.bind, Session.bind, Outcome.pure]
  rw [Outcome.require_of henough, if_pos h]
  exact ⟨hresult, hsecond⟩

end Estimates

variable [NormalSource Exact]

/-- The log-returns of the paths of batches, and of their reflections, come from the generator alone: any
simulation adds the payoffs that it has there to what has been drawn. -/
theorem exists_returns_of_batches (hnormals : NormalSource.IsReal) (p : RealProcess)
    (generator : PathGenerator Exact) (hprocess : generator.process = p.exact) (batches : List Batch) :
    ∃ returns : List (ℝ × ℝ), returns.length = (batches.map Batch.size).sum ∧
      ∀ (i : SimulationInputs) kind antithetic,
        let pricer := PathPricer.european (i.pricer kind antithetic)
        batches.all (Batch.isFinite generator pricer) = true ∧
        ∀ drawn : List ℝ, merged generator pricer (Samples.summary drawn) batches =
          Samples.summary (drawn ++
            returns.map fun x => i.sample kind antithetic (i.ends x.1 x.2) : List ℝ) := by
  induction batches with
  | nil => exact ⟨[], rfl, fun i kind antithetic => ⟨rfl, fun drawn => by
      rw [List.map_nil, List.append_nil]
      rfl⟩⟩
  | cons batch batches ih =>
    obtain ⟨later, hlength, hlater⟩ := ih
    obtain ⟨rows, -, -, hreturns, hreflected⟩ := p.exists_rows hnormals
      (g := generator.child batch.index) hprocess batch.size
    let first := rows.map fun row => (p.drifted + p.diffused row, p.drifted - p.diffused row)
    have hsamples (i : SimulationInputs) (kind : OptionType) (antithetic : Bool) :
        batch.samples generator (.european (i.pricer kind antithetic)) =
          (first.map fun x => i.sample kind antithetic (i.ends x.1 x.2)).map real := by
      rw [Batch.samples, i.priceBatch_pricer hreturns hreflected]
      simp only [first, List.map_map]
      rfl
    refine ⟨first ++ later, ?_, fun i kind antithetic => ⟨?_, fun drawn => ?_⟩⟩
    · have hsize : first.length = batch.size := by
        have htaken := congrArg List.length hreturns
        rw [List.length_map] at htaken
        rw [List.length_map, ← htaken]
        simp [PathBatch.logReturns]
      rw [List.length_append, hlength, List.map_cons, List.sum_cons, hsize]
    · have hfinite : batch.isFinite generator (.european (i.pricer kind antithetic)) = true := by
        rw [Batch.isFinite, hsamples]
        simp
      rw [List.all_cons, hfinite, (hlater i kind antithetic).1]
      rfl
    · have hmerge := (hlater i kind antithetic).2 (drawn ++
        first.map fun x => i.sample kind antithetic (i.ends x.1 x.2))
      rw [List.append_assoc, ← List.map_append] at hmerge
      rw [← hmerge, merged, List.foldl_cons, Batch.statistics, hsamples, Samples.ofList_summary,
        Samples.merge_summary, Multiset.coe_add]
      rfl

/-- The paths of batches end at prices that do not depend on the option type and the strike. -/
theorem exists_ends_of_batches (hnormals : NormalSource.IsReal) (i : SimulationInputs) {n : ℕ}
    (generator : PathGenerator Exact) (hprocess : generator.process = (i.process n).exact)
    (antithetic : Bool) (batches : List Batch) :
    ∃ ends : List Ends, ends.length = (batches.map Batch.size).sum ∧
      ∀ kind K (hK : 0 ≤ K),
        let pricer := PathPricer.european ((i.struck K hK).pricer kind antithetic)
        batches.all (Batch.isFinite generator pricer) = true ∧
        ∀ drawn : List Ends,
          merged generator pricer (Samples.summary (drawn.map ((i.struck K hK).sample kind antithetic)))
            batches = Samples.summary ((drawn ++ ends).map ((i.struck K hK).sample kind antithetic)) := by
  obtain ⟨returns, hlength, hreturns⟩ :=
    exists_returns_of_batches hnormals (i.process n) generator hprocess batches
  refine ⟨returns.map fun x => i.ends x.1 x.2, by rw [List.length_map, hlength], fun kind K hK => ?_⟩
  obtain ⟨hfinite, hmerged⟩ := hreturns (i.struck K hK) kind antithetic
  refine ⟨hfinite, fun drawn => ?_⟩
  rw [hmerged, List.map_append, List.map_map]
  rfl

/-- A request of which all batches are finite is granted as a whole. -/
theorem run_addSamples_of_finite {m : SamplingModel Exact} {n : ℤ} (hn : 1 ≤ n)
    (hfinite : (request m.batchSize m.batchesDrawn n).batches.all
      (Batch.isFinite m.generator m.pricer) = true) :
    ((addSamples n).run m).1.result = .ok () ∧ ((addSamples n).run m).2 = { m with
      batchesDrawn := m.batchesDrawn + (batchSizes m.batchSize n.toNat).length
      statistics := merged m.generator m.pricer m.statistics
        (request m.batchSize m.batchesDrawn n).batches } := by
  have hverdict : (request m.batchSize m.batchesDrawn n).verdict m.generator m.pricer = .ok () := by
    rw [Request.verdict, samples_request, if_neg (not_lt.mpr hn), if_pos hfinite]
  obtain ⟨hresult, hstate⟩ := run_addSamples m n
  rw [Request.granted, hverdict] at hstate
  exact ⟨hresult.trans hverdict, hstate⟩

end SamplingModel

/-! ## Histories -/

namespace SimulationTerms

open SamplingModel

variable [NormalSource Exact]

/-- The same terms for another option, with any number of workers. -/
def struck (t : SimulationTerms Exact) (kind : OptionType) (strike : ℝ) (workers : ℤ) :
    SimulationTerms Exact :=
  { t with optionType := .optionType kind, strike := .number (real strike), workers }

/-- The model of the terms when it has drawn paths with these ends. -/
noncomputable def drawn (t : SimulationTerms Exact) (kind : OptionType) (i : SimulationInputs)
    (ends : List Ends) (batches : ℕ) : SamplingModel Exact :=
  { t.fresh kind i with
    statistics := Samples.summary (ends.map (i.sample kind t.antithetic.isSet))
    batchesDrawn := batches }

variable (t : SimulationTerms Exact) (i : SimulationInputs) (ends : List Ends) (batches : ℕ)

theorem fresh_eq_drawn (kind : OptionType) : t.fresh kind i = t.drawn kind i [] 0 := by
  rw [drawn, List.map_nil, Multiset.coe_nil, Samples.summary_zero]
  rfl

theorem count_drawn (kind : OptionType) : (t.drawn kind i ends batches).statistics.count = ends.length := by
  rw [drawn, Samples.count_summary, Multiset.coe_card, List.length_map]

/-- More samples are more paths, the same for all options. -/
theorem exists_run_addSamples (hnormals : NormalSource.IsReal) {n : ℤ} (hn : 1 ≤ n) :
    ∃ new batches', (new.length : ℤ) = n ∧ ∀ kind K (hK : 0 ≤ K),
      ((addSamples n).run (t.drawn kind (i.struck K hK) ends batches)).1.result = .ok () ∧
        ((addSamples n).run (t.drawn kind (i.struck K hK) ends batches)).2 =
          t.drawn kind (i.struck K hK) (ends ++ new) batches' := by
  let r := request t.batchSize.toNat batches n
  obtain ⟨new, hlength, hnew⟩ := exists_ends_of_batches hnormals i
    (t.fresh .call i).generator rfl t.antithetic.isSet r.batches
  have hsize : (r.batches.map Batch.size).sum = n.toNat :=
    (congrArg List.sum (map_size_numbered batches _)).trans (sum_batchSizes _ _)
  refine ⟨new, batches + (batchSizes t.batchSize.toNat n.toNat).length, by omega, fun kind K hK => ?_⟩
  obtain ⟨hfinite, hmerged⟩ := hnew kind K hK
  obtain ⟨hresult, hstate⟩ :=
    run_addSamples_of_finite (m := t.drawn kind (i.struck K hK) ends batches) hn hfinite
  refine ⟨hresult, hstate.trans ?_⟩
  have hstatistics := hmerged ends
  rw [drawn, drawn, ← hstatistics]
  rfl

/-- One call for an estimate: all options have then drawn the same paths. -/
theorem exists_estimate (hnormals : NormalSource.IsReal) (n : ℤ) :
    ∃ ends' batches', ∀ kind K (hK : 0 ≤ K),
      ((valueWithSamples n).run (t.drawn kind (i.struck K hK) ends batches)).2 =
          t.drawn kind (i.struck K hK) ends' batches' ∧
        (n < ends.length → (t.drawn kind (i.struck K hK) ends batches).estimate n =
          .error (.simulation (.fewerThanDrawn n ends.length))) ∧
        (ends.length ≤ n → (ends'.length : ℤ) = n ∧
          (t.drawn kind (i.struck K hK) ends batches).estimate n =
            (Outcome.ofStatistics (t.drawn kind (i.struck K hK) ends' batches').statistics.mean?).result) := by
  obtain hless | hequal | hmore := lt_trichotomy n (ends.length : ℤ)
  · refine ⟨ends, batches, fun kind K hK => ?_⟩
    have hcount := t.count_drawn (i.struck K hK) ends batches kind
    have hrun := run_valueWithSamples_of_lt (m := t.drawn kind (i.struck K hK) ends batches)
      (by rw [hcount]; exact hless)
    rw [hcount] at hrun
    refine ⟨by rw [hrun], fun _ => by rw [estimate, hrun]; rfl, fun h => ?_⟩
    omega
  · refine ⟨ends, batches, fun kind K hK => ?_⟩
    have hcount := t.count_drawn (i.struck K hK) ends batches kind
    obtain ⟨hresult, hstate⟩ := run_valueWithSamples_of_eq
      (m := t.drawn kind (i.struck K hK) ends batches) (n := n) (by rw [hcount]; exact hequal)
    exact ⟨hstate, fun h => by omega, fun _ => ⟨hequal.symm, hresult⟩⟩
  · obtain ⟨new, batches', hlength, hnew⟩ := t.exists_run_addSamples i ends batches hnormals
      (n := n - ends.length) (by omega)
    refine ⟨ends ++ new, batches', fun kind K hK => ?_⟩
    obtain ⟨hdraw, hstate⟩ := hnew kind K hK
    have hcount := t.count_drawn (i.struck K hK) ends batches kind
    obtain ⟨hresult, hdriven⟩ := run_valueWithSamples_of_gt
      (m := t.drawn kind (i.struck K hK) ends batches) (by rw [hcount]; exact hmore)
      (by rw [hcount]; exact hdraw)
    rw [hcount, hstate] at hresult hdriven
    refine ⟨hdriven, fun h => by omega, fun _ => ⟨?_, hresult⟩⟩
    rw [List.length_append, Nat.cast_add, hlength]
    omega

/-- Any number of calls. -/
theorem exists_driven (hnormals : NormalSource.IsReal) (calls : List ℤ) :
    ∃ ends' batches', ∀ kind K (hK : 0 ≤ K),
      (t.drawn kind (i.struck K hK) ends batches).driven calls =
        t.drawn kind (i.struck K hK) ends' batches' := by
  induction calls generalizing ends batches with
  | nil => exact ⟨ends, batches, fun _ _ _ => rfl⟩
  | cons n calls ih =>
    obtain ⟨ends₁, batches₁, hstep⟩ := t.exists_estimate i ends batches hnormals n
    obtain ⟨ends₂, batches₂, hrest⟩ := ih ends₁ batches₁
    refine ⟨ends₂, batches₂, fun kind K hK => ?_⟩
    rw [driven, List.foldl_cons, (hstep kind K hK).1]
    exact hrest kind K hK

/-- Models of the terms for all options, none of which has drawn yet. -/
theorem exists_fresh {spot : ℝ} {workers : OptionType → ℝ → ℤ}
    {m : OptionType → ℝ → SamplingModel Exact} (hspot : t.underlying.operand = .ok (real spot))
    (hm : ∀ kind K, 0 ≤ K → (t.struck kind K (workers kind K)).model.result = .ok (m kind K)) :
    ∃ i : SimulationInputs, ∀ kind K (hK : 0 ≤ K), m kind K = t.drawn kind (i.struck K hK) [] 0 := by
  obtain ⟨_, i, hi, -, -⟩ := exists_gives (t := t.struck .call 0 (workers .call 0)) hspot rfl
    (hm .call 0 le_rfl)
  refine ⟨i, fun kind K hK => ?_⟩
  have hgives : (t.struck kind K (workers kind K)).Gives kind (i.struck K hK) :=
    ⟨rfl, hi.underlying, rfl, hi.dividendYield, hi.riskFreeRate, hi.residualTime, hi.volatility⟩
  rw [(hgives.model_eq_ok.mp (hm kind K hK)).2, ← fresh_eq_drawn]
  rfl

/-- The answers that models give to one call, by option type and strike, after `drawn` samples. -/
structure InSample (D : ℝ) (drawn : ℕ) (n : ℤ)
    (answer : OptionType → ℝ → Except (PricingError Exact) Exact) : Prop where
  answered : 1 ≤ n → drawn ≤ n → ∃ C P : ℝ → ℝ, NoArbitrage D C P ∧
    ∀ K, 0 ≤ K → answer .call K = .ok (real (C K)) ∧ answer .put K = .ok (real (P K))
  refused : ¬(1 ≤ n ∧ drawn ≤ n) → ∃ e, ∀ kind K, 0 ≤ K → answer kind K = .error e

theorem exists_inSample (hnormals : NormalSource.IsReal) (n : ℤ)
    {m : OptionType → ℝ → SamplingModel Exact}
    (hm : ∀ kind K (hK : 0 ≤ K), m kind K = t.drawn kind (i.struck K hK) ends batches) :
    InSample i.discount ends.length n fun kind K => (m kind K).estimate n := by
  obtain ⟨ends', batches', hstep⟩ := t.exists_estimate i ends batches hnormals n
  have hmean (kind : OptionType) (K : ℝ) (hK : 0 ≤ K) (hn : ends.length ≤ n) :
      (ends'.length : ℤ) = n ∧ (m kind K).estimate n = (Outcome.ofStatistics (Samples.summary
        (ends'.map (Ends.sample i.discount t.antithetic.isSet kind K))).mean?).result := by
    rw [hm kind K hK]
    exact (hstep kind K hK).2.2 hn
  refine ⟨fun hone hn => ?_, fun hn => ?_⟩
  · have hlength := (hmean .call 0 le_rfl hn).1
    have hne : ends' ≠ [] := List.length_pos_iff.mp (by omega)
    have haverage (kind : OptionType) (K : ℝ) (hK : 0 ≤ K) : (m kind K).estimate n =
        .ok (real (Samples.average (ends'.map (Ends.sample i.discount t.antithetic.isSet kind K)))) := by
      rw [(hmean kind K hK hn).2, (Samples.inspects_summary _).mean,
        if_neg (by rw [Multiset.coe_card, List.length_map]; omega)]
      rfl
    exact ⟨_, _, .average hne fun e _ => e.noArbitrage_sample i.discount_pos t.antithetic.isSet,
      fun K hK => ⟨haverage .call K hK, haverage .put K hK⟩⟩
  · obtain hless | hequal := lt_or_ge n (ends.length : ℤ)
    · refine ⟨.simulation (.fewerThanDrawn n ends.length), fun kind K hK => ?_⟩
      rw [hm kind K hK]
      exact (hstep kind K hK).2.1 hless
    · refine ⟨.statistics (.noSamples .mean), fun kind K hK => ?_⟩
      obtain ⟨hlength, hanswer⟩ := hmean kind K hK hequal
      rw [hanswer, (Samples.inspects_summary _).mean,
        if_pos (by rw [Multiset.coe_card, List.length_map]; omega)]
      rfl

end SimulationTerms

/-- Simulated European options that differ in the option type, the strike and the number of workers
alone, after any calls for estimates: all of them have drawn as many samples, and a further call is
either answered by all without arbitrage, or refused by all with one error. -/
theorem no_arbitrage_in_sample [NormalSource Exact] (hnormals : NormalSource.IsReal)
    {t : SimulationTerms Exact} {spot : ℝ} (hspot : t.underlying.operand = .ok (real spot))
    {workers : OptionType → ℝ → ℤ} {m : OptionType → ℝ → SamplingModel Exact}
    (hm : ∀ kind K, 0 ≤ K → (t.struck kind K (workers kind K)).model.result = .ok (m kind K)) :
    ∃ D : ℝ, 0 < D ∧
      (∀ kind K, 0 ≤ K → ∃ p, (m kind K).pricer = .european p ∧ p.discount = real D) ∧
      ∀ calls n, ∃ drawn : ℕ,
        (∀ kind K, 0 ≤ K → ((m kind K).driven calls).statistics.count = drawn) ∧
        SimulationTerms.InSample D drawn n fun kind K => ((m kind K).driven calls).estimate n := by
  obtain ⟨i, hi⟩ := t.exists_fresh hspot hm
  refine ⟨i.discount, i.discount_pos, fun kind K hK => ?_, fun calls n => ?_⟩
  · exact ⟨(i.struck K hK).pricer kind t.antithetic.isSet, by rw [hi kind K hK]; rfl, rfl⟩
  · obtain ⟨ends, batches, hdriven⟩ := t.exists_driven i [] 0 hnormals calls
    have hmodels (kind : OptionType) (K : ℝ) (hK : 0 ≤ K) :
        (m kind K).driven calls = t.drawn kind (i.struck K hK) ends batches := by
      rw [hi kind K hK, hdriven kind K hK]
    refine ⟨ends.length, fun kind K hK => ?_, t.exists_inSample i ends batches hnormals n hmodels⟩
    rw [hmodels kind K hK, SimulationTerms.count_drawn]

/-- Options of which three samples in batches of two have been drawn, then fewer are asked for. -/
theorem no_arbitrage_after_two_batches :
    letI : NormalSource Exact := ⟨Bool, fun _ => true, fun b => (real (if b then 1 else -1), !b)⟩
    let t : SimulationTerms Exact :=
      { optionType := .null
        underlying := .number (real 100)
        strike := .null
        dividendYield := .number (real 0.02)
        riskFreeRate := .number (real 0.05)
        residualTime := .number (real 1)
        volatility := .number (real 0.2)
        antithetic := .figure (.truth true)
        seed := 42
        timeSteps := real 3
        batchSize := 2
        workers := 1 }
    ∃ m : OptionType → ℝ → SamplingModel Exact,
      (∀ kind K, 0 ≤ K → (t.struck kind K 1).model.result = .ok (m kind K)) ∧
      ∃ D : ℝ, 0 < D ∧ ∃ drawn : ℕ,
        SimulationTerms.InSample D drawn 7 fun kind K => ((m kind K).driven [3, 2]).estimate 7 := by
  let _ : NormalSource Exact := ⟨Bool, fun _ => true, fun b => (real (if b then 1 else -1), !b)⟩
  intro t
  have hnormals : NormalSource.IsReal := fun b => ⟨if b then 1 else -1, rfl⟩
  let i (K : ℝ) : SimulationInputs :=
    ⟨100, max K 0, 0.02, 0.05, 1, 0.2, by norm_num, le_max_right _ _, one_pos⟩
  have hsteps : ¬(real 3 : Exact) < 1 := by
    rw [one_eq, real_lt]
    norm_num
  let workers : OptionType → ℝ → ℤ := fun _ _ => 1
  have hm : ∀ kind K, 0 ≤ K → (t.struck kind K (workers kind K)).model.result =
      .ok (t.fresh kind (i K)) := by
    intro kind K hK
    have hstrike : (i K).strike = K := max_eq_left hK
    have hgives : (t.struck kind K 1).Gives kind (i K) :=
      ⟨rfl, rfl, by rw [hstrike]; rfl, rfl, rfl, rfl, rfl⟩
    have hpositive : 0 < (i K).volatility := by norm_num [i]
    exact hgives.model_eq_ok.mpr ⟨⟨hpositive, hsteps, (by decide : (0 : ℤ) ≤ 42),
      (by decide : (1 : ℤ) ≤ 2), le_rfl⟩, rfl⟩
  obtain ⟨D, hD, -, hanswers⟩ := no_arbitrage_in_sample hnormals (t := t) rfl hm
  obtain ⟨drawn, -, hanswer⟩ := hanswers [3, 2] 7
  exact ⟨_, hm, D, hD, drawn, hanswer⟩

end OptionDesk
