import OptionDesk.Proofs.Sampling.Growth
import Mathlib.Logic.Relation

/-!
# Rounds toward a tolerance

A call for an estimate within a tolerance draws round after round. How many samples a round takes
depends on an error that may rise and fall as it likes, so nothing is known of it but its bounds: at
least one, and no more than may still be drawn. These make the loop stop, whatever is sampled. The fuel
of the recursion never runs out, so that the call ends where the rounds do.
-/
namespace OptionDesk

open Exact

namespace SamplingModel

section Rounds

variable {α : Type} [Scalar α] [NormalSource α]

/-- A round of `n` samples: the error is above the tolerance, and as many are drawn as it suggests. -/
structure Round (maxSamples : ℤ) (tolerance : α) (n : ℤ) (m m' : SamplingModel α) : Prop where
  above : ∃ error, m.statistics.errorEstimate? = .ok error ∧ tolerance < error ∧
    (nextRound maxSamples tolerance error m.statistics.count).result = .ok n
  draws : ((addSamples n).run m).1.result = .ok ()
  leaves : ((addSamples n).run m).2 = m'

/-- Any number of rounds. -/
def Rounds (maxSamples : ℤ) (tolerance : α) : SamplingModel α → SamplingModel α → Prop :=
  Relation.ReflTransGen fun m m' => ∃ n, Round maxSamples tolerance n m m'

variable {maxSamples n : ℤ} {tolerance error : α} {m m' : SamplingModel α}

omit [NormalSource α] in
theorem bounds_of_nextRound {drawn : ℕ}
    (h : (nextRound maxSamples tolerance error drawn).result = .ok n) :
    1 ≤ n ∧ n ≤ maxSamples - drawn := by
  simp only [nextRound, Outcome.result_bind_eq_ok, Outcome.result_require_eq_ok] at h
  obtain ⟨_, -, _, hpositive, hn⟩ := h
  cases hn
  exact ⟨by omega, min_le_right _ _⟩

/-- The bounds of a round. -/
theorem Round.bounds (h : Round maxSamples tolerance n m m') : 1 ≤ n ∧
    n ≤ maxSamples - m.statistics.count ∧ (m'.statistics.count : ℤ) = m.statistics.count + n := by
  obtain ⟨error, -, -, hnext⟩ := h.above
  obtain ⟨hone, hmost⟩ := bounds_of_nextRound hnext
  obtain ⟨-, hcount⟩ | ⟨hfails, -⟩ := addSamples_ends m hone
  · rw [h.leaves] at hcount
    exact ⟨hone, hmost, hcount⟩
  · cases h.draws.symm.trans hfails

/-- There is no unending sequence of rounds. -/
theorem wellFounded_round (maxSamples : ℤ) (tolerance : α) :
    WellFounded fun m' m : SamplingModel α => ∃ n, Round maxSamples tolerance n m m' := by
  refine Subrelation.wf (r := fun m' m => (maxSamples - m'.statistics.count).toNat <
    (maxSamples - m.statistics.count).toNat) ?_ (measure _).wf
  rintro m' m ⟨n, h⟩
  obtain ⟨hone, hmost, hcount⟩ := h.bounds
  omega

theorem Rounds.grows (h : Rounds maxSamples tolerance m m') : Grows m m' := by
  induction h with
  | refl => exact .refl m
  | tail _ hround ih =>
    obtain ⟨n, hround⟩ := hround
    rw [← hround.leaves]
    exact ih.trans (grows_addSamples _ n)

/-- Rounds do not lead beyond the greatest number of samples. -/
theorem Rounds.count_le (h : Rounds maxSamples tolerance m m') :
    (m'.statistics.count : ℤ) ≤ max (m.statistics.count : ℤ) maxSamples := by
  induction h with
  | refl => exact le_max_left _ _
  | tail _ hround ih =>
    obtain ⟨n, hround⟩ := hround
    obtain ⟨-, hmost, hcount⟩ := hround.bounds
    exact le_max_of_le_right (by omega)

/-- How the loop ends: within the tolerance, or with the refusal of a further round. -/
def Finishes (maxSamples : ℤ) (tolerance : α) (m : SamplingModel α)
    (result : Except (PricingError α) Unit) : Prop :=
  ∃ error, m.statistics.errorEstimate? = .ok error ∧
    (result = .ok () ∧ ¬tolerance < error ∨ tolerance < error ∧ ∃ e, result = .error e ∧
      (nextRound maxSamples tolerance error m.statistics.count).result = .error e)

theorem run_refine_succ (fuel : ℕ) (h : m.statistics.errorEstimate? = .ok error) :
    (refine maxSamples tolerance (fuel + 1)).run m = if tolerance < error then
      (.lift (nextRound maxSamples tolerance error m.statistics.count) >>= fun n =>
        addSamples n >>= fun _ => refine maxSamples tolerance fuel : Session _ α Unit).run m
    else (pure (), m) := by
  rw [refine, Session.run_bind_of_ok _ (run_errorEstimate h)]
  split <;> rfl

/-- After a round the loop goes on from where it has led. -/
theorem Round.run_refine (h : Round maxSamples tolerance n m m') (fuel : ℕ) :
    ((refine maxSamples tolerance (fuel + 1)).run m).1.result =
        ((refine maxSamples tolerance fuel).run m').1.result ∧
      ((refine maxSamples tolerance (fuel + 1)).run m).2 =
        ((refine maxSamples tolerance fuel).run m').2 := by
  obtain ⟨error, herror, habove, hnext⟩ := h.above
  have hsize : ((Session.lift (nextRound maxSamples tolerance error m.statistics.count) :
      Session (SamplingModel α) α ℤ).run m).1.result = .ok n := hnext
  rw [run_refine_succ fuel herror, if_pos habove, Session.result_run_bind_ok hsize,
    Session.snd_run_bind_ok hsize, Session.run_lift, Session.result_run_bind_ok h.draws,
    Session.snd_run_bind_ok h.draws, h.leaves]
  exact ⟨rfl, rfl⟩

/-- A refusal of a further round ends the loop where it stands. -/
theorem run_refine_of_refused {e : PricingError α} (herror : m.statistics.errorEstimate? = .ok error)
    (habove : tolerance < error)
    (hrefused : (nextRound maxSamples tolerance error m.statistics.count).result = .error e)
    (fuel : ℕ) :
    ((refine maxSamples tolerance (fuel + 1)).run m).1.result = .error e ∧
      ((refine maxSamples tolerance (fuel + 1)).run m).2 = m := by
  have hsize : ((Session.lift (nextRound maxSamples tolerance error m.statistics.count) :
      Session (SamplingModel α) α ℤ).run m).1.result = .error e := hrefused
  rw [run_refine_succ fuel herror, if_pos habove, Session.result_run_bind_error hsize,
    Session.snd_run_bind_error hsize]
  exact ⟨rfl, rfl⟩

/-- If all batches that may be drawn are finite, the loop goes through rounds up to the last one. Its fuel
does not matter, as long as there is more of it than samples that may still be drawn. -/
theorem refine_ends (tolerance : α)
    (hfinite : ∀ batch, m.MayDraw batch → batch.isFinite m.generator m.pricer = true)
    (htwo : 2 ≤ m.statistics.count) {fuel : ℕ} (hfuel : (maxSamples - m.statistics.count).toNat < fuel) :
    Rounds maxSamples tolerance m ((refine maxSamples tolerance fuel).run m).2 ∧
      Finishes maxSamples tolerance ((refine maxSamples tolerance fuel).run m).2
        ((refine maxSamples tolerance fuel).run m).1.result := by
  induction fuel generalizing m with
  | zero => omega
  | succ fuel ih =>
    obtain ⟨error, herror⟩ := errorEstimate_of_two_le htwo
    by_cases habove : tolerance < error
    · cases hnext : (nextRound maxSamples tolerance error m.statistics.count).result with
      | error e =>
        obtain ⟨hresult, hstate⟩ := run_refine_of_refused herror habove hnext fuel
        rw [hresult, hstate]
        exact ⟨.refl, error, herror, .inr ⟨habove, e, rfl, hnext⟩⟩
      | ok n =>
        obtain ⟨hdraws, -⟩ := (addSamples_ends m (bounds_of_nextRound hnext).1).resolve_right
          (not_stumbles hfinite _)
        have hround : Round maxSamples tolerance n m ((addSamples n).run m).2 :=
          ⟨⟨error, herror, habove, hnext⟩, hdraws, rfl⟩
        -- The round has drawn a sample at least, so one unit of fuel less is still enough.
        obtain ⟨hone, hmost, hcount⟩ := hround.bounds
        have hrest := ih ((grows_addSamples m n).isFinite hfinite) (by omega) (by omega)
        obtain ⟨hresult, hstate⟩ := hround.run_refine fuel
        rw [hresult, hstate]
        exact ⟨.head ⟨n, hround⟩ hrest.1, hrest.2⟩
    · rw [run_refine_succ fuel herror, if_neg habove]
      exact ⟨.refl, error, herror, .inl ⟨rfl, habove⟩⟩

theorem Finishes.last {result : Except (PricingError α) Unit}
    (h : Finishes maxSamples tolerance m result) : ¬Round maxSamples tolerance n m m' := by
  intro hround
  obtain ⟨error, herror, hends⟩ := h
  obtain ⟨error', herror', habove, hnext⟩ := hround.above
  obtain rfl : error = error' := Except.ok.inj (herror.symm.trans herror')
  obtain ⟨-, hwithin⟩ | ⟨-, e, -, hrefused⟩ := hends
  · exact hwithin habove
  · cases hrefused.symm.trans hnext

/-- A call ends as its loop does, with the mean if that has succeeded. -/
theorem run_finish (tolerance : α) (maxSamples : ℤ) (m : SamplingModel α) :
    let loop := (refine maxSamples tolerance ((maxSamples - m.statistics.count).toNat + 1)).run m
    ((finish tolerance maxSamples).run m).2 = loop.2 ∧
      (loop.1.result = .ok () →
        ((finish tolerance maxSamples).run m).1.result = (mean.run loop.2).1.result) ∧
      ∀ e, loop.1.result = .error e → ((finish tolerance maxSamples).run m).1.result = .error e := by
  intro loop
  rw [finish, run_get_bind]
  refine ⟨?_, fun hok => Session.result_run_bind_ok hok, fun e he => Session.result_run_bind_error he⟩
  cases h : loop.1.result with
  | error e => exact Session.snd_run_bind_error h
  | ok u => exact Session.snd_run_bind_ok h

/-- The model when the rounds of a call begin: samples that every call needs have been drawn. -/
def begun (m : SamplingModel α) (maxSamples : ℤ) : SamplingModel α :=
  ((topUp (min leastRound maxSamples)).run m).2

end Rounds

/-! ## Real errors -/

section Exact

variable {maxSamples : ℤ} {τ : ℝ}

/-- In exact arithmetic a further round is refused only if no sample may be drawn. -/
theorem nextRound_eq_error {error : ℝ} {drawn : ℕ} {e : PricingError Exact} (hτ : 0 < τ)
    (h : (nextRound maxSamples (real τ) (real error) drawn).result = .error e) :
    e = .simulation (.notConverged maxSamples (real error) (real τ)) ∧ maxSamples ≤ drawn := by
  have hsuggested : (drawn : Exact) * Scalar.square (real error / real τ) * 0.8 - drawn =
      real (drawn * (error / τ) ^ 2 * 0.8 - drawn) := by
    simp only [real_div _ hτ.ne', natCast_eq, real_square, ofScientific_eq, real_mul, real_sub]
  unfold nextRound at h
  dsimp only at h
  rw [hsuggested, Outcome.require_of (isFinite_real _), pure_bind] at h
  by_cases hround : min (max (Scalar.trunc (real (drawn * (error / τ) ^ 2 * 0.8 - drawn))) leastRound)
      (maxSamples - drawn) ≤ 0
  · have hleast : 0 < max (Scalar.trunc (real (drawn * (error / τ) ^ 2 * 0.8 - drawn))) leastRound :=
      lt_max_of_lt_right (by decide)
    rw [Outcome.require_of_not (not_not_intro hround)] at h
    cases h
    exact ⟨rfl, by omega⟩
  · rw [Outcome.require_of hround] at h
    cases h

variable [NormalSource Exact] {m m' : SamplingModel Exact} {tolerance : Value Exact}

/-- A call for a tolerance in range draws what is missing for a first look at the error, and finishes. -/
theorem run_value (hτ : tolerance.operand = .ok (real τ)) (hpos : 0 < τ) (hmax : 2 ≤ maxSamples)
    (m : SamplingModel Exact) : (value tolerance maxSamples).run m =
      (topUp (min leastRound maxSamples) >>= fun _ => finish (real τ) maxSamples).run m := by
  have hpositive : ¬real τ ≤ 0 := not_real_le_zero.mpr hpos
  rw [value_eq, hτ, Outcome.require_of (not_lt.mpr hmax)]
  change (Session.lift (Outcome.require (¬real τ ≤ 0) _) >>= _).run m = _
  rw [Outcome.require_of hpositive]
  rfl

/-- What a call for the tolerance `τ` comes to, with its result and the model after it. -/
structure Converges (maxSamples : ℤ) (τ : ℝ) (m : SamplingModel Exact)
    (result : Except (PricingError Exact) Exact) (m' : SamplingModel Exact) : Prop where
  count_begun : ((m.begun maxSamples).statistics.count : ℤ) =
    max (m.statistics.count : ℤ) (min leastRound maxSamples)
  rounds : Rounds maxSamples (real τ) (m.begun maxSamples) m'
  last : ∀ n m'', ¬Round maxSamples (real τ) n m' m''
  /-- Wherever the rounds have led, the error is that of two samples at least. -/
  counts : ∀ m₁, Rounds maxSamples (real τ) (m.begun maxSamples) m₁ →
    2 ≤ m₁.statistics.count ∧ (m₁.statistics.count : ℤ) ≤ max (m.statistics.count : ℤ) maxSamples
  ends : ∃ error : ℝ, m'.statistics.errorEstimate? = .ok (real error) ∧
    (result = .ok m'.statistics.mean ∧ error ≤ τ ∧ min leastRound maxSamples ≤ m'.statistics.count ∨
      result = .error (.simulation (.notConverged maxSamples (real error) (real τ))) ∧ τ < error ∧
        (m'.statistics.count : ℤ) = max (m.statistics.count : ℤ) maxSamples)

/-- If the error is within the tolerance already, nothing is drawn. -/
theorem run_value_of_within {error : ℝ} (hcount : min leastRound maxSamples ≤ m.statistics.count)
    (herror : m.statistics.errorEstimate? = .ok (real error)) (hwithin : error ≤ τ)
    (hτ : tolerance.operand = .ok (real τ)) (hpos : 0 < τ) (hmax : 2 ≤ maxSamples) :
    ((value tolerance maxSamples).run m).1.result = .ok m.statistics.mean ∧
      ((value tolerance maxSamples).run m).2 = m := by
  have hleast : 2 ≤ min leastRound maxSamples := le_min (by decide) hmax
  have hdone : ¬real τ < real error := by rwa [real_lt, not_lt]
  have hrefine (fuel : ℕ) : (refine maxSamples (real τ) (fuel + 1)).run m = (pure (), m) := by
    rw [run_refine_succ fuel herror, if_neg hdone]
  have hfinish : (finish (real τ) maxSamples).run m = (mean.run m : Outcome Exact Exact × _) := by
    rw [finish, run_get_bind, Session.run_bind_of_ok _ (hrefine _)]
    rfl
  rw [run_value hτ hpos hmax, Session.run_bind_of_ok _ (run_topUp_of_le hcount), hfinish]
  exact ⟨mean_of_pos (by omega), rfl⟩

theorem errorEstimate_real {samples : Multiset ℝ} (hsamples : m.statistics = Samples.summary samples)
    (htwo : 2 ≤ m.statistics.count) :
    ∃ error : ℝ, m.statistics.errorEstimate? = .ok (real error) := by
  rw [hsamples, Samples.count_summary] at htwo
  rw [hsamples, (Samples.inspects_summary samples).errorEstimate, if_neg (not_lt.mpr htwo)]
  exact ⟨_, rfl⟩

/-- A call from real samples on, if all batches that may be drawn are finite. -/
theorem converges
    (hfinite : ∀ batch, m.MayDraw batch → batch.isFinite m.generator m.pricer = true)
    {drawn : Multiset ℝ} (hdrawn : m.statistics = Samples.summary drawn)
    (hτ : tolerance.operand = .ok (real τ)) (hpos : 0 < τ) (hmax : 2 ≤ maxSamples) :
    Converges maxSamples τ m ((value tolerance maxSamples).run m).1.result
      ((value tolerance maxSamples).run m).2 := by
  have hleast : 2 ≤ min leastRound maxSamples := le_min (by decide) hmax
  have hmost : min leastRound maxSamples ≤ maxSamples := min_le_right _ _
  have hbegun : Grows m (m.begun maxSamples) := preserves_topUp m _ m (.refl m)
  obtain ⟨hdraws, hcount⟩ := (topUp_ends m (min leastRound maxSamples)).resolve_right
    (not_stumbles hfinite _)
  change ((m.begun maxSamples).statistics.count : ℤ) = _ at hcount
  obtain ⟨hstate, hok, hfails⟩ := run_finish (real τ) maxSamples (m.begun maxSamples)
  have hloop : (maxSamples - (m.begun maxSamples).statistics.count).toNat <
      (maxSamples - (m.begun maxSamples).statistics.count).toNat + 1 := Nat.lt_add_one _
  obtain ⟨hrounds, error, herror, hends⟩ :=
    refine_ends (real τ) (hbegun.isFinite hfinite) (by omega) hloop
  have hresult : ((value tolerance maxSamples).run m).1.result =
      ((finish (real τ) maxSamples).run (m.begun maxSamples)).1.result := by
    rw [run_value hτ hpos hmax]
    exact Session.result_run_bind_ok hdraws
  have hleft : ((value tolerance maxSamples).run m).2 =
      ((finish (real τ) maxSamples).run (m.begun maxSamples)).2 := by
    rw [run_value hτ hpos hmax]
    exact Session.snd_run_bind_ok hdraws
  have hgrows := hrounds.grows.count_le
  have hrange := hrounds.count_le
  obtain ⟨samples, hsamples⟩ := (hbegun.trans hrounds.grows).exists_summary hdrawn
  obtain ⟨ε, hε⟩ := errorEstimate_real hsamples (by omega)
  obtain rfl : error = real ε := Except.ok.inj (herror.symm.trans hε)
  rw [hresult, hleft, hstate]
  refine ⟨hcount, hrounds, fun n m'' => Finishes.last ⟨_, herror, hends⟩, fun m₁ h₁ => ?_, ε, hε, ?_⟩
  · have hcount₁ := h₁.grows.count_le
    have hrange₁ := h₁.count_le
    omega
  · obtain ⟨hdone, hwithin⟩ | ⟨habove, e, hrefused, hnext⟩ := hends
    · rw [real_lt, not_lt] at hwithin
      refine .inl ⟨?_, hwithin, by omega⟩
      rw [hok hdone, mean_of_pos (by omega)]
    · -- The bound has been reached from below, or it had been passed before the call.
      obtain ⟨rfl, hfull⟩ := nextRound_eq_error hpos hnext
      exact .inr ⟨hfails _ hrefused, habove, by omega⟩

/-- A call for a tolerance stops, keeps its bound and meets its tolerance. After any history of calls on
a pricer, failed ones included, and whatever finite samples the batches give that may follow, there is
no unending sequence of rounds; each round adds one sample at least and no more than may still be drawn;
the error is looked at only when there are two samples; the call answers only within the tolerance, and
is refused only above it, with all samples drawn that may be. Once it has answered, it answers the same
to the same tolerance or a larger one, and draws nothing more. -/
theorem value_meets_its_tolerance {generator : PathGenerator Exact} {pricer : PathPricer Exact}
    {batchSize workers : ℤ} {m₀ : SamplingModel Exact}
    (hbuild : (build generator pricer .empty batchSize workers).result = .ok m₀)
    (history : List (Call Exact)) (hfinite : ∀ batch, (m₀.afterCalls history).MayDraw batch →
      batch.isFinite generator pricer = true)
    (hτ : tolerance.operand = .ok (real τ)) (hpos : 0 < τ) (hmax : 2 ≤ maxSamples) :
    let m := m₀.afterCalls history
    let run := (value tolerance maxSamples).run m
    (WellFounded fun m₂ m₁ : SamplingModel Exact => ∃ n, Round maxSamples (real τ) n m₁ m₂) ∧
    (∀ n m₁ m₂, Round maxSamples (real τ) n m₁ m₂ → 1 ≤ n ∧ n ≤ maxSamples - m₁.statistics.count ∧
      (m₂.statistics.count : ℤ) = m₁.statistics.count + n) ∧
    Converges maxSamples τ m run.1.result run.2 ∧
    ∀ answer, run.1.result = .ok answer → ∀ (tolerance' : Value Exact) (τ' : ℝ),
      tolerance'.operand = .ok (real τ') → τ ≤ τ' →
      ((value tolerance' maxSamples).run run.2).1.result = .ok answer ∧
        ((value tolerance' maxSamples).run run.2).2 = run.2 := by
  intro m run
  simp only [build, Outcome.result_bind_eq_ok, Outcome.result_require_eq_ok] at hbuild
  obtain ⟨_, -, _, -, hm₀⟩ := hbuild
  cases hm₀
  have hgrows : Grows _ m := grows_afterCalls _ history
  obtain ⟨drawn, hdrawn⟩ := hgrows.exists_summary Samples.summary_zero.symm
  have hdrawable : ∀ batch, m.MayDraw batch → batch.isFinite m.generator m.pricer = true := by
    rw [hgrows.generator_eq, hgrows.pricer_eq]
    exact hfinite
  have hconverges : Converges maxSamples τ m run.1.result run.2 :=
    converges hdrawable hdrawn hτ hpos hmax
  refine ⟨wellFounded_round maxSamples (real τ), fun n m₁ m₂ h => h.bounds, hconverges,
    fun answer hanswer tolerance' τ' hτ' hle => ?_⟩
  obtain ⟨error, herror, ⟨hmean, hwithin, hcount⟩ | ⟨hrefused, -⟩⟩ := hconverges.ends
  · obtain rfl : run.2.statistics.mean = answer := Except.ok.inj (hmean.symm.trans hanswer)
    exact run_value_of_within hcount herror (hwithin.trans hle) hτ' (hpos.trans_le hle) hmax
  · cases hrefused.symm.trans hanswer

end Exact

/-- A put with batches of two paths, of which a client first has three samples and then a table. It is
then called for a tolerance of one, and again for a tolerance of two. -/
theorem value_meets_a_tolerance_of_one :
    let _ : NormalSource Exact := ⟨Bool, fun _ => true, fun b => (real (if b then 1 else -1), !b)⟩
    let i : SimulationInputs := ⟨100, 90, 0.02, 0.05, 1, 0.2, by norm_num, by norm_num, one_pos⟩
    let m₀ : SamplingModel Exact :=
      ⟨.ofSeed (i.process 3).exact (.root 42), .european (i.pricer .put false), .empty, 2, 0⟩
    let m := m₀.afterCalls [.samples 3, .table [6, 4], .samples 5]
    let run := (value (.number (real 1)) 5000).run m
    (build m₀.generator m₀.pricer .empty 2 1).result = .ok m₀ ∧
      (∀ batch : Batch, batch.isFinite m₀.generator m₀.pricer = true) ∧
      Converges 5000 1 m run.1.result run.2 ∧
      ∀ answer, run.1.result = .ok answer →
        ((value (.number (real 2)) 5000).run run.2).1.result = .ok answer ∧
          ((value (.number (real 2)) 5000).run run.2).2 = run.2 := by
  intro _ i m₀ m run
  have hnormals : NormalSource.IsReal := fun b => ⟨if b then 1 else -1, rfl⟩
  have hfinite (batch : Batch) : batch.isFinite m₀.generator m₀.pricer = true :=
    isFinite_of_isReal hnormals rfl i .put false batch
  have hbuild : (build m₀.generator m₀.pricer .empty 2 1).result = .ok m₀ := rfl
  have hone : (Value.number (real 1)).operand = .ok (real 1) := rfl
  have hmax : (2 : ℤ) ≤ 5000 := by norm_num
  have hm : m = m₀.afterCalls [.samples 3, .table [6, 4], .samples 5] := rfl
  have hrun : run = (value (.number (real 1)) 5000).run m := rfl
  obtain ⟨-, -, hconverges, hagain⟩ := value_meets_its_tolerance hbuild
    [.samples 3, .table [6, 4], .samples 5] (fun batch _ => hfinite batch) hone one_pos hmax
  -- The run is not to be computed, so its names are replaced by rewriting.
  rw [hrun, hm]
  exact ⟨hbuild, hfinite, hconverges, fun answer h =>
    hagain answer h (.number (real 2)) 2 rfl one_le_two⟩

end SamplingModel

end OptionDesk
