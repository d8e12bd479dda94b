import OptionDesk.Proofs.Finite
import OptionDesk.Proofs.Sampling.Counts

/-!
# What construction of a pricer accepts

The rates, the time and the volatility of a simulated option must be finite to be accepted, and so must be
what the process is made of. The two prices and the discount factor are only compared with zero: an undefined
or an infinite price passes, and so does a factor that has overflowed. A pricer is therefore the one that is
meant exactly if these three are finite, in exact arithmetic and among the numbers on which the library runs.

In exact arithmetic a discount factor is finite, and sampling goes by the prices. Of the pricers that are not
meant some never draw a sample, because every batch is refused for its samples, and some draw samples of
nothing: which ones is read off the option type and the two prices.
-/
namespace OptionDesk

open Exact

namespace Exact

variable {x y : Exact}

theorem isFinite_max_zero : Scalar.isFinite (max x 0) = true ↔ x ≠ above ∧ x ≠ undefined := by
  cases x with
  | real r => simp
  | above =>
    have hmax : max above (0 : Exact) = above := if_neg (by simp [lt])
    exact iff_of_false (by rw [hmax]; exact Bool.false_ne_true) fun h => h.1 rfl
  | below =>
    have hmax : max below (0 : Exact) = 0 := if_pos (.inl trivial)
    exact iff_of_true (by rw [hmax]; rfl) ⟨Exact.noConfusion, Exact.noConfusion⟩
  | undefined =>
    have hmax : max undefined (0 : Exact) = undefined := max_undefined 0
    exact iff_of_false (by rw [hmax]; exact Bool.false_ne_true) fun h => h.2 rfl

/-- The positive part of a difference of two numbers that are not infinitely small. -/
theorem isFinite_max_sub (hx : x ≠ below) (hy : y ≠ below) :
    Scalar.isFinite (max (x - y) 0) = true ↔ Scalar.isFinite x = true ∧ Scalar.isNaN y = false := by
  rw [isFinite_max_zero]
  change add x (neg y) ≠ above ∧ add x (neg y) ≠ undefined ↔ _
  cases x <;> cases y <;> simp [add, neg, Scalar.isFinite, Scalar.isNaN] at hx hy ⊢

/-- What is not refused for being negative is not infinitely small. -/
theorem ne_below_of_not_neg (h : ¬x < 0) : x ≠ below := by
  rintro rfl
  exact h trivial

theorem ne_below_of_not_nonpos (h : ¬x ≤ 0) : x ≠ below := by
  rintro rfl
  exact h (.inl trivial)

/-- A positive factor does not change what kind of number it is. -/
theorem kind_mul {e : ℝ} (he : 0 < e) (hx : x ≠ below) : x * real e ≠ below ∧
    Scalar.isNaN (x * real e) = Scalar.isNaN x ∧ Scalar.isFinite (x * real e) = Scalar.isFinite x := by
  cases x with
  | real r => exact ⟨Exact.noConfusion, rfl, rfl⟩
  | above =>
    have hproduct : above * real e = above := if_pos (by simpa [sign] using he)
    rw [hproduct]
    exact ⟨hx, rfl, rfl⟩
  | below => exact absurd rfl hx
  | undefined =>
    have hproduct : undefined * real e = undefined := by
      change infinite (0 * e) = undefined
      rw [zero_mul, infinite, if_neg (lt_irrefl 0), if_neg (lt_irrefl 0)]
    rw [hproduct]
    exact ⟨hx, rfl, rfl⟩

end Exact

/-! ## Payoffs -/

/-- All payoffs of an option of two such prices are finite. -/
def OptionType.Settles (kind : OptionType) (spot strike : Exact) : Prop :=
  match kind with
  | .call => Scalar.isFinite spot = true ∧ Scalar.isNaN strike = false
  | .put => Scalar.isFinite strike = true ∧ Scalar.isNaN spot = false

theorem OptionType.settles_of_finite (kind : OptionType) {spot strike : Exact}
    (hspot : Scalar.isFinite spot = true) (hstrike : Scalar.isFinite strike = true) :
    kind.Settles spot strike := by
  obtain ⟨S, rfl⟩ := isFinite_iff.mp hspot
  obtain ⟨K, rfl⟩ := isFinite_iff.mp hstrike
  cases kind with
  | call => exact ⟨rfl, rfl⟩
  | put => exact ⟨rfl, rfl⟩

namespace EuropeanPricer

section

variable {α : Type} [Scalar α] {p : EuropeanPricer α}

/-- The pricer that is meant: its numbers are finite, and all on their side of zero. -/
structure IsSound (p : EuropeanPricer α) : Prop where
  underlying : Scalar.isFinite p.underlying = true ∧ 0 < p.underlying
  strike : Scalar.isFinite p.strike = true ∧ 0 ≤ p.strike
  discount : Scalar.isFinite p.discount = true ∧ 0 < p.discount

/-- What the checks ask of a pricer. -/
structure IsChecked (p : EuropeanPricer α) : Prop where
  underlying : ¬p.underlying ≤ 0
  strike : ¬p.strike < 0
  discount : ¬p.discount ≤ 0

theorem IsChecked.isSound_iff (hα : Scalar.OrdersFinite α) (h : p.IsChecked) :
    p.IsSound ↔ Scalar.isFinite p.underlying = true ∧ Scalar.isFinite p.strike = true ∧
      Scalar.isFinite p.discount = true := by
  constructor
  · exact fun hsound => ⟨hsound.underlying.1, hsound.strike.1, hsound.discount.1⟩
  · rintro ⟨hunderlying, hstrike, hdiscount⟩
    exact ⟨⟨hunderlying, hα.pos_of_not_le _ hunderlying h.underlying⟩,
      ⟨hstrike, hα.nonneg_of_not_lt _ hstrike h.strike⟩,
      hdiscount, hα.pos_of_not_le _ hdiscount h.discount⟩

theorem build_eq_ok {type underlying strike antithetic : Value α} {discount : α} :
    (build type underlying strike (.number discount) antithetic).result = .ok p ↔ p.IsChecked ∧
      type = .optionType p.kind ∧ underlying.operand = .ok p.underlying ∧
      strike.operand = .ok p.strike ∧ p.discount = discount ∧ p.antithetic = antithetic.isSet := by
  unfold build
  split
  · simp only [Value.operand_number, Outcome.ofMisuse_ok, pure_bind, Outcome.result_bind_eq_ok,
      Outcome.result_require_eq_ok, Outcome.result_ofMisuse_eq_ok, exists_const, Outcome.result_pure,
      Except.ok.injEq, Value.optionType.injEq]
    constructor
    · rintro ⟨S, hS, hpositive, K, hK, hnonneg, hdiscount, rfl⟩
      exact ⟨⟨hpositive, hnonneg, hdiscount⟩, rfl, hS, hK, rfl, rfl⟩
    · rintro ⟨hchecked, rfl, hS, hK, rfl, hantithetic⟩
      exact ⟨_, hS, hchecked.underlying, _, hK, hchecked.strike, hchecked.discount, by rw [← hantithetic]⟩
  · next hkind =>
    refine iff_of_false (fun h => ?_) fun h => hkind _ h.2.1
    cases h

end

variable {p : EuropeanPricer Exact}

theorem IsChecked.isFinite_payoff (h : p.IsChecked) (logReturn : ℝ) :
    Scalar.isFinite (p.payoff (real logReturn)) = true ↔ p.kind.Settles p.underlying p.strike := by
  obtain ⟨hends, hnan, hfinite⟩ := kind_mul (Real.exp_pos logReturn) (ne_below_of_not_nonpos h.underlying)
  have hstrike := ne_below_of_not_neg h.strike
  rw [payoff, real_exp]
  cases p.kind with
  | call => rw [OptionType.payoff, isFinite_max_sub hends hstrike, hfinite, OptionType.Settles]
  | put => rw [OptionType.payoff, isFinite_max_sub hstrike hends, hnan, OptionType.Settles]

theorem IsChecked.isFinite_worth (h : p.IsChecked) (hdiscount : Scalar.isFinite p.discount = true)
    (logReturn reflected : ℝ) :
    Scalar.isFinite (p.worth (real logReturn) (real reflected)) = true ↔
      p.kind.Settles p.underlying p.strike := by
  have hhalf : Scalar.isFinite (0.5 : Exact) = true := rfl
  unfold worth
  split
  · simp only [isFinite_mul, isFinite_add, h.isFinite_payoff, hdiscount, hhalf, true_and, and_self_iff]
  · simp only [isFinite_mul, h.isFinite_payoff, hdiscount, true_and]

/-- Whatever function the exponential is, a factor that is not finite leaves no sample finite. -/
theorem not_isFinite_worth (exp : Exact → Exact) (hdiscount : Scalar.isFinite p.discount = false)
    (logReturn reflected : Exact) :
    letI := Exact.withExp exp
    Scalar.isFinite (p.worth logReturn reflected) = false := by
  have hproduct (x : Exact) : Scalar.isFinite (p.discount * x) = false := by
    rw [Bool.eq_false_iff, ne_eq, isFinite_mul, hdiscount]
    exact fun hfinite => Bool.false_ne_true hfinite.1
  let scalar := Exact.withExp exp
  unfold worth
  split
  · exact hproduct _
  · exact hproduct _

end EuropeanPricer

theorem PathProcess.build_eq_ok {α : Type} [Scalar α] {drift variance length timeSteps : α}
    {process : PathProcess α} :
    (build (.number drift) (.number variance) (.number length) timeSteps).result = .ok process ↔
      Scalar.isFinite drift = true ∧ (Scalar.isFinite variance = true ∧ ¬variance < 0) ∧
      (Scalar.isFinite length = true ∧ ¬length ≤ 0) ∧ ¬timeSteps < 1 ∧
      ⟨drift, variance, length, (Scalar.trunc timeSteps).toNat⟩ = process := by
  simp only [build, Value.operand_number, Outcome.ofMisuse_ok, pure_bind, Outcome.result_bind_eq_ok,
    Outcome.result_require_eq_ok, exists_const, Outcome.result_pure, Except.ok.injEq]

/-! ## Models -/

namespace SamplingModel

variable [NormalSource Exact] {m : SamplingModel Exact} {p : EuropeanPricer Exact}

/-- A model of a European option whose numbers are checked. -/
structure IsChecked (m : SamplingModel Exact) (p : EuropeanPricer Exact) : Prop where
  pricer_eq : m.pricer = .european p
  pricer : p.IsChecked
  discount : Scalar.isFinite p.discount = true
  process : ∃ q : RealProcess, m.generator.process = q.exact
  batchSize : 0 < m.batchSize

theorem IsChecked.of_grows (h : m.IsChecked p) {m' : SamplingModel Exact} (hgrows : Grows m m') :
    m'.IsChecked p :=
  ⟨hgrows.pricer_eq.trans h.pricer_eq, h.pricer, h.discount,
    by rw [hgrows.generator_eq]; exact h.process, by rw [hgrows.batchSize_eq]; exact h.batchSize⟩

theorem IsChecked.isFinite_batch (h : m.IsChecked p) (hnormals : NormalSource.IsReal) {batch : Batch}
    (hsize : 1 ≤ batch.size) :
    batch.isFinite m.generator m.pricer = true ↔ p.kind.Settles p.underlying p.strike := by
  obtain ⟨q, hq⟩ := h.process
  obtain ⟨rows, -, -, hreturns, hreflected⟩ :=
    q.exists_rows hnormals (g := m.generator.child batch.index) hq batch.size
  have hlength : rows.length = batch.size := by
    have hpriced := congrArg List.length (p.priceBatch_eq hreturns hreflected)
    rw [List.length_map] at hpriced
    rw [← hpriced]
    exact (PathPricer.length_priceBatch (.european p) _).trans (PathGenerator.length_diffusion_take _ _)
  obtain ⟨row, hrow⟩ : ∃ row, row ∈ rows := List.exists_mem_of_length_pos (by omega)
  rw [Batch.isFinite, Batch.samples, h.pricer_eq, PathPricer.priceBatch,
    p.priceBatch_eq hreturns hreflected, List.all_map, List.all_eq_true]
  simp only [Function.comp_apply, h.pricer.isFinite_worth h.discount]
  exact ⟨fun hall => hall row hrow, fun hsettles _ _ => hsettles⟩

/-- Where no batch is finite, none is drawn. -/
theorem Grows.count_eq_zero {m' : SamplingModel Exact} (h : Grows m m') (hnone : m.statistics.count = 0)
    (hbad : ∀ batch : Batch, 1 ≤ batch.size → ¬batch.isFinite m.generator m.pricer = true) :
    m'.statistics.count = 0 := by
  obtain ⟨batches, hfinite, hstatistics⟩ := h.exists_batches
  rw [List.all_eq_true] at hfinite
  have hsizes : ∀ size ∈ batches.map Batch.size, size = 0 := by
    rw [List.forall_mem_map]
    intro batch hbatch
    by_contra hsize
    exact hbad batch (Nat.one_le_iff_ne_zero.mpr hsize) (hfinite batch hbatch)
  rw [hstatistics, count_merged, hnone, List.sum_eq_zero hsizes, add_zero]

/-- Where every batch is finite, the one error that is left is to ask for too few samples. -/
theorem estimate_ne_nonFiniteBatch {n : ℤ}
    (hgood : ∀ batch, m.MayDraw batch → batch.isFinite m.generator m.pricer = true) :
    m.estimate n ≠ .error (.statistics .nonFiniteBatch) := by
  intro hfails
  obtain hless | hequal | hmore := lt_trichotomy n m.statistics.count
  · rw [estimate, run_valueWithSamples_of_lt hless] at hfails
    cases hfails
  · rw [(run_valueWithSamples_of_eq hequal).1, Accumulator.mean?] at hfails
    split at hfails
    · cases hfails
    · cases hfails
  · obtain hstumbles | ⟨-, hanswer⟩ := estimate_ends hmore.le (by omega)
    · exact not_stumbles hgood _ hstumbles
    · cases hanswer.symm.trans hfails

theorem mayDraw_size {batch : Batch} (hm : 0 < m.batchSize) (h : m.MayDraw batch) : 1 ≤ batch.size := by
  obtain ⟨first, n, -, hbatch⟩ := h
  exact ((divided_request hm first n).bounded batch hbatch).1

/-- Whether sampling fails depends on the two prices alone, and it fails at once or never. -/
theorem IsChecked.fails_at_once_or_never (h : m.IsChecked p) (hnormals : NormalSource.IsReal)
    (hnone : m.statistics.count = 0) (history : List (Call Exact)) (n : ℤ) :
    (p.kind.Settles p.underlying p.strike →
      (m.afterCalls history).estimate n ≠ .error (.statistics .nonFiniteBatch)) ∧
    (¬p.kind.Settles p.underlying p.strike → 1 ≤ n →
      (m.afterCalls history).estimate n = .error (.statistics .nonFiniteBatch)) := by
  have hgrows := grows_afterCalls m history
  have hafter := h.of_grows hgrows
  have hbatches (batch : Batch) (hsize : 1 ≤ batch.size) := hafter.isFinite_batch hnormals hsize
  refine ⟨fun hsettles => estimate_ne_nonFiniteBatch fun batch hbatch => ?_, fun hnever hn => ?_⟩
  · exact (hbatches batch (mayDraw_size hafter.batchSize hbatch)).mpr hsettles
  · have hzero := hgrows.count_eq_zero hnone fun batch hsize hfinite =>
      hnever ((h.isFinite_batch hnormals hsize).mp hfinite)
    have henough : ((m.afterCalls history).statistics.count : ℤ) ≤ n := by omega
    obtain hstumbles | ⟨hcount, -⟩ := estimate_ends henough hn
    · exact hstumbles.1
    · have hdriven : Grows (m.afterCalls history) ((m.afterCalls history).driven [n]) :=
        preserves_valueWithSamples _ n _ (.refl _)
      have hstill := hdriven.count_eq_zero hzero fun batch hsize hfinite =>
        hnever ((hbatches batch hsize).mp hfinite)
      omega

end SamplingModel

/-! ## Terms -/

/-- The numbers that a model is made of, its two prices apart. -/
structure SimulationFigures (α : Type) where
  dividendYield : α
  riskFreeRate : α
  time : α
  volatility : α

namespace SimulationFigures

variable {α : Type} [Scalar α]

def drift (i : SimulationFigures α) : α :=
  i.riskFreeRate - i.dividendYield - 0.5 * i.volatility * i.volatility

def variance (i : SimulationFigures α) : α := i.volatility * i.volatility

def discount (i : SimulationFigures α) : α := Scalar.exp (-i.riskFreeRate * i.time)

/-- What the checks ask of these numbers. -/
structure IsChecked (i : SimulationFigures α) : Prop where
  dividendYield : Scalar.isFinite i.dividendYield = true
  riskFreeRate : Scalar.isFinite i.riskFreeRate = true
  time : Scalar.isFinite i.time = true ∧ ¬i.time ≤ 0
  volatility : Scalar.isFinite i.volatility = true ∧ ¬i.volatility ≤ 0
  drift : Scalar.isFinite i.drift = true
  variance : Scalar.isFinite i.variance = true ∧ ¬i.variance < 0

/-- The numbers that are meant: finite ones, the last three on their side of zero. -/
structure IsSound (i : SimulationFigures α) : Prop where
  dividendYield : Scalar.isFinite i.dividendYield = true
  riskFreeRate : Scalar.isFinite i.riskFreeRate = true
  drift : Scalar.isFinite i.drift = true
  time : Scalar.isFinite i.time = true ∧ 0 < i.time
  volatility : Scalar.isFinite i.volatility = true ∧ 0 < i.volatility
  variance : Scalar.isFinite i.variance = true ∧ 0 ≤ i.variance

theorem IsChecked.isSound (hα : Scalar.OrdersFinite α) {i : SimulationFigures α} (h : i.IsChecked) :
    i.IsSound where
  dividendYield := h.dividendYield
  riskFreeRate := h.riskFreeRate
  drift := h.drift
  time := ⟨h.time.1, hα.pos_of_not_le _ h.time.1 h.time.2⟩
  volatility := ⟨h.volatility.1, hα.pos_of_not_le _ h.volatility.1 h.volatility.2⟩
  variance := ⟨h.variance.1, hα.nonneg_of_not_lt _ h.variance.1 h.variance.2⟩

end SimulationFigures

namespace SimulationTerms

open SamplingModel

section Acceptance

variable {α : Type} [Scalar α] [NormalSource α] {t : SimulationTerms α} {m : SamplingModel α}
  {i : SimulationFigures α} {p : EuropeanPricer α}

/-- The terms pass the checks, and these are the numbers they are read as, the pricer and the model. -/
structure Accepts (t : SimulationTerms α) (i : SimulationFigures α) (p : EuropeanPricer α)
    (m : SamplingModel α) : Prop where
  dividendYield : t.dividendYield.operand = .ok i.dividendYield
  riskFreeRate : t.riskFreeRate.operand = .ok i.riskFreeRate
  residualTime : t.residualTime.operand = .ok i.time
  volatility : t.volatility.operand = .ok i.volatility
  figures : i.IsChecked
  optionType : t.optionType = .optionType p.kind
  underlying : t.underlying.operand = .ok p.underlying
  strike : t.strike.operand = .ok p.strike
  discount : p.discount = i.discount
  antithetic : p.antithetic = t.antithetic.isSet
  pricer : p.IsChecked
  timeSteps : ¬t.timeSteps < 1
  seed : 0 ≤ t.seed
  batchSize : 1 ≤ t.batchSize
  workers : 1 ≤ t.workers
  model : m = ⟨.ofSeed ⟨i.drift, i.variance, i.time, (Scalar.trunc t.timeSteps).toNat⟩
    (.root t.seed.toNat), .european p, .empty, t.batchSize.toNat, 0⟩

/-- A model is built exactly from terms that pass the checks. -/
theorem model_eq_ok : t.model.result = .ok m ↔ ∃ i p, t.Accepts i p m := by
  simp only [model, PathGenerator.build, SamplingModel.build, Outcome.result_bind_eq_ok,
    Outcome.result_require_eq_ok, Outcome.result_ofMisuse_eq_ok, PathProcess.build_eq_ok,
    EuropeanPricer.build_eq_ok, Outcome.result_pure, Except.ok.injEq, not_lt]
  constructor
  · rintro ⟨T, hT, _, htime, σ, hσ, _, hvolatility, q, hq, _, hdividend, r, hr, _, hrate, generator,
      ⟨process, ⟨hdrift, hvariance, -, hsteps, hprocess⟩, _, hseed, hgenerator⟩, p,
      ⟨hchecked, hkind, hS, hK, hdiscount, hantithetic⟩, _, hbatch, _, hworkers, hm⟩
    refine ⟨⟨q, r, T, σ⟩, p, ⟨hq, hr, hT, hσ, ⟨hdividend, hrate, htime, hvolatility, hdrift, hvariance⟩,
      hkind, hS, hK, hdiscount, hantithetic, hchecked, hsteps, hseed, hbatch, hworkers, ?_⟩⟩
    rw [← hm, ← hgenerator, ← hprocess]
    rfl
  · rintro ⟨⟨q, r, T, σ⟩, p, h⟩
    exact ⟨T, h.residualTime, (), h.figures.time, σ, h.volatility, (), h.figures.volatility, q,
      h.dividendYield, (), h.figures.dividendYield, r, h.riskFreeRate, (), h.figures.riskFreeRate, _,
      ⟨_, ⟨h.figures.drift, h.figures.variance, h.figures.time, h.timeSteps, rfl⟩, (), h.seed, rfl⟩, p,
      ⟨h.pricer, h.optionType, h.underlying, h.strike, h.discount, h.antithetic⟩, (), h.batchSize, (),
      h.workers, h.model.symm⟩

/-- The same terms with other prices. -/
def priced (t : SimulationTerms α) (underlying strike : α) : SimulationTerms α :=
  { t with underlying := .number underlying, strike := .number strike }

/-- What passes the comparisons with zero passes all checks of the prices. -/
theorem Accepts.priced (h : t.Accepts i p m) {S K : α} (hS : ¬S ≤ 0) (hK : ¬K < 0) :
    (t.priced S K).Accepts i { p with underlying := S, strike := K }
      { m with pricer := .european { p with underlying := S, strike := K } } :=
  { h with
    underlying := rfl
    strike := rfl
    pricer := ⟨hS, hK, h.pricer.discount⟩
    model := by
      rw [h.model]
      rfl }

theorem Accepts.pricer_eq (h : t.Accepts i p m) : m.pricer = .european p := by
  rw [h.model]

end Acceptance

section Sampling

variable [NormalSource Exact] {t : SimulationTerms Exact} {m : SamplingModel Exact}
  {i : SimulationFigures Exact} {p : EuropeanPricer Exact} (h : t.Accepts i p m)

include h

/-- In exact arithmetic a rate over a time makes a finite factor. -/
theorem Accepts.isFinite_discount : Scalar.isFinite p.discount = true := by
  have hexponent := isUnbounded.mul _ _ (isUnbounded.neg _ h.figures.riskFreeRate) h.figures.time.1
  rw [h.discount]
  exact (isUnbounded.exp _ hexponent).1

theorem Accepts.isChecked : m.IsChecked p := by
  obtain ⟨a, ha⟩ := isFinite_iff.mp h.figures.drift
  obtain ⟨v, hv⟩ := isFinite_iff.mp h.figures.variance.1
  obtain ⟨T, hT⟩ := isFinite_iff.mp h.figures.time.1
  have hvariance : 0 ≤ v := not_real_lt_zero.mp (hv ▸ h.figures.variance.2)
  have htime : 0 < T := not_real_le_zero.mp (hT ▸ h.figures.time.2)
  let q : RealProcess := ⟨a, v, T, (Scalar.trunc t.timeSteps).toNat, hvariance, htime⟩
  have hprocess : m.generator.process = q.exact := by
    rw [h.model, ha, hv, hT]
    rfl
  have hbatch : 0 < m.batchSize := by
    rw [h.model]
    exact Int.pos_iff_toNat_pos.mp (Int.lt_of_lt_of_le one_pos h.batchSize)
  exact ⟨h.pricer_eq, h.pricer, h.isFinite_discount, ⟨q, hprocess⟩, hbatch⟩

theorem Accepts.count_eq_zero : m.statistics.count = 0 := by
  rw [h.model]
  rfl

end Sampling

/-- Whatever the terms, a pricer that has been built has rates, time, volatility, drift and variance as they
should be, and is the one that is meant exactly if its two prices and its discount factor are finite. In exact
arithmetic the factor is finite, and no call for samples fails for a batch on a pricer that is meant; on any
other the option type and the two prices say whether every call for samples fails or none. -/
theorem built_pricers_are_sound_if_finite {α : Type} [Scalar α] [NormalSource α]
    (hα : Scalar.OrdersFinite α) {t : SimulationTerms α} {m : SamplingModel α}
    (h : t.model.result = .ok m) :
    (∃ i p, t.Accepts i p m ∧ i.IsSound ∧
      (p.IsSound ↔ Scalar.isFinite p.underlying = true ∧ Scalar.isFinite p.strike = true ∧
        Scalar.isFinite p.discount = true)) ∧
    ∀ [NormalSource Exact] (t : SimulationTerms Exact) (m : SamplingModel Exact),
      NormalSource.IsReal → t.model.result = .ok m →
      ∃ i p, t.Accepts i p m ∧ i.IsSound ∧
        (p.IsSound ↔ Scalar.isFinite p.underlying = true ∧ Scalar.isFinite p.strike = true) ∧
        (p.IsSound → p.kind.Settles p.underlying p.strike) ∧
        ∀ (history : List (Call Exact)) (n : ℤ),
          (p.kind.Settles p.underlying p.strike →
            (m.afterCalls history).estimate n ≠ .error (.statistics .nonFiniteBatch)) ∧
          (¬p.kind.Settles p.underlying p.strike → 1 ≤ n →
            (m.afterCalls history).estimate n = .error (.statistics .nonFiniteBatch)) := by
  constructor
  · obtain ⟨i, p, haccepts⟩ := model_eq_ok.mp h
    exact ⟨i, p, haccepts, haccepts.figures.isSound hα, haccepts.pricer.isSound_iff hα⟩
  · intro _ t m hnormals hbuilt
    obtain ⟨i, p, haccepts⟩ := model_eq_ok.mp hbuilt
    have hsound := haccepts.pricer.isSound_iff ordersFinite
    simp only [haccepts.isFinite_discount, and_true] at hsound
    exact ⟨i, p, haccepts, haccepts.figures.isSound ordersFinite, hsound,
      fun hp => p.kind.settles_of_finite (hsound.mp hp).1 (hsound.mp hp).2,
      haccepts.isChecked.fails_at_once_or_never hnormals haccepts.count_eq_zero⟩

/-- Two finite prices, after an estimate that was asked for with too few samples. -/
theorem finite_prices_are_sound_after_a_refusal :
    letI : NormalSource Exact := ⟨Bool, fun _ => true, fun b => (real (if b then 1 else -1), !b)⟩
    let t : SimulationTerms Exact :=
      { optionType := .optionType .put
        underlying := .number (real 100)
        strike := .number (real 0)
        dividendYield := .number (real 0.02)
        riskFreeRate := .number (real 0.05)
        residualTime := .number (real 1)
        volatility := .number (real 0.2)
        antithetic := .figure (.truth true)
        seed := 42
        timeSteps := real 3
        batchSize := 2
        workers := 1 }
    ∃ m, t.model.result = .ok m ∧ (∃ p, m.pricer = .european p ∧ p.IsSound) ∧
      (m.afterCalls [.samples 3, .samples 2]).estimate 7 ≠ .error (.statistics .nonFiniteBatch) := by
  let _ : NormalSource Exact := ⟨Bool, fun _ => true, fun b => (real (if b then 1 else -1), !b)⟩
  intro t
  have hnormals : NormalSource.IsReal := fun b => ⟨if b then 1 else -1, rfl⟩
  let i : SimulationInputs := ⟨100, 0, 0.02, 0.05, 1, 0.2, by norm_num, le_rfl, one_pos⟩
  have hgives : t.Gives .put i := ⟨rfl, rfl, rfl, rfl, rfl, rfl, rfl⟩
  have hsteps : ¬(real 3 : Exact) < 1 := by
    rw [one_eq, real_lt]
    norm_num
  have hpositive : 0 < i.volatility := by norm_num [i]
  have hbuilt : t.model.result = .ok (t.fresh .put i) :=
    hgives.model_eq_ok.mpr ⟨⟨hpositive, hsteps, (by decide : (0 : ℤ) ≤ 42), (by decide : (1 : ℤ) ≤ 2),
      le_rfl⟩, rfl⟩
  obtain ⟨⟨_, p, haccepts, -, hsound⟩, hsampled⟩ := built_pricers_are_sound_if_finite ordersFinite hbuilt
  obtain ⟨_, p', haccepts', -, hsound', hsettles, hcalls⟩ := hsampled t _ hnormals hbuilt
  have hp : p.IsSound := by
    cases haccepts.pricer_eq
    exact hsound.mpr ⟨rfl, rfl, rfl⟩
  have hp' : p'.IsSound := by
    cases haccepts'.pricer_eq
    exact hsound'.mpr ⟨rfl, rfl⟩
  exact ⟨_, hbuilt, ⟨p, haccepts.pricer_eq, hp⟩,
    (hcalls [.samples 3, .samples 2] 7).1 (hsettles hp')⟩

/-- An undefined underlying is let through, and then every call for samples fails; an infinite strike of a
call is let through, and then none does. -/
theorem undefined_and_infinite_prices_are_let_through :
    letI : NormalSource Exact := ⟨Bool, fun _ => true, fun b => (real (if b then 1 else -1), !b)⟩
    let t : SimulationTerms Exact :=
      { optionType := .optionType .call
        underlying := .number (real 100)
        strike := .number (real 100)
        dividendYield := .number (real 0)
        riskFreeRate := .number (real 0.05)
        residualTime := .number (real 1)
        volatility := .number (real 0.2)
        antithetic := .figure (.truth true)
        seed := 42
        timeSteps := real 1
        batchSize := 50000
        workers := 1 }
    (∃ m p, (t.priced undefined (real 100)).model.result = .ok m ∧ m.pricer = .european p ∧
      ¬p.IsSound ∧ m.estimate 4 = .error (.statistics .nonFiniteBatch)) ∧
    ∃ m p, (t.priced (real 100) above).model.result = .ok m ∧ m.pricer = .european p ∧
      ¬p.IsSound ∧ ∀ n, m.estimate n ≠ .error (.statistics .nonFiniteBatch) := by
  let _ : NormalSource Exact := ⟨Bool, fun _ => true, fun b => (real (if b then 1 else -1), !b)⟩
  intro t
  have hnormals : NormalSource.IsReal := fun b => ⟨if b then 1 else -1, rfl⟩
  let i : SimulationInputs := ⟨100, 100, 0, 0.05, 1, 0.2, by norm_num, by norm_num, one_pos⟩
  have hgives : t.Gives .call i := ⟨rfl, rfl, rfl, rfl, rfl, rfl, rfl⟩
  have hpositive : 0 < i.volatility := by norm_num [i]
  have hpasses : t.Passes i := ⟨hpositive, fun hless => lt_irrefl (1 : ℝ) hless,
    (by decide : (0 : ℤ) ≤ 42), (by decide : (1 : ℤ) ≤ 50000), le_rfl⟩
  obtain ⟨_, ⟨kind, _, _, D, reflects⟩, haccepts⟩ := model_eq_ok.mp (hgives.model_eq_ok.mpr ⟨hpasses, rfl⟩)
  cases haccepts.optionType
  have hspot : ¬(real 100 : Exact) ≤ 0 := not_real_le_zero.mpr (by norm_num)
  have hstrike : ¬(real 100 : Exact) < 0 := not_real_lt_zero.mpr (by norm_num)
  have hinfinite : ¬(above : Exact) < 0 := id
  constructor
  · have h := haccepts.priced (not_undefined_le 0) hstrike
    refine ⟨_, _, model_eq_ok.mpr ⟨_, _, h⟩, h.pricer_eq, fun hsound => ?_, ?_⟩
    · cases hsound.underlying.1
    · exact (h.isChecked.fails_at_once_or_never hnormals h.count_eq_zero [] 4).2
        (fun hsettles => Bool.false_ne_true hsettles.1) (by decide)
  · have h := haccepts.priced hspot hinfinite
    refine ⟨_, _, model_eq_ok.mpr ⟨_, _, h⟩, h.pricer_eq, fun hsound => ?_, fun n => ?_⟩
    · cases hsound.strike.1
    · exact (h.isChecked.fails_at_once_or_never hnormals h.count_eq_zero [] n).1 ⟨rfl, rfl⟩

/-- Where the exponential is infinite far above zero, a large negative rate makes an infinite factor. It is
let through, and whatever is drawn then, no sample is finite. -/
theorem infinite_discounts_are_let_through [NormalSource Exact] :
    letI := Exact.withExp rangedExp
    let t : SimulationTerms Exact :=
      { optionType := .optionType .put
        underlying := .number (real 100)
        strike := .number (real 100)
        dividendYield := .number (real 0)
        riskFreeRate := .number (real (-1000))
        residualTime := .number (real 1)
        volatility := .number (real 0.2)
        antithetic := .figure (.truth true)
        seed := 42
        timeSteps := real 1
        batchSize := 50000
        workers := 1 }
    ∃ m p, t.model.result = .ok m ∧ m.pricer = .european p ∧ Scalar.isFinite p.underlying = true ∧
      Scalar.isFinite p.strike = true ∧ Scalar.isFinite p.discount = false ∧
      ∀ logReturn reflected, Scalar.isFinite (p.worth logReturn reflected) = false := by
  -- the exponential is taken for the factor only, and the rest is settled without it
  have hspot : ¬(real 100 : Exact) ≤ 0 := not_real_le_zero.mpr (by norm_num)
  have hstrike : ¬(real 100 : Exact) < 0 := not_real_lt_zero.mpr (by norm_num)
  have htime : ¬(real 1 : Exact) ≤ 0 := not_real_le_zero.mpr one_pos
  have hvolatility : ¬(real 0.2 : Exact) ≤ 0 := not_real_le_zero.mpr (by norm_num)
  have hvariance : ¬(real 0.2 * real 0.2 : Exact) < 0 := by
    rw [real_mul]
    exact not_real_lt_zero.mpr (mul_self_nonneg _)
  have hsteps : ¬(real 1 : Exact) < 1 := fun hless => lt_irrefl (1 : ℝ) hless
  have hoverflows : rangedExp (-real (-1000) * real 1) = above := by
    norm_num [rangedExp]
  have hdiscount : ¬(above : Exact) ≤ 0 := by
    rintro (hless | ⟨hequal, -⟩)
    · exact hless
    · cases hequal
  let scalar := Exact.withExp rangedExp
  intro t
  let i : SimulationFigures Exact := ⟨real 0, real (-1000), real 1, real 0.2⟩
  let p : EuropeanPricer Exact := ⟨.put, real 100, real 100, above, true⟩
  have hfigures : i.IsChecked :=
    ⟨rfl, rfl, ⟨rfl, htime⟩, ⟨rfl, hvolatility⟩, rfl, rfl, hvariance⟩
  have haccepts : ∃ m, t.Accepts i p m :=
    ⟨_, rfl, rfl, rfl, rfl, hfigures, rfl, rfl, rfl, hoverflows.symm, rfl, ⟨hspot, hstrike, hdiscount⟩,
      hsteps, by decide, by decide, by decide, rfl⟩
  obtain ⟨m, h⟩ := haccepts
  exact ⟨m, p, model_eq_ok.mpr ⟨i, p, h⟩, h.pricer_eq, rfl, rfl, rfl, p.not_isFinite_worth rangedExp rfl⟩

end SimulationTerms

end OptionDesk
