import OptionDesk.Proofs.Sampling.Paths

/-!
# The sampling model of a European option

A sampling model is built from terms whose numbers are real exactly when the volatility is positive and
the settings of the simulation are in range. What is built is then known in full: the process of the
log-price, the factor that payoffs are discounted by, and a model that has drawn nothing.
-/
namespace OptionDesk

open Exact

/-- The numbers that a simulation is specified by. -/
structure SimulationInputs where
  spot : ℝ
  strike : ℝ
  dividendYield : ℝ
  riskFreeRate : ℝ
  time : ℝ
  volatility : ℝ
  spot_pos : 0 < spot
  strike_nonneg : 0 ≤ strike
  time_pos : 0 < time

namespace SimulationInputs

noncomputable section

variable (i : SimulationInputs)

/-- The process of the log-price, in any number of steps. -/
def process (timeSteps : ℕ) : RealProcess where
  drift := i.riskFreeRate - i.dividendYield - 0.5 * i.volatility * i.volatility
  variance := i.volatility * i.volatility
  length := i.time
  timeSteps := timeSteps
  variance_nonneg := mul_self_nonneg _
  length_pos := i.time_pos

/-- What payoffs are discounted by. -/
def discount : ℝ := Real.exp (-i.riskFreeRate * i.time)

def pricer (kind : OptionType) (antithetic : Bool) : EuropeanPricer Exact :=
  ⟨kind, real i.spot, real i.strike, real i.discount, antithetic⟩

/-- The same simulation at another strike. -/
def struck (strike : ℝ) (h : 0 ≤ strike) : SimulationInputs :=
  { i with strike, strike_nonneg := h }

end

theorem discount_pos (i : SimulationInputs) : 0 < i.discount := Real.exp_pos _

end SimulationInputs

namespace Exact

/-- Finite and positive, for a real number. -/
theorem positive_iff (x : ℝ) : (Scalar.isFinite (real x) = true ∧ ¬real x ≤ 0) ↔ 0 < x := by
  rw [not_real_le_zero]
  exact and_iff_right rfl

theorem positive_of_pos {x : ℝ} (h : 0 < x) : Scalar.isFinite (real x) = true ∧ ¬real x ≤ 0 :=
  (positive_iff x).mpr h

end Exact

/-- Of a process in real numbers only the number of steps is looked at. -/
theorem RealProcess.build_eq (p : RealProcess) (timeSteps : Exact)
    (h : p.timeSteps = (Scalar.trunc timeSteps).toNat) :
    PathProcess.build (.number (real p.drift)) (.number (real p.variance)) (.number (real p.length))
      timeSteps = Outcome.require (¬timeSteps < 1) (.path .stepsBelowOne) >>= fun _ => pure p.exact := by
  have hvariance : Scalar.isFinite (real p.variance) = true ∧ ¬real p.variance < 0 :=
    ⟨rfl, not_real_lt_zero.mpr p.variance_nonneg⟩
  rw [PathProcess.build]
  simp only [Value.operand_number, Outcome.ofMisuse_ok, pure_bind, Outcome.require_of (isFinite_real _),
    Outcome.require_of hvariance, Outcome.require_of (positive_of_pos p.length_pos), exact, h]

namespace EuropeanPricer

variable {kind : OptionType} {underlying strike : Value Exact}

/-- Only the numbers matter. -/
theorem build_congr {S K : Exact} (hunderlying : underlying.operand = .ok S)
    (hstrike : strike.operand = .ok K) (discount antithetic : Value Exact) :
    build (.optionType kind) underlying strike discount antithetic =
      build (.optionType kind) (.number S) (.number K) discount antithetic := by
  simp only [build, hunderlying, hstrike, Value.operand_number]

theorem prices_of_build {type discount antithetic : Value Exact} {spot level : ℝ}
    {p : EuropeanPricer Exact} (hspot : underlying.operand = .ok (real spot))
    (hstrike : strike.operand = .ok (real level))
    (h : (build type underlying strike discount antithetic).result = .ok p) :
    ∃ kind, type = .optionType kind ∧ 0 < spot ∧ 0 ≤ level := by
  unfold build at h
  split at h
  · next kind =>
    simp only [hspot, hstrike, Outcome.ofMisuse_ok, pure_bind, Outcome.result_bind_eq_ok,
      Outcome.result_require_eq_ok, exists_const, zero_eq, real_le, real_lt, not_le, not_lt] at h
    exact ⟨kind, rfl, h.1, h.2.1⟩
  · cases h

end EuropeanPricer

theorem SimulationInputs.build_pricer (i : SimulationInputs) (kind : OptionType)
    (antithetic : Value Exact) :
    EuropeanPricer.build (.optionType kind) (.number (real i.spot)) (.number (real i.strike))
      (.number (real i.discount)) antithetic = pure (i.pricer kind antithetic.isSet) := by
  have hstrike : ¬real i.strike < 0 := not_real_lt_zero.mpr i.strike_nonneg
  rw [EuropeanPricer.build]
  simp only [Value.operand_number, Outcome.ofMisuse_ok, pure_bind,
    Outcome.require_of (positive_of_pos i.spot_pos).2, Outcome.require_of hstrike,
    Outcome.require_of (positive_of_pos i.discount_pos).2]
  rfl

namespace SimulationTerms

variable {t : SimulationTerms Exact} {kind : OptionType} {i : SimulationInputs}

/-- The terms give these numbers where they are calculated with. -/
structure Gives (t : SimulationTerms Exact) (kind : OptionType) (i : SimulationInputs) : Prop where
  optionType : t.optionType = .optionType kind
  underlying : t.underlying.operand = .ok (real i.spot)
  strike : t.strike.operand = .ok (real i.strike)
  dividendYield : t.dividendYield.operand = .ok (real i.dividendYield)
  riskFreeRate : t.riskFreeRate.operand = .ok (real i.riskFreeRate)
  residualTime : t.residualTime.operand = .ok (real i.time)
  volatility : t.volatility.operand = .ok (real i.volatility)

/-- The conditions that remain. -/
structure Passes (t : SimulationTerms Exact) (i : SimulationInputs) : Prop where
  volatility : 0 < i.volatility
  timeSteps : ¬t.timeSteps < 1
  seed : 0 ≤ t.seed
  batchSize : 1 ≤ t.batchSize
  workers : 1 ≤ t.workers

section Models

variable [NormalSource Exact]

/-- The model of these numbers, before it has drawn. -/
noncomputable def fresh (t : SimulationTerms Exact) (kind : OptionType) (i : SimulationInputs) :
    SamplingModel Exact where
  generator := .ofSeed (i.process (Scalar.trunc t.timeSteps).toNat).exact (.root t.seed.toNat)
  pricer := .european (i.pricer kind t.antithetic.isSet)
  statistics := .empty
  batchSize := t.batchSize.toNat
  batchesDrawn := 0

theorem Gives.model_eq_ok (h : t.Gives kind i) {m : SamplingModel Exact} :
    t.model.result = .ok m ↔ t.Passes i ∧ m = t.fresh kind i := by
  have hprocess := (i.process (Scalar.trunc t.timeSteps).toNat).build_eq t.timeSteps rfl
  have hpricer := i.build_pricer kind t.antithetic
  simp only [RealProcess.exact, SimulationInputs.process] at hprocess
  rw [SimulationInputs.discount] at hpricer
  unfold model PathGenerator.build SamplingModel.build
  rw [h.optionType, h.dividendYield, h.riskFreeRate, h.residualTime, h.volatility]
  simp only [Outcome.ofMisuse_ok, pure_bind, Outcome.require_of (isFinite_real _), real_neg, real_mul,
    real_exp, real_sub, ofScientific_eq, hprocess, EuropeanPricer.build_congr h.underlying h.strike,
    hpricer, bind_assoc, Outcome.result_bind_eq_ok, Outcome.result_require_eq_ok, exists_const,
    positive_iff, not_lt]
  constructor
  · rintro ⟨-, hvolatility, hsteps, hseed, hbatch, hworkers, hm⟩
    exact ⟨⟨hvolatility, hsteps, hseed, hbatch, hworkers⟩, (Except.ok.inj hm).symm⟩
  · rintro ⟨⟨hvolatility, hsteps, hseed, hbatch, hworkers⟩, rfl⟩
    exact ⟨i.time_pos, hvolatility, hsteps, hseed, hbatch, hworkers, rfl⟩

/-- Terms that a model is built from give real numbers, if the two prices are real. -/
theorem exists_gives {m : SamplingModel Exact} {spot strike : ℝ}
    (hspot : t.underlying.operand = .ok (real spot)) (hstrike : t.strike.operand = .ok (real strike))
    (h : t.model.result = .ok m) :
    ∃ kind i, t.Gives kind i ∧ i.spot = spot ∧ i.strike = strike := by
  obtain ⟨time, htime, h⟩ := Outcome.result_bind_eq_ok.mp h
  obtain ⟨_, hpositive, h⟩ := Outcome.result_bind_eq_ok.mp h
  obtain ⟨volatility, hvolatility, h⟩ := Outcome.result_bind_eq_ok.mp h
  obtain ⟨_, hlevel, h⟩ := Outcome.result_bind_eq_ok.mp h
  obtain ⟨dividend, hdividend, h⟩ := Outcome.result_bind_eq_ok.mp h
  obtain ⟨_, hyield, h⟩ := Outcome.result_bind_eq_ok.mp h
  obtain ⟨rate, hrate, h⟩ := Outcome.result_bind_eq_ok.mp h
  obtain ⟨_, hriskFree, h⟩ := Outcome.result_bind_eq_ok.mp h
  obtain ⟨_, -, h⟩ := Outcome.result_bind_eq_ok.mp h
  obtain ⟨_, hpricer, -⟩ := Outcome.result_bind_eq_ok.mp h
  rw [Outcome.result_require_eq_ok] at hpositive hlevel hyield hriskFree
  obtain ⟨T, rfl⟩ := isFinite_iff.mp hpositive.1
  obtain ⟨σ, rfl⟩ := isFinite_iff.mp hlevel.1
  obtain ⟨q, rfl⟩ := isFinite_iff.mp hyield
  obtain ⟨r, rfl⟩ := isFinite_iff.mp hriskFree
  obtain ⟨kind, hkind, hspotpos, hstrikenonneg⟩ := EuropeanPricer.prices_of_build hspot hstrike hpricer
  refine ⟨kind, ⟨spot, strike, q, r, T, σ, hspotpos, hstrikenonneg, (positive_iff T).mp hpositive⟩,
    ⟨hkind, hspot, hstrike, ?_, ?_, ?_, ?_⟩, rfl, rfl⟩
  all_goals exact Outcome.result_ofMisuse_eq_ok.mp (by assumption)

end Models

end SimulationTerms

end OptionDesk
