import OptionDesk.MonteCarlo.Model

/-!
# European options by simulation

The log-price drifts at the risk-free rate less the dividend yield less half the squared volatility,
and payoffs are discounted at the risk-free rate. The estimate may be asked for at a number of
samples, which can only grow, or at a tolerance on the standard error, bounded by a number of
samples. A table shows how the estimate converges.
-/

namespace OptionDesk

variable {α : Type} [Scalar α] [NormalSource α]

/-- What a simulated European option is specified by. -/
structure SimulationTerms (α : Type) where
  optionType : Value α
  underlying : Value α
  strike : Value α
  dividendYield : Value α
  riskFreeRate : Value α
  residualTime : Value α
  volatility : Value α
  antithetic : Value α
  seed : Int
  timeSteps : α
  batchSize : Int
  workers : Int

namespace SimulationTerms

/-- The sampling model of an option, all of whose inputs are checked. -/
def model (t : SimulationTerms α) : Outcome α (SamplingModel α) := do
  let time ← .ofMisuse t.residualTime.operand
  .require (Scalar.isFinite time ∧ ¬time ≤ 0) (.simulation (.invalidResidualTime t.residualTime))
  let volatility ← .ofMisuse t.volatility.operand
  .require (Scalar.isFinite volatility ∧ ¬volatility ≤ 0)
    (.simulation (.invalidVolatility t.volatility))
  let dividend ← .ofMisuse t.dividendYield.operand
  .require (Scalar.isFinite dividend) (.simulation .ratesNotFinite)
  let rate ← .ofMisuse t.riskFreeRate.operand
  .require (Scalar.isFinite rate) (.simulation .ratesNotFinite)
  let drift := rate - dividend - 0.5 * volatility * volatility
  let generator ← PathGenerator.build (.number drift) (.number (volatility * volatility))
    (.number time) t.timeSteps t.seed
  let pricer ← EuropeanPricer.build t.optionType t.underlying t.strike
    (.number (Scalar.exp (-rate * time))) t.antithetic
  SamplingModel.build generator (.european pricer) .empty t.batchSize t.workers

end SimulationTerms

namespace SamplingModel

/-- Samples that are drawn before the error is looked at, and least number in a further round. -/
def leastRound : Int := 1023

def mean : Session (SamplingModel α) α α := fun m => (.ofStatistics m.statistics.mean?, m)

def errorEstimate : Session (SamplingModel α) α α := fun m =>
  (.ofStatistics m.statistics.errorEstimate?, m)

/-- The estimate from exactly so many samples in all. -/
def valueWithSamples (samples : Int) : Session (SamplingModel α) α α := do
  let m ← .get
  let drawn := m.statistics.count
  .lift <| .require (¬samples < drawn) (.simulation (.fewerThanDrawn samples drawn))
  if drawn < samples then addSamples (samples - drawn)
  mean

/-- Size of the next round toward a tolerance. The error falls with the square root of the number
of samples; the round aims a little short of the number that this suggests. -/
def nextRound (maxSamples : Int) (tolerance error : α) (drawn : Nat) : Outcome α Int := do
  let order := Scalar.square (error / tolerance)
  let suggested := (drawn : α) * order * 0.8 - (drawn : α)
  .require (Scalar.isFinite suggested) (.misuse .overflow)
  let round := min (max (Scalar.trunc suggested) leastRound) (maxSamples - drawn)
  .require (¬round ≤ 0) (.simulation (.notConverged maxSamples error tolerance))
  return round

/-- Rounds until the error is within the tolerance. Every round draws a sample at least, so there
are no more of them than samples left to draw. -/
def refine (maxSamples : Int) (tolerance : α) : Nat → Session (SamplingModel α) α Unit
  | 0 => do
    let error ← errorEstimate
    .fail (.simulation (.notConverged maxSamples error tolerance))
  | fuel + 1 => do
    let error ← errorEstimate
    if tolerance < error then
      let m ← .get
      let round ← .lift <| nextRound maxSamples tolerance error m.statistics.count
      addSamples round
      refine maxSamples tolerance fuel

/-- The estimate with a standard error within a tolerance. -/
def value (tolerance : Value α) (maxSamples : Int) : Session (SamplingModel α) α α := do
  let limit ← .lift <| .ofMisuse tolerance.operand
  .lift <| .require (¬limit ≤ 0) (.simulation (.toleranceNotPositive tolerance))
  .lift <| .require (¬maxSamples < 2) (.simulation (.maxSamplesBelowTwo maxSamples))
  let m ← .get
  let initial := min leastRound maxSamples
  if (m.statistics.count : Int) < initial then addSamples (initial - m.statistics.count)
  let m ← .get
  refine maxSamples limit ((maxSamples - m.statistics.count).toNat + 1)
  mean

/-- A row of a convergence table. -/
structure ConvergenceRow (α : Type) where
  samples : Int
  value : α
  error : α

/-- Estimates at increasing numbers of samples. -/
def convergenceRows : List Int → Session (SamplingModel α) α (List (ConvergenceRow α))
  | [] => return []
  | n :: rest => do
    let value ← valueWithSamples n
    let error ← errorEstimate
    return ⟨n, value, error⟩ :: (← convergenceRows rest)

/-- Estimates at the given numbers of samples, each once and in increasing order. -/
def convergenceTable (counts : List Int) : Session (SamplingModel α) α (List (ConvergenceRow α)) :=
  convergenceRows (counts.eraseDups.mergeSort (· ≤ ·))

end SamplingModel

end OptionDesk
