import OptionDesk.Engine.Analytic
import OptionDesk.MonteCarlo.Sampler
import OptionDesk.MonteCarlo.Settings

/-!
# Pricing by simulation

The same terms as the closed formula, priced by a fresh sampling model on every calculation, so that
unchanged terms give unchanged results. Only a value and its standard error are produced.
-/

namespace OptionDesk

variable {α : Type} [Scalar α] [NormalSource α]

namespace Terms

/-- What the terms say to a simulation: zero yields to maturity and the volatility at the strike. -/
def simulation (t : Terms α) (s : Settings α) : Outcome α (SimulationTerms α) := do
  let underlying ← .ofMisuse t.underlying.read
  let strike ← .ofMisuse t.strike.read
  let riskFree ← t.riskFreeCurve.asCurve
  let dividend ← t.dividendCurve.asCurve
  let volSurface ← t.volSurface.asVolatility
  let dividendYield ← dividend.zeroYield t.maturity
  let riskFreeRate ← riskFree.zeroYield t.maturity
  let residualTime ← t.maturityTime
  let volatility ← volSurface.levelAt t.maturity (.number strike)
  return {
    optionType := t.optionType
    underlying := .number underlying
    strike := .number strike
    dividendYield := .number dividendYield
    riskFreeRate := .number riskFreeRate
    residualTime := .number residualTime
    volatility := .number volatility
    antithetic := .figure (.truth s.antithetic)
    seed := s.seed
    timeSteps := (s.timeSteps : α)
    batchSize := s.batchSize
    workers := s.workers }

end Terms

namespace Settings

/-- Sample until the stopping rule is met. -/
def run (s : Settings α) : Session (SamplingModel α) α α :=
  match s.samples, s.tolerance with
  | some n, _ => SamplingModel.valueWithSamples n
  | none, some tolerance => SamplingModel.value (.number tolerance) s.maxSamples
  | none, none => .fail (.setting .stoppingRule)

/-- Report a notice after a session, also when it has failed. -/
def closing {σ β : Type} (notice : Notice α) (x : Session σ α β) : Session σ α β := fun s =>
  let (o, s) := x s
  (⟨o.result, o.notices ++ [notice]⟩, s)

/-- Log the error relative to the value, as a warning when it is above the limit. -/
def reportError (s : Settings α) (value error : α) (samples : Nat) : Outcome α Unit :=
  match s.warnRatio with
  | none => pure ()
  | some limit => do
    let ratio := error / max (Scalar.abs value) 1.0e-12
    .report (.record (.standardError error ratio samples))
    if limit < ratio then
      Outcome.report (.record (.standardErrorHigh error ratio limit samples))

omit [NormalSource α] in
theorem result_reportError (s : Settings α) (value error : α) (samples : Nat) :
    (s.reportError value error samples).result = .ok () := by
  unfold reportError
  split
  · rfl
  · rw [Outcome.result_bind_of_ok (Outcome.result_report _)]
    split <;> rfl

/-- Value and standard error by the stopping rule, with the log of the run. -/
def sample (s : Settings α) : Session (SamplingModel α) α (α × α) := do
  let value ← if s.logTimings then closing (.record .timing) s.run else s.run
  let error ← SamplingModel.errorEstimate
  let m ← .get
  .lift <| s.reportError value error m.statistics.count
  return (value, error)

end Settings

namespace Terms

/-- Price checked terms of a European option by simulation. -/
def priceBySimulation (t : Terms α) (s : Settings α) : Outcome α (Results α) := do
  t.validate
  let exercise ← t.exercise
  .require (exercise = .european) (.engine (.exerciseNotEuropean .monteCarlo exercise))
  let terms ← t.simulation s
  let m ← terms.model
  let (value, error) ← (s.sample.run m).1
  return { Results.blank with value := .number value, errorEstimate := .number error }

end Terms

end OptionDesk
