import OptionDesk.Value

/-!
# Errors

Every way in which a request can be refused, as a cause. Causes are grouped by the part of the
domain that finds them, and each has a kind; the wording is kept apart in `Error/Message`.
-/

namespace OptionDesk

/-- The form of the terms of an option: whose strike is given, or fixed at a later date. Engines
may also be built for terms of another kind. -/
inductive TermForm
  | plain
  | forward
  | other
deriving DecidableEq

inductive ResultForm
  | plain
  | other
deriving DecidableEq

/-- What a decorated price is expressed in: an amount, or a share of the underlying. -/
inductive ForwardStyle
  | amount
  | performance
deriving DecidableEq

inductive EngineClass
  | analytic
  | monteCarlo
  | fixed
  | custom (name : String)
  | decorator (style : ForwardStyle)
  | other
deriving DecidableEq

/-- The kind of an error. -/
inductive ErrorKind
  | validation
  | configuration
  | typeMismatch
  | unsupported
  | numerical
  | convergence
  | misuse (m : Misuse)
deriving DecidableEq

inductive CurveError
  | shapeMismatch
  | timesNotIncreasing
  | factorNotPositive
  | flatRateNotFinite
  | flatRateInconsistent
  | notOneDimensional
  | lengthMismatch
  | tooFewTimes
  | startNotZero
  | endNotPositive
  | stepsBelowOne
  | emptyInterval
  | precedesBase
deriving DecidableEq

inductive VolatilityError (α : Type)
  | invalidLevel
  | strikeNotPositive
  | expiryNotPositive
  | negativeQuote
  | noQuotes
  | uncovered (strike expiry : Value α)
  | negativeForwardVariance (variance time : α) (strike : Value α)
  | precedesBase

/-- The figures that an accumulator of samples can be asked for. -/
inductive SampleMeasure
  | samples
  | mean
  | variance
  | standardDeviation
  | errorEstimate
  | least
  | greatest
deriving DecidableEq

inductive StatisticsError (α : Type)
  | nonFiniteSample (x : α)
  | nonFiniteBatch
  | noSamples (wanted : SampleMeasure)
  | fewerThanTwo

inductive PathError
  | driftNotFinite
  | invalidVariance
  | invalidLength
  | stepsBelowOne
  | noPaths
  | negativeSubstream
deriving DecidableEq

inductive MarketField
  | pricingDate
  | spot
  | riskFreeCurve
  | dividendCurve
  | volSurface
  | version
deriving DecidableEq

inductive MarketError
  | pricingDateNotDateTime (got : Shape)
  | spotNotNumeric
  | spotNotPositive
  | notCurve (field : MarketField) (got : Shape)
  | notVolatility (got : Shape)
  | versionGiven
deriving DecidableEq

inductive TermField
  | optionType
  | underlying
  | strike
  | dividendCurve
  | riskFreeCurve
  | volSurface
  | exerciseType
  | stoppingTimes
  | maturity
  | moneyness
  | resetDate
deriving DecidableEq

inductive TermError
  | unknownFields (names : List String)
  | noOptionType
  | notOptionType (got : Shape)
  | notExerciseType (got : Shape)
  | noNumber (field : TermField)
  | notNumeric (field : TermField)
  | notFinite (field : TermField)
  | underlyingNotPositive
  | strikeNegative
  | noCurve (field : TermField)
  | notCurve (field : TermField) (got : Shape)
  | noVolatility
  | notVolatility (got : Shape)
  | noMaturity
  | maturityNotDateTime (got : Shape)
  | maturityNotAfterReference
  | noStoppingTimes (exercise : ExerciseType)
  | moneynessNotPositive
  | noResetDate
  | resetDateNotDateTime (got : Shape)
  | resetTimeNegative
  | resetAfterMaturity
deriving DecidableEq

inductive ResultError
  | unknownFields (names : List String)
  | notNumeric
deriving DecidableEq

inductive SettingError (α : Type)
  | stoppingRule
  | samples (got : Int)
  | tolerance (got : α)
  | maxSamples (got : Int)
  | timeSteps (got : Int)
  | batchSize (got : Int)
  | workers (got : Int)
  | warnRatio (got : α)

inductive SimulationError (α : Type)
  | notOptionType (got : Shape)
  | underlyingNotPositive
  | strikeNegative
  | discountNotPositive
  | batchSizeBelowOne
  | workersBelowOne
  | samplesBelowOne (got : Int)
  | invalidResidualTime (got : Value α)
  | invalidVolatility (got : Value α)
  | ratesNotFinite
  | fewerThanDrawn (samples : Int) (drawn : Nat)
  | toleranceNotPositive (got : Value α)
  | maxSamplesBelowTwo (got : Int)
  | notConverged (maxSamples : Int) (error tolerance : α)

inductive EngineError
  | negativeVariance
  | exerciseNotEuropean (engine : EngineClass) (got : ExerciseType)
  | notSettings (got : Shape)
  | noValue (engine : EngineClass)
  | notEngine (style : ForwardStyle) (got : Shape)
  | wrongTerms (style : ForwardStyle) (got : TermForm)
  | wrongResults (style : ForwardStyle) (got : ResultForm)
deriving DecidableEq

/-- Why a request is refused. -/
inductive PricingError (α : Type)
  | misuse (m : Misuse)
  | dayCount (name : Option String)
  | referenceNotDateTime (got : Shape)
  | curve (e : CurveError)
  | volatility (e : VolatilityError α)
  | statistics (e : StatisticsError α)
  | path (e : PathError)
  | market (e : MarketError)
  | terms (form : TermForm) (e : TermError)
  | results (e : ResultError)
  | setting (e : SettingError α)
  | simulation (e : SimulationError α)
  | engine (e : EngineError)

def TermError.kind : TermError → ErrorKind
  | unknownFields _ | notOptionType _ | notExerciseType _ | notNumeric _ | notCurve _ _
  | notVolatility _ | maturityNotDateTime _ | resetDateNotDateTime _ => .configuration
  | _ => .validation

def SimulationError.kind {α : Type} : SimulationError α → ErrorKind
  | notOptionType _ => .configuration
  | notConverged _ _ _ => .convergence
  | _ => .validation

def EngineError.kind : EngineError → ErrorKind
  | negativeVariance => .validation
  | exerciseNotEuropean _ _ => .unsupported
  | notSettings _ => .configuration
  | noValue _ => .numerical
  | notEngine _ _ | wrongTerms _ _ | wrongResults _ _ => .typeMismatch

def PricingError.kind {α : Type} : PricingError α → ErrorKind
  | misuse m => .misuse m
  | results _ => .configuration
  | terms _ e => e.kind
  | simulation e => e.kind
  | engine e => e.kind
  | _ => .validation

end OptionDesk
