import OptionDesk.Calendar.Iso
import OptionDesk.Decimal.Layout
import OptionDesk.Market
import OptionDesk.Notice
import OptionDesk.Results
import OptionDesk.Statistics.Summary
import OptionDesk.Terms

/-!
# Wording

The text of every error that has one, of warnings and of log records. Numbers are written in their
shortest form where the text repeats an input, and with a few digits where it reports a computed
figure.
-/

namespace OptionDesk

open Decimal

/-- The name under which a kind of value is reported. -/
def Shape.name : Shape → String
  | null => "NoneType"
  | truth => "bool"
  | number => "float"
  | text => "str"
  | list => "tuple"
  | dateTime => "datetime"
  | day => "date"
  | optionType => "OptionType"
  | exerciseType => "ExerciseType"
  | discountCurve => "DiscountCurve"
  | impliedCurve => "ImpliedTermStructure"
  | constantVolatility => "BlackConstantVol"
  | volatilitySurface => "VolatilitySurface"
  | impliedVolatility => "ImpliedVolTermStructure"

def TermForm.name : TermForm → String
  | plain => "PlainOptionArguments"
  | forward => "ForwardOptionArguments"
  | other => "OtherArguments"

def ResultForm.name : ResultForm → String
  | plain => "PlainOptionResults"
  | other => "OtherResults"

def ForwardStyle.name : ForwardStyle → String
  | amount => "ForwardEngine"
  | performance => "ForwardPerformanceEngine"

def EngineClass.name : EngineClass → String
  | analytic => "AnalyticEuropeanEngine"
  | monteCarlo => "MCEuropeanEngine"
  | fixed => "StubPlainEngine"
  | custom name => name
  | decorator style => style.name
  | other => "OtherEngine"

/-- An input as a message repeats it. -/
def Value.echo : Value Float → String
  | null => "None"
  | figure (.number x) => toShortest x
  | figure (.whole n) => toString n
  | figure (.truth b) => if b then "True" else "False"
  | figure (.text s) => s
  | dateTime t => t.toText " "
  | day d => d.toIso
  | optionType k => "OptionType." ++ k.name
  | exercise e => "ExerciseType." ++ e.name
  | list items => "(" ++ echoItems items ++ ")"
  | v => v.shape.name
where
  echoItems : List (Value Float) → String
    | [] => ""
    | [v] => v.echo ++ ","
    | [v, w] => v.echo ++ ", " ++ w.echo
    | v :: rest => v.echo ++ ", " ++ echoItems rest

def CurveError.message : CurveError → String
  | shapeMismatch => "times and dfs must be 1D arrays of the same length"
  | timesNotIncreasing => "times must be strictly increasing"
  | factorNotPositive => "discount factors must be positive"
  | flatRateNotFinite => "flat_rate must be finite when provided"
  | flatRateInconsistent =>
    "flat_rate is only allowed when consistent with the provided discount factors"
  | notOneDimensional => "times and zero_rates must be 1-D arrays"
  | lengthMismatch => "times and zero_rates must have the same length"
  | tooFewTimes => "times must include at least [0, T]"
  | startNotZero => "times must start at 0.0"
  | endNotPositive => "end_time must be positive"
  | stepsBelowOne => "steps must be >= 1"
  | emptyInterval => "Need end > start"
  | precedesBase =>
    "implied reference_date must not precede the original curve's reference date"

def VolatilityError.message : VolatilityError Float → String
  | invalidLevel => "volatility must be finite and non-negative"
  | strikeNotPositive => "strike must be positive"
  | expiryNotPositive => "expiry must be positive"
  | negativeQuote => "implied_volatility must be non-negative"
  | noQuotes => "quotes list cannot be empty"
  | uncovered strike expiry =>
    "No volatility available for strike=" ++ strike.echo ++ ", expiry=" ++ expiry.echo
  | negativeForwardVariance variance time strike =>
    "negative forward variance " ++ toGeneral 6 variance ++ " implied at t=" ++ toGeneral 6 time
      ++ ", strike=" ++ strike.echo
  | precedesBase =>
    "implied reference_date must not precede the original surface's reference date"

def StatisticsError.message : StatisticsError Float → String
  | nonFiniteSample x => "cannot accumulate non-finite sample " ++ toShortest x
  | nonFiniteBatch => "cannot accumulate non-finite samples"
  | noSamples wanted => wanted.name ++ " undefined: no samples accumulated"
  | fewerThanTwo => "variance undefined: fewer than two samples accumulated"

def PathError.message : PathError → String
  | driftNotFinite => "drift must be finite"
  | invalidVariance => "variance must be finite and non-negative"
  | invalidLength => "length must be positive and finite"
  | stepsBelowOne => "time_steps must be >= 1"
  | noPaths => "n_paths must be >= 1"
  | negativeSubstream => "substream index must be >= 0"

def MarketError.message : MarketError → String
  | pricingDateNotDateTime got => "pricing_date must be a datetime, got " ++ got.name
  | spotNotNumeric => "spot must be numeric"
  | spotNotPositive => "spot must be finite and positive"
  | notCurve field got => field.name ++ " must be a YieldTermStructure, got " ++ got.name
  | notVolatility got => "vol_surface must be a BlackVolTermStructure, got " ++ got.name
  | versionGiven => "version is assigned by bump() and cannot be overridden"

/-- A complaint about a field, which names the owner of the field. -/
def TermForm.about (form : TermForm) (field : TermField) (complaint : String) : String :=
  form.name ++ "." ++ field.name ++ ": " ++ complaint

def TermError.message (form : TermForm) : TermError → String
  | unknownFields names => form.name ++ " has no field(s) " ++ ", ".intercalate names
  | noOptionType => form.about .optionType "null option type given"
  | notOptionType got => "option_type must be OptionType enum, got " ++ got.name
  | notExerciseType got => "exercise_type must be ExerciseType enum, got " ++ got.name
  | noNumber field => form.about field ("null " ++ field.name ++ " given")
  | notNumeric field => form.name ++ "." ++ field.name ++ " must be numeric"
  | notFinite field => form.about field ("non-finite " ++ field.name ++ " given")
  | underlyingNotPositive => form.about .underlying "negative or zero underlying given"
  | strikeNegative => form.about .strike "negative strike given"
  | noCurve field => form.about field "null term structure given"
  | notCurve field got => field.name ++ " must be a YieldTermStructure, got " ++ got.name
  | noVolatility => form.about .volSurface "null volatility surface given"
  | notVolatility got => "vol_surface must be a BlackVolTermStructure, got " ++ got.name
  | noMaturity => form.about .maturity "null maturity given"
  | maturityNotDateTime got => "maturity must be a datetime, got " ++ got.name
  | maturityNotAfterReference => form.about .maturity "maturity not after the reference date"
  | noStoppingTimes exercise =>
    form.about .stoppingTimes (exercise.name ++ " exercise needs stopping times")
  | moneynessNotPositive => form.about .moneyness "negative or zero moneyness given"
  | noResetDate => form.about .resetDate "null reset date given"
  | resetDateNotDateTime got => "reset_date must be a datetime, got " ++ got.name
  | resetTimeNegative => form.about .resetDate "negative reset time given"
  | resetAfterMaturity => form.about .resetDate "reset time greater than maturity"

def ResultError.message : ResultError → String
  | unknownFields names =>
    ResultForm.plain.name ++ " has no field(s) " ++ ", ".intercalate names
  | notNumeric => ResultForm.plain.name ++ " values must be numeric"

def SettingError.message : SettingError Float → String
  | stoppingRule => "Exactly one of samples and tolerance must be set"
  | samples got => "samples must be >= 2, got " ++ toString got
  | tolerance got => "tolerance must be positive, got " ++ toShortest got
  | maxSamples got => "max_samples must be >= 2, got " ++ toString got
  | timeSteps got => "time_steps must be >= 1, got " ++ toString got
  | batchSize got => "batch_size must be >= 1, got " ++ toString got
  | workers got => "workers must be >= 1, got " ++ toString got
  | warnRatio got => "std_error_warn_ratio must be positive, got " ++ toShortest got

def SimulationError.message : SimulationError Float → String
  | notOptionType got => "option_type must be OptionType enum, got " ++ got.name
  | underlyingNotPositive => "underlying must be positive"
  | strikeNegative => "strike must be >= 0"
  | discountNotPositive => "discount must be positive"
  | batchSizeBelowOne => "batch_size must be >= 1"
  | workersBelowOne => "workers must be >= 1"
  | samplesBelowOne got => "samples must be >= 1, got " ++ toString got
  | invalidResidualTime got => "residual_time must be positive and finite, got " ++ got.echo
  | invalidVolatility got => "volatility must be positive and finite, got " ++ got.echo
  | ratesNotFinite => "dividend_yield and risk_free_rate must be finite"
  | fewerThanDrawn samples drawn =>
    toString samples ++ " samples requested but " ++ toString drawn
      ++ " already drawn; the sample count cannot decrease"
  | toleranceNotPositive got => "tolerance must be positive, got " ++ got.echo
  | maxSamplesBelowTwo got => "max_samples must be >= 2, got " ++ toString got
  | notConverged maxSamples error tolerance =>
    "max number of samples (" ++ toString maxSamples ++ ") reached with error estimate "
      ++ toGeneral 6 error ++ " > tolerance " ++ toGeneral 6 tolerance

def EngineError.message : EngineError → String
  | negativeVariance => "negative Black variance to maturity"
  | exerciseNotEuropean engine got =>
    engine.name ++ " only prices European exercise; got " ++ got.name
  | notSettings got => "MCEuropeanEngine requires MonteCarloParams, got " ++ got.name
  | noValue engine => engine.name ++ " did not produce a value"
  | notEngine style got => style.name ++ ": null engine or wrong engine type (" ++ got.name ++ ")"
  | wrongTerms style got =>
    style.name ++ ": wrapped engine arguments must be " ++ TermForm.plain.name ++ ", got "
      ++ got.name
  | wrongResults style got =>
    style.name ++ ": wrapped engine results must be " ++ ResultForm.plain.name ++ ", got "
      ++ got.name

/-- The text of an error; misuse of a value has none. -/
def PricingError.message? : PricingError Float → Option String
  | misuse _ => none
  | dayCount name => some ("Unsupported day_count_convention: " ++ name.getD "None")
  | referenceNotDateTime got => some ("reference_date must be a datetime, got " ++ got.name)
  | curve e => some e.message
  | volatility e => some e.message
  | statistics e => some e.message
  | path e => some e.message
  | market e => some e.message
  | terms form e => some (e.message form)
  | results e => some e.message
  | setting e => some e.message
  | simulation e => some e.message
  | engine e => some e.message

def Warning.message : Warning Float → String
  | factorAboveOne => "Discount factors > 1 detected (negative rates)"
  | extrapolated first last =>
    "Extrapolating discount curve outside [" ++ toFixed 4 first ++ ", " ++ toFixed 4 last
      ++ "] - flat log-DF assumed"

def LogLevel.name : LogLevel → String
  | debug => "DEBUG"
  | warning => "WARNING"

def LogRecord.message : LogRecord Float → String
  | analyticPriced kind spot strike time volatility value =>
    "BSM " ++ kind.name ++ " S=" ++ toGeneral 6 spot ++ " K=" ++ toGeneral 6 strike ++ " T="
      ++ toGeneral 6 time ++ " vol=" ++ toGeneral 6 volatility ++ " value=" ++ toGeneral 6 value
  | samplesAdded samples batches total =>
    "MC added samples=" ++ toString samples ++ " batches=" ++ toString batches ++ " total="
      ++ toString total
  | standardError error ratio samples =>
    "MC European std_error=" ++ toGeneral 6 error ++ " ratio=" ++ toGeneral 6 ratio
      ++ " samples=" ++ toString samples
  | standardErrorHigh error ratio limit samples =>
    "MC European standard error high: std_error=" ++ toGeneral 6 error ++ " ratio="
      ++ toGeneral 6 ratio ++ " (>" ++ toGeneral 3 limit ++ ") samples=" ++ toString samples
  | timing => "Timing MC European calculate: #"
  | forwardPriced style reset moneyness value =>
    style.name ++ " reset=" ++ reset.toText " " ++ " moneyness=" ++ toGeneral 6 moneyness
      ++ " value=" ++ toGeneral 6 value

/-- A log record as a line, with its level in front. -/
def LogRecord.line (r : LogRecord Float) : String := r.level.name ++ " " ++ r.message

end OptionDesk
