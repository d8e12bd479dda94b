import OptionDesk.Decimal.Layout
import OptionDesk.Statistics

/-!
# Summaries of samples in words

The names of the figures that an accumulator can be asked for, and its description on one line.
-/

namespace OptionDesk

def SampleMeasure.name : SampleMeasure → String
  | samples => "samples"
  | mean => "mean"
  | variance => "variance"
  | standardDeviation => "standard_deviation"
  | errorEstimate => "error_estimate"
  | least => "min"
  | greatest => "max"

/-- All figures of an accumulator, in order. -/
def SampleMeasure.all : List SampleMeasure :=
  [samples, mean, variance, standardDeviation, errorEstimate, least, greatest]

def Accumulator.description (s : Accumulator Float) : String :=
  "Statistics(samples=" ++ toString s.count ++ ", mean=" ++ Decimal.toGeneral 6 s.mean ++ ")"

end OptionDesk
