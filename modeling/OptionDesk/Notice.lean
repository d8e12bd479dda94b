import OptionDesk.Error

/-!
# Notices

What an evaluation reports beside its result, in the order in which it happened: warnings about the
data, and records of the course of a calculation.
-/

namespace OptionDesk

inductive Warning (α : Type)
  /-- Some discount factor is above one, so a rate is negative. -/
  | factorAboveOne
  /-- A discount factor was asked for outside the range of the nodes. -/
  | extrapolated (first last : α)

inductive LogLevel
  | debug
  | warning
deriving DecidableEq

inductive LogRecord (α : Type)
  | analyticPriced (kind : OptionType) (spot strike time volatility value : α)
  | samplesAdded (samples : Int) (batches total : Nat)
  | standardError (error ratio : α) (samples : Nat)
  | standardErrorHigh (error ratio limit : α) (samples : Nat)
  | timing
  | forwardPriced (style : ForwardStyle) (reset : DateTime) (moneyness value : α)

inductive Notice (α : Type)
  | warning (w : Warning α)
  | record (r : LogRecord α)

def LogRecord.level {α : Type} : LogRecord α → LogLevel
  | standardErrorHigh _ _ _ _ => .warning
  | _ => .debug

end OptionDesk
