import OptionDesk.Calendar
import OptionDesk.DayCount
import OptionDesk.Error.Misuse
import OptionDesk.Scalar

/-!
# Volatility structures

Black volatility is constant, or interpolated between quotes at strikes and expiries, or implied:
the forward variance of another structure seen from a reference date that is not earlier.

Interpolation between quotes that lie anywhere in the plane is not part of the library. A surface
carries the rules that it has been given for it, one for each method.
-/

namespace OptionDesk

/-- A quoted volatility at a strike and an expiry in years. -/
structure Quote (α : Type) where
  strike : α
  expiry : α
  volatility : α

/-- How a surface fills the space between its quotes. -/
inductive SurfaceMethod
  | linear
  | nearest
  | cubic
  | unknown (name : String)
deriving DecidableEq

/-- How to find a volatility between scattered quotes; there may be none at a point. -/
abbrev ScatteredRule (α : Type) := List (Quote α) → α → α → Except Misuse (Option α)

structure Surface (α : Type) where
  reference : DateTime
  quotes : List (Quote α)
  method : SurfaceMethod
  dayCount : DayCount
  /-- What each method makes of scattered quotes. -/
  rules : SurfaceMethod → ScatteredRule α

/-- The rule of the method that has been chosen. -/
def Surface.rule {α : Type} (s : Surface α) : ScatteredRule α := s.rules s.method

inductive Volatility (α : Type)
  | constant (reference : DateTime) (volatility : α) (dayCount : DayCount)
  | surface (s : Surface α)
  | implied (base : Volatility α) (reference : DateTime)

namespace Volatility

variable {α : Type}

def reference : Volatility α → DateTime
  | constant reference _ _ => reference
  | surface s => s.reference
  | implied _ reference => reference

/-- An implied structure counts days as its base does. -/
def dayCount : Volatility α → DayCount
  | constant _ _ dayCount => dayCount
  | surface s => s.dayCount
  | implied base _ => base.dayCount

end Volatility

namespace SurfaceMethod

def ofName : String → SurfaceMethod
  | "linear" => linear
  | "nearest" => nearest
  | "cubic" => cubic
  | name => unknown name

end SurfaceMethod

end OptionDesk
