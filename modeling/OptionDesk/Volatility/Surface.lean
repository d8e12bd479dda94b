import OptionDesk.Interpolation
import OptionDesk.Outcome
import OptionDesk.Volatility.Basic

/-!
# Queries of a quoted surface

A query is first moved into the quoted range of strikes and of expiries. Quotes at a single strike
form a term structure and quotes at a single expiry a smile; both are interpolated along their one
axis, whatever the method. All others are interpolated in the plane by the rule of the surface, and a
point that the quotes do not cover is an error.
-/

namespace OptionDesk

namespace Surface

variable {α : Type} [Scalar α]

def least (xs : List α) : α := xs.foldl min (xs.headD Scalar.undefined)

def greatest (xs : List α) : α := xs.foldl max (xs.headD Scalar.undefined)

/-- Increasing order, with undefined numbers last. -/
def orderedBefore (x y : α) : Bool := decide (x ≤ y) || Scalar.isNaN y

/-- Is the same number listed all through? -/
def single (xs : List α) : Bool :=
  xs.all (fun x => x == xs.headD Scalar.undefined) || xs.all Scalar.isNaN

def sortedPoints (points : List (Point α)) : List (Point α) :=
  points.mergeSort fun p q => orderedBefore p.x q.x

/-- Increasing list of the distinct numbers. -/
def distinct (xs : List α) : List α :=
  (xs.mergeSort orderedBefore).foldr (fun x rest => if rest.head? == some x then rest else x :: rest)
    []

def strikes (s : Surface α) : List α := s.quotes.map Quote.strike

def expiries (s : Surface α) : List α := s.quotes.map Quote.expiry

/-- A query moved into the quoted ranges. -/
def clamped (s : Surface α) (strike expiry : α) : α × α :=
  (Scalar.clamp (least s.strikes) (greatest s.strikes) strike,
    Scalar.clamp (least s.expiries) (greatest s.expiries) expiry)

/-- The volatility at a clamped query, with a given rule between scattered quotes. -/
def volatilityWith (rule : ScatteredRule α) (s : Surface α) (k e : α) : Except Misuse (Option α) :=
  if single s.strikes then
    .ok (some (Point.interpolate (sortedPoints (s.quotes.map fun q => ⟨q.expiry, q.volatility⟩)) e))
  else if single s.expiries then
    .ok (some (Point.interpolate (sortedPoints (s.quotes.map fun q => ⟨q.strike, q.volatility⟩)) k))
  else (rule s.quotes k e).map fun v => v.filter (!Scalar.isNaN ·)

/-- The volatility at a strike and an expiry, with a given rule between scattered quotes. -/
def queryWith (rule : ScatteredRule α) (s : Surface α) (strike expiry : Value α) : Outcome α α := do
  let k ← .ofMisuse strike.operand
  let e ← .ofMisuse expiry.operand
  let (k, e) := s.clamped k e
  match ← Outcome.ofMisuse (volatilityWith rule s k e) with
  | some v => return v
  | none => .fail (.volatility (.uncovered strike expiry))

def query (s : Surface α) (strike expiry : Value α) : Outcome α α := s.queryWith s.rule strike expiry

end Surface

end OptionDesk
