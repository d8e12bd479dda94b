/-!
# Scalars

The numbers in which prices, rates and times are measured. Every definition of the library is
written over an arbitrary scalar type, so one text serves both the binary64 numbers on which it
runs and the real numbers over which its laws are stated.

Nothing is assumed of the operations here: a scalar type need not be a field, and its comparisons
may all be false, as they are for an undefined binary64 number.
-/

namespace OptionDesk

/-- Arithmetic, comparison, the elementary functions and the normal distribution function. -/
class Scalar (α : Type) extends Zero α, One α, Add α, Sub α, Mul α, Div α, Neg α, NatCast α,
    IntCast α, OfScientific α, LT α, LE α, BEq α, Max α, Min α where
  decLt (x y : α) : Decidable (x < y)
  decLe (x y : α) : Decidable (x ≤ y)
  exp : α → α
  log : α → α
  sqrt : α → α
  pi : α
  /-- Probability that a standard normal variable is at most the argument. -/
  normalCdf : α → α
  isNaN : α → Bool
  isFinite : α → Bool
  /-- The result of an operation without one. -/
  undefined : α
  infinity : α
  /-- The whole part: the fraction is cut off toward zero. -/
  trunc : α → Int

namespace Scalar

variable {α : Type} [Scalar α]

instance (x y : α) : Decidable (x < y) := decLt x y

instance (x y : α) : Decidable (x ≤ y) := decLe x y

/-- Magnitude, written with the comparison so that an undefined number stays undefined. -/
def abs (x : α) : α := max x (-x)

def square (x : α) : α := x * x

/-- The nearest point of the interval from `lower` to `upper`. -/
def clamp (lower upper x : α) : α := min (max x lower) upper

/-- A signed decimal fraction: `units` counted in steps of ten to the power `-places`. -/
def ofDecimal (units : Int) (places : Nat) : α :=
  let magnitude : α := OfScientific.ofScientific units.natAbs true places
  if units < 0 then -magnitude else magnitude

/-- Ordinary sum of a list, from the left. -/
def sum (xs : List α) : α := xs.foldl (· + ·) 0

@[simp] theorem sum_nil : sum ([] : List α) = 0 := rfl

@[simp] theorem sum_append (xs ys : List α) : sum (xs ++ ys) = ys.foldl (· + ·) (sum xs) := by
  simp [sum]

/-- Density of the standard normal distribution. -/
def normalDensity (x : α) : α := exp (-(square x) / 2.0) / sqrt (2.0 * pi)

/-- Is the magnitude of every difference at most an absolute part and a relative part? Two equal
numbers are close whatever they are, and nothing finite is close to an infinite number. -/
def isClose (relative absolute x y : α) : Bool :=
  x == y || (isFinite y && decide (abs (x - y) ≤ absolute + relative * abs y))

end Scalar

end OptionDesk
