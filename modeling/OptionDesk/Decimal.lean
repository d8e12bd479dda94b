/-!
# Exact decimals of fractions

The decimal digits of a fraction are found in exact arithmetic, so every rounding here is a rounding
of the true value, and a value half way between two decimals goes to the one with an even last
digit.
-/

namespace OptionDesk

/-- A positive fraction. -/
structure Ratio where
  numerator : Nat
  denominator : Nat

namespace Ratio

/-- A mantissa times two to an exponent. -/
def ofBinary (mantissa : Nat) (exponent : Int) : Ratio :=
  if 0 ≤ exponent then ⟨mantissa <<< exponent.toNat, 1⟩
  else ⟨mantissa, 1 <<< (-exponent).toNat⟩

/-- Multiply by a power of ten. -/
def scale (r : Ratio) (power : Int) : Ratio :=
  if 0 ≤ power then ⟨r.numerator * Nat.pow 10 power.toNat, r.denominator⟩
  else ⟨r.numerator, r.denominator * Nat.pow 10 (-power).toNat⟩

/-- The nearest whole number; half way, the even one. -/
def round (r : Ratio) : Nat :=
  let q := r.numerator / r.denominator
  let twice := 2 * (r.numerator % r.denominator)
  if twice < r.denominator then q
  else if r.denominator < twice then q + 1
  else if q % 2 = 0 then q else q + 1

def floor (r : Ratio) : Nat := r.numerator / r.denominator

/-- Is the first fraction less than the second? -/
def less (r s : Ratio) : Bool := r.numerator * s.denominator < s.numerator * r.denominator

def digitCount (n : Nat) : Nat := (Nat.toDigits 10 n).length

/-- The exponent of the leading decimal digit of a positive fraction. -/
def leading (r : Ratio) : Int :=
  if r.denominator ≤ r.numerator then (digitCount r.floor : Int) - 1
  else
    let inverse := r.denominator / r.numerator
    let count := digitCount inverse
    if inverse * r.numerator = r.denominator ∧ inverse = Nat.pow 10 (count - 1) then
      1 - (count : Int)
    else -(count : Int)

end Ratio

/-- Decimal digits and the exponent of the first of them. -/
structure Digits where
  digits : List Char
  exponent : Int
deriving DecidableEq

namespace Digits

/-- The digits of a number that counts units of the last of them. -/
def ofUnits (units : Nat) (lastPlace : Int) : Digits :=
  let digits := Nat.toDigits 10 units
  ⟨digits, lastPlace + digits.length - 1⟩

/-- A positive fraction rounded to so many digits. Rounding up to a power of ten leaves one digit
more, which is a zero. -/
def rounded (count : Nat) (r : Ratio) : Digits :=
  let last := r.leading - count + 1
  let d := ofUnits (r.scale (-last)).round last
  ⟨d.digits.take count, d.exponent⟩

def trimmed (d : Digits) : Digits :=
  let kept := (d.digits.reverse.dropWhile (· = '0')).reverse
  ⟨if kept.isEmpty then ['0'] else kept, d.exponent⟩

end Digits

end OptionDesk
