import OptionDesk.Binary64
import OptionDesk.Scalar
import OptionDesk.Scalar.Erfc

/-!
# Binary64 numbers as scalars

The scalar type on which the library runs. Of two numbers that compare equal the greater and the
lesser are both taken to be the first; if either is undefined, so are both.
-/

namespace OptionDesk.Binary64

/-- A decimal whose exponent is so far out of range that no digit matters is an infinity or zero;
any other is rounded to the nearest binary64 number. -/
def ofDecimal (mantissa : Nat) (negative : Bool) (exponent : Nat) : Float :=
  let digits := (Nat.log2 mantissa) / 3
  if mantissa = 0 then 0.0
  else if !negative && exponent > 400 then Float.ofScientific 1 false 400
  else if negative && exponent > digits + 1000 then 0.0
  else Float.ofScientific mantissa negative exponent

instance : Scalar Float where
  zero := 0.0
  one := 1.0
  natCast := Float.ofNat
  intCast := Float.ofInt
  ofScientific := ofDecimal
  max x y := if x < y || y.isNaN then y else x
  min x y := if y < x || y.isNaN then y else x
  decLt x y := Float.decLt x y
  decLe x y := Float.decLe x y
  exp := Float.exp
  log := Float.log
  sqrt := Float.sqrt
  pi := 3.141592653589793
  normalCdf x := Erfc.erfc (-x / Float.sqrt 2.0) / 2.0
  isNaN := Float.isNaN
  isFinite := Float.isFinite
  undefined := 0.0 / 0.0
  infinity := 1.0 / 0.0
  trunc := trunc

end OptionDesk.Binary64
