import OptionDesk.Binary64
import OptionDesk.Decimal

/-!
# The shortest decimal that reads back

Every decimal strictly between the two points half way to the neighbours of a binary64 number reads
back as that number, and so do these two points themselves when the mantissa is even. For each
number of digits only the two decimals next to the value can lie in this range; the first number of
digits with one that does is taken, and of two the nearer.
-/

namespace OptionDesk

/-- The decimals that read back as one number. -/
structure ReadingRange where
  value : Ratio
  low : Ratio
  high : Ratio
  closed : Bool

namespace ReadingRange

/-- The range around a mantissa times two to an exponent. The lower neighbour of a power of two is
only half as far away, unless it is as close to zero as numbers get. -/
def ofBinary (mantissa : Nat) (exponent : Int) : ReadingRange where
  value := .ofBinary (4 * mantissa) (exponent - 2)
  low :=
    if mantissa = Binary64.leadingBit ∧ Binary64.leastExponent < exponent then .ofBinary (4 * mantissa - 1) (exponent - 2)
    else .ofBinary (4 * mantissa - 2) (exponent - 2)
  high := .ofBinary (4 * mantissa + 2) (exponent - 2)
  closed := mantissa % 2 = 0

def holds (range : ReadingRange) (r : Ratio) : Bool :=
  if range.closed then !r.less range.low && !range.high.less r
  else range.low.less r && r.less range.high

/-- The decimal with so many digits that is in the range, the nearer one if there are two. -/
def atDigits? (range : ReadingRange) (count : Nat) : Option Digits :=
  let last := range.value.leading - count + 1
  let scaled := range.value.scale (-last)
  let below := scaled.floor
  let inRange (units : Nat) := range.holds (Ratio.scale ⟨units, 1⟩ last)
  let down := below ≠ 0 && inRange below
  let up := inRange (below + 1)
  if down && up then some (.ofUnits scaled.round last)
  else if down then some (.ofUnits below last)
  else if up then some (.ofUnits (below + 1) last)
  else none

end ReadingRange

/-- The shortest digits that read back as a positive number; seventeen always do. -/
def Digits.shortest (mantissa : Nat) (exponent : Int) : Digits :=
  let range := ReadingRange.ofBinary mantissa exponent
  match (List.range 17).findSome? fun n => range.atDigits? (n + 1) with
  | some d => d.trimmed
  | none => (Digits.rounded 17 range.value).trimmed

end OptionDesk
