import OptionDesk.Decimal.Shortest

/-!
# Written numbers

The forms in which numbers are written: a fixed number of digits in scientific notation, a fixed
number of significant digits without trailing zeros, a fixed number of places, and the shortest form
that reads back. An exponent has a sign and at least two digits.
-/

namespace OptionDesk

namespace Decimal

/-- An exponent with its sign and at least two digits. -/
def exponentText (e : Int) : String :=
  let digits := Nat.toDigits 10 e.natAbs
  (if e < 0 then "e-" else "e+") ++ String.ofList (List.replicate (2 - digits.length) '0' ++ digits)

/-- The digits before and after a point. -/
def withPoint (whole places : List Char) : String :=
  String.ofList whole ++ if places.isEmpty then "" else "." ++ String.ofList places

/-- One digit before the point, and an exponent. -/
def scientific (d : Digits) : String :=
  withPoint (d.digits.take 1) (d.digits.drop 1) ++ exponentText d.exponent

/-- Digits around a point, without exponent. -/
def positional (d : Digits) : String :=
  if d.exponent < 0 then
    withPoint ['0'] (List.replicate (d.exponent.natAbs - 1) '0' ++ d.digits)
  else
    let count := d.exponent.toNat + 1
    withPoint (d.digits.take count ++ List.replicate (count - d.digits.length) '0')
      (d.digits.drop count)

def signed (negative : Bool) (s : String) : String := if negative then "-" ++ s else s

/-- The text of a number: words for what is not finite, otherwise a sign and the given form. -/
def write (zero : String) (form : Nat → Int → String) (x : Float) : String :=
  match Binary64.parts x with
  | .nan => "nan"
  | .infinite negative => signed negative "inf"
  | .finite negative mantissa exponent =>
    signed negative (if mantissa = 0 then zero else form mantissa exponent)

/-- So many digits after the first, in scientific notation. -/
def toScientific (places : Nat) (x : Float) : String :=
  write (withPoint ['0'] (List.replicate places '0') ++ "e+00")
    (fun m e => scientific (.rounded (places + 1) (.ofBinary m e))) x

/-- So many significant digits at most; without exponent when it is small enough. -/
def toGeneral (digits : Nat) (x : Float) : String :=
  write "0" (fun m e =>
    let d := Digits.rounded digits (.ofBinary m e)
    if d.exponent < -4 ∨ (digits : Int) ≤ d.exponent then scientific d.trimmed
    else positional d.trimmed) x

/-- So many digits after the point. -/
def toFixed (places : Nat) (x : Float) : String :=
  let text (units : Nat) :=
    let digits := Nat.toDigits 10 units
    let digits := List.replicate (places + 1 - digits.length) '0' ++ digits
    withPoint (digits.take (digits.length - places)) (digits.drop (digits.length - places))
  write (text 0) (fun m e => text ((Ratio.ofBinary m e).scale places).round) x

/-- The shortest form that reads back, with a point or an exponent. Exponents from -4 to 15 are
written out. -/
def toShortest (x : Float) : String :=
  write "0.0" (fun m e =>
    let d := Digits.shortest m e
    if d.exponent < -4 ∨ 16 ≤ d.exponent then scientific d
    else
      let s := positional d
      if (d.digits.length : Int) ≤ d.exponent + 1 then s ++ ".0" else s) x

end Decimal

end OptionDesk
