/-!
# The bits of binary64 numbers

A finite binary64 number is a whole number, its mantissa, times a power of two. A mantissa has at
most 53 bits; the first of them is not stored, and is there unless the exponent is the least one.
-/

namespace OptionDesk.Binary64

/-- What the bits of a number say. -/
inductive Parts
  | nan
  | infinite (negative : Bool)
  /-- A mantissa times two to an exponent. -/
  | finite (negative : Bool) (mantissa : Nat) (exponent : Int)

/-- The bit of the mantissa that is not stored. -/
def leadingBit : Nat := 0x10000000000000

def signBit : Nat := 0x8000000000000000

/-- The exponent of the numbers closest to zero. -/
def leastExponent : Int := -1074

/-- The sign, mantissa and exponent of a number. -/
def parts (x : Float) : Parts :=
  let bits := x.toBits.toNat
  let negative := signBit ≤ bits
  let exponent : Nat := bits / leadingBit % 2048
  let fraction : Nat := bits % leadingBit
  if exponent = 2047 then (if fraction = 0 then .infinite negative else .nan)
  else if exponent = 0 then .finite negative fraction leastExponent
  else .finite negative (leadingBit + fraction) (leastExponent + exponent - 1)

/-- The whole part of a finite number, exactly; zero for the others. -/
def trunc (x : Float) : Int :=
  match parts x with
  | .finite negative mantissa exponent =>
    let magnitude : Nat :=
      if 0 ≤ exponent then mantissa <<< exponent.toNat else mantissa >>> (-exponent).toNat
    if negative then -(magnitude : Int) else magnitude
  | _ => 0

end OptionDesk.Binary64
