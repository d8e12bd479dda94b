import OptionDesk.Scalar
import OptionDesk.Text.Digit

/-!
# Numbers in text

A number is written as an optional sign and either digits with an optional point and an optional
decimal exponent, or one of the words `inf`, `infinity` and `nan` in letters of either case. Blanks
around it do not matter, digits may come from any script, and single underscores may stand between
digits.
-/

namespace OptionDesk

/-- What the text of a number says. -/
inductive NumberText
  | decimal (negative : Bool) (mantissa : Nat) (exponent : Int)
  | infinite (negative : Bool)
  | undefined
deriving DecidableEq

namespace NumberText

open Text

/-- Blanks and digits of other scripts become ASCII ones. -/
def plain (c : Char) : Char :=
  if c.toNat < 127 then c
  else if isBlank c then ' '
  else match digit? c with
    | some d => Char.ofNat ('0'.toNat + d)
    | none => '?'

def trim (cs : List Char) : List Char :=
  ((cs.dropWhile isBlank).reverse.dropWhile isBlank).reverse

/-- The text without its underscores, each of which must stand between two digits. -/
def joinDigits : Char → List Char → Option (List Char)
  | _, [] => some []
  | before, '_' :: rest =>
    match rest with
    | after :: _ => if before.isDigit ∧ after.isDigit then joinDigits '_' rest else none
    | [] => none
  | _, c :: rest => (joinDigits c rest).map (c :: ·)

def value (digits : List Char) : Nat :=
  digits.foldl (fun n c => 10 * n + (c.toNat - '0'.toNat)) 0

/-- The sign in front, and what follows it. -/
def signed : List Char → Bool × List Char
  | '-' :: rest => (true, rest)
  | '+' :: rest => (false, rest)
  | cs => (false, cs)

/-- A decimal exponent that fills the rest of the text. -/
def exponent? : List Char → Option Int
  | [] => some 0
  | mark :: rest =>
    let (negative, digits) := signed rest
    if mark.toLower = 'e' ∧ digits ≠ [] ∧ digits.all Char.isDigit then
      some (if negative then -(value digits : Int) else value digits)
    else none

def decimal? (negative : Bool) (cs : List Char) : Option NumberText :=
  let whole := cs.takeWhile Char.isDigit
  let rest := cs.dropWhile Char.isDigit
  let (places, rest) := match rest with
    | '.' :: rest => (rest.takeWhile Char.isDigit, rest.dropWhile Char.isDigit)
    | _ => ([], rest)
  if whole = [] ∧ places = [] then none
  else (exponent? rest).map fun e => .decimal negative (value (whole ++ places)) (e - places.length)

def parse? (text : String) : Option NumberText := do
  let cs ← joinDigits ' ' (trim (text.toList.map plain))
  let (negative, cs) := signed cs
  match String.ofList (cs.map Char.toLower) with
  | "inf" | "infinity" => some (.infinite negative)
  | "nan" => some .undefined
  | _ => decimal? negative cs

/-- The number that is written. -/
def toScalar {α : Type} [Scalar α] : NumberText → α
  | .decimal negative mantissa exponent =>
    let x : α := OfScientific.ofScientific mantissa (decide (exponent < 0)) exponent.natAbs
    if negative then -x else x
  | .infinite negative => if negative then -Scalar.infinity else Scalar.infinity
  | .undefined => Scalar.undefined

end NumberText

end OptionDesk
