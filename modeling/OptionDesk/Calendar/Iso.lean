import OptionDesk.Calendar

/-!
# Written dates

`2025-07-02`, `2025-07-02T12:00:00` and `2025-07-02T12:00:00.000001`. The fraction of a second is
written with six digits, and only when it is not zero.
-/

namespace OptionDesk

namespace Iso

/-- Decimal digits, filled with zeros on the left. -/
def padded (width n : Nat) : String :=
  let digits := Nat.toDigits 10 n
  String.ofList (List.replicate (width - digits.length) '0' ++ digits)

/-- A number of exactly `width` decimal digits. -/
def digits? (width : Nat) (cs : List Char) : Option Nat :=
  if cs.length = width ∧ cs.all Char.isDigit then
    some (cs.foldl (fun n c => 10 * n + (c.toNat - '0'.toNat)) 0)
  else none

/-- The six digits of a fraction of a second; missing ones are zeros. -/
def fraction? : List Char → Option Nat
  | [] => some 0
  | '.' :: cs =>
    if cs.length ≤ 6 then digits? 6 (cs ++ List.replicate (6 - cs.length) '0') else none
  | _ => none

/-- Microseconds since midnight of `HH:MM:SS` with an optional fraction. -/
def clock? (cs : List Char) : Option Nat := do
  let hour ← digits? 2 (cs.take 2)
  let minute ← digits? 2 ((cs.drop 3).take 2)
  let second ← digits? 2 ((cs.drop 6).take 2)
  let micro ← fraction? (cs.drop 8)
  guard (cs[2]? = some ':' ∧ cs[5]? = some ':' ∧ hour < 24 ∧ minute < 60 ∧ second < 60)
  return ((hour * 60 + minute) * 60 + second) * 1000000 + micro

end Iso

open Iso

namespace Date

def toIso (d : Date) : String :=
  padded 4 d.year ++ "-" ++ padded 2 d.month ++ "-" ++ padded 2 d.day

def ofIso? (text : String) : Option Date := do
  let cs := text.toList
  let year ← digits? 4 (cs.take 4)
  let month ← digits? 2 ((cs.drop 5).take 2)
  let day ← digits? 2 (cs.drop 8)
  guard (cs[4]? = some '-' ∧ cs[7]? = some '-')
  ofParts? year month day

end Date

namespace DateTime

/-- Hours, minutes, seconds and microseconds of the time of day. -/
def clock (t : DateTime) : Nat × Nat × Nat × Nat :=
  let seconds := t.microsecond / 1000000
  (seconds / 3600, seconds / 60 % 60, seconds % 60, t.microsecond % 1000000)

/-- The written form, with `mark` between the date and the time of day. -/
def toText (mark : String) (t : DateTime) : String :=
  let (hour, minute, second, micro) := t.clock
  let fraction := if micro = 0 then "" else "." ++ padded 6 micro
  t.date.toIso ++ mark ++ padded 2 hour ++ ":" ++ padded 2 minute ++ ":" ++ padded 2 second
    ++ fraction

def toIso (t : DateTime) : String := t.toText "T"

/-- A date alone stands for its midnight. -/
def ofIso? (text : String) : Option DateTime := do
  let cs := text.toList
  let date ← Date.ofIso? (String.ofList (cs.take 10))
  match cs.drop 10 with
  | [] => ofParts? date 0
  | mark :: rest =>
    guard (mark = 'T')
    ofParts? date (← clock? rest)

end DateTime

end OptionDesk
