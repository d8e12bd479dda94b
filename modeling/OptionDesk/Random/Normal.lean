import OptionDesk.Random.Generator
import OptionDesk.Random.Normal.Layers
import OptionDesk.Scalar.Binary64

/-!
# Normal numbers

A source of normal numbers starts from a seed and gives one number after the other, each with the
state that gives the next. Binary64 numbers are drawn by rejection: a random layer of the density
and a random point of it are chosen until the point lies under the density.
-/

namespace OptionDesk

/-- Streams of normal numbers, one for each seed. -/
class NormalSource (α : Type) where
  State : Type
  start : Seed → State
  draw : State → α × State

namespace NormalSource

variable {α : Type} [NormalSource α]

/-- The next numbers of a stream, in order. -/
def take : Nat → State α → List α × State α
  | 0, s => ([], s)
  | n + 1, s =>
    let (x, s) := draw s
    let (xs, s) := take n s
    (x :: xs, s)

/-- The next rows of numbers of a stream, row by row. -/
def takeRows (width : Nat) : Nat → State α → List (List α) × State α
  | 0, s => ([], s)
  | n + 1, s =>
    let (row, s) := take width s
    let (rows, s) := takeRows width n s
    (row :: rows, s)

@[simp] theorem length_takeRows (width n : Nat) (s : State α) :
    (takeRows width n s).1.length = n := by
  induction n generalizing s with
  | zero => rfl
  | succ n ih => simp [takeRows, ih]

end NormalSource

namespace Normal

/-- The states of the generator repeat after this many steps, so no longer search finds more. -/
def period : Nat := 1 <<< 128

/-- Where the outermost layer begins to be a tail. -/
def tailStart : Float := 3.6541528853610088

def tailScale : Float := 0.27366123732975828

/-- A point of the tail, on the side that `negative` says. -/
def tail (negative : Bool) : Nat → Generator → Float × Generator
  | 0, g => (0.0, g)
  | fuel + 1, g =>
    let (u, g) := g.uniform
    let (v, g) := g.uniform
    let x := -(tailScale * Float.log (1.0 - u))
    let y := -Float.log (1.0 - v)
    if x * x < y + y then
      (if negative then -(tailStart + x) else tailStart + x, g)
    else tail negative fuel g

/-- Draw from the density by rejection. -/
def sample : Nat → Generator → Float × Generator
  | 0, g => (0.0, g)
  | fuel + 1, g =>
    let (bits, g) := g.next
    let index := (bits &&& 0xff).toNat
    let negative := (bits >>> 8) &&& 1 == 1
    let steps := (bits >>> 9) &&& 0xfffffffffffff
    let l := layer index
    let magnitude := steps.toFloat * l.step
    let x := if negative then -magnitude else magnitude
    if steps < l.inner then (x, g)
    else if index = 0 then tail ((steps >>> 8) &&& 1 == 1) period g
    else
      let (u, g) := g.uniform
      if ((layer (index - 1)).height - l.height) * u + l.height < Float.exp (-0.5 * x * x) then
        (x, g)
      else sample fuel g

instance : NormalSource Float where
  State := Generator
  start := Generator.ofSeed
  draw := sample period

end Normal

end OptionDesk
