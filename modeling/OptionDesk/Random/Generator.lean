import OptionDesk.Random.Seed

/-!
# The permuted congruential generator

A 128-bit linear congruence whose output folds the two halves of the state together and rotates
them by its highest bits.
-/

namespace OptionDesk

structure Generator where
  state : BitVec 128
  increment : BitVec 128
deriving DecidableEq

namespace Generator

def multiplier : BitVec 128 := 0x2360ed051fc65da44385df649fccf645

def step (g : Generator) : Generator := { g with state := g.state * multiplier + g.increment }

def half (w : UInt64) : BitVec 128 := BitVec.ofNat 128 w.toNat

/-- Start from four words: two of the state and two of the sequence. -/
def ofWords (words : List UInt64) : Generator :=
  let word (i : Nat) := half (words.getD i 0)
  let init := (word 0 <<< 64) ||| word 1
  let sequence := (word 2 <<< 64) ||| word 3
  let g : Generator := step ⟨0, (sequence <<< 1) ||| 1⟩
  step { g with state := g.state + init }

def ofSeed (s : Seed) : Generator := ofWords s.state

def rotateRight (x amount : UInt64) : UInt64 := (x >>> amount) ||| (x <<< (64 - amount))

/-- The output of a state. -/
def output (g : Generator) : UInt64 :=
  let n := g.state.toNat
  rotateRight ((n >>> 64).toUInt64 ^^^ n.toUInt64) (n >>> 122).toUInt64

/-- The next 64 random bits. -/
def next (g : Generator) : UInt64 × Generator :=
  let g := g.step
  (g.output, g)

/-- A number from zero up to one, in steps of the last of 53 bits. -/
def uniform (g : Generator) : Float × Generator :=
  let (bits, g) := g.next
  ((bits >>> 11).toFloat * 1.1102230246251565e-16, g)

end Generator

end OptionDesk
