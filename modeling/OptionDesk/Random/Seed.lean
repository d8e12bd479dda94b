/-!
# Seeds

A seed is a number of any size together with the path of indices that leads from it to one of its
substreams. Hashing spreads all their 32-bit words over a pool of four, and the pool yields the
words from which a generator starts.
-/

namespace OptionDesk

structure Seed where
  entropy : Nat
  path : List Nat
deriving DecidableEq

namespace Seed

def root (entropy : Nat) : Seed := ⟨entropy, []⟩

/-- The seed of a numbered substream. -/
def child (s : Seed) (index : Nat) : Seed := ⟨s.entropy, s.path ++ [index]⟩

/-- How many values a 32-bit digit has. -/
def wordCount : Nat := 0x100000000

/-- The 32-bit digits of a number, least significant first. -/
def words (n : Nat) : List UInt32 :=
  if n < wordCount then [n.toUInt32] else (n % wordCount).toUInt32 :: words (n / wordCount)
termination_by n
decreasing_by exact Nat.div_lt_self (by unfold wordCount at *; omega) (by decide)

/-- The words of the seed. A path is kept apart from the number by filling up the pool. -/
def assembled (s : Seed) : List UInt32 :=
  let entropy := words s.entropy
  let path := s.path.flatMap words
  if path.isEmpty then entropy
  else entropy ++ List.replicate (4 - entropy.length) 0 ++ path

/-- The pool, and the multiplier that changes with every word hashed. -/
structure Pool where
  words : Array UInt32
  key : UInt32

namespace Pool

def fold (v : UInt32) : UInt32 := v ^^^ (v >>> 16)

def hash (p : Pool) (v : UInt32) : UInt32 × Pool :=
  let key := p.key * 0x931e8875
  (fold ((v ^^^ p.key) * key), { p with key })

def mix (x y : UInt32) : UInt32 := fold (0xca01f9dd * x - 0x4973f715 * y)

/-- Mix the hash of a word into one place of the pool. -/
def stir (p : Pool) (place : Nat) (v : UInt32) : Pool :=
  let (h, p) := p.hash v
  { p with words := p.words.modify place (mix · h) }

/-- The pool of the first four words, absent ones being zero. -/
def start (ws : List UInt32) : Pool :=
  (List.range 4).foldl (fun p i =>
    let (h, p) := p.hash (ws.getD i 0)
    { p with words := p.words.push h }) ⟨#[], 0x43b0d7e5⟩

/-- Mix every word of the pool into every other one. -/
def spread (p : Pool) : Pool :=
  (List.range 4).foldl (fun p origin =>
    ((List.range 4).filter (· ≠ origin)).foldl (fun p place => p.stir place (p.words.getD origin 0))
      p) p

/-- Mix further words into all places. -/
def absorb (p : Pool) (ws : List UInt32) : Pool :=
  ws.foldl (fun p w => (List.range 4).foldl (fun p place => p.stir place w) p) p

def ofWords (ws : List UInt32) : Pool := ((start ws).spread).absorb (ws.drop 4)

/-- The first words that the pool yields, going round it with a multiplier of their own. -/
def yield (p : Pool) (count : Nat) : List UInt32 :=
  ((List.range count).foldl (fun (out, key) i =>
    let next : UInt32 := key * 0x58f38ded
    (fold ((p.words.getD (i % 4) 0 ^^^ key) * next) :: out, next))
    (([] : List UInt32), (0x8b51f9dd : UInt32))).1.reverse

end Pool

/-- Pairs of words as 64-bit words, the first of a pair being the lower half. -/
def joinPairs : List UInt32 → List UInt64
  | low :: high :: rest => (low.toUInt64 ||| (high.toUInt64 <<< 32)) :: joinPairs rest
  | _ => []

/-- The four 64-bit words that a generator starts from. -/
def state (s : Seed) : List UInt64 := joinPairs ((Pool.ofWords s.assembled).yield 8)

end Seed

end OptionDesk
