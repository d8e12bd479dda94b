import OptionDesk.Curve.Build
import OptionDesk.Random.Normal
import OptionDesk.Session

/-!
# Gaussian paths

Paths of a log-price that drifts at a constant rate and diffuses with a constant variance, on an
even grid of times. The paths of a generator are read off the stream of normal numbers of its seed,
one row of numbers for each path, so they are fixed by the seed; substreams have seeds of their own.
-/

namespace OptionDesk

variable {α : Type} [Scalar α]

/-- A path of log-price increments: the end of each step, and the increment's two parts. -/
structure Path (α : Type) where
  times : List α
  drift : List α
  diffusion : List α

namespace Path

/-- Total log-return. -/
def logReturn (p : Path α) : α := Scalar.sum p.drift + Scalar.sum p.diffusion

/-- The path reflected about its drift. -/
def antithetic (p : Path α) : Path α := { p with diffusion := p.diffusion.map (-·) }

end Path

/-- Paths that share their times and drift; each has a row of diffusion. -/
structure PathBatch (α : Type) where
  times : List α
  drift : List α
  diffusion : List (List α)

namespace PathBatch

/-- The paths one by one. -/
def paths (b : PathBatch α) : List (Path α) := b.diffusion.map fun row => ⟨b.times, b.drift, row⟩

/-- Total log-return of each path. -/
def logReturns (b : PathBatch α) : List α :=
  b.diffusion.map fun row => Scalar.sum b.drift + Scalar.sum row

/-- Total log-return of the reflection of each path. -/
def antitheticLogReturns (b : PathBatch α) : List α :=
  b.diffusion.map fun row => Scalar.sum b.drift + -Scalar.sum row

end PathBatch

/-- A log-price with a drift and a variance per unit of time, over a horizon in equal steps. -/
structure PathProcess (α : Type) where
  drift : α
  variance : α
  length : α
  timeSteps : Nat

namespace PathProcess

def build (drift variance length : Value α) (timeSteps : α) : Outcome α (PathProcess α) := do
  let drift ← .ofMisuse drift.operand
  .require (Scalar.isFinite drift) (.path .driftNotFinite)
  let variance ← .ofMisuse variance.operand
  .require (Scalar.isFinite variance ∧ ¬variance < 0) (.path .invalidVariance)
  let length ← .ofMisuse length.operand
  .require (Scalar.isFinite length ∧ ¬length ≤ 0) (.path .invalidLength)
  .require (¬timeSteps < 1) (.path .stepsBelowOne)
  return ⟨drift, variance, length, (Scalar.trunc timeSteps).toNat⟩

/-- Length of one step. -/
def step (p : PathProcess α) : α := p.length / (p.timeSteps : α)

def times (p : PathProcess α) : List α := evenGrid p.step p.length (p.timeSteps - 1)

def stepDrifts (p : PathProcess α) : List α := List.replicate p.timeSteps (p.drift * p.step)

/-- Standard deviation of the increment of one step. -/
def stepDeviation (p : PathProcess α) : α := Scalar.sqrt (p.variance * p.step)

/-- The path that a row of normal numbers draws. -/
def path (p : PathProcess α) (normals : List α) : Path α :=
  ⟨p.times, p.stepDrifts, normals.map (p.stepDeviation * ·)⟩

def batch (p : PathProcess α) (rows : List (List α)) : PathBatch α :=
  ⟨p.times, p.stepDrifts, rows.map fun row => row.map (p.stepDeviation * ·)⟩

end PathProcess

/-- A process with a seed, and how far the stream of the seed has been read. -/
structure PathGenerator (α : Type) [NormalSource α] where
  process : PathProcess α
  seed : Seed
  stream : NormalSource.State α

namespace PathGenerator

variable [NormalSource α]

/-- A generator at the start of its stream. -/
def ofSeed (process : PathProcess α) (seed : Seed) : PathGenerator α :=
  ⟨process, seed, NormalSource.start seed⟩

def build (drift variance length : Value α) (timeSteps : α) (seed : Int) :
    Outcome α (PathGenerator α) := do
  let process ← PathProcess.build drift variance length timeSteps
  .require (¬seed < 0) (.misuse .negativeSeed)
  return ofSeed process (.root seed.toNat)

/-- Begin the paths again. -/
def reset (g : PathGenerator α) : PathGenerator α := ofSeed g.process g.seed

def next (g : PathGenerator α) : Path α × PathGenerator α :=
  let (row, stream) := NormalSource.take g.process.timeSteps g.stream
  (g.process.path row, { g with stream })

/-- The next paths, one after the other. -/
def iterate (g : PathGenerator α) : Nat → List (Path α) × PathGenerator α
  | 0 => ([], g)
  | n + 1 =>
    let (p, g) := g.next
    let (ps, g) := g.iterate n
    (p :: ps, g)

/-- The next `n` paths at once. -/
def take (g : PathGenerator α) (n : Nat) : PathBatch α × PathGenerator α :=
  let (rows, stream) := NormalSource.takeRows g.process.timeSteps n g.stream
  (g.process.batch rows, { g with stream })

/-- The next paths at once, of which there must be at least one. -/
def nextBatch (n : Int) : Session (PathGenerator α) α (PathBatch α) := fun g =>
  if n < 1 then (.fail (.path .noPaths), g)
  else
    let (b, g) := g.take n.toNat
    (pure b, g)

/-- The generator of a numbered substream, at its start. -/
def child (g : PathGenerator α) (index : Nat) : PathGenerator α :=
  ofSeed g.process (g.seed.child index)

def substream (g : PathGenerator α) (index : Int) : Outcome α (PathGenerator α) := do
  .require (¬index < 0) (.path .negativeSubstream)
  return g.child index.toNat

@[simp] theorem length_diffusion_take (g : PathGenerator α) (n : Nat) :
    (g.take n).1.diffusion.length = n := by
  simp [take, PathProcess.batch]

/-- A batch holds the paths that come one after the other. -/
theorem paths_take (g : PathGenerator α) (n : Nat) : (g.take n).1.paths = (g.iterate n).1 := by
  induction n generalizing g with
  | zero => rfl
  | succ n ih =>
    have hrest := ih g.next.2
    simp only [take, next, iterate, NormalSource.takeRows, PathProcess.batch, PathBatch.paths,
      PathProcess.path, List.map_cons] at hrest ⊢
    rw [hrest]

end PathGenerator

end OptionDesk
