import OptionDesk.PathPricer
import OptionDesk.Statistics

/-!
# The sampling model

Samples are drawn in batches. Batches are numbered over the lifetime of the model, and batch `i`
always reads the start of substream `i`, so a batch depends on nothing but its number and its size.
A request takes its numbers first; the statistics of its batches are merged, in order, only once all
of them are there, so a request that fails merges nothing.
-/

namespace OptionDesk

variable {α : Type} [Scalar α] [NormalSource α]

structure SamplingModel (α : Type) [NormalSource α] where
  generator : PathGenerator α
  pricer : PathPricer α
  statistics : Accumulator α
  batchSize : Nat
  batchesDrawn : Nat

namespace SamplingModel

/-- A model that has drawn nothing. The number of workers must be positive and has no effect. -/
def build (generator : PathGenerator α) (pricer : PathPricer α) (statistics : Accumulator α)
    (batchSize workers : Int) : Outcome α (SamplingModel α) := do
  .require (¬batchSize < 1) (.simulation .batchSizeBelowOne)
  .require (¬workers < 1) (.simulation .workersBelowOne)
  return ⟨generator, pricer, statistics, batchSize.toNat, 0⟩

/-- Sizes of the batches of a request: full ones, and a last one for what remains. -/
def batchSizes (batchSize samples : Nat) : List Nat :=
  List.replicate (samples / batchSize) batchSize ++
    if samples % batchSize = 0 then [] else [samples % batchSize]

/-- The samples of a batch: the prices of the first paths of its substream. -/
def batchSamples (m : SamplingModel α) (index size : Nat) : List α :=
  m.pricer.priceBatch ((m.generator.child index).take size).1

/-- Statistics of a batch. -/
def sampleBatch (m : SamplingModel α) (index size : Nat) :
    Except (StatisticsError α) (Accumulator α) :=
  Accumulator.empty.addBatch (m.batchSamples index size)

/-- Statistics of batches of the given sizes, numbered from `first`; the first failure counts. -/
def sampleBatches (m : SamplingModel α) : Nat → List Nat →
    Except (StatisticsError α) (List (Accumulator α))
  | _, [] => .ok []
  | first, size :: sizes => do
    let s ← m.sampleBatch first size
    return s :: (← m.sampleBatches (first + 1) sizes)

/-- Take the numbers of some batches. -/
def advance (batches : Nat) (m : SamplingModel α) : SamplingModel α :=
  { m with batchesDrawn := m.batchesDrawn + batches }

/-- Merge statistics, in order. -/
def mergeAll (partials : List (Accumulator α)) (m : SamplingModel α) : SamplingModel α :=
  { m with statistics := partials.foldl Accumulator.merge m.statistics }

/-- Draw more samples. -/
def addSamples (samples : Int) : Session (SamplingModel α) α Unit := do
  .lift <| .require (¬samples < 1) (.simulation (.samplesBelowOne samples))
  let m ← .get
  let sizes := batchSizes m.batchSize samples.toNat
  .modify (advance sizes.length)
  let partials ← .lift <| .ofStatistics (m.sampleBatches m.batchesDrawn sizes)
  .modify (mergeAll partials)
  let m ← .get
  .lift <| .report (.record (.samplesAdded samples sizes.length m.statistics.count))

end SamplingModel

end OptionDesk
