import OptionDesk.Outcome
import OptionDesk.Table

/-!
# Sample statistics

An accumulator keeps the count, the mean, the sum of squared deviations from the mean and the range
of the samples folded into it. Samples come one at a time or in batches, and accumulators merge, all
by updates that need only the summaries of the two sides.
-/

namespace OptionDesk

/-- Summary of a collection of samples. The range of an empty collection has no meaning. -/
structure Accumulator (α : Type) where
  count : Nat
  mean : α
  deviations : α
  least : α
  greatest : α

namespace Accumulator

variable {α : Type} [Scalar α]

def empty : Accumulator α := ⟨0, 0, 0, 0, 0⟩

/-- The summary with one more sample. -/
def push (s : Accumulator α) (x : α) : Accumulator α :=
  let count := s.count + 1
  let delta := x - s.mean
  let mean := s.mean + delta / (count : α)
  { count, mean
    deviations := s.deviations + delta * (x - mean)
    least := if s.count = 0 then x else min s.least x
    greatest := if s.count = 0 then x else max s.greatest x }

/-- The summary of two collections together. -/
def merge (s t : Accumulator α) : Accumulator α :=
  if t.count = 0 then s
  else if s.count = 0 then t
  else
    let count := s.count + t.count
    let delta := t.mean - s.mean
    { count
      mean := s.mean + delta * (t.count : α) / (count : α)
      deviations := s.deviations +
        (t.deviations + delta * delta * (s.count : α) * (t.count : α) / (count : α))
      least := min s.least t.least
      greatest := max s.greatest t.greatest }

/-- The summary of a list, from its mean and then the deviations from it. -/
def ofList : List α → Accumulator α
  | [] => empty
  | x :: rest =>
    let xs := x :: rest
    let mean := Scalar.sum xs / (xs.length : α)
    { count := xs.length
      mean
      deviations := Scalar.sum (xs.map fun y => Scalar.square (y - mean))
      least := rest.foldl min x
      greatest := rest.foldl max x }

/-- The summary of two collections, as a new one. -/
def combine (first second : Accumulator α) : Accumulator α := (empty.merge first).merge second

/-- Add a sample, which must be finite. -/
def add (s : Accumulator α) (x : α) : Except (StatisticsError α) (Accumulator α) :=
  if Scalar.isFinite x then .ok (s.push x) else .error (.nonFiniteSample x)

/-- Add a batch of samples, all of which must be finite. -/
def addBatch (s : Accumulator α) (xs : List α) : Except (StatisticsError α) (Accumulator α) :=
  if xs.all Scalar.isFinite then .ok (s.merge (ofList xs)) else .error .nonFiniteBatch

def mean? (s : Accumulator α) : Except (StatisticsError α) α :=
  if s.count = 0 then .error (.noSamples .mean) else .ok s.mean

def least? (s : Accumulator α) : Except (StatisticsError α) α :=
  if s.count = 0 then .error (.noSamples .least) else .ok s.least

def greatest? (s : Accumulator α) : Except (StatisticsError α) α :=
  if s.count = 0 then .error (.noSamples .greatest) else .ok s.greatest

/-- The unbiased sample variance. -/
def variance? (s : Accumulator α) : Except (StatisticsError α) α :=
  if s.count < 2 then .error .fewerThanTwo else .ok (s.deviations / ((s.count - 1 : Nat) : α))

def standardDeviation? (s : Accumulator α) : Except (StatisticsError α) α :=
  s.variance?.map Scalar.sqrt

/-- The standard error of the mean. -/
def errorEstimate? (s : Accumulator α) : Except (StatisticsError α) α :=
  s.variance?.map fun v => Scalar.sqrt (v / (s.count : α))

/-- A figure of the samples by its name. -/
def figure? (s : Accumulator α) : SampleMeasure → Except (StatisticsError α) α
  | .samples => .ok (s.count : α)
  | .mean => s.mean?
  | .variance => s.variance?
  | .standardDeviation => s.standardDeviation?
  | .errorEstimate => s.errorEstimate?
  | .least => s.least?
  | .greatest => s.greatest?

@[simp] theorem merge_empty (s : Accumulator α) : s.merge empty = s := rfl

theorem empty_merge (s : Accumulator α) : empty.merge s = if s.count = 0 then empty else s := by
  unfold merge; split <;> rfl

theorem empty_merge_ofList (xs : List α) : empty.merge (ofList xs) = ofList xs := by
  cases xs <;> simp [empty_merge, ofList]

@[simp] theorem count_merge (s t : Accumulator α) : (s.merge t).count = s.count + t.count := by
  unfold merge
  split
  · omega
  · split <;> simp_all

@[simp] theorem count_push (s : Accumulator α) (x : α) : (s.push x).count = s.count + 1 := rfl

@[simp] theorem count_ofList (xs : List α) : (ofList xs).count = xs.length := by
  cases xs <;> rfl

end Accumulator

namespace Outcome

variable {α β : Type}

def ofStatistics : Except (StatisticsError α) β → Outcome α β
  | .ok b => ⟨.ok b, []⟩
  | .error e => fail (.statistics e)

@[simp] theorem ofStatistics_ok (b : β) : (ofStatistics (.ok b) : Outcome α β) = pure b := rfl

@[simp] theorem ofStatistics_error (e : StatisticsError α) :
    (ofStatistics (.error e) : Outcome α β) = fail (.statistics e) := rfl

end Outcome

namespace Accumulator

variable {α : Type} [Scalar α]

/-- Add whatever a client gives as a sample. -/
def addValue (s : Accumulator α) (v : Value α) : Outcome α (Accumulator α) := do
  Outcome.ofStatistics (s.add (← Outcome.ofMisuse v.read))

/-- Add whatever a client gives as a sequence of samples; nested lists count as their entries. -/
def addValues (s : Accumulator α) (v : Value α) : Outcome α (Accumulator α) := do
  let items ← Outcome.ofMisuse v.elements
  let table ← Outcome.ofMisuse (Value.list items).table
  Outcome.ofStatistics (s.addBatch table.entries)

end Accumulator

end OptionDesk
