import OptionDesk.MonteCarlo.Sampler
import OptionDesk.Proofs.Exact
import Mathlib.Tactic.FieldSimp

/-!
# Real paths

A source of normal numbers is real when every number that it draws is a real one. The paths of a
generator over such a source have real log-returns, which can be written down: the drift over all
steps, and the deviation of one step times the sum of the numbers of the path's row. Reflection changes
the sign of the second part.
-/
namespace OptionDesk

open Exact

namespace NormalSource

variable [NormalSource Exact]

/-- All numbers drawn are real. -/
def IsReal : Prop := ∀ s : State Exact, ∃ x : ℝ, (draw s).1 = real x

theorem exists_take (h : IsReal) (n : ℕ) (s : State Exact) :
    ∃ row : List ℝ, row.length = n ∧ (take n s).1 = row.map real := by
  induction n generalizing s with
  | zero => exact ⟨[], rfl, rfl⟩
  | succ n ih =>
    obtain ⟨x, hx⟩ := h s
    obtain ⟨row, hlength, hrow⟩ := ih (draw s).2
    refine ⟨x :: row, by rw [List.length_cons, hlength], ?_⟩
    rw [take, List.map_cons, ← hx, ← hrow]

theorem exists_takeRows (h : IsReal) (width n : ℕ) (s : State Exact) :
    ∃ rows : List (List ℝ), (∀ row ∈ rows, row.length = width) ∧
      (takeRows width n s).1 = rows.map (List.map real) := by
  induction n generalizing s with
  | zero => exact ⟨[], fun row hrow => absurd hrow List.not_mem_nil, rfl⟩
  | succ n ih =>
    obtain ⟨row, hlength, hrow⟩ := exists_take h width s
    obtain ⟨rows, hlengths, hrows⟩ := ih (take width s).2
    refine ⟨row :: rows, ?_, ?_⟩
    · rw [List.forall_mem_cons]
      exact ⟨hlength, hlengths⟩
    · rw [takeRows, List.map_cons, ← hrow, ← hrows]

end NormalSource

/-- A process in real numbers over a positive time. -/
structure RealProcess where
  drift : ℝ
  variance : ℝ
  length : ℝ
  timeSteps : ℕ
  variance_nonneg : 0 ≤ variance
  length_pos : 0 < length

namespace RealProcess

noncomputable section

variable (p : RealProcess)

def exact : PathProcess Exact := ⟨real p.drift, real p.variance, real p.length, p.timeSteps⟩

/-- Length of one step; a path without steps has none. -/
def step : ℝ := p.length / p.timeSteps

/-- The part of every log-return that no number moves. -/
def drifted : ℝ := p.timeSteps * (p.drift * p.step)

/-- The part of the log-return that a row of numbers moves. -/
def diffused (row : List ℝ) : ℝ := √(p.variance * p.step) * row.sum

end

variable (p : RealProcess)

theorem exact_step (h : p.timeSteps ≠ 0) : p.exact.step = real p.step := by
  have hsteps : (p.timeSteps : ℝ) ≠ 0 := Nat.cast_ne_zero.mpr h
  rw [PathProcess.step, exact, natCast_eq, real_div _ hsteps, step]

theorem step_nonneg : 0 ≤ p.step := div_nonneg p.length_pos.le (Nat.cast_nonneg _)

theorem sum_stepDrifts : Scalar.sum p.exact.stepDrifts = real p.drifted := by
  by_cases h : p.timeSteps = 0
  · have hnone : p.exact.stepDrifts = [] := by
      rw [PathProcess.stepDrifts, exact, h, List.replicate_zero]
    rw [hnone, drifted, h, Nat.cast_zero, zero_mul]
    rfl
  · have hdrifts : p.exact.stepDrifts =
        (List.replicate p.timeSteps (p.drift * p.step)).map real := by
      rw [PathProcess.stepDrifts, p.exact_step h, List.map_replicate]
      rfl
    rw [hdrifts, sum_real, List.sum_replicate, nsmul_eq_mul, drifted]

theorem sum_diffusion {row : List ℝ} (hlength : row.length = p.timeSteps) :
    Scalar.sum ((row.map real).map (p.exact.stepDeviation * ·)) = real (p.diffused row) := by
  by_cases h : p.timeSteps = 0
  · obtain rfl := List.eq_nil_of_length_eq_zero (hlength.trans h)
    rw [diffused, List.sum_nil, mul_zero]
    rfl
  · have hdeviation : p.exact.stepDeviation = real √(p.variance * p.step) := by
      rw [PathProcess.stepDeviation, p.exact_step h, exact, real_mul,
        real_sqrt (mul_nonneg p.variance_nonneg p.step_nonneg)]
    have hrow : (row.map real).map (p.exact.stepDeviation * ·) =
        (row.map (√(p.variance * p.step) * ·)).map real := by
      rw [hdeviation, List.map_map, List.map_map]
      rfl
    rw [hrow, sum_real, diffused, List.sum_map_mul_left, List.map_id']

/-- The total drift is the drift over the whole time, however many steps there are. -/
theorem drifted_eq (h : 1 ≤ p.timeSteps) : p.drifted = p.drift * p.length := by
  have hsteps : (p.timeSteps : ℝ) ≠ 0 := Nat.cast_ne_zero.mpr (by omega)
  rw [drifted, step]
  field_simp

section Rows

variable {rows : List (List ℝ)} (hrows : ∀ row ∈ rows, row.length = p.timeSteps)

include hrows

theorem logReturns_batch : (p.exact.batch (rows.map (List.map real))).logReturns =
    rows.map fun row => real (p.drifted + p.diffused row) := by
  rw [PathProcess.batch, PathBatch.logReturns, List.map_map, List.map_map]
  refine List.map_congr_left fun row hrow => ?_
  simp only [Function.comp_apply, p.sum_stepDrifts, p.sum_diffusion (hrows row hrow), real_add]

theorem antitheticLogReturns_batch :
    (p.exact.batch (rows.map (List.map real))).antitheticLogReturns =
      rows.map fun row => real (p.drifted - p.diffused row) := by
  rw [PathProcess.batch, PathBatch.antitheticLogReturns, List.map_map, List.map_map]
  refine List.map_congr_left fun row hrow => ?_
  simp only [Function.comp_apply, p.sum_stepDrifts, p.sum_diffusion (hrows row hrow), real_neg,
    real_add, ← sub_eq_add_neg]

end Rows

/-- The next paths of a generator, from the rows that its stream gives next. -/
theorem exists_rows [NormalSource Exact] (hreal : NormalSource.IsReal) {g : PathGenerator Exact}
    (hg : g.process = p.exact) (n : ℕ) :
    ∃ rows : List (List ℝ), (∀ row ∈ rows, row.length = p.timeSteps) ∧
      (NormalSource.takeRows p.timeSteps n g.stream).1 = rows.map (List.map real) ∧
      (g.take n).1.logReturns = (rows.map fun row => real (p.drifted + p.diffused row)) ∧
      (g.take n).1.antitheticLogReturns =
        rows.map fun row => real (p.drifted - p.diffused row) := by
  obtain ⟨rows, hlength, hrows⟩ := NormalSource.exists_takeRows hreal p.timeSteps n g.stream
  have hbatch : (g.take n).1 = p.exact.batch (rows.map (List.map real)) := by
    rw [← hrows, ← hg, PathGenerator.take, hg]
    rfl
  refine ⟨rows, hlength, hrows, ?_, ?_⟩
  · rw [hbatch, p.logReturns_batch hlength]
  · rw [hbatch, p.antitheticLogReturns_batch hlength]

end RealProcess

end OptionDesk
