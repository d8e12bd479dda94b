import OptionDesk.Proofs.Sampling.CommonPaths

/-!
# Batches and single paths

A batch is priced from the totals of its rows, and its reflection from the negative totals. A single path
is priced from its own log-return, and its reflection has each step of its diffusion negated. Where signs
go through sums, as they do in exact arithmetic, these are the same prices, whatever function the
exponential is.
-/
namespace OptionDesk

namespace Scalar

/-- Signs are exact: a sum changes sign with its summands, and to subtract is to add the negative. -/
structure HasExactSigns (α : Type) [Scalar α] : Prop where
  neg_zero : -(0 : α) = 0
  neg_add (x y : α) : -(x + y) = -x + -y
  sub_eq (x y : α) : x - y = x + -y

variable {α : Type} [Scalar α]

theorem sum_neg (h : HasExactSigns α) (xs : List α) : sum (xs.map (-·)) = -sum xs := by
  have hfold (xs : List α) (x : α) : (xs.map (-·)).foldl (· + ·) (-x) = -xs.foldl (· + ·) x := by
    induction xs generalizing x with
    | nil => rfl
    | cons y xs ih => rw [List.map_cons, List.foldl_cons, List.foldl_cons, ← h.neg_add, ih]
  have hsum := hfold xs 0
  rwa [h.neg_zero] at hsum

end Scalar

namespace Exact

theorem hasExactSigns (exp : Exact → Exact) : @Scalar.HasExactSigns Exact (withExp exp) := by
  let _ := withExp exp
  refine ⟨?_, fun x y => ?_, fun _ _ => rfl⟩
  · show real (-0) = real 0
    rw [neg_zero]
  · cases x with
    | real x =>
      cases y with
      | real y =>
        show real (-(x + y)) = real (-x + -y)
        rw [neg_add]
      | _ => rfl
    | _ => cases y <;> rfl

end Exact

variable {α : Type} [Scalar α]

/-- Reflecting a path is reflecting its total diffusion. -/
theorem Path.logReturn_antithetic (h : Scalar.HasExactSigns α) (path : Path α) :
    path.antithetic.logReturn = Scalar.sum path.drift + -Scalar.sum path.diffusion :=
  congrArg (Scalar.sum path.drift + ·) (Scalar.sum_neg h path.diffusion)

theorem PathBatch.logReturns_eq (b : PathBatch α) : b.logReturns = b.paths.map Path.logReturn := by
  rw [logReturns, paths, List.map_map]
  rfl

theorem PathBatch.antitheticLogReturns_eq (h : Scalar.HasExactSigns α) (b : PathBatch α) :
    b.antitheticLogReturns = b.paths.map fun path => path.antithetic.logReturn := by
  rw [antitheticLogReturns, paths, List.map_map]
  exact List.map_congr_left fun row _ => (Path.logReturn_antithetic h ⟨b.times, b.drift, row⟩).symm

namespace EuropeanPricer

theorem price_eq (p : EuropeanPricer α) (path : Path α) :
    p.price path = p.worth path.logReturn path.antithetic.logReturn := rfl

theorem priceBatch_eq_map (h : Scalar.HasExactSigns α) (p : EuropeanPricer α) (b : PathBatch α) :
    p.priceBatch b = b.paths.map p.price :=
  p.priceBatch_eq b.logReturns_eq (b.antitheticLogReturns_eq h)

/-- A batch is priced path by path: all at once as in a loop over its paths. Each sample is discounted
and, under reflection, an average of the payoffs with the total diffusion added and taken away. -/
structure PricesEachPath (p : EuropeanPricer α) (b : PathBatch α) : Prop where
  loop : p.priceBatch b = b.paths.map p.price
  entry : ∀ (i : ℕ) (row : List α), b.diffusion[i]? = some row →
    (p.priceBatch b)[i]? = some (p.price ⟨b.times, b.drift, row⟩)
  sample : ∀ (i : ℕ) (row : List α), b.diffusion[i]? = some row →
    let drift := Scalar.sum b.drift
    let diffusion := Scalar.sum row
    (p.priceBatch b)[i]? = some (p.discount *
      if p.antithetic then 0.5 * (p.payoff (drift + diffusion) + p.payoff (drift - diffusion))
      else p.payoff (drift + diffusion))
  returns : b.logReturns = b.paths.map Path.logReturn
  reflections : b.antitheticLogReturns = b.paths.map fun path => path.antithetic.logReturn

theorem pricesEachPath (h : Scalar.HasExactSigns α) (p : EuropeanPricer α) (b : PathBatch α) :
    p.PricesEachPath b := by
  have hloop := p.priceBatch_eq_map h b
  have hentry (i : ℕ) (row : List α) (hrow : b.diffusion[i]? = some row) :
      (p.priceBatch b)[i]? = some (p.price ⟨b.times, b.drift, row⟩) := by
    rw [hloop, List.getElem?_map, PathBatch.paths, List.getElem?_map, hrow]
    rfl
  refine ⟨hloop, hentry, ?_, b.logReturns_eq, b.antitheticLogReturns_eq h⟩
  intro i row hrow drift diffusion
  rw [hentry i row hrow, price_eq, Path.logReturn_antithetic h, worth, ← mul_ite, h.sub_eq]
  rfl

end EuropeanPricer

/-- In exact arithmetic, with any function as the exponential, a European option is worth the same on
each row of a batch as on the path of that row alone, whatever the numbers of the option, and however
many paths and steps there are. -/
theorem batches_are_priced_path_by_path (exp : Exact → Exact) (p : EuropeanPricer Exact)
    (b : PathBatch Exact) : @EuropeanPricer.PricesEachPath Exact (Exact.withExp exp) p b :=
  @EuropeanPricer.pricesEachPath Exact (Exact.withExp exp) (Exact.hasExactSigns exp) p b

end OptionDesk
