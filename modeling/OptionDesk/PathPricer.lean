import OptionDesk.Path

/-!
# Path pricers

A path pricer maps a simulated path to one discounted sample. The European pricer pays off at the
end of the path, and may average each path with its reflection. It also prices a batch at once,
from the totals of its rows. A client may bring any other rule for a single path, and a batch is
then priced path by path.
-/

namespace OptionDesk

variable {α : Type} [Scalar α]

/-- Payoff of a European option at the final price of the underlying. -/
def OptionType.payoff (kind : OptionType) (strike spot : α) : α :=
  match kind with
  | .call => max (spot - strike) 0
  | .put => max (strike - spot) 0

structure EuropeanPricer (α : Type) where
  kind : OptionType
  underlying : α
  strike : α
  discount : α
  antithetic : Bool

namespace EuropeanPricer

def build (kind underlying strike discount antithetic : Value α) :
    Outcome α (EuropeanPricer α) := do
  match kind with
  | .optionType kind =>
    let underlying ← .ofMisuse underlying.operand
    .require (¬underlying ≤ 0) (.simulation .underlyingNotPositive)
    let strike ← .ofMisuse strike.operand
    .require (¬strike < 0) (.simulation .strikeNegative)
    let discount ← .ofMisuse discount.operand
    .require (¬discount ≤ 0) (.simulation .discountNotPositive)
    return ⟨kind, underlying, strike, discount, antithetic.isSet⟩
  | kind => .fail (.simulation (.notOptionType kind.shape))

/-- Payoff after a log-return. -/
def payoff (p : EuropeanPricer α) (logReturn : α) : α :=
  p.kind.payoff p.strike (p.underlying * Scalar.exp logReturn)

/-- Discounted payoff of a path. -/
def price (p : EuropeanPricer α) (path : Path α) : α :=
  if p.antithetic then
    p.discount * (0.5 * (p.payoff path.logReturn + p.payoff path.antithetic.logReturn))
  else p.discount * p.payoff path.logReturn

/-- Discounted payoffs of a batch, from the total log-returns of its paths. -/
def priceBatch (p : EuropeanPricer α) (b : PathBatch α) : List α :=
  if p.antithetic then
    List.zipWith (fun r s => p.discount * (0.5 * (p.payoff r + p.payoff s)))
      b.logReturns b.antitheticLogReturns
  else b.logReturns.map fun r => p.discount * p.payoff r

end EuropeanPricer

inductive PathPricer (α : Type)
  | european (p : EuropeanPricer α)
  /-- A pricer of a client's own, which only knows how to price a single path. -/
  | custom (rule : Path α → α)

namespace PathPricer

/-- The pricer whose sample is the log-return itself. -/
def logReturn : PathPricer α := custom Path.logReturn

def price : PathPricer α → Path α → α
  | european p => p.price
  | custom rule => rule

/-- Samples of a batch: all at once where the pricer can, otherwise path by path. -/
def priceBatch : PathPricer α → PathBatch α → List α
  | european p, b => p.priceBatch b
  | custom rule, b => b.paths.map rule

@[simp] theorem length_priceBatch (p : PathPricer α) (b : PathBatch α) :
    (p.priceBatch b).length = b.diffusion.length := by
  cases p with
  | european p =>
    simp only [priceBatch, EuropeanPricer.priceBatch]
    split <;> simp [PathBatch.logReturns, PathBatch.antitheticLogReturns]
  | custom rule => simp [priceBatch, PathBatch.paths]

end PathPricer

end OptionDesk
