import OptionDesk.Terms

/-!
# Market snapshots

A snapshot of the market that engines read: a date, a spot price, two curves and a volatility. A
snapshot never changes; a bump makes the next version of it.
-/

namespace OptionDesk

structure Market (α : Type) where
  pricingDate : DateTime
  spot : α
  riskFreeCurve : Curve α
  dividendCurve : Curve α
  volSurface : Volatility α
  version : Int

/-- What a client gives for a snapshot. -/
structure MarketQuote (α : Type) where
  pricingDate : Value α
  spot : Value α
  riskFreeCurve : Value α
  dividendCurve : Value α
  volSurface : Value α
  version : Int

namespace MarketField

def name : MarketField → String
  | pricingDate => "pricing_date"
  | spot => "spot"
  | riskFreeCurve => "risk_free_curve"
  | dividendCurve => "dividend_curve"
  | volSurface => "vol_surface"
  | version => "version"

end MarketField

namespace MarketQuote

variable {α : Type}

/-- Set a field by its name, except the version. -/
def set? (q : MarketQuote α) (name : String) (v : Value α) : Option (MarketQuote α) :=
  match name with
  | "pricing_date" => some { q with pricingDate := v }
  | "spot" => some { q with spot := v }
  | "risk_free_curve" => some { q with riskFreeCurve := v }
  | "dividend_curve" => some { q with dividendCurve := v }
  | "vol_surface" => some { q with volSurface := v }
  | _ => none

def curve (field : MarketField) : Value α → Outcome α (Curve α)
  | .curve c => pure c
  | v => .fail (.market (.notCurve field v.shape))

def volatility : Value α → Outcome α (Volatility α)
  | .volatility v => pure v
  | v => .fail (.market (.notVolatility v.shape))

def date : Value α → Outcome α DateTime
  | .dateTime t => pure t
  | v => .fail (.market (.pricingDateNotDateTime v.shape))

variable [Scalar α]

/-- A positive number. -/
def price (v : Value α) : Outcome α α :=
  match v.read with
  | .error _ => .fail (.market .spotNotNumeric)
  | .ok x => do
    .require (Scalar.isFinite x ∧ ¬x ≤ 0) (.market .spotNotPositive)
    return x

/-- The snapshot of checked fields. -/
def snapshot (q : MarketQuote α) : Outcome α (Market α) := do
  let pricingDate ← date q.pricingDate
  let spot ← price q.spot
  let riskFreeCurve ← curve .riskFreeCurve q.riskFreeCurve
  let dividendCurve ← curve .dividendCurve q.dividendCurve
  let volSurface ← volatility q.volSurface
  return ⟨pricingDate, spot, riskFreeCurve, dividendCurve, volSurface, q.version⟩

end MarketQuote

namespace Market

variable {α : Type} [Scalar α]

/-- The fields of a snapshot as they would be given. -/
def quote (m : Market α) : MarketQuote α where
  pricingDate := .dateTime m.pricingDate
  spot := .number m.spot
  riskFreeCurve := .curve m.riskFreeCurve
  dividendCurve := .curve m.dividendCurve
  volSurface := .volatility m.volSurface
  version := m.version

/-- The next version, with some fields replaced. The version itself is not among them. -/
def bump (m : Market α) (fields : List (String × Value α)) : Outcome α (Market α) := do
  .require (¬(fields.map Prod.fst).contains "version") (.market .versionGiven)
  match fields.foldlM (fun q (name, v) => q.set? name v) m.quote with
  | some q => ({ q with version := m.version + 1 } : MarketQuote α).snapshot
  | none => .fail (.misuse .unknownName)

/-- What a snapshot fills in of the terms of an option. -/
def terms (m : Market α) : List (String × Value α) := [
  (TermField.underlying.name, .number m.spot),
  (TermField.dividendCurve.name, .curve m.dividendCurve),
  (TermField.riskFreeCurve.name, .curve m.riskFreeCurve),
  (TermField.volSurface.name, .volatility m.volSurface)]

/-- A snapshot takes no changes. -/
def assign (_ : Market α) (_ : String) (_ : Value α) : Outcome α (Market α) :=
  .fail (.misuse .immutable)

end Market

end OptionDesk
