import OptionDesk.Outcome

/-!
# Results of an engine

The value of an option and its sensitivities. A result that was not produced is null. Results are
published all at once: those that are not among the published ones become null.
-/

namespace OptionDesk

structure Results (α : Type) where
  value : Value α
  delta : Value α
  gamma : Value α
  theta : Value α
  vega : Value α
  rho : Value α
  dividendRho : Value α
  strikeSensitivity : Value α
  errorEstimate : Value α

inductive ResultField
  | value
  | delta
  | gamma
  | theta
  | vega
  | rho
  | dividendRho
  | strikeSensitivity
  | errorEstimate
deriving DecidableEq

namespace ResultField

/-- All results, in order. -/
def all : List ResultField :=
  [value, delta, gamma, theta, vega, rho, dividendRho, strikeSensitivity, errorEstimate]

def name : ResultField → String
  | value => "value"
  | delta => "delta"
  | gamma => "gamma"
  | theta => "theta"
  | vega => "vega"
  | rho => "rho"
  | dividendRho => "dividend_rho"
  | strikeSensitivity => "strike_sensitivity"
  | errorEstimate => "error_estimate"

def ofName? (name : String) : Option ResultField := all.find? fun f => f.name == name

end ResultField

namespace Results

variable {α : Type}

def blank : Results α := ⟨.null, .null, .null, .null, .null, .null, .null, .null, .null⟩

def get (r : Results α) : ResultField → Value α
  | .value => r.value
  | .delta => r.delta
  | .gamma => r.gamma
  | .theta => r.theta
  | .vega => r.vega
  | .rho => r.rho
  | .dividendRho => r.dividendRho
  | .strikeSensitivity => r.strikeSensitivity
  | .errorEstimate => r.errorEstimate

def set (r : Results α) (field : ResultField) (v : Value α) : Results α :=
  match field with
  | .value => { r with value := v }
  | .delta => { r with delta := v }
  | .gamma => { r with gamma := v }
  | .theta => { r with theta := v }
  | .vega => { r with vega := v }
  | .rho => { r with rho := v }
  | .dividendRho => { r with dividendRho := v }
  | .strikeSensitivity => { r with strikeSensitivity := v }
  | .errorEstimate => { r with errorEstimate := v }

@[simp] theorem get_set_self (r : Results α) (f : ResultField) (v : Value α) :
    (r.set f v).get f = v := by
  cases f <;> rfl

theorem get_set_of_ne (r : Results α) {f g : ResultField} (v : Value α) (h : f ≠ g) :
    (r.set f v).get g = r.get g := by
  cases f <;> cases g <;> first | rfl | exact absurd rfl h

@[simp] theorem get_blank (f : ResultField) : (blank : Results α).get f = .null := by
  cases f <;> rfl

variable [Scalar α]

/-- A published result is a number, or null. -/
def published : Value α → Except Misuse (Value α)
  | .null => .ok .null
  | v => v.read.map Value.number

/-- A published result under its name. -/
def entry (p : String × Value α) : Except Misuse (String × Value α) := (published p.2).map (p.1, ·)

/-- Set the result of a name, if there is one. -/
def assign (r : Results α) (p : String × Value α) : Results α :=
  match ResultField.ofName? p.1 with
  | some f => r.set f p.2
  | none => r

/-- New results with the given ones. -/
def publish (values : List (String × Value α)) : Except ResultError (Results α) :=
  match (values.map Prod.fst).filter fun n => (ResultField.ofName? n).isNone with
  | [] =>
    match values.mapM entry with
    | .error _ => .error .notNumeric
    | .ok values => .ok (values.foldl assign blank)
  | names => .error (.unknownFields (names.mergeSort (· ≤ ·)))

/-- The published results as an outcome. -/
def publication (values : List (String × Value α)) : Outcome α (Results α) :=
  match publish values with
  | .ok results => pure results
  | .error error => .fail (.results error)

end Results

end OptionDesk
