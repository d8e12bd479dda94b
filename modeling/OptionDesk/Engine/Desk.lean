import OptionDesk.Engine.Simulated
import OptionDesk.Market
import OptionDesk.Registry

/-!
# The desk

Engines stand on a desk, each with a place of its own for its terms and its results. A decorator
prices through another engine, which several decorators may share, so what an engine is made of is
kept apart from the places: the one never changes, the other is the state of a session.
-/

namespace OptionDesk

/-- What stands at the place of an engine. -/
structure Cell (α : Type) where
  terms : Terms α
  results : Results α
  /-- Has a calculation of this decorator ever succeeded? -/
  ready : Bool
  /-- What an engine of fixed results publishes. -/
  fixed : List (String × Value α)
  calculations : Nat
  resets : Nat

def Cell.blank {α : Type} (form : TermForm) : Cell α := ⟨.blank form, .blank, false, [], 0, 0⟩

/-- The places of a desk by number. At a place where nothing has been put stand blank terms. -/
abbrev Desk (α : Type) := Registry Nat (Cell α)

namespace Desk

variable {α : Type}

def get (d : Desk α) (place : Nat) : Cell α := (d.get? place).getD (.blank .plain)

@[simp] theorem get_put_self (d : Desk α) (place : Nat) (c : Cell α) :
    get (d.put place c) place = c := by
  simp [get]

theorem get_put_of_ne (d : Desk α) {place j : Nat} (c : Cell α) (h : j ≠ place) :
    get (d.put place c) j = d.get j := by
  simp [get, Registry.get?_put_of_ne d c h]

end Desk

/-- An engine, with the place where its terms and results are. -/
inductive Engine (α : Type)
  | analytic (place : Nat)
  | monteCarlo (place : Nat) (settings : Settings α)
  /-- An engine that publishes what it was given. -/
  | fixed (place : Nat)
  /-- An engine of a client's own, which publishes what a rule makes of its terms. -/
  | custom (place : Nat) (name : String) (rule : Terms α → Outcome α (List (String × Value α)))
  /-- An engine for terms or results of another kind. -/
  | other (place : Nat) (terms : TermForm) (results : ResultForm)
  | decorator (place : Nat) (style : ForwardStyle) (inner : Engine α)

namespace Engine

variable {α : Type}

def place : Engine α → Nat
  | analytic p | monteCarlo p _ | fixed p | custom p _ _ | other p _ _ | decorator p _ _ => p

def engineClass : Engine α → EngineClass
  | analytic _ => .analytic
  | monteCarlo _ _ => .monteCarlo
  | fixed _ => .fixed
  | custom _ name _ => .custom name
  | other _ _ _ => .other
  | decorator _ style _ => .decorator style

/-- The form of terms that the engine takes. -/
def termForm : Engine α → TermForm
  | other _ form _ => form
  | decorator _ _ _ => .forward
  | _ => .plain

def resultForm : Engine α → ResultForm
  | other _ _ form => form
  | _ => .plain

/-- The engine that a decorator prices through. -/
def inner? : Engine α → Option (Engine α)
  | decorator _ _ inner => some inner
  | _ => none

/-- A simulation needs settings; without any it has the standard ones. -/
def simulated [Scalar α] (place : Nat) (settings : Value α) : Outcome α (Engine α) :=
  match settings with
  | .null => pure (.monteCarlo place Settings.standard)
  | v => .fail (.engine (.notSettings v.shape))

/-- A decorator over an engine that prices plain terms. Forward terms are plain ones with more. -/
def decorate (place : Nat) (style : ForwardStyle) (inner : Engine α) : Outcome α (Engine α) := do
  .require (inner.termForm ≠ .other) (.engine (.wrongTerms style inner.termForm))
  .require (inner.resultForm ≠ .other) (.engine (.wrongResults style inner.resultForm))
  return .decorator place style inner

/-- What is no engine cannot be decorated. -/
def decorateValue (style : ForwardStyle) (v : Value α) : Outcome α (Engine α) :=
  .fail (.engine (.notEngine style v.shape))

end Engine

/-- Give an engine its place, with blank terms and with what it publishes if that is fixed. -/
def Desk.seat {α : Type} (d : Desk α) (e : Engine α) (fixed : List (String × Value α)) : Desk α :=
  d.put e.place { Cell.blank e.termForm with fixed }

/-- A session at the desk. -/
abbrev DeskSession (α β : Type) := Session (Desk α) α β

namespace Engine

variable {α : Type} (e : Engine α)

def cell : DeskSession α (Cell α) := fun d => (pure (d.get e.place), d)

def change (f : Cell α → Cell α) : DeskSession α Unit :=
  .modify fun d => d.put e.place (f (d.get e.place))

/-- Set several fields of the terms. -/
def updateTerms (fields : List (String × Value α)) : DeskSession α Unit := do
  let c ← e.cell
  match c.terms.update fields with
  | .ok terms => e.change fun c => { c with terms }
  | .error error => .fail (.terms c.terms.form error)

def setResults (results : Results α) : DeskSession α Unit := e.change fun c => { c with results }

/-- Assign one of the results. -/
def assignResult (name : String) (v : Value α) : DeskSession α Unit :=
  match ResultField.ofName? name with
  | some f => e.change fun c => { c with results := c.results.set f v }
  | none => .fail (.misuse .missingMember)

/-- Give an engine of fixed results what it publishes. -/
def setFixed (values : List (String × Value α)) : DeskSession α Unit :=
  e.change fun c => { c with fixed := values }

/-- Clear the results. An engine of fixed results counts this. -/
def reset : DeskSession α Unit := e.change fun c =>
  { c with
    results := .blank
    resets := match e with
      | .fixed _ => c.resets + 1
      | _ => c.resets }

variable [Scalar α]

def validate : DeskSession α Unit := do
  let c ← e.cell
  .lift c.terms.validate

/-- Publish results by name. -/
def publish (values : List (String × Value α)) : DeskSession α Unit := do
  let results ← .lift <| Results.publication values
  e.setResults results

/-- Fill in what a snapshot of the market says. -/
def setMarket (m : Market α) : DeskSession α Unit := e.updateTerms m.terms

end Engine

end OptionDesk
