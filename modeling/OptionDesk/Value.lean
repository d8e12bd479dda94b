import OptionDesk.Contract
import OptionDesk.Curve.Basic
import OptionDesk.Volatility.Basic

/-!
# Values

The terms of an option are filled in by clients, who may put anything anywhere; whether it fits is
found out by validation. A value is one such thing, and its shape says of what kind it is.
-/

namespace OptionDesk

inductive Value (α : Type)
  | null
  | figure (f : Figure α)
  | dateTime (t : DateTime)
  /-- A date without a time of day, which is not a point in time. -/
  | day (d : Date)
  | optionType (k : OptionType)
  | exercise (e : ExerciseType)
  | curve (c : Curve α)
  | volatility (v : Volatility α)
  | list (items : List (Value α))

/-- The kind of a value. -/
inductive Shape
  | null
  | truth
  | number
  | text
  | list
  | dateTime
  | day
  | optionType
  | exerciseType
  | discountCurve
  | impliedCurve
  | constantVolatility
  | volatilitySurface
  | impliedVolatility
deriving DecidableEq

namespace Value

variable {α : Type}

abbrev number (x : α) : Value α := .figure (.number x)

def shape : Value α → Shape
  | null => .null
  | figure (.number _) | figure (.whole _) => .number
  | figure (.truth _) => .truth
  | figure (.text _) => .text
  | dateTime _ => .dateTime
  | day _ => .day
  | optionType _ => .optionType
  | exercise _ => .exerciseType
  | curve (.discount _) => .discountCurve
  | curve (.implied _ _) => .impliedCurve
  | volatility (.constant _ _ _) => .constantVolatility
  | volatility (.surface _) => .volatilitySurface
  | volatility (.implied _ _) => .impliedVolatility
  | list _ => .list

variable [Scalar α]

/-- The number that a value stands for; only a figure can. -/
def read : Value α → Except Misuse α
  | figure f => f.read
  | _ => .error .wrongKind

/-- The number that arithmetic and comparison work with. -/
def operand : Value α → Except Misuse α
  | figure f => f.operand
  | _ => .error .wrongKind

@[simp] theorem read_number (x : α) : (number x).read = .ok x := rfl

@[simp] theorem operand_number (x : α) : (number x).operand = .ok x := rfl

/-- The yes or no of a value: nothing, zero and what is empty say no. -/
def isSet : Value α → Bool
  | null => false
  | figure f => f.isSet
  | list items => !items.isEmpty
  | _ => true

/-- The product of two figures as written. -/
def times : Value α → Value α → Except Misuse (Value α)
  | figure f, figure g => (f.times g).map figure
  | _, _ => .error .wrongKind

end Value

end OptionDesk
