import OptionDesk.Calendar
import OptionDesk.DayCount
import OptionDesk.Figure

/-!
# Discount curves

A discount curve holds discount factors at nodes, measured in years from its reference date. A curve
may carry the flat rate that its nodes follow; it is then not interpolated. An implied curve is a
view of another one from a reference date that is not earlier.
-/

namespace OptionDesk

/-- A discount factor at a time. -/
structure Node (α : Type) where
  time : α
  factor : α

structure DiscountCurve (α : Type) where
  reference : DateTime
  nodes : List (Node α)
  flatRate : Option (Figure α)
  dayCount : DayCount

namespace DiscountCurve

variable {α : Type}

def times (c : DiscountCurve α) : List α := c.nodes.map Node.time

def factors (c : DiscountCurve α) : List α := c.nodes.map Node.factor

end DiscountCurve

inductive Curve (α : Type)
  | discount (c : DiscountCurve α)
  | implied (base : Curve α) (reference : DateTime)

namespace Curve

variable {α : Type}

def reference : Curve α → DateTime
  | discount c => c.reference
  | implied _ reference => reference

/-- An implied curve counts days as its base does. -/
def dayCount : Curve α → DayCount
  | discount c => c.dayCount
  | implied base _ => base.dayCount

end Curve

end OptionDesk
