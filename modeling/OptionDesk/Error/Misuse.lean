/-!
# Misuse

The ways in which a value can fail to fit the operation it is given to, before any rule of pricing
is asked. They carry no text.
-/

namespace OptionDesk

inductive Misuse
  /-- A text that is not a number, where a number is read. -/
  | unreadableNumber
  /-- Nested lists whose rows differ in shape, where a table is read. -/
  | raggedTable
  /-- An interpolation method that does not exist. -/
  | unknownMethod
  /-- The closest point to an undefined one. -/
  | undefinedPoint
  /-- A random seed below zero. -/
  | negativeSeed
  /-- A value of a kind for which the operation is not defined. -/
  | wrongKind
  /-- A name that is not among the ones an operation takes. -/
  | unknownName
  /-- A member that the value does not have. -/
  | missingMember
  /-- Division of a number by zero. -/
  | divisionByZero
  /-- A number too large for the operation. -/
  | overflow
  /-- The first of no elements. -/
  | noElements
  /-- A triangulation of points that lie on one line. -/
  | noTriangulation
  /-- A change to something that does not change. -/
  | immutable
deriving DecidableEq

end OptionDesk
