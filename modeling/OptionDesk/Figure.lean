import OptionDesk.Scalar
import OptionDesk.Text.Number
import OptionDesk.Error.Misuse

/-!
# Figures

A figure is what a client writes where a number is wanted: a number, a truth value or a text. It
keeps its form. Reading it gives a number, if the text is one; as an operand of arithmetic a text
will not do, except that a whole number of copies of it is a text again. Truth values count as zero
and one, and what is counted with them is a whole number.
-/

namespace OptionDesk

inductive Figure (α : Type)
  | number (x : α)
  | whole (n : Int)
  | truth (b : Bool)
  | text (s : String)

namespace Figure

variable {α : Type} [Scalar α]

/-- The whole number that a figure counts. -/
def count? : Figure α → Option Int
  | whole n => some n
  | truth b => some (if b then 1 else 0)
  | _ => none

/-- The number that arithmetic and comparison work with. -/
def operand : Figure α → Except Misuse α
  | number x => .ok x
  | whole n => .ok (n : α)
  | truth b => .ok (if b then 1 else 0)
  | text _ => .error .wrongKind

/-- The number that a figure stands for. -/
def read : Figure α → Except Misuse α
  | text s => match NumberText.parse? s with
    | some n => .ok n.toScalar
    | none => .error .unreadableNumber
  | f => f.operand

@[simp] theorem read_number (x : α) : (number x).read = .ok x := rfl

@[simp] theorem operand_number (x : α) : (number x).operand = .ok x := rfl

/-- A figure that arithmetic accepts reads as the same number. -/
theorem read_of_operand {f : Figure α} {x : α} (h : f.operand = .ok x) : f.read = .ok x := by
  cases f with
  | number y => exact h
  | whole n => exact h
  | truth b => exact h
  | text s => cases h

/-- Figures that say no: zero, falsehood and the empty text. -/
def isSet : Figure α → Bool
  | number x => !(x == 0)
  | whole n => n != 0
  | truth b => b
  | text s => s != ""

/-- The greatest number of copies of a text, and the greatest length of a text. -/
def greatestLength : Nat := 0x7FFFFFFFFFFFFFFF

/-- Copies of a text one after the other; there are none for a number below one. -/
def repeated (s : String) (copies : Int) : Except Misuse String :=
  if -copies ≤ greatestLength + 1 ∧ copies ≤ greatestLength ∧
      s.length * copies.toNat ≤ greatestLength then
    .ok (String.join (List.replicate copies.toNat s))
  else .error .overflow

/-- The product as written: numbers multiply, and a text is repeated. A truth value is a number of
copies as well, so a text times a truth value is itself or empty. -/
def times : Figure α → Figure α → Except Misuse (Figure α)
  | text s, truth b | truth b, text s => .ok (text (if b then s else ""))
  | text s, whole n | whole n, text s => (repeated s n).map text
  | f, g => match f.count?, g.count? with
    | some m, some n => .ok (whole (m * n))
    | _, _ => do return number ((← f.operand) * (← g.operand))

end Figure

end OptionDesk
