import OptionDesk.Scalar

/-!
# Linear interpolation

A list of points in increasing order is read as a broken line that stays level beyond its ends.
At a point the line takes exactly the height of the point.
-/

namespace OptionDesk

structure Point (α : Type) where
  x : α
  y : α

namespace Point

variable {α : Type} [Scalar α]

/-- Height at `x` of the line through two points, measured from the first one. Where that has no
value it is measured from the second one, and a level line has a height in any case. -/
def line (p q : Point α) (x : α) : α :=
  let slope := (q.y - p.y) / (q.x - p.x)
  let fromFirst := slope * (x - p.x) + p.y
  let fromSecond := slope * (x - q.x) + q.y
  if !Scalar.isNaN fromFirst then fromFirst
  else if Scalar.isNaN fromSecond && p.y == q.y then p.y
  else fromSecond

/-- Height at `x`, which is not before `p`, of the line through `p` and the points after it. -/
def follow (x : α) : Point α → List (Point α) → α
  | p, [] => p.y
  | p, q :: rest =>
    if q.x ≤ x then follow x q rest
    else if p.x == x then p.y
    else line p q x

/-- Height of the broken line at `x`. A single point makes a level line. -/
def interpolate (points : List (Point α)) (x : α) : α :=
  match points with
  | [] => Scalar.undefined
  | [p] => p.y
  | p :: q :: rest =>
    let last := rest.getLastD q
    if Scalar.isNaN x then x
    else if last.x < x then last.y
    else if x < p.x then p.y
    else follow x p (q :: rest)

@[simp] theorem interpolate_singleton (p : Point α) (x : α) : interpolate [p] x = p.y := rfl

end Point

end OptionDesk
