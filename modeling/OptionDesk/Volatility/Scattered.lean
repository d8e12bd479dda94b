import OptionDesk.Volatility.Basic

/-!
# Interpolation between scattered quotes

The rules that surfaces are given where nothing else is said. Quotes lie anywhere in the plane of
strikes and expiries. Linear interpolation uses the triangle of quotes that holds the point and whose
circumscribed circle holds no other quote, and weighs the three volatilities by the barycentric
coordinates of the point. Outside all such triangles there is no volatility. The other methods are the
closest quote, and a smooth one that is here only asked at the quotes themselves.
-/

namespace OptionDesk

namespace Scattered

variable {α : Type} [Scalar α]

structure Triangle (α : Type) where
  a : Quote α
  b : Quote α
  c : Quote α

/-- All choices of two elements, in order. -/
def pairs {β : Type} : List β → List (β × β)
  | [] => []
  | x :: rest => rest.map (x, ·) ++ pairs rest

/-- All choices of three quotes, in order. -/
def triples : List (Quote α) → List (Triangle α)
  | [] => []
  | x :: rest => (pairs rest).map (fun (y, z) => ⟨x, y, z⟩) ++ triples rest

/-- Twice the signed area of the triangle of three points. -/
def area (x₁ y₁ x₂ y₂ x₃ y₃ : α) : α := (x₂ - x₁) * (y₃ - y₁) - (y₂ - y₁) * (x₃ - x₁)

namespace Triangle

def signedArea (t : Triangle α) : α :=
  area t.a.strike t.a.expiry t.b.strike t.b.expiry t.c.strike t.c.expiry

/-- Do the corners lie on one line, up to rounding? -/
def flat (t : Triangle α) : Bool :=
  let first := (t.b.strike - t.a.strike) * (t.c.expiry - t.a.expiry)
  let second := (t.b.expiry - t.a.expiry) * (t.c.strike - t.a.strike)
  decide (Scalar.abs (first - second) ≤ 1e-13 * (Scalar.abs first + Scalar.abs second))

/-- Is the quote strictly inside the circle through the corners, by more than rounding? -/
def circleHolds (t : Triangle α) (q : Quote α) : Bool :=
  let x (p : Quote α) := p.strike - q.strike
  let y (p : Quote α) := p.expiry - q.expiry
  let lift (p : Quote α) := Scalar.square (x p) + Scalar.square (y p)
  let minor (p r : Quote α) := x p * y r - x r * y p
  let size (p r : Quote α) := Scalar.abs (x p * y r) + Scalar.abs (x r * y p)
  let det := lift t.a * minor t.b t.c + lift t.b * minor t.c t.a + lift t.c * minor t.a t.b
  let bound := lift t.a * size t.b t.c + lift t.b * size t.c t.a + lift t.c * size t.a t.b
  let oriented := if t.signedArea < 0 then -det else det
  decide (1e-13 * bound < oriented)

/-- Barycentric coordinates of a point. -/
def weights (t : Triangle α) (k e : α) : α × α × α :=
  let whole := t.signedArea
  (area k e t.b.strike t.b.expiry t.c.strike t.c.expiry / whole,
    area t.a.strike t.a.expiry k e t.c.strike t.c.expiry / whole,
    area t.a.strike t.a.expiry t.b.strike t.b.expiry k e / whole)

/-- The volatility at a point of the triangle, edges and corners included. -/
def volatility? (t : Triangle α) (k e : α) : Option α :=
  let (u, v, w) := t.weights k e
  if -2e-14 ≤ u ∧ -2e-14 ≤ v ∧ -2e-14 ≤ w then
    some (u * t.a.volatility + v * t.b.volatility + w * t.c.volatility)
  else none

end Triangle

/-- The triangles whose circumscribed circle holds no quote. -/
def triangulation (quotes : List (Quote α)) : List (Triangle α) :=
  (triples quotes).filter fun t => !t.flat && quotes.all fun q => !t.circleHolds q

/-- Linear interpolation on the triangulation. -/
def linear : ScatteredRule α := fun quotes k e =>
  if (triples quotes).all Triangle.flat then .error .noTriangulation
  else .ok ((triangulation quotes).findSome? fun t => t.volatility? k e)

def distance (k e : α) (q : Quote α) : α :=
  Scalar.square (q.strike - k) + Scalar.square (q.expiry - e)

/-- The first of the closest quotes. -/
def closest (k e : α) : List (Quote α) → Option (Quote α)
  | [] => none
  | q :: rest => some (rest.foldl (fun best r =>
      if distance k e r < distance k e best then r else best) q)

def nearest : ScatteredRule α := fun quotes k e =>
  if Scalar.isNaN k || Scalar.isNaN e then .error .undefinedPoint
  else .ok ((closest k e quotes).map Quote.volatility)

/-- A smooth surface through the quotes takes their volatilities there; elsewhere this follows the
triangulation. -/
def smooth : ScatteredRule α := fun quotes k e =>
  match linear quotes k e with
  | .error m => .error m
  | .ok v => match quotes.find? fun q => q.strike == k && q.expiry == e with
    | some q => .ok (some q.volatility)
    | none => .ok v

/-- Do both coordinates of every quote pass a test? -/
def coordinates (test : α → Bool) (quotes : List (Quote α)) : Bool :=
  quotes.all fun q => test q.strike && test q.expiry

/-- Rules that measure distances need finite quotes, and those that lay triangles defined ones,
which they cannot do at infinity. -/
def rule (method : SurfaceMethod) : ScatteredRule α := fun quotes k e =>
  match method with
  | .unknown _ => .error .unknownMethod
  | .nearest =>
    if coordinates Scalar.isFinite quotes then nearest quotes k e else .error .undefinedPoint
  | method =>
    if !coordinates (!Scalar.isNaN ·) quotes then .error .undefinedPoint
    else if !coordinates Scalar.isFinite quotes then .error .noTriangulation
    else if method = .cubic then smooth quotes k e
    else linear quotes k e

end Scattered

end OptionDesk
