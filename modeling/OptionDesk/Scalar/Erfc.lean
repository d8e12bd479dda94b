/-!
# The complementary error function on binary64 numbers

`erfc x` is the integral of `2/sqrt(pi) * exp(-t*t)` from `x` to infinity. It is evaluated by
quotients of polynomials, one pair for each range of the magnitude, and keeps its relative accuracy
in the upper tail, where the factor `exp(-x*x)` is split so that squaring loses nothing.
-/

namespace OptionDesk.Erfc

/-- A polynomial by its coefficients, constant term first. -/
def polynomial (coefficients : List Float) (x : Float) : Float :=
  coefficients.foldr (fun c r => c + x * r) 0.0

/-- Numerator and denominator of a rational function. -/
structure RationalFunction where
  numerator : List Float
  denominator : List Float

def RationalFunction.eval (r : RationalFunction) (x : Float) : Float :=
  polynomial r.numerator x / polynomial r.denominator x

/-- Below 0.84375, in the square of the argument. -/
def central : RationalFunction where
  numerator := [1.28379167095512558561e-01, -3.25042107247001499370e-01,
    -2.84817495755985104766e-02, -5.77027029648944159157e-03, -2.37630166566501626084e-05]
  denominator := [1.0, 3.97917223959155352819e-01, 6.50222499887672944485e-02,
    5.08130628187576562776e-03, 1.32494738004321644526e-04, -3.96022827877536812320e-06]

/-- From 0.84375 to 1.25, in the distance from one. -/
def nearOne : RationalFunction where
  numerator := [-2.36211856075265944077e-03, 4.14856118683748331666e-01,
    -3.72207876035701323847e-01, 3.18346619901161753674e-01, -1.10894694282396677476e-01,
    3.54783043256182359371e-02, -2.16637559486879084300e-03]
  denominator := [1.0, 1.06420880400844228286e-01, 5.40397917702171048937e-01,
    7.18286544141962662868e-02, 1.26171219808761642112e-01, 1.36370839120290507362e-02,
    1.19844998467991074170e-02]

/-- From 1.25 to 1/0.35, in the reciprocal of the square. -/
def middle : RationalFunction where
  numerator := [-9.86494403484714822705e-03, -6.93858572707181764372e-01,
    -1.05586262253232909814e+01, -6.23753324503260060396e+01, -1.62396669462573470355e+02,
    -1.84605092906711035994e+02, -8.12874355063065934246e+01, -9.81432934416914548592e+00]
  denominator := [1.0, 1.96512716674392571292e+01, 1.37657754143519042600e+02,
    4.34565877475229228821e+02, 6.45387271733267880336e+02, 4.29008140027567833386e+02,
    1.08635005541779435134e+02, 6.57024977031928170135e+00, -6.04244152148580987438e-02]

/-- Beyond 1/0.35, in the reciprocal of the square. -/
def tail : RationalFunction where
  numerator := [-9.86494292470009928597e-03, -7.99283237680523006574e-01,
    -1.77579549177547519889e+01, -1.60636384855821916062e+02, -6.37566443368389627722e+02,
    -1.02509513161107724954e+03, -4.83519191608651397019e+02]
  denominator := [1.0, 3.03380607434824582924e+01, 3.25792512996573918826e+02,
    1.53672958608443695994e+03, 3.19985821950859553908e+03, 2.55305040643316442583e+03,
    4.74528541206955367215e+02, -2.24409524465858183362e+01]

/-- The error function at one, to single precision: the base of the range around one. -/
def atOne : Float := 8.45062911510467529297e-01

/-- The leading half of the significand, whose square is exact. -/
def leadingHalf (x : Float) : Float := Float.ofBits (x.toBits &&& 0xffffffff00000000)

/-- The upper tail at a magnitude of at least 1.25. -/
def upperTail (a : Float) : Float :=
  let s := 1.0 / (a * a)
  let r := if a < 1.0 / 0.35 then middle.eval s else tail.eval s
  let z := leadingHalf a
  Float.exp (-(z * z) - 0.5625) * Float.exp ((z - a) * (z + a) + r) / a

/-- The complementary error function. -/
def erfc (x : Float) : Float :=
  let a := x.abs
  if x.isNaN then x
  else if a < 0.84375 then
    let y := central.eval (x * x)
    if x < 0.25 then 1.0 - (x + x * y) else 0.5 - (x * y + (x - 0.5))
  else if a < 1.25 then
    let q := nearOne.eval (a - 1.0)
    if 0.0 ≤ x then 1.0 - atOne - q else 1.0 + (atOne + q)
  else if a < 28.0 then
    if 0.0 < x then upperTail a else 2.0 - upperTail a
  else if 0.0 < x then 0.0 else 2.0

end OptionDesk.Erfc
