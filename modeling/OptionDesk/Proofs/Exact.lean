import OptionDesk.Scalar
import Mathlib.Analysis.SpecialFunctions.Log.Basic
import Mathlib.Analysis.SpecialFunctions.Sqrt
import Mathlib.Probability.CDF
import Mathlib.Probability.Distributions.Gaussian.Real

/-!
# Exact numbers

The scalars over which the laws of exact arithmetic are stated: the real numbers, two infinities and
an undefined number. Operations on real numbers are those of the field, without rounding and without
overflow; what has no value among the real numbers is infinite or undefined, and an undefined number
compares with nothing. Zero has no sign, so a quotient by zero has the sign of its dividend.

Sums, products and comparisons of real numbers stay among them. The lemmas at the end say so, and
a proof about finite data uses nothing else.
-/
namespace OptionDesk

/-- A real number, a limit beyond all of them, or no number. -/
inductive Exact
  | real (x : ℝ)
  | above
  | below
  | undefined

namespace Exact

noncomputable section

/-- A real number of the same sign, except that an undefined number has none. -/
def sign : Exact → ℝ
  | real x => x
  | above => 1
  | below => -1
  | undefined => 0

/-- The infinity of a sign. -/
def infinite (s : ℝ) : Exact :=
  if 0 < s then above else if s < 0 then below else undefined

def neg : Exact → Exact
  | real x => real (-x)
  | above => below
  | below => above
  | undefined => undefined

def add : Exact → Exact → Exact
  | real x, real y => real (x + y)
  | undefined, _ | _, undefined => undefined
  | above, below | below, above => undefined
  | above, _ | _, above => above
  | below, _ | _, below => below

def mul : Exact → Exact → Exact
  | real x, real y => real (x * y)
  | x, y => infinite (x.sign * y.sign)

def div : Exact → Exact → Exact
  | real x, real y => if y = 0 then infinite x else real (x / y)
  | real _, above | real _, below => real 0
  | x, real y => infinite (if y < 0 then -x.sign else x.sign)
  | _, _ => undefined

def lt : Exact → Exact → Prop
  | real x, real y => x < y
  | below, real _ | real _, above | below, above => True
  | _, _ => False

def le (x y : Exact) : Prop := lt x y ∨ (x = y ∧ x ≠ undefined)

open Classical

instance : Scalar Exact where
  zero := real 0
  one := real 1
  add := add
  sub x y := add x (neg y)
  mul := mul
  div := div
  neg := neg
  natCast n := real n
  intCast n := real n
  ofScientific mantissa negative exponent :=
    real (OfScientific.ofScientific mantissa negative exponent)
  lt := lt
  le := le
  beq x y := decide (x = y ∧ x ≠ undefined)
  max x y := if lt x y ∨ y = undefined then y else x
  min x y := if lt y x ∨ y = undefined then y else x
  decLt _ _ := propDecidable _
  decLe _ _ := propDecidable _
  exp
    | real x => real (Real.exp x)
    | above => above
    | below => real 0
    | undefined => undefined
  log
    | real x => if 0 < x then real (Real.log x) else if x = 0 then below else undefined
    | above => above
    | _ => undefined
  sqrt
    | real x => if 0 ≤ x then real (Real.sqrt x) else undefined
    | above => above
    | _ => undefined
  pi := real Real.pi
  normalCdf
    | real x => real (ProbabilityTheory.cdf (ProbabilityTheory.gaussianReal 0 1) x)
    | above => real 1
    | below => real 0
    | undefined => undefined
  isNaN
    | undefined => true
    | _ => false
  isFinite
    | real _ => true
    | _ => false
  undefined := undefined
  infinity := above
  trunc
    | real x => if 0 ≤ x then ⌊x⌋ else ⌈x⌉
    | _ => 0

end

/-- Exact arithmetic with any function in the place of the exponential. -/
noncomputable abbrev withExp (exp : Exact → Exact) : Scalar Exact :=
  { (inferInstance : Scalar Exact) with exp }

/-! ## Real numbers among the exact ones -/

variable (x y : ℝ)

@[simp] theorem zero_eq : (0 : Exact) = real 0 := rfl

@[simp] theorem one_eq : (1 : Exact) = real 1 := rfl

@[simp] theorem natCast_eq (n : ℕ) : (n : Exact) = real n := rfl

@[simp] theorem intCast_eq (n : ℤ) : (n : Exact) = real n := rfl

/-- A decimal literal is the real number that it writes. -/
@[simp] theorem ofScientific_eq (mantissa : ℕ) (negative : Bool) (exponent : ℕ) :
    (OfScientific.ofScientific mantissa negative exponent : Exact) =
      real (OfScientific.ofScientific mantissa negative exponent) := rfl

@[simp] theorem real_add : real x + real y = real (x + y) := rfl

@[simp] theorem real_neg : -real x = real (-x) := rfl

@[simp] theorem real_sub : real x - real y = real (x - y) := by
  show real (x + -y) = real (x - y)
  rw [sub_eq_add_neg]

@[simp] theorem real_mul : real x * real y = real (x * y) := rfl

theorem real_div {y : ℝ} (hy : y ≠ 0) : real x / real y = real (x / y) := if_neg hy

/-- Real numbers gather in front of any other one. -/
theorem real_add_add (z : Exact) : real x + (real y + z) = real (x + y) + z := by
  cases z with
  | real z =>
    show real (x + (y + z)) = real (x + y + z)
    rw [add_assoc]
  | _ => rfl

/-- A common positive divisor of dividend and divisor cancels, also under an infinite dividend. -/
theorem div_div_div_cancel {x y : ℝ} (hx : 0 < x) (hy : 0 < y) (z : Exact) :
    z / real x / (real y / real x) = z / real y := by
  have hpositive : ∀ w : ℝ, 0 < w →
      above / real w = above ∧ below / real w = below ∧ undefined / real w = undefined := by
    intro w hw
    refine ⟨?_, ?_, ?_⟩
    · show infinite (if w < 0 then -1 else 1) = above
      simp [infinite, hw.le.not_gt]
    · show infinite (if w < 0 then - -1 else -1) = below
      simp [infinite, hw.le.not_gt]
    · show infinite (if w < 0 then -0 else 0) = undefined
      simp [infinite]
  have hyx : 0 < y / x := div_pos hy hx
  rw [real_div y hx.ne']
  cases z with
  | real z =>
    rw [real_div z hx.ne', real_div _ hyx.ne', real_div z hy.ne', div_div_div_cancel_right₀ hx.ne']
  | above => rw [(hpositive x hx).1, (hpositive _ hyx).1, (hpositive y hy).1]
  | below => rw [(hpositive x hx).2.1, (hpositive _ hyx).2.1, (hpositive y hy).2.1]
  | undefined => rw [(hpositive x hx).2.2, (hpositive _ hyx).2.2, (hpositive y hy).2.2]

/-- Zero times any number is zero or undefined. -/
theorem mul_zero_eq (z : Exact) : z * real 0 = real 0 ∨ z * real 0 = undefined := by
  have hinfinite : infinite (z.sign * 0) = undefined := by simp [infinite]
  cases z with
  | real z => exact .inl (by rw [real_mul, mul_zero])
  | _ => exact .inr hinfinite

/-- The difference of a number and itself is zero or undefined. -/
theorem sub_self_eq (z : Exact) : z - z = real 0 ∨ z - z = undefined := by
  cases z with
  | real z => exact .inl (by rw [real_sub, sub_self])
  | _ => exact .inr rfl

theorem max_undefined (x : ℝ) : max undefined (real x) = undefined := by
  have hlt : ¬(lt undefined (real x) ∨ real x = undefined) := by simp [lt]
  exact if_neg hlt

@[simp] theorem real_square : Scalar.square (real x) = real (x ^ 2) := by
  simp only [Scalar.square, real_mul, sq]

@[simp] theorem real_lt : real x < real y ↔ x < y := Iff.rfl

@[simp] theorem real_le : real x ≤ real y ↔ x ≤ y := by
  show lt (real x) (real y) ∨ (real x = real y ∧ real x ≠ undefined) ↔ x ≤ y
  simp only [lt, real.injEq, ne_eq, reduceCtorEq, not_false_eq_true, and_true]
  exact le_iff_lt_or_eq.symm

/-- An undefined number is not even at most itself. -/
theorem not_undefined_le (x : Exact) : ¬undefined ≤ x := by
  rintro (hlt | ⟨-, hne⟩)
  · cases hlt
  · exact hne rfl

theorem not_real_lt_zero {x : ℝ} : ¬real x < 0 ↔ 0 ≤ x := by
  rw [zero_eq, real_lt, not_lt]

theorem not_real_le_zero {x : ℝ} : ¬real x ≤ 0 ↔ 0 < x := by
  rw [zero_eq, real_le, not_le]

@[simp] theorem real_min : min (real x) (real y) = real (min x y) := by
  classical
  have h : min (real x) (real y) = if lt (real y) (real x) ∨ real y = undefined then real y
      else real x := rfl
  rw [h]
  by_cases hxy : y < x
  · simp [lt, hxy, min_eq_right hxy.le]
  · simp [lt, hxy, min_eq_left (not_lt.mp hxy)]

@[simp] theorem real_max : max (real x) (real y) = real (max x y) := by
  classical
  have h : max (real x) (real y) = if lt (real x) (real y) ∨ real y = undefined then real y
      else real x := rfl
  rw [h]
  by_cases hxy : x < y
  · simp [lt, hxy, max_eq_right hxy.le]
  · simp [lt, hxy, max_eq_left (not_lt.mp hxy)]

theorem real_sqrt {x : ℝ} (hx : 0 ≤ x) : Scalar.sqrt (real x) = real (Real.sqrt x) := if_pos hx

@[simp] theorem real_exp : Scalar.exp (real x) = real (Real.exp x) := rfl

theorem real_log {x : ℝ} (hx : 0 < x) : Scalar.log (real x) = real (Real.log x) := if_pos hx

@[simp] theorem real_abs : Scalar.abs (real x) = real |x| := by
  rw [Scalar.abs, real_neg, real_max, abs_eq_max_neg]

theorem real_beq : (real x == real y) = decide (x = y) := by
  classical
  have h : (real x == real y) = decide (real x = real y ∧ real x ≠ undefined) := by
    simp only [BEq.beq]
  simp [h]

@[simp] theorem isNaN_real : Scalar.isNaN (real x) = false := rfl

@[simp] theorem isFinite_real : Scalar.isFinite (real x) = true := rfl

theorem isFinite_iff {x : Exact} : Scalar.isFinite x = true ↔ ∃ r, x = real r := by
  cases x <;> simp [Scalar.isFinite]

/-- A sum is real only when its summands are. -/
theorem add_eq_real {x y : Exact} {z : ℝ} (h : x + y = real z) :
    ∃ a b : ℝ, x = real a ∧ y = real b ∧ a + b = z := by
  cases x <;> cases y <;> first | exact ⟨_, _, rfl, rfl, real.inj h⟩ | cases h

/-- A product is real only when its factors are. -/
theorem mul_eq_real {x y : Exact} {z : ℝ} (h : x * y = real z) :
    ∃ a b : ℝ, x = real a ∧ y = real b ∧ a * b = z := by
  have hinfinite (s : ℝ) : infinite s ≠ real z := by
    unfold infinite
    split_ifs <;> exact Exact.noConfusion
  cases x with
  | real a =>
    cases y with
    | real b => exact ⟨a, b, rfl, rfl, Exact.real.inj h⟩
    | _ => exact absurd h (hinfinite _)
  | _ => exact absurd h (hinfinite _)

theorem isFinite_add {x y : Exact} :
    Scalar.isFinite (x + y) = true ↔ Scalar.isFinite x = true ∧ Scalar.isFinite y = true := by
  constructor
  · intro h
    obtain ⟨z, hz⟩ := isFinite_iff.mp h
    obtain ⟨a, b, rfl, rfl, -⟩ := add_eq_real hz
    exact ⟨rfl, rfl⟩
  · rintro ⟨hx, hy⟩
    obtain ⟨a, rfl⟩ := isFinite_iff.mp hx
    obtain ⟨b, rfl⟩ := isFinite_iff.mp hy
    rfl

theorem isFinite_mul {x y : Exact} :
    Scalar.isFinite (x * y) = true ↔ Scalar.isFinite x = true ∧ Scalar.isFinite y = true := by
  constructor
  · intro h
    obtain ⟨z, hz⟩ := isFinite_iff.mp h
    obtain ⟨a, b, rfl, rfl, -⟩ := mul_eq_real hz
    exact ⟨rfl, rfl⟩
  · rintro ⟨hx, hy⟩
    obtain ⟨a, rfl⟩ := isFinite_iff.mp hx
    obtain ⟨b, rfl⟩ := isFinite_iff.mp hy
    rfl

/-- A decimal fraction as a quotient. -/
theorem decimal_eq (units places : ℕ) :
    (OfScientific.ofScientific units true places : ℝ) = units / 10 ^ places := by
  rw [NNRatCast.ofScientific_eq_ite, if_pos rfl,
    NNRat.cast_divNat_of_ne_zero _ (by positivity), Nat.cast_pow]
  rfl

theorem ofDecimal_eq (units : ℤ) (places : ℕ) :
    (Scalar.ofDecimal units places : Exact) = real (units / 10 ^ places) := by
  have hmagnitude : (OfScientific.ofScientific units.natAbs true places : ℝ) =
      |(units : ℝ)| / 10 ^ places := by
    rw [decimal_eq, Nat.cast_natAbs, Int.cast_abs]
  unfold Scalar.ofDecimal
  rw [ofScientific_eq, hmagnitude]
  by_cases h : units < 0
  · have habs : |(units : ℝ)| = -units := abs_of_neg (by exact_mod_cast h)
    simp [if_pos h, habs, neg_div]
  · have habs : |(units : ℝ)| = units := abs_of_nonneg (by exact_mod_cast not_lt.mp h)
    simp [if_neg h, habs]

/-- The real number that a finite number is. -/
def real? : Exact → Option ℝ
  | real x => some x
  | _ => none

theorem real?_eq_some_iff {x : Exact} {r : ℝ} : x.real? = some r ↔ x = real r := by
  cases x <;> simp [real?]

theorem real?_eq_none_iff {x : Exact} : x.real? = none ↔ Scalar.isFinite x = false := by
  cases x <;> simp [real?, Scalar.isFinite]

/-- The real numbers of a list, if all its entries are finite. -/
def reals? : List Exact → Option (List ℝ)
  | [] => some []
  | x :: xs => match x.real?, reals? xs with
    | some r, some rs => some (r :: rs)
    | _, _ => none

theorem eq_map_of_reals? {xs : List Exact} {rs : List ℝ} (h : reals? xs = some rs) :
    xs = rs.map real := by
  induction xs generalizing rs with
  | nil =>
    cases h
    rfl
  | cons x xs ih =>
    simp only [reals?] at h
    split at h
    · rename_i r rs' hr hrs
      cases h
      rw [List.map_cons, real?_eq_some_iff.mp hr, ih hrs]
    · cases h

/-- A list lacks real numbers exactly if some entry is not finite. -/
theorem reals?_eq_none_iff {xs : List Exact} :
    reals? xs = none ↔ xs.all Scalar.isFinite = false := by
  induction xs with
  | nil => simp [reals?]
  | cons x xs ih =>
    rw [List.all_cons, Bool.and_eq_false_iff, ← ih, ← real?_eq_none_iff, reals?]
    cases x.real? <;> cases reals? xs <;> simp

/-- The sum of real numbers, taken from the left, is their sum. -/
@[simp] theorem sum_real (rs : List ℝ) : Scalar.sum (rs.map real) = real rs.sum := by
  have h : ∀ (rs : List ℝ) (a : ℝ),
      (rs.map real).foldl (· + ·) (real a) = real (a + rs.sum) := by
    intro rs
    induction rs with
    | nil => simp
    | cons r rs ih =>
      intro a
      rw [List.map_cons, List.foldl_cons, real_add, ih, List.sum_cons, add_assoc]
  have h0 := h rs 0
  rwa [zero_add] at h0

end Exact

end OptionDesk
