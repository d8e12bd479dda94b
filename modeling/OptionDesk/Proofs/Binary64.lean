import Mathlib
import OptionDesk.Proofs.Finite
import OptionDesk.Scalar.Binary64

/-!
# The order of binary64 numbers

A finite binary64 number is a whole number of steps, each as long as the least positive number. Finite
numbers compare as their numbers of steps do, because the mantissa of a number has its full length unless the
number is among those closest to zero. A difference is rounded, and rounding does not change a sign. So the
laws of finite numbers hold of the numbers on which the library runs.
-/
namespace OptionDesk.Binary64

open Float.Model Float.Model.UnpackedFloat

/-! ## Steps -/

/-- A finite number counted in steps; the others count for nothing. -/
def steps : UnpackedFloat → ℤ
  | .finite s m e _ => s.apply (m <<< (e + 1074).toNat : ℕ)
  | _ => 0

/-- The mantissa has its full length, or the exponent is the least one. -/
def IsCanonical : UnpackedFloat → Prop
  | .finite _ m e _ => m < 2 ^ 53 ∧ -1074 ≤ e ∧ (2 ^ 52 ≤ m ∨ e = -1074)
  | _ => True

theorem isCanonical_unpack (b : BitVec Format.binary64.numBits) :
    IsCanonical (UnpackedFloat.unpack Format.binary64 b) := by
  have hmantissa : (unpackMantissa b).toNat < 2 ^ 52 := (unpackMantissa b).isLt
  rw [UnpackedFloat.unpack]
  split
  · split <;> trivial
  · split
    · next hzero =>
      split
      · trivial
      · have hexponent : (unpackExponent b).toNat = 0 := by
          rw [hzero]
          rfl
        have hleast : ((unpackExponent b).toNat : ℤ) - (1023 + 52) + 1 = -1074 := by omega
        exact ⟨hmantissa.trans (by decide), hleast.ge, .inr hleast⟩
    · next hnonzero =>
      have hpositive : (unpackExponent b).toNat ≠ 0 := fun h => hnonzero (BitVec.eq_of_toNat_eq h)
      have hfull : (1#1 ++ unpackMantissa b).toNat = 2 ^ 52 + (unpackMantissa b).toNat := by
        rw [BitVec.toNat_append, ← Nat.shiftLeft_add_eq_or_of_lt (unpackMantissa b).isLt]
        rfl
      have hlow : (-1074 : ℤ) ≤ (unpackExponent b).toNat - (1023 + 52) := by omega
      exact ⟨by omega, hlow, .inl (by omega)⟩

section Magnitudes

variable {m n : ℕ} {e f : ℤ}

theorem shifted_pos (hm : 0 < m) : (0 : ℤ) < (m <<< (e + 1074).toNat : ℕ) := by
  rw [Nat.shiftLeft_eq]
  exact Int.ofNat_lt.mpr (Nat.mul_pos hm (Nat.two_pow_pos _))

/-- Of two canonical numbers the one with the greater exponent is the greater one. -/
theorem shifted_lt (hm : m < 2 ^ 53) (he : -1074 ≤ e) (hn : 2 ^ 52 ≤ n ∨ f = -1074) (hlt : e < f) :
    m <<< (e + 1074).toNat < n <<< (f + 1074).toNat := by
  obtain ⟨d, hd⟩ : ∃ d, (f + 1074).toNat = (d + 1) + (e + 1074).toNat :=
    ⟨(f - e - 1).toNat, by omega⟩
  have hfull : 2 ^ 52 ≤ n := hn.resolve_right (by omega)
  rw [hd, Nat.shiftLeft_add, Nat.shiftLeft_eq m, Nat.shiftLeft_eq _ (e + 1074).toNat]
  refine Nat.mul_lt_mul_of_pos_right ?_ (Nat.two_pow_pos _)
  calc m < 2 ^ 52 * 2 := hm
    _ ≤ n * 2 ^ (d + 1) := Nat.mul_le_mul hfull (Nat.le_self_pow (Nat.succ_ne_zero d) 2)
    _ = n <<< (d + 1) := (Nat.shiftLeft_eq _ _).symm

theorem compare_shifted (hm : m < 2 ^ 53) (he : -1074 ≤ e) (hm' : 2 ^ 52 ≤ m ∨ e = -1074)
    (hn : n < 2 ^ 53) (hf : -1074 ≤ f) (hn' : 2 ^ 52 ≤ n ∨ f = -1074) :
    (compare e f).then (compare m n) =
      compare ((m <<< (e + 1074).toNat : ℕ) : ℤ) (n <<< (f + 1074).toNat : ℕ) := by
  rcases lt_trichotomy e f with hlt | rfl | hlt
  · rw [compare_lt_iff_lt.mpr hlt, compare_lt_iff_lt.mpr (Int.ofNat_lt.mpr (shifted_lt hm he hn' hlt))]
    rfl
  · have hscale : StrictMono fun k : ℕ => ((k <<< (e + 1074).toNat : ℕ) : ℤ) := by
      intro j k hjk
      simp only [Nat.shiftLeft_eq]
      exact Int.ofNat_lt.mpr (Nat.mul_lt_mul_of_pos_right hjk (Nat.two_pow_pos _))
    have hsame : (compare e e).then (compare m n) = compare m n := by
      rw [compare_eq_iff_eq.mpr rfl]
      rfl
    rw [hsame, ← cmp_eq_compare, ← cmp_eq_compare, hscale.cmp_map_eq]
  · rw [compare_gt_iff_gt.mpr hlt, compare_gt_iff_gt.mpr (Int.ofNat_lt.mpr (shifted_lt hn hf hm' hlt))]
    rfl

/-- The steps of a number, counted from an exponent that is not above its own. -/
theorem apply_shifted (s : Sign) (m : ℕ) {d e : ℤ} (hd : -1074 ≤ d) (hde : d ≤ e) :
    s.apply (m <<< (e + 1074).toNat : ℕ) =
      s.apply (m <<< (e - d).toNat : ℕ) * 2 ^ (d + 1074).toNat := by
  have hsum : (e + 1074).toNat = (e - d).toNat + (d + 1074).toNat := by omega
  have hshift : ((m <<< (e + 1074).toNat : ℕ) : ℤ) =
      (m <<< (e - d).toNat : ℕ) * 2 ^ (d + 1074).toNat := by
    rw [hsum, Nat.shiftLeft_add, Nat.shiftLeft_eq _ (d + 1074).toNat]
    push_cast
    rfl
  cases s with
  | positive => exact hshift
  | negative => exact (congrArg (- ·) hshift).trans (neg_mul _ _).symm

end Magnitudes

theorem compare_neg_neg (x y : ℤ) : compare (-x) (-y) = (compare x y).swap := by
  rw [← cmp_eq_compare, ← cmp_eq_compare, cmp_swap]
  exact strictMono_id.neg.cmp_map_eq x y

section Finite

variable {a b : UnpackedFloat} (ha : a.isFinite = true) (hb : b.isFinite = true)
  (ha' : IsCanonical a) (hb' : IsCanonical b)

include ha hb ha' hb'

/-- Finite numbers compare as their numbers of steps. -/
theorem compare_eq_steps : a.compare b = some (compare (steps a) (steps b)) := by
  cases a with
  | infinity s => cases ha
  | notANumber => cases ha
  | zero s =>
    cases b with
    | infinity s => cases hb
    | notANumber => cases hb
    | zero s' => rfl
    | finite s' n f hn =>
      cases s' with
      | positive => exact congrArg some (compare_lt_iff_lt.mpr (shifted_pos hn)).symm
      | negative => exact congrArg some (compare_gt_iff_gt.mpr (neg_lt_zero.mpr (shifted_pos hn))).symm
  | finite s m e hm =>
    have hleft : (0 : ℤ) < (m <<< (e + 1074).toNat : ℕ) := shifted_pos hm
    cases b with
    | infinity s => cases hb
    | notANumber => cases hb
    | zero s' =>
      cases s with
      | positive => exact congrArg some (compare_gt_iff_gt.mpr hleft).symm
      | negative => exact congrArg some (compare_lt_iff_lt.mpr (neg_lt_zero.mpr hleft)).symm
    | finite s' n f hn =>
      have hright : (0 : ℤ) < (n <<< (f + 1074).toNat : ℕ) := shifted_pos hn
      have hmagnitude := compare_shifted ha'.1 ha'.2.1 ha'.2.2 hb'.1 hb'.2.1 hb'.2.2
      cases s with
      | positive =>
        cases s' with
        | positive => exact congrArg some hmagnitude
        | negative =>
          exact congrArg some (compare_gt_iff_gt.mpr ((neg_lt_zero.mpr hright).trans hleft)).symm
      | negative =>
        cases s' with
        | positive =>
          exact congrArg some (compare_lt_iff_lt.mpr ((neg_lt_zero.mpr hleft).trans hright)).symm
        | negative =>
          show some ((compare e f).then (compare m n)).swap = some (compare (-_) (-_))
          rw [hmagnitude, compare_neg_neg]

end Finite

/-! ## Signs -/

/-- Zero, or a number with a negative sign. -/
def IsNonpos : UnpackedFloat → Prop
  | .zero _ => True
  | .finite s _ _ _ => s = .negative
  | .infinity s => s = .negative
  | .notANumber => False

theorem IsNonpos.le_zero {u : UnpackedFloat} (h : IsNonpos u) : u.le (.zero .positive) = true := by
  cases u with
  | zero s => rfl
  | notANumber => exact h.elim
  | infinity s =>
    obtain rfl : s = .negative := h
    rfl
  | finite s m e hm =>
    obtain rfl : s = .negative := h
    rfl

theorem isNonpos_round (spec : Format) (m : ℕ) (e : ℤ) :
    IsNonpos (UnpackedFloat.round spec .negative m e) := by
  simp only [UnpackedFloat.round, roundWithAccuracy]
  split
  · trivial
  · rfl

theorem isNonpos_normalize (spec : Format) {m : ℤ} (h : m ≤ 0) (e : ℤ) (s : Sign) :
    IsNonpos (UnpackedFloat.normalize spec m e s) := by
  rw [UnpackedFloat.normalize]
  split
  · exact isNonpos_round _ _ _
  · trivial
  · next hpositive => exact absurd (compare_gt_iff_gt.mp hpositive) (not_lt.mpr h)

/-- A number that is packed keeps its sign, also where it becomes infinite. -/
theorem IsNonpos.packed {u : UnpackedFloat} (h : IsNonpos u) :
    IsNonpos (UnpackedFloat.unpack Format.binary64 (UnpackedFloat.pack Format.binary64 u)) := by
  have hcomponents (e : BitVec 11) (m : BitVec 52) (he : e ≠ -1#11 ∨ m = 0#52) :
      IsNonpos (UnpackedFloat.unpack Format.binary64 (packComponents Format.binary64 .negative e m)) := by
    rw [UnpackedFloat.unpack]
    simp only [unpackMantissa_packComponents, unpackExponent_packComponents, unpackSign_packComponents,
      Sign.ofBitVec_toBitVec]
    split
    · next hall =>
      rw [if_pos (he.resolve_left (not_not_intro hall))]
      rfl
    · split
      · split
        · trivial
        · rfl
      · rfl
  cases u with
  | zero s => cases s <;> trivial
  | notANumber => exact h.elim
  | infinity s =>
    obtain rfl : s = .negative := h
    rfl
  | finite s m e hm =>
    obtain rfl : s = .negative := h
    rw [UnpackedFloat.pack]
    dsimp only
    split
    · exact hcomponents _ _ (.inr rfl)
    · next hinside =>
      split
      · refine hcomponents _ _ (.inl fun hall => hinside ?_)
        have hlast := congrArg BitVec.toNat hall
        rw [BitVec.toNat_ofNat] at hlast
        exact (congrArg Nat.succ hlast).ge.trans (Nat.succ_le_succ (Nat.mod_le _ _))
      · exact hcomponents _ _ (.inl (by decide))

/-- A difference is not positive where the steps say so: it is rounded after it has been taken exactly. -/
theorem isNonpos_sub {a b : UnpackedFloat} (ha : a.isFinite = true) (hb : b.isFinite = true)
    (ha' : IsCanonical a) (hb' : IsCanonical b) (h : steps a ≤ steps b) :
    IsNonpos (UnpackedFloat.sub Format.binary64 a b) := by
  cases a with
  | infinity s => cases ha
  | notANumber => cases ha
  | zero s =>
    cases b with
    | infinity s => cases hb
    | notANumber => cases hb
    | zero s' => cases s <;> cases s' <;> trivial
    | finite s' n f hn =>
      cases s' with
      | positive => rfl
      | negative => exact absurd h (not_le.mpr (neg_lt_zero.mpr (shifted_pos hn)))
  | finite s m e hm =>
    cases b with
    | infinity s => cases hb
    | notANumber => cases hb
    | zero s' =>
      cases s with
      | positive => exact absurd h (not_le.mpr (shifted_pos hm))
      | negative => rfl
    | finite s' n f hn =>
      have hlow : -1074 ≤ min e f := le_min ha'.2.1 hb'.2.1
      refine isNonpos_normalize _ ?_ _ _
      simp only [steps, apply_shifted s m hlow (min_le_left e f),
        apply_shifted s' n hlow (min_le_right e f)] at h
      exact sub_nonpos.mpr (le_of_mul_le_mul_right h (pow_pos two_pos _))

/-! ## Numbers -/

/-- The steps of a number. -/
def count (x : Float) : ℤ := steps x.toModel.unpack

section

variable {x y : Float} (hx : Scalar.isFinite x = true) (hy : Scalar.isFinite y = true)

include hx hy

theorem lt_iff_count : x < y ↔ count x < count y := by
  have hcompare := compare_eq_steps hx hy (isCanonical_unpack _) (isCanonical_unpack _)
  have hlt : x < y ↔ x.toModel.unpack.lt y.toModel.unpack = true := decide_eq_true_iff
  rw [hlt, UnpackedFloat.lt, hcompare, beq_iff_eq, Option.some_inj, compare_lt_iff_lt]
  rfl

theorem le_iff_count : x ≤ y ↔ count x ≤ count y := by
  have hcompare := compare_eq_steps hx hy (isCanonical_unpack _) (isCanonical_unpack _)
  have hle : x ≤ y ↔ x.toModel.unpack.le y.toModel.unpack = true := decide_eq_true_iff
  have horder : compare (count x) (count y) ≠ .gt ↔ count x ≤ count y := compare_le_iff_le
  rw [hle, UnpackedFloat.le, hcompare, Option.any_some, Ordering.isLE_iff_ne_gt, ← horder]
  rfl

theorem sub_le_zero (h : count y ≤ count x) : y - x ≤ 0 := by
  have hsub := isNonpos_sub hy hx (isCanonical_unpack _) (isCanonical_unpack _) h
  exact decide_eq_true hsub.packed.le_zero

end

/-- The laws of finite numbers hold of binary64 numbers. -/
theorem ordersFinite : Scalar.OrdersFinite Float where
  pos_of_not_le x hx h := by
    rw [le_iff_count hx rfl, not_le] at h
    exact (lt_iff_count rfl hx).mpr h
  nonneg_of_not_lt x hx h := by
    rw [lt_iff_count hx rfl, not_lt] at h
    exact (le_iff_count rfl hx).mpr h
  lt_of_not_sub_le x y hx hy h := by
    rw [lt_iff_count hx hy]
    by_contra hle
    exact h (sub_le_zero hx hy (not_lt.mp hle))
  lt_trans x y z hx hy hz hxy hyz := by
    rw [lt_iff_count hx hy] at hxy
    rw [lt_iff_count hy hz] at hyz
    exact (lt_iff_count hx hz).mpr (hxy.trans hyz)

end OptionDesk.Binary64
