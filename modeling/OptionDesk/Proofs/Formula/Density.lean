import OptionDesk.Proofs.Formula.Values

/-!
# The normal density in the closed formula

The density of the standard normal distribution is even and is the derivative of the distribution
function. At the two scores of the closed formula what is received and what is paid weigh the same. For
this reason the value changes with its amounts and its deviation, but not with the scores.
-/
namespace OptionDesk

open ProbabilityTheory

noncomputable section

def normalDensity : ℝ → ℝ := gaussianPDFReal 0 1

theorem normalDensity_eq (y : ℝ) : normalDensity y = Real.exp (-y ^ 2 / 2) / √(2 * Real.pi) := by
  simp only [normalDensity, gaussianPDFReal, NNReal.coe_one, mul_one, sub_zero]
  exact inv_mul_eq_div _ _

theorem Score.height_finite (y : ℝ) : (Score.finite y).height = normalDensity y :=
  (normalDensity_eq y).symm

theorem normalDensity_neg (y : ℝ) : normalDensity (-y) = normalDensity y := by
  rw [normalDensity_eq, neg_sq, normalDensity_eq]

theorem continuous_normalDensity : Continuous normalDensity := by
  rw [funext normalDensity_eq]
  fun_prop

theorem normal_eq_integral (y : ℝ) : normal y = ∫ z in Set.Iic y, normalDensity z := by
  have hnonneg : 0 ≤ ∫ z in Set.Iic y, gaussianPDFReal 0 1 z :=
    MeasureTheory.setIntegral_nonneg measurableSet_Iic fun z _ => gaussianPDFReal_nonneg 0 1 z
  rw [normal, cdf_eq_real, MeasureTheory.measureReal_def,
    gaussianReal_apply_eq_integral 0 one_ne_zero, ENNReal.toReal_ofReal hnonneg]
  rfl

/-- The distribution function grows as its density. -/
theorem hasDerivAt_normal (y : ℝ) : HasDerivAt normal (normalDensity y) y := by
  have hintegrable : MeasureTheory.Integrable normalDensity := integrable_gaussianPDFReal 0 1
  have hsplit : normal = fun z => normal 0 + ∫ u in (0)..z, normalDensity u := by
    funext z
    have hdifference := intervalIntegral.integral_Iic_sub_Iic
      (hintegrable.integrableOn (s := Set.Iic 0)) (hintegrable.integrableOn (s := Set.Iic z))
    rw [← normal_eq_integral, ← normal_eq_integral] at hdifference
    linarith
  rw [hsplit]
  exact (continuous_normalDensity.integral_hasStrictDerivAt 0 y).hasDerivAt.const_add _

/-- The score of what is received against what is paid. -/
def firstScore (received paid deviation : ℝ) : ℝ :=
  (Real.log (received / paid) + 0.5 * deviation ^ 2) / deviation

/-- At two scores as far apart as the deviation, what is received weighs more or less than what is paid
by the distance from the scores of the formula. -/
theorem received_mul_density_at {a b s : ℝ} (ha : 0 < a) (hb : 0 < b) (hs : s ≠ 0) (y : ℝ) :
    a * normalDensity (y + s) =
      b * normalDensity y * Real.exp (s * (firstScore a b s - s - y)) := by
  have hscore : s * firstScore a b s = Real.log (a / b) + 0.5 * s ^ 2 := mul_div_cancel₀ _ hs
  have hexponent : -y ^ 2 / 2 + s * (firstScore a b s - s - y) =
      Real.log (a / b) + -(y + s) ^ 2 / 2 := by
    linear_combination hscore
  have hexp := congrArg Real.exp hexponent
  rw [Real.exp_add, Real.exp_add, Real.exp_log (div_pos ha hb)] at hexp
  rw [normalDensity_eq, normalDensity_eq]
  calc a * (Real.exp (-(y + s) ^ 2 / 2) / √(2 * Real.pi))
      = b * (a / b * Real.exp (-(y + s) ^ 2 / 2)) / √(2 * Real.pi) := by field_simp
    _ = b * (Real.exp (-y ^ 2 / 2) / √(2 * Real.pi)) * Real.exp (s * (firstScore a b s - s - y)) := by
      rw [← hexp]
      ring

/-- What is received and what is paid weigh the same at their scores. -/
theorem received_mul_density {a b s : ℝ} (ha : 0 < a) (hb : 0 < b) (hs : s ≠ 0) :
    a * normalDensity (firstScore a b s) = b * normalDensity (firstScore a b s - s) := by
  have hequal := received_mul_density_at ha hb hs (firstScore a b s - s)
  rwa [sub_add_cancel, sub_self, mul_zero, Real.exp_zero, mul_one] at hequal

/-- The value of the closed formula where exercise is uncertain. -/
def uncertainValue (kind : OptionType) (received paid deviation : ℝ) : ℝ :=
  kind.sign * (received * normal (kind.sign * firstScore received paid deviation) -
    paid * normal (kind.sign * (firstScore received paid deviation - deviation)))

theorem OptionType.sign_mul_self (kind : OptionType) : kind.sign * kind.sign = 1 := by
  cases kind <;> norm_num [OptionType.sign]

theorem normalDensity_sign_mul (kind : OptionType) (y : ℝ) :
    normalDensity (kind.sign * y) = normalDensity y := by
  cases kind with
  | call => rw [OptionType.sign, one_mul]
  | put => rw [OptionType.sign, neg_one_mul, normalDensity_neg]

section

variable {a b s : ℝ → ℝ} {a' b' s' u : ℝ}

/-- The scores move with their amounts. -/
theorem hasDerivAt_firstScore (ha : HasDerivAt a a' u) (hb : HasDerivAt b b' u)
    (hs : HasDerivAt s s' u) (hapos : 0 < a u) (hbpos : 0 < b u) (hspos : 0 < s u) :
    HasDerivAt (fun v => firstScore (a v) (b v) (s v))
      ((a' / a u - b' / b u - s' * (firstScore (a u) (b u) (s u) - s u)) / s u) u := by
  have hratio : a u / b u ≠ 0 := (div_pos hapos hbpos).ne'
  have h := (((ha.div hb hbpos.ne').log hratio).add ((hs.pow 2).const_mul 0.5)).div hs hspos.ne'
  refine h.congr_deriv ?_
  simp only [firstScore, Pi.div_apply, Pi.pow_apply, Pi.add_apply]
  field_simp
  ring

/-- The value changes with what is received, with what is paid and with the deviation. That the scores
move as well makes no difference. -/
theorem hasDerivAt_uncertainValue (kind : OptionType) (ha : HasDerivAt a a' u)
    (hb : HasDerivAt b b' u) (hs : HasDerivAt s s' u) (hapos : 0 < a u) (hbpos : 0 < b u)
    (hspos : 0 < s u) :
    HasDerivAt (fun v => uncertainValue kind (a v) (b v) (s v))
      (kind.sign * (a' * normal (kind.sign * firstScore (a u) (b u) (s u)) -
        b' * normal (kind.sign * (firstScore (a u) (b u) (s u) - s u))) +
        a u * normalDensity (firstScore (a u) (b u) (s u)) * s') u := by
  have hscore := hasDerivAt_firstScore ha hb hs hapos hbpos hspos
  have hreceived := (hasDerivAt_normal _).comp u (hscore.const_mul kind.sign)
  have hpaid := (hasDerivAt_normal _).comp u ((hscore.sub hs).const_mul kind.sign)
  have hbalance := received_mul_density hapos hbpos hspos.ne'
  have hsign := kind.sign_mul_self
  refine (((ha.mul hreceived).sub (hb.mul hpaid)).const_mul kind.sign).congr_deriv ?_
  simp only [Function.comp_apply, Pi.sub_apply, normalDensity_sign_mul]
  generalize (a' / a u - b' / b u - s' * (firstScore (a u) (b u) (s u) - s u)) / s u = c
  linear_combination (a u * normalDensity (firstScore (a u) (b u) (s u)) * c -
    b u * normalDensity (firstScore (a u) (b u) (s u) - s u) * (c - s')) * hsign +
    (c - s') * hbalance

end

/-- The value is differentiable where its amounts and its deviation are. -/
theorem differentiableAt_uncertainValue {E : Type*} [NormedAddCommGroup E] [NormedSpace ℝ E]
    (kind : OptionType) {a b s : E → ℝ} {u : E} (ha : DifferentiableAt ℝ a u)
    (hb : DifferentiableAt ℝ b u) (hs : DifferentiableAt ℝ s u) (hapos : 0 < a u) (hbpos : 0 < b u)
    (hspos : 0 < s u) : DifferentiableAt ℝ (fun v => uncertainValue kind (a v) (b v) (s v)) u := by
  have hratio : a u * (b u)⁻¹ ≠ 0 := mul_ne_zero hapos.ne' (inv_ne_zero hbpos.ne')
  have hscore : DifferentiableAt ℝ (fun v => firstScore (a v) (b v) (s v)) u := by
    simp only [firstScore, div_eq_mul_inv]
    exact (((ha.mul (hb.inv hbpos.ne')).log hratio).add ((hs.pow 2).const_mul _)).mul
      (hs.inv hspos.ne')
  have hnormal {g : E → ℝ} (hg : DifferentiableAt ℝ g u) :
      DifferentiableAt ℝ (fun v => normal (kind.sign * g v)) u :=
    (hasDerivAt_normal _).differentiableAt.comp u (hg.const_mul kind.sign)
  exact ((ha.mul (hnormal hscore)).sub (hb.mul (hnormal (hscore.sub hs)))).const_mul kind.sign

end

end OptionDesk
