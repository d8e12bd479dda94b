import OptionDesk.PathPricer
import OptionDesk.Proofs.Statistics
import Mathlib.Analysis.Convex.Function

/-!
# No arbitrage on sampled paths

The relations that no arbitrage imposes on the prices of European options with one maturity hold on each
single path, for the discounted payoffs there. They are kept by sums and by multiples that are not
negative, so the prices that keep them form a cone, and averages over any number of paths are in it,
with each path alone or together with its reflection.
-/
namespace OptionDesk

open Exact

/-! ## A cone of prices -/

/-- The prices of calls and puts at all strikes, when the strike is paid at the factor `D`. -/
structure NoArbitrage (D : ℝ) (C P : ℝ → ℝ) : Prop where
  parity : ∀ K, 0 ≤ K → C K - P K = C 0 - D * K
  call_bounds : ∀ K, 0 ≤ K → max 0 (C 0 - D * K) ≤ C K ∧ C K ≤ C 0
  put_bounds : ∀ K, 0 ≤ K → max 0 (D * K - C 0) ≤ P K ∧ P K ≤ D * K
  slope : ∀ K₁ K₂, 0 ≤ K₁ → K₁ ≤ K₂ → 0 ≤ C K₁ - C K₂ ∧ C K₁ - C K₂ ≤ D * (K₂ - K₁)
  convex : ConvexOn ℝ (Set.Ici 0) C

section Bounds

variable {low low' price price' high high' a : ℝ}

theorem bounds_add (h : max 0 low ≤ price ∧ price ≤ high)
    (h' : max 0 low' ≤ price' ∧ price' ≤ high') :
    max 0 (low + low') ≤ price + price' ∧ price + price' ≤ high + high' := by
  rw [max_le_iff] at h h' ⊢
  exact ⟨⟨add_nonneg h.1.1 h'.1.1, add_le_add h.1.2 h'.1.2⟩, add_le_add h.2 h'.2⟩

theorem bounds_mul (ha : 0 ≤ a) (h : max 0 low ≤ price ∧ price ≤ high) :
    max 0 (a * low) ≤ a * price ∧ a * price ≤ a * high := by
  rw [max_le_iff] at h ⊢
  exact ⟨⟨mul_nonneg ha h.1.1, mul_le_mul_of_nonneg_left h.1.2 ha⟩,
    mul_le_mul_of_nonneg_left h.2 ha⟩

end Bounds

namespace NoArbitrage

variable {D D' : ℝ} {C C' P P' : ℝ → ℝ}

theorem zero : NoArbitrage 0 (fun _ => 0) (fun _ => 0) where
  parity := by simp
  call_bounds := by simp
  put_bounds := by simp
  slope := by simp
  convex := convexOn_const 0 (convex_Ici 0)

theorem add (h : NoArbitrage D C P) (h' : NoArbitrage D' C' P') :
    NoArbitrage (D + D') (fun K => C K + C' K) (fun K => P K + P' K) where
  parity K hK := by linarith [h.parity K hK, h'.parity K hK]
  call_bounds K hK := by
    have hbounds := bounds_add (h.call_bounds K hK) (h'.call_bounds K hK)
    rwa [sub_add_sub_comm, ← add_mul] at hbounds
  put_bounds K hK := by
    have hbounds := bounds_add (h.put_bounds K hK) (h'.put_bounds K hK)
    rwa [sub_add_sub_comm, ← add_mul] at hbounds
  slope K₁ K₂ h₁ h₂ := by
    obtain ⟨hlow, hhigh⟩ := h.slope K₁ K₂ h₁ h₂
    obtain ⟨hlow', hhigh'⟩ := h'.slope K₁ K₂ h₁ h₂
    exact ⟨by linarith, by linarith⟩
  convex := h.convex.add h'.convex

theorem scale (h : NoArbitrage D C P) {a : ℝ} (ha : 0 ≤ a) :
    NoArbitrage (a * D) (fun K => a * C K) (fun K => a * P K) where
  parity K hK := by
    have hparity := congrArg (a * ·) (h.parity K hK)
    simp only [mul_sub] at hparity
    linarith
  call_bounds K hK := by
    have hbounds := bounds_mul ha (h.call_bounds K hK)
    rwa [mul_sub, ← mul_assoc] at hbounds
  put_bounds K hK := by
    have hbounds := bounds_mul ha (h.put_bounds K hK)
    rwa [mul_sub, ← mul_assoc] at hbounds
  slope K₁ K₂ h₁ h₂ := by
    obtain ⟨hlow, hhigh⟩ := h.slope K₁ K₂ h₁ h₂
    have hfloor := mul_nonneg ha hlow
    have hceiling := mul_le_mul_of_nonneg_left hhigh ha
    rw [mul_sub] at hfloor hceiling
    rw [← mul_assoc] at hceiling
    exact ⟨hfloor, hceiling⟩
  convex := h.convex.smul ha

/-- Prices that are sums over a list keep the relations when the summands do. -/
theorem sum {ι : Type} {c p : ι → ℝ → ℝ} {xs : List ι} (h : ∀ x ∈ xs, NoArbitrage D (c x) (p x)) :
    NoArbitrage (xs.length * D) (fun K => (xs.map (c · K)).sum) (fun K => (xs.map (p · K)).sum) := by
  induction xs with
  | nil => simpa using zero
  | cons x xs ih =>
    rw [List.forall_mem_cons] at h
    have hsum := h.1.add (ih h.2)
    have hweight : D + xs.length * D = (x :: xs).length * D := by
      rw [List.length_cons, Nat.cast_add, Nat.cast_one]
      ring
    rw [hweight] at hsum
    exact hsum

/-- So do averages. -/
theorem average {ι : Type} {c p : ι → ℝ → ℝ} {xs : List ι} (hne : xs ≠ [])
    (h : ∀ x ∈ xs, NoArbitrage D (c x) (p x)) :
    NoArbitrage D (fun K => Samples.average (xs.map (c · K)))
      (fun K => Samples.average (xs.map (p · K))) := by
  have hlength : (xs.length : ℝ) ≠ 0 := by
    exact_mod_cast (List.length_pos_iff.mpr hne).ne'
  have haverage (f : ι → ℝ) : Samples.average (xs.map f) = (xs.length : ℝ)⁻¹ * (xs.map f).sum := by
    rw [Samples.average, Multiset.sum_coe, Multiset.coe_card, List.length_map, div_eq_inv_mul]
  have hscaled := (sum h).scale (inv_nonneg.mpr (Nat.cast_nonneg xs.length))
  rw [← mul_assoc, inv_mul_cancel₀ hlength, one_mul] at hscaled
  simpa only [haverage] using hscaled

end NoArbitrage

/-! ## Samples of a path -/

/-- The payoff at the final price, in real numbers. -/
noncomputable def OptionType.gain (kind : OptionType) (strike spot : ℝ) : ℝ :=
  match kind with
  | .call => max (spot - strike) 0
  | .put => max (strike - spot) 0

theorem OptionType.payoff_real (kind : OptionType) (strike spot : ℝ) :
    kind.payoff (real strike) (real spot) = real (kind.gain strike spot) := by
  cases kind <;> simp only [payoff, gain, zero_eq, real_sub, real_max]

/-- The relations hold at every single final price. -/
theorem noArbitrage_gain {spot : ℝ} (hspot : 0 ≤ spot) :
    NoArbitrage 1 (OptionType.call.gain · spot) (OptionType.put.gain · spot) where
  parity K hK := by
    simp only [OptionType.gain, sub_zero, one_mul, max_eq_left hspot]
    obtain h | h := le_total spot K
    · rw [max_eq_right (sub_nonpos.mpr h), max_eq_left (sub_nonneg.mpr h)]
      ring
    · rw [max_eq_left (sub_nonneg.mpr h), max_eq_right (sub_nonpos.mpr h), sub_zero]
  call_bounds K hK := by
    simp only [OptionType.gain, sub_zero, one_mul, max_eq_left hspot]
    rw [max_comm]
    exact ⟨le_rfl, max_le (by linarith) hspot⟩
  put_bounds K hK := by
    simp only [OptionType.gain, sub_zero, one_mul, max_eq_left hspot]
    rw [max_comm]
    exact ⟨le_rfl, max_le (by linarith) hK⟩
  slope K₁ K₂ h₁ h₂ := by
    simp only [OptionType.gain, one_mul]
    have hless : max (spot - K₂) 0 ≤ max (spot - K₁) 0 := max_le_max_right 0 (by linarith)
    have hmore : max (spot - K₁) 0 ≤ max (spot - K₂) 0 + (K₂ - K₁) :=
      max_le (by linarith [le_max_left (spot - K₂) 0]) (by linarith [le_max_right (spot - K₂) 0])
    exact ⟨by linarith, by linarith⟩
  convex := by
    refine ⟨convex_Ici 0, fun x _ y _ a b ha hb hab => ?_⟩
    simp only [OptionType.gain, smul_eq_mul]
    have hx := mul_le_mul_of_nonneg_left (le_max_left (spot - x) 0) ha
    have hy := mul_le_mul_of_nonneg_left (le_max_left (spot - y) 0) hb
    have hmix : spot = a * spot + b * spot := by rw [← add_mul, hab, one_mul]
    refine max_le (by linarith) (add_nonneg ?_ ?_)
    · exact mul_nonneg ha (le_max_right _ _)
    · exact mul_nonneg hb (le_max_right _ _)

/-- Final prices of a path and of its reflection. -/
structure Ends where
  price : ℝ
  reflected : ℝ
  price_pos : 0 < price
  reflected_pos : 0 < reflected

/-- The discounted payoff of a path, averaged with that of its reflection if so wished. -/
noncomputable def Ends.sample (discount : ℝ) (antithetic : Bool) (kind : OptionType) (strike : ℝ)
    (e : Ends) : ℝ :=
  if antithetic then discount * (0.5 * (kind.gain strike e.price + kind.gain strike e.reflected))
  else discount * kind.gain strike e.price

theorem Ends.noArbitrage_sample {discount : ℝ} (h : 0 < discount) (antithetic : Bool) (e : Ends) :
    NoArbitrage discount (e.sample discount antithetic .call ·) (e.sample discount antithetic .put ·) := by
  have hprice := noArbitrage_gain e.price_pos.le
  have hreflected := noArbitrage_gain e.reflected_pos.le
  cases antithetic with
  | false => simpa [sample] using hprice.scale h.le
  | true =>
    have hhalf : (0 : ℝ) ≤ 0.5 := by norm_num
    have hmean := ((hprice.add hreflected).scale hhalf).scale h.le
    have hweight : discount * (0.5 * (1 + 1)) = discount := by norm_num
    rw [hweight] at hmean
    simpa [sample] using hmean

end OptionDesk
