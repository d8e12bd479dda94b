import OptionDesk.Proofs.Exact
import OptionDesk.Results
import Mathlib.Analysis.SpecialFunctions.ExpDeriv

/-!
# Sensitivities

A published sensitivity is right when it is the derivative of the published value. Prices are functions of
the underlying `S`, the strike `K`, the volatility `σ`, the risk-free rate `r`, the dividend yield `q` and the
time to maturity `T`, in this order.
-/
namespace OptionDesk

open Exact

/-- A published number that is the derivative of a function at a point. -/
def Value.IsSlope (v : Value Exact) (f : ℝ → ℝ) (x : ℝ) : Prop :=
  ∃ y : ℝ, v = .number (real y) ∧ HasDerivAt f y x

/-- The value of a price and its derivatives, in raw units. Time passes toward maturity, so theta is the
derivative by the time to maturity with the opposite sign. -/
structure Results.Differentiates (R : Results Exact) (V : ℝ → ℝ → ℝ → ℝ → ℝ → ℝ → ℝ)
    (S K σ r q T : ℝ) : Prop where
  value : R.value = .number (real (V S K σ r q T))
  delta : R.delta.IsSlope (fun s => V s K σ r q T) S
  vega : R.vega.IsSlope (fun l => V S K l r q T) σ
  rho : R.rho.IsSlope (fun y => V S K σ y q T) r
  dividendRho : R.dividendRho.IsSlope (fun y => V S K σ r y T) q
  strikeSensitivity : R.strikeSensitivity.IsSlope (fun k => V S k σ r q T) K
  theta : R.theta.IsSlope (fun t => -V S K σ r q t) T

/-- A price that is proportional to underlying and strike. -/
def IsHomogeneous (V : ℝ → ℝ → ℝ → ℝ → ℝ → ℝ → ℝ) : Prop :=
  ∀ c S K, 0 < c → 0 < S → 0 < K → ∀ σ r q T, V (c * S) (c * K) σ r q T = c * V S K σ r q T

/-! ## Exponential factors -/

theorem hasDerivAt_factor_rate (y T : ℝ) :
    HasDerivAt (fun y => Real.exp (-y * T)) (-T * Real.exp (-y * T)) y := by
  refine ((hasDerivAt_neg y).mul_const T).exp.congr_deriv ?_
  ring

theorem hasDerivAt_factor_time (y T : ℝ) :
    HasDerivAt (fun t => Real.exp (-y * t)) (-y * Real.exp (-y * T)) T := by
  refine ((hasDerivAt_id T).const_mul (-y)).exp.congr_deriv ?_
  simp only [id_eq]
  ring

end OptionDesk
