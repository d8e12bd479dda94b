import OptionDesk.Proofs.Engine.Published

/-!
# What decorators make of results

A decorator reads three numbers at its reset date: the time to it, and the factor and the yield of the
curve that its style discounts on. What it publishes is then a function of them and of the results of
the engine that it prices through, in which a result that is not there stays away.
-/
namespace OptionDesk

variable {α : Type}

namespace Value

/-- A function of a result, if there is one. -/
def onNumber (f : α → α) : Value α → Value α
  | .figure (.number x) => .number (f x)
  | _ => .null

/-- A function of two results, if there are both. -/
def onNumbers (f : α → α → α) : Value α → Value α → Value α
  | .figure (.number x), .figure (.number y) => .number (f x y)
  | _, _ => .null

theorem isResult_onNumber (f : α → α) (v : Value α) : (v.onNumber f).IsResult := by
  unfold onNumber
  split
  · exact isResult_number _
  · exact isResult_null

theorem isResult_onNumbers (f : α → α → α) (v w : Value α) : (v.onNumbers f w).IsResult := by
  unfold onNumbers
  split
  · exact isResult_number _
  · exact isResult_null

theorem asCurve_eq_ok {v : Value α} {c : Curve α} : v.asCurve.result = .ok c ↔ v = .curve c := by
  cases v <;> simp [asCurve]

variable [Scalar α]

theorem scaled_eq {v : Value α} (hv : v.IsResult) (factor : α) :
    v.scaled factor = pure (v.onNumber (factor * ·)) := by
  obtain rfl | ⟨x, rfl⟩ := hv <;> rfl

theorem shifted_eq {v : Value α} (hv : v.IsResult) (shift factor : α) :
    v.shifted shift factor = pure (v.onNumber (shift + factor * ·)) := by
  obtain rfl | ⟨x, rfl⟩ := hv <;> rfl

end Value

namespace Results

/-- Every result is a number, or nothing. -/
def AreResults (r : Results α) : Prop := ∀ f, (r.get f).IsResult

/-- So is every result that a decorator reads; gamma and theta it does not. -/
def AreMappable (r : Results α) : Prop := ∀ f, f ≠ .gamma → f ≠ .theta → (r.get f).IsResult

theorem AreResults.areMappable {r : Results α} (hr : r.AreResults) : r.AreMappable := fun f _ _ => hr f

variable [Scalar α]

theorem requireValue_eq_ok {r : Results α} (hr : r.value.IsResult) {engine : EngineClass} {v : α} :
    (r.requireValue engine).result = .ok v ↔ r.value = .number v := by
  obtain hvalue | ⟨x, hvalue⟩ := hr
  · rw [requireValue, show r.value = .null from hvalue]
    simp
  · rw [requireValue, show r.value = .number x from hvalue]
    simp

/-- The results of an amount, when the time, the factor and the yield to the reset date are `time`,
`factor` and `yield`, and the plain option is worth `v`. -/
def asAmount (r : Results α) (moneyness time factor yield v : α) : Results α :=
  { Results.blank with
    value := .number (factor * v)
    delta := r.delta.onNumbers (fun δ κ => factor * (δ + moneyness * κ)) r.strikeSensitivity
    gamma := .number 0
    theta := .number (yield * (factor * v))
    vega := r.vega.onNumber (factor * ·)
    rho := r.rho.onNumber (factor * ·)
    dividendRho := r.dividendRho.onNumber (-time * (factor * v) + factor * ·)
    errorEstimate := r.errorEstimate.onNumber (factor * ·) }

/-- The results of a performance, where `factor` is per unit of the underlying. -/
def asPerformance (r : Results α) (time factor yield v : α) : Results α :=
  { Results.blank with
    value := .number (factor * v)
    delta := .number 0
    gamma := .number 0
    theta := .number (yield * (factor * v))
    vega := r.vega.onNumber (factor * ·)
    rho := r.rho.onNumber (-time * (factor * v) + factor * ·)
    dividendRho := r.dividendRho.onNumber (factor * ·)
    errorEstimate := r.errorEstimate.onNumber (factor * ·) }

end Results

namespace Terms

variable [Scalar α] {t : Terms α} {r R : Results α} {engine : EngineClass}

/-- What is read at the reset date, with the curve of a field. -/
structure ReadsReset (t : Terms α) (field : TermField) (time factor yield : α) : Prop where
  time : t.resetTime.result = .ok time
  curve : ∃ c, t.get field = .curve c ∧ (c.discountAt t.resetDate).result = .ok factor ∧
    (c.zeroYield t.resetDate).result = .ok yield

theorem strikeDelta_eq (hr : r.AreMappable) {m : α} (hm : t.moneyness.operand = .ok m) (discount : α) :
    t.strikeDelta discount r =
      pure (r.delta.onNumbers (fun δ κ => discount * (δ + m * κ)) r.strikeSensitivity) := by
  have hdelta : r.delta.IsResult := hr .delta nofun nofun
  have hstrike : r.strikeSensitivity.IsResult := hr .strikeSensitivity nofun nofun
  rw [strikeDelta]
  obtain hdelta | ⟨δ, hdelta⟩ := hdelta
  · rw [hdelta]
    rfl
  · obtain hstrike | ⟨κ, hstrike⟩ := hstrike
    · rw [hdelta, hstrike]
      rfl
    · rw [hdelta, hstrike]
      simp only [Value.operand_number, hm, Outcome.ofMisuse_ok, pure_bind, Value.onNumbers]

theorem amountResults_eq_ok (hr : r.AreMappable) {m : α} (hm : t.moneyness.operand = .ok m) :
    (t.amountResults engine r).result = .ok R ↔ ∃ time factor yield v,
      t.ReadsReset .dividendCurve time factor yield ∧ r.value = .number v ∧
        R = r.asAmount m time factor yield v := by
  have hvalue : r.value.IsResult := hr .value nofun nofun
  have hvega : r.vega.IsResult := hr .vega nofun nofun
  have hrho : r.rho.IsResult := hr .rho nofun nofun
  have hdividendRho : r.dividendRho.IsResult := hr .dividendRho nofun nofun
  have herror : r.errorEstimate.IsResult := hr .errorEstimate nofun nofun
  rw [amountResults]
  simp only [strikeDelta_eq hr hm, Value.shifted_eq hdividendRho, Value.scaled_eq hvega,
    Value.scaled_eq hrho, Value.scaled_eq herror, pure_bind, Outcome.result_bind_eq_ok,
    Value.asCurve_eq_ok, Results.requireValue_eq_ok hvalue, Outcome.result_pure, Except.ok.injEq]
  constructor
  · rintro ⟨time, htime, c, hc, factor, hfactor, v, hv, yield, hyield, rfl⟩
    exact ⟨time, factor, yield, v, ⟨htime, c, hc, hfactor, hyield⟩, hv, rfl⟩
  · rintro ⟨time, factor, yield, v, ⟨htime, c, hc, hfactor, hyield⟩, hv, rfl⟩
    exact ⟨time, htime, c, hc, factor, hfactor, v, hv, yield, hyield, rfl⟩

theorem performanceResults_eq_ok (hr : r.AreMappable) {u : α} (hu : t.underlying.operand = .ok u) :
    (t.performanceResults engine r).result = .ok R ↔ ∃ time factor yield share v,
      t.ReadsReset .riskFreeCurve time factor yield ∧
        (Outcome.divide factor u).result = .ok share ∧ r.value = .number v ∧
        R = r.asPerformance time share yield v := by
  have hvalue : r.value.IsResult := hr .value nofun nofun
  have hvega : r.vega.IsResult := hr .vega nofun nofun
  have hrho : r.rho.IsResult := hr .rho nofun nofun
  have hdividendRho : r.dividendRho.IsResult := hr .dividendRho nofun nofun
  have herror : r.errorEstimate.IsResult := hr .errorEstimate nofun nofun
  rw [performanceResults]
  simp only [hu, Outcome.ofMisuse_ok, Value.shifted_eq hrho, Value.scaled_eq hvega,
    Value.scaled_eq hdividendRho, Value.scaled_eq herror, pure_bind, Outcome.result_bind_eq_ok,
    Value.asCurve_eq_ok, Results.requireValue_eq_ok hvalue, Outcome.result_pure, Except.ok.injEq]
  constructor
  · rintro ⟨time, htime, c, hc, factor, hfactor, share, hshare, v, hv, yield, hyield, rfl⟩
    exact ⟨time, factor, yield, share, v, ⟨htime, c, hc, hfactor, hyield⟩, hshare, hv, rfl⟩
  · rintro ⟨time, factor, yield, share, v, ⟨htime, c, hc, hfactor, hyield⟩, hshare, hv, rfl⟩
    exact ⟨time, htime, c, hc, factor, hfactor, share, hshare, v, hv, yield, hyield, rfl⟩

/-- The log of a decorated price has no effect on it. -/
theorem conclude_eq_ok {style : ForwardStyle} :
    (t.conclude style engine r).result = .ok R ↔ (t.forwardResults style engine r).result = .ok R := by
  simp only [conclude, Outcome.result_bind_eq_ok, result_reportForward, Outcome.result_pure,
    Except.ok.injEq, exists_const, true_and]
  simp

end Terms

theorem Results.areResults_asAmount [Scalar α] (r : Results α) (m time factor yield v : α) :
    (r.asAmount m time factor yield v).AreResults := by
  intro f
  cases f
  case strikeSensitivity => exact Value.isResult_null
  case delta => exact Value.isResult_onNumbers _ _ _
  case value | gamma | theta => exact Value.isResult_number _
  all_goals exact Value.isResult_onNumber _ _

theorem Results.areResults_asPerformance [Scalar α] (r : Results α) (time factor yield v : α) :
    (r.asPerformance time factor yield v).AreResults := by
  intro f
  cases f
  case strikeSensitivity => exact Value.isResult_null
  case value | delta | gamma | theta => exact Value.isResult_number _
  all_goals exact Value.isResult_onNumber _ _

end OptionDesk
