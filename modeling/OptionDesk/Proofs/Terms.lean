import OptionDesk.Proofs.DayCount
import OptionDesk.Terms

/-!
# Filling in and validating terms

Fields that are set under their own names are all set, in order. Each check of the terms of an option
passes exactly the values that it says, and the checks together pass exactly the terms that have all of
them. In exact arithmetic what they pass are real numbers.
-/
namespace OptionDesk

theorem TermField.ofName?_name {form : TermForm} {f : TermField} (h : f ∈ TermField.ofForm form) :
    TermField.ofName? form f.name = some f := by
  cases form <;> cases f <;> first | rfl | exact absurd h (by decide)

namespace Terms

section Fields

variable {α : Type} {t : Terms α} {fields : List (TermField × Value α)}

theorem assign_name {f : TermField} (h : f ∈ TermField.ofForm t.form) (v : Value α) :
    t.assign (f.name, v) = t.set f v := by
  rw [assign, TermField.ofName?_name h]

theorem foldl_assign (h : ∀ p ∈ fields, p.1 ∈ TermField.ofForm t.form) :
    (fields.map fun p => (p.1.name, p.2)).foldl assign t =
      fields.foldl (fun t p => t.set p.1 p.2) t := by
  induction fields generalizing t with
  | nil => rfl
  | cons p fields ih =>
    rw [List.map_cons, List.foldl_cons, List.foldl_cons, assign_name (h p List.mem_cons_self)]
    apply ih
    intro p' hp'
    rw [form_set]
    exact h p' (List.mem_cons_of_mem _ hp')

theorem update_names (h : ∀ p ∈ fields, p.1 ∈ TermField.ofForm t.form) :
    t.update (fields.map fun p => (p.1.name, p.2)) =
      .ok (fields.foldl (fun t p => t.set p.1 p.2) t) := by
  have hnone : (((fields.map fun p => (p.1.name, p.2)).map Prod.fst).filter fun n =>
      (TermField.ofName? t.form n).isNone) = [] := by
    rw [List.filter_eq_nil_iff]
    intro n hn
    simp only [List.map_map, List.mem_map, Function.comp_apply] at hn
    obtain ⟨p, hp, rfl⟩ := hn
    simp [TermField.ofName?_name (h p hp)]
  have hknown : unknownNames t.form ((fields.map fun p => (p.1.name, p.2)).map Prod.fst) = [] := by
    rw [unknownNames, hnone, List.mergeSort_nil]
  rw [update, hknown, foldl_assign h]

end Fields

section Checks

variable {α : Type} {t : Terms α} {u : Unit}

theorem checkOptionType_eq_ok :
    t.checkOptionType.result = .ok u ↔ ∃ kind, t.optionType = .optionType kind := by
  unfold checkOptionType
  cases t.optionType <;> simp [refuse]

theorem exercise_eq_ok {e : ExerciseType} :
    t.exercise.result = .ok e ↔ t.exerciseType = .exercise e := by
  unfold exercise
  cases t.exerciseType <;> simp [refuse]

theorem demand_eq_ok {p : Prop} [Decidable p] {e : TermError} :
    (t.demand p e).result = .ok u ↔ p := Outcome.result_require_eq_ok

theorem checkCurve_eq_ok {field : TermField} :
    (t.checkCurve field).result = .ok u ↔ ∃ c, t.get field = .curve c := by
  unfold checkCurve
  cases t.get field <;> simp [refuse]

theorem checkVolatility_eq_ok :
    t.checkVolatility.result = .ok u ↔ ∃ v, t.volSurface = .volatility v := by
  unfold checkVolatility
  cases t.volSurface <;> simp [refuse]

theorem checkMaturity_eq_ok :
    t.checkMaturity.result = .ok u ↔ ∃ d, t.maturity = .dateTime d := by
  unfold checkMaturity
  cases t.maturity <;> simp [refuse]

theorem checkResetDate_eq_ok :
    t.checkResetDate.result = .ok u ↔ ∃ d, t.resetDate = .dateTime d := by
  unfold checkResetDate
  cases t.resetDate <;> simp [refuse]

variable [Scalar α]

theorem number_eq_ok {field : TermField} {x : α} :
    (t.number field).result = .ok x ↔
      (t.get field).read = .ok x ∧ Scalar.isFinite x = true := by
  unfold number
  split
  · next hnull => simp [hnull, Value.read, refuse]
  · cases hread : (t.get field).read with
    | error m => simp [refuse]
    | ok y =>
      simp only [Except.ok.injEq]
      split
      · next hfinite =>
        simp only [Outcome.result_pure, Except.ok.injEq]
        exact ⟨fun h => ⟨h, h ▸ hfinite⟩, fun h => h.1⟩
      · next hfinite =>
        simp only [refuse, Outcome.result_fail, reduceCtorEq, false_iff, not_and]
        exact fun h hx => hfinite (h ▸ hx)

/-- A strike is given, unless the terms fix it later. -/
theorem checkStrike_eq_ok :
    t.checkStrike.result = .ok u ↔ (t.form = .forward ∧ t.strike = .null) ∨
      ∃ k, t.strike.read = .ok k ∧ Scalar.isFinite k = true ∧ ¬k < 0 := by
  have hgiven : (t.number .strike >>= fun k => t.demand (¬k < 0) .strikeNegative).result = .ok u ↔
      ∃ k, t.strike.read = .ok k ∧ Scalar.isFinite k = true ∧ ¬k < 0 := by
    simp only [Outcome.result_bind_eq_ok, number_eq_ok, demand_eq_ok, get, and_assoc]
  unfold checkStrike
  split
  · next hform hnull => simp [hform, hnull, Value.read]
  · next hother =>
    have hstrike : ¬(t.form = .forward ∧ t.strike = .null) := fun h => hother h.1 h.2
    simpa [hstrike] using hgiven

/-- What a plain option has whose terms have been accepted, in whatever arithmetic. -/
theorem parts_of_validatePlain (h : t.validatePlain.result = .ok u) :
    (∃ s, t.underlying.read = .ok s ∧ Scalar.isFinite s = true ∧ ¬s ≤ 0) ∧
      (∃ c, t.dividendCurve = .curve c) ∧ (∃ c, t.riskFreeCurve = .curve c) ∧
      (∃ v, t.volSurface = .volatility v) ∧ ∃ d, t.maturity = .dateTime d := by
  simp only [validatePlain, Outcome.result_bind_eq_ok, number_eq_ok, demand_eq_ok, checkCurve_eq_ok,
    checkVolatility_eq_ok, checkMaturity_eq_ok, get] at h
  obtain ⟨-, -, -, -, s, ⟨hs, hfinite⟩, -, hpositive, -, -, -, hdividend, -, hriskFree, -, hvolatility, -,
    hmaturity, -⟩ := h
  exact ⟨⟨s, hs, hfinite, hpositive⟩, hdividend, hriskFree, hvolatility, hmaturity⟩

/-- What a strike has that is fixed later. -/
theorem parts_of_validateReset (h : t.validateReset.result = .ok u) :
    (∃ m, t.moneyness.read = .ok m ∧ Scalar.isFinite m = true ∧ ¬m ≤ 0) ∧
      ∃ d, t.resetDate = .dateTime d := by
  simp only [validateReset, Outcome.result_bind_eq_ok, number_eq_ok, demand_eq_ok,
    checkResetDate_eq_ok, get] at h
  obtain ⟨m, ⟨hm, hfinite⟩, -, hpositive, -, hreset, -⟩ := h
  exact ⟨⟨m, hm, hfinite, hpositive⟩, hreset⟩

end Checks

open Exact

variable {t : Terms Exact}

/-- What all options need. -/
structure PlainValid (t : Terms Exact) : Prop where
  optionType : ∃ kind, t.optionType = .optionType kind
  exercise : ∃ e, t.exerciseType = .exercise e ∧ (e = .european ∨ t.stoppingTimes.isSet = true)
  underlying : ∃ s : ℝ, 0 < s ∧ t.underlying.read = .ok (real s)
  strike : (t.form = .forward ∧ t.strike = .null) ∨
    ∃ k : ℝ, 0 ≤ k ∧ t.strike.read = .ok (real k)
  dividendCurve : ∃ c, t.dividendCurve = .curve c
  riskFreeCurve : ∃ c, t.riskFreeCurve = .curve c
  volSurface : ∃ v, t.volSurface = .volatility v
  maturity : ∃ d, t.maturity = .dateTime d
  maturityTime : ∃ T : ℝ, 0 < T ∧ t.maturityTime.result = .ok (real T)

/-- What a strike that is fixed later needs. -/
structure ResetValid (t : Terms Exact) : Prop where
  moneyness : ∃ m : ℝ, 0 < m ∧ t.moneyness.read = .ok (real m)
  resetDate : ∃ d, t.resetDate = .dateTime d
  times : ∃ r T : ℝ, 0 ≤ r ∧ r ≤ T ∧ t.resetTime.result = .ok (real r) ∧
    t.maturityTime.result = .ok (real T)

theorem yearsFrom_real {c : Curve Exact} {d : DateTime} {x : Exact}
    (h : (yearsFrom (.curve c) (.dateTime d)).result = .ok x) : ∃ r : ℝ, x = real r :=
  DayCount.yearFraction_real h

/-- A time is counted only on a supported basis. -/
theorem basis_of_yearsFrom {c : Curve Exact} {d : DateTime} {T : ℝ}
    (h : (yearsFrom (.curve c) (.dateTime d)).result = .ok (real T)) :
    ∃ b, c.dayCount = .basis b ∧ T = b.years c.reference d := by
  obtain ⟨b, hdays, hT⟩ := DayCount.basis_of_yearFraction h
  exact ⟨b, hdays, real.inj hT⟩

theorem validatePlain_eq_ok {u : Unit} : t.validatePlain.result = .ok u ↔ t.PlainValid := by
  unfold validatePlain
  simp only [Outcome.result_bind_eq_ok, checkOptionType_eq_ok, exercise_eq_ok, number_eq_ok,
    demand_eq_ok, checkStrike_eq_ok, checkCurve_eq_ok, checkVolatility_eq_ok, checkMaturity_eq_ok,
    get, exists_const]
  constructor
  · rintro ⟨hkind, e, he, s, ⟨hs, hsfinite⟩, hspos, hstrike, hdividend, ⟨c, hc⟩, hvol, ⟨d, hd⟩, T, hT,
      hTpos, hstop⟩
    obtain ⟨s, rfl⟩ := isFinite_iff.mp hsfinite
    have htime : ∃ r : ℝ, T = real r := by
      have hyears := hT
      rw [maturityTime, hc, hd] at hyears
      exact yearsFrom_real hyears
    obtain ⟨T, rfl⟩ := htime
    rw [not_real_le_zero] at hspos hTpos
    refine ⟨hkind, ⟨e, he, hstop⟩, ⟨s, hspos, hs⟩, ?_, hdividend, ⟨c, hc⟩, hvol, ⟨d, hd⟩, T, hTpos, hT⟩
    obtain hlater | ⟨k, hk, hkfinite, hknonneg⟩ := hstrike
    · exact .inl hlater
    · obtain ⟨k, rfl⟩ := isFinite_iff.mp hkfinite
      rw [not_real_lt_zero] at hknonneg
      exact .inr ⟨k, hknonneg, hk⟩
  · rintro ⟨hkind, ⟨e, he, hstop⟩, ⟨s, hspos, hs⟩, hstrike, hdividend, hriskFree, hvol, hmaturity, T,
      hTpos, hT⟩
    refine ⟨hkind, e, he, real s, ⟨hs, rfl⟩, ?_, ?_, hdividend, hriskFree, hvol, hmaturity, real T, hT,
      ?_, hstop⟩
    · rwa [not_real_le_zero]
    · obtain hlater | ⟨k, hk, hread⟩ := hstrike
      · exact .inl hlater
      · exact .inr ⟨real k, hread, rfl, by rwa [not_real_lt_zero]⟩
    · rwa [not_real_le_zero]

theorem validateReset_eq_ok {u : Unit} (hc : ∃ c, t.riskFreeCurve = .curve c)
    (hd : ∃ d, t.maturity = .dateTime d) : t.validateReset.result = .ok u ↔ t.ResetValid := by
  unfold validateReset
  simp only [Outcome.result_bind_eq_ok, number_eq_ok, demand_eq_ok, checkResetDate_eq_ok, get,
    exists_const]
  constructor
  · rintro ⟨m, ⟨hm, hmfinite⟩, hmpos, ⟨date, hdate⟩, r, hr, hrpos, T, hT, hrT⟩
    obtain ⟨c, hc⟩ := hc
    obtain ⟨d, hd⟩ := hd
    obtain ⟨m, rfl⟩ := isFinite_iff.mp hmfinite
    have hreset : ∃ x : ℝ, r = real x := by
      have hyears := hr
      rw [resetTime, hc, hdate] at hyears
      exact yearsFrom_real hyears
    have htime : ∃ x : ℝ, T = real x := by
      have hyears := hT
      rw [maturityTime, hc, hd] at hyears
      exact yearsFrom_real hyears
    obtain ⟨r, rfl⟩ := hreset
    obtain ⟨T, rfl⟩ := htime
    rw [not_real_le_zero] at hmpos
    rw [not_real_lt_zero] at hrpos
    rw [real_lt, not_lt] at hrT
    exact ⟨⟨m, hmpos, hm⟩, ⟨date, hdate⟩, r, T, hrpos, hrT, hr, hT⟩
  · rintro ⟨⟨m, hmpos, hm⟩, hdate, r, T, hrpos, hrT, hr, hT⟩
    refine ⟨real m, ⟨hm, rfl⟩, ?_, hdate, real r, hr, ?_, real T, hT, ?_⟩
    · rwa [not_real_le_zero]
    · rwa [not_real_lt_zero]
    · rwa [real_lt, not_lt]

theorem validate_plain_eq_ok {u : Unit} (hform : t.form = .plain) :
    t.validate.result = .ok u ↔ t.PlainValid := by
  rw [validate, hform]
  exact validatePlain_eq_ok

theorem validate_forward_eq_ok {u : Unit} (hform : t.form = .forward) :
    t.validate.result = .ok u ↔ t.PlainValid ∧ t.ResetValid := by
  rw [validate, hform]
  simp only [Outcome.result_bind_eq_ok, exists_const, validatePlain_eq_ok]
  exact and_congr_right fun h => validateReset_eq_ok h.riskFreeCurve h.maturity

end Terms

end OptionDesk
