import OptionDesk.Proofs.Engine.Failures

/-!
# The strike that a decorator loads

The strike of the equivalent option is the product of moneyness and underlying in the form in which they
were given. Numbers and truth values have a number for a product. A text is left as it is by a truth value,
and has no product with a number or with another text. Validation reads a text as the number that it writes
and keeps the text, so that there is no product is found only when the option is loaded. All other ways in
which loading fails are refusals by a check. Counts are set aside here: a text is repeated by a count.
-/
namespace OptionDesk

variable {α : Type} [Scalar α]

/-- Truth counts as a neutral one, and falsehood is not positive, in the arithmetic of finite numbers. -/
structure Scalar.CountsTruth (α : Type) [Scalar α] : Prop where
  mul_one : ∀ x : α, isFinite x = true → x * 1 = x
  one_mul : ∀ x : α, isFinite x = true → 1 * x = x
  intCast_one : ((1 : ℤ) : α) = 1
  zero_le_zero : (0 : α) ≤ 0

theorem Exact.countsTruth : Scalar.CountsTruth Exact where
  mul_one x hx := by
    obtain ⟨r, rfl⟩ := Exact.isFinite_iff.mp hx
    rw [one_eq, real_mul, mul_one]
  one_mul x hx := by
    obtain ⟨r, rfl⟩ := Exact.isFinite_iff.mp hx
    rw [one_eq, real_mul, one_mul]
  intCast_one := by simp
  zero_le_zero := by simp

/-! ## Products as written -/

namespace Value

/-- Two values that are no counts and have no product: a text, and something other than a truth value. -/
def Clashes (v w : Value α) : Prop :=
  (v.shape = .text ∧ w.shape ≠ .truth) ∨ (w.shape = .text ∧ v.shape ≠ .truth)

/-- A positive number in a form that a client can give it, which is not that of a count. -/
structure GivesPositive (v : Value α) (x : α) : Prop where
  given : ∀ n, v ≠ .figure (.whole n)
  read : v.read = .ok x
  finite : Scalar.isFinite x = true
  positive : ¬x ≤ 0

variable {v w : Value α} {x y : α}

theorem GivesPositive.cases (hα : Scalar.CountsTruth α) (h : v.GivesPositive x) :
    v = .number x ∨ (v = .figure (.truth true) ∧ x = 1) ∨ ∃ s, v = .figure (.text s) := by
  obtain ⟨hgiven, hread, -, hpositive⟩ := h
  cases v with
  | figure f =>
    cases f with
    | number z =>
      cases hread
      exact .inl rfl
    | whole n => exact absurd rfl (hgiven n)
    | truth b =>
      cases b with
      | true =>
        cases hread
        exact .inr (.inl ⟨rfl, rfl⟩)
      | false =>
        cases hread
        exact absurd hα.zero_le_zero hpositive
    | text s => exact .inr (.inr ⟨s, rfl⟩)
  | _ => cases hread

theorem times_of_clashes (hα : Scalar.CountsTruth α) (hv : v.GivesPositive x) (hw : w.GivesPositive y)
    (h : v.Clashes w) : v.times w = .error .wrongKind := by
  obtain rfl | ⟨rfl, rfl⟩ | ⟨s, rfl⟩ := hv.cases hα <;>
    obtain rfl | ⟨rfl, rfl⟩ | ⟨s', rfl⟩ := hw.cases hα <;>
    first | rfl | simp [Clashes, shape] at h

/-- Other products read as the product of the numbers, and are numbers unless a text is among them. -/
theorem times_of_not_clashes (hα : Scalar.CountsTruth α) (hv : v.GivesPositive x)
    (hw : w.GivesPositive y) (h : ¬v.Clashes w) : ∃ k, v.times w = .ok k ∧ k.read = .ok (x * y) ∧
      (k.shape = .number ↔ v.shape ≠ .text ∧ w.shape ≠ .text) := by
  obtain rfl | ⟨rfl, rfl⟩ | ⟨s, rfl⟩ := hv.cases hα
  · obtain rfl | ⟨rfl, rfl⟩ | ⟨s, rfl⟩ := hw.cases hα
    · exact ⟨.number (x * y), rfl, rfl, by simp [shape]⟩
    · exact ⟨.number (x * 1), rfl, rfl, by simp [shape]⟩
    · exact absurd (.inr ⟨rfl, nofun⟩) h
  · obtain rfl | ⟨rfl, rfl⟩ | ⟨s, rfl⟩ := hw.cases hα
    · exact ⟨.number (1 * y), rfl, rfl, by simp [shape]⟩
    · refine ⟨.figure (.whole 1), rfl, ?_, by simp [shape]⟩
      show Except.ok ((1 : ℤ) : α) = _
      rw [hα.intCast_one, hα.mul_one _ hv.finite]
    · refine ⟨.figure (.text s), rfl, ?_, by simp [shape]⟩
      rw [hα.one_mul _ hw.finite, hw.read]
  · obtain rfl | ⟨rfl, rfl⟩ | ⟨s', rfl⟩ := hw.cases hα
    · exact absurd (.inl ⟨rfl, nofun⟩) h
    · refine ⟨.figure (.text s), rfl, ?_, by simp [shape]⟩
      rw [hα.mul_one _ hv.finite, hv.read]
    · exact absurd (.inl ⟨rfl, nofun⟩) h

end Value

/-! ## What loading can end with -/

open Outcome Session Engine

omit [Scalar α] in
/-- At a moment, only the check of the dates can refuse a view. -/
theorem Value.spares_view {β : Type} {date : Value α} (hdate : ∃ d, date = .dateTime d)
    {early : DateTime → Bool} {view : DateTime → β} {e refusal : PricingError α} (h : refusal ≠ e) :
    Spares (do
      let d ← date.referenceDate
      require (¬early d) refusal
      return view d) e := by
  obtain ⟨d, rfl⟩ := hdate
  exact Spares.bind (spares_pure d _) fun _ _ =>
    (spares_require (.inr h)).bind fun _ _ => spares_pure _ _

omit [Scalar α] in
theorem Value.spares_curveFrom {v date : Value α} (hv : ∃ c, v = .curve c)
    (hdate : ∃ d, date = .dateTime d) (m : Misuse) : (v.curveFrom date).Spares (.misuse m) := by
  obtain ⟨c, rfl⟩ := hv
  have hview (c : Curve α) : (c.impliedAt date).Spares (.misuse m) :=
    Value.spares_view hdate (by nofun)
  exact Spares.bind (spares_pure c _) fun c _ => (hview c).bind fun _ _ => spares_pure _ _

omit [Scalar α] in
theorem Value.spares_volatilityFrom {v date : Value α} (hv : ∃ s, v = .volatility s)
    (hdate : ∃ d, date = .dateTime d) (m : Misuse) : (v.volatilityFrom date).Spares (.misuse m) := by
  obtain ⟨s, rfl⟩ := hv
  have hview (s : Volatility α) : (s.impliedAt date).Spares (.misuse m) :=
    Value.spares_view hdate (by nofun)
  exact Spares.bind (spares_pure s _) fun s _ => (hview s).bind fun _ _ => spares_pure _ _

namespace Terms

variable {t : Terms α}

/-- The parts of forward terms that have been accepted. -/
theorem parts_of_validate (hform : t.form = .forward) (h : t.validate.result = .ok ()) :
    ((∃ s, t.underlying.read = .ok s ∧ Scalar.isFinite s = true ∧ ¬s ≤ 0) ∧
      (∃ c, t.dividendCurve = .curve c) ∧ (∃ c, t.riskFreeCurve = .curve c) ∧
      (∃ v, t.volSurface = .volatility v) ∧ ∃ d, t.maturity = .dateTime d) ∧
    (∃ m, t.moneyness.read = .ok m ∧ Scalar.isFinite m = true ∧ ¬m ≤ 0) ∧
      ∃ d, t.resetDate = .dateTime d := by
  rw [validate, hform, result_bind_eq_ok] at h
  obtain ⟨_, hplain, hreset⟩ := h
  exact ⟨parts_of_validatePlain hplain, parts_of_validateReset hreset⟩

/-- Where the product of accepted terms exists, there is no other misuse of their values. -/
theorem spares_equivalent (hform : t.form = .forward) (hvalid : t.validate.result = .ok ())
    {k : Value α} (hk : t.moneyness.times t.underlying = .ok k) (m : Misuse) :
    t.equivalent.Spares (.misuse m) := by
  obtain ⟨⟨-, hdividend, hriskFree, hvolatility, -⟩, -, hreset⟩ := parts_of_validate hform hvalid
  have hproduct : (ofMisuse (t.moneyness.times t.underlying)).Spares (.misuse m : PricingError α) := by
    rw [hk]
    exact spares_pure k _
  exact hproduct.bind fun _ _ => (Value.spares_curveFrom hdividend hreset m).bind fun _ _ =>
    (Value.spares_curveFrom hriskFree hreset m).bind fun _ _ =>
    (Value.spares_volatilityFrom hvolatility hreset m).bind fun _ _ => spares_pure _ _

end Terms

namespace Engine

variable {inner : Engine α} {t : Terms α} (hvalid : t.validate.result = .ok ())

include hvalid

theorem spares_load {m : Misuse} (hequivalent : t.equivalent.Spares (.misuse m)) (d : Desk α) :
    ((inner.load t).run d).1.Spares (.misuse m) :=
  spares_lift_bind (spares_of_ok hvalid _) fun _ _ => spares_lift_bind hequivalent fun _ _ =>
    spares_bind (spares_pure () _) fun _ _ => Terms.spares_validate (remote_misuse m) (.inr (by nofun))

theorem result_load (d : Desk α) : ((inner.load t).run d).1.result =
    t.equivalent.result.bind fun plain =>
      ((d.get inner.place).terms.loaded plain).validate.result := by
  cases hequivalent : t.equivalent.result with
  | error error =>
    rw [load, result_run_bind_ok (x := Session.lift t.validate) hvalid]
    exact result_run_bind_error (x := Session.lift t.equivalent) hequivalent
  | ok plain => exact (run_load inner d hvalid hequivalent).2

end Engine

theorem Terms.equivalent_of_misuse {t : Terms α} {m : Misuse}
    (h : t.moneyness.times t.underlying = .error m) : t.equivalent.result = .error (.misuse m) := by
  rw [equivalent, h]
  rfl

/-- How loading accepted terms ends when moneyness reads as `m` and the underlying as `u`. -/
structure Terms.LoadsStrike (t before after : Terms α) (m u : α) (ends : Except (PricingError α) Unit) :
    Prop where
  /-- Loading ends as validation does where the equivalent option, if there is one, has been loaded. -/
  outcome : ends = t.equivalent.result.bind fun plain => (before.loaded plain).validate.result
  /-- A product that does not exist is found too late, as a misuse, and nothing is loaded. -/
  clash : t.moneyness.Clashes t.underlying → ends = .error (.misuse .wrongKind) ∧ after = before
  /-- Otherwise no value is misused: the option is loaded and accepted, or a check refuses it. -/
  checked : ¬t.moneyness.Clashes t.underlying → ∀ misuse, ends ≠ .error (.misuse misuse)
  accepted : ends = .ok () → t.IsLoaded before after
  strike : t.IsLoaded before after → after.strike.read = .ok (m * u) ∧
    (after.strike.shape = .number ↔ t.moneyness.shape ≠ .text ∧ t.underlying.shape ≠ .text)

/-- Loading accepted forward terms fails otherwise than by a check exactly if one of moneyness and
underlying is a text and the other is no truth value. A strike that is loaded reads as the product of the
numbers, and is a number exactly if neither of the two is a text; else it is that text. -/
theorem strike_is_loaded_as_written (hα : Scalar.CountsTruth α) (e inner : Engine α) (d : Desk α)
    (hform : (d.get e.place).terms.form = .forward)
    (hmoneyness : ∀ n, (d.get e.place).terms.moneyness ≠ .figure (.whole n))
    (hunderlying : ∀ n, (d.get e.place).terms.underlying ≠ .figure (.whole n))
    (hvalid : (d.get e.place).terms.validate.result = .ok ()) :
    let t := (d.get e.place).terms
    let run := (e.loadInner inner).run d
    ∃ m u, t.moneyness.read = .ok m ∧ t.underlying.read = .ok u ∧
      t.LoadsStrike (d.get inner.place).terms (run.2.get inner.place).terms m u run.1.result := by
  intro t run
  obtain ⟨⟨⟨u, hu, hufinite, hupositive⟩, -⟩, ⟨m, hm, hmfinite, hmpositive⟩, -⟩ :=
    Terms.parts_of_validate hform hvalid
  have hgivesm : t.moneyness.GivesPositive m := ⟨hmoneyness, hm, hmfinite, hmpositive⟩
  have hgivesu : t.underlying.GivesPositive u := ⟨hunderlying, hu, hufinite, hupositive⟩
  have hrun : run = (inner.load t).run d := run_loadInner e inner d
  have hends : run.1.result = _ := (congrArg (·.1.result) hrun).trans (result_load hvalid d)
  refine ⟨m, u, hm, hu, ⟨hends, fun hclash => ?_, fun hclear misuse => ?_, fun hok => ?_,
    fun hloaded => ?_⟩⟩
  · have hproduct := Value.times_of_clashes hα hgivesm hgivesu hclash
    have hequivalent := Terms.equivalent_of_misuse hproduct
    refine ⟨?_, (get_loadInner e inner d).1.unmatched _ hequivalent⟩
    rw [hends, hequivalent]
    rfl
  · obtain ⟨k, hk, -⟩ := Value.times_of_not_clashes hα hgivesm hgivesu hclear
    rw [hrun]
    exact spares_load hvalid (Terms.spares_equivalent hform hvalid hk misuse) d
  · rw [hrun] at hok ⊢
    exact isLoaded_of_load hok
  · -- What has been loaded has a strike, so the product exists.
    have hclear : ¬t.moneyness.Clashes t.underlying := by
      intro hclash
      exact nomatch (Value.times_of_clashes hα hgivesm hgivesu hclash).symm.trans hloaded.strike
    obtain ⟨k, hk, hread, hshape⟩ := Value.times_of_not_clashes hα hgivesm hgivesu hclear
    obtain rfl : k = _ := Except.ok.inj (hk.symm.trans hloaded.strike)
    exact ⟨hread, hshape⟩

/-! ## Prices in a text -/

namespace ThirtyDayCall

/-- The terms of a call with moneyness and underlying in any form. -/
noncomputable def priced (o : ThirtyDayCall) (moneyness underlying : Value Exact) : Terms Exact :=
  { o.terms with moneyness, underlying }

noncomputable def pricedDesk (o : ThirtyDayCall) (moneyness underlying : Value Exact) : Desk Exact :=
  Registry.empty.put 1 { Cell.blank .forward with terms := o.priced moneyness underlying }

theorem validate_priced {o : ThirtyDayCall} {moneyness underlying : Value Exact} {m u : ℝ}
    (h : o.terms.validate.result = .ok ()) (hm : 0 < m) (hmread : moneyness.read = .ok (.real m))
    (hu : 0 < u) (huread : underlying.read = .ok (.real u)) :
    (o.priced moneyness underlying).validate.result = .ok () := by
  obtain ⟨hplain, hreset⟩ := (Terms.validate_forward_eq_ok rfl).mp h
  refine (Terms.validate_forward_eq_ok rfl).mpr ⟨?_, ?_⟩
  · exact ⟨hplain.optionType, hplain.exercise, ⟨u, hu, huread⟩, hplain.strike, hplain.dividendCurve,
      hplain.riskFreeCurve, hplain.volSurface, hplain.maturity, hplain.maturityTime⟩
  · exact ⟨⟨m, hm, hmread⟩, hreset.resetDate, hreset.times⟩

end ThirtyDayCall

theorem Value.read_elevenTenths : (Value.figure (.text "1.1") : Value Exact).read = .ok (.real 1.1) := by
  have hparse : NumberText.parse? "1.1" = some (.decimal false 11 (-1)) := by decide +kernel
  rw [Value.read, Figure.read, hparse]
  rfl

/-- A text times truth is accepted, and what is loaded as the strike is the text, not its number. -/
theorem strike_is_loaded_from_text_times_truth :
    let o : ThirtyDayCall :=
      { reference := Value.midnight ⟨2025, 1, 1, by decide, by decide, by decide⟩
        reset := Value.midnight ⟨2025, 3, 31, by decide, by decide, by decide⟩
        maturity := Value.midnight ⟨2025, 12, 15, by decide, by decide, by decide⟩ }
    let t := o.priced (.figure (.text "1.1")) (.figure (.truth true))
    let d := o.pricedDesk (.figure (.text "1.1")) (.figure (.truth true))
    let e : Engine Exact := .decorator 1 .amount (.analytic 0)
    let run := (e.loadInner (.analytic 0)).run d
    (t.form = .forward ∧ t.validate.result = .ok ()) ∧
      t.LoadsStrike (d.get 0).terms (run.2.get 0).terms (.real 1.1) (.real 1) run.1.result ∧
      t.IsLoaded (d.get 0).terms (run.2.get 0).terms ∧
      (run.2.get 0).terms.strike = .figure (.text "1.1") := by
  intro o t d e run
  have hvalid : t.validate.result = .ok () :=
    ThirtyDayCall.validate_priced (ThirtyDayCall.validate rfl rfl (by decide) (by decide))
      (by norm_num) Value.read_elevenTenths (by norm_num) rfl
  obtain ⟨m, u, hm, hu, hloads⟩ :=
    strike_is_loaded_as_written Exact.countsTruth e (.analytic 0) d rfl nofun nofun hvalid
  obtain rfl : .real 1.1 = m := Except.ok.inj (Value.read_elevenTenths.symm.trans hm)
  obtain rfl : .real 1 = u := Except.ok.inj hu
  have hlater : o.reset.before o.reference = false := by decide
  have hequivalent := Terms.equivalent_of_parts (t := t) rfl (Value.curveFrom_eq_ok.mpr ⟨hlater, rfl⟩)
    (Value.curveFrom_eq_ok.mpr ⟨hlater, rfl⟩) (Value.volatilityFrom_eq_ok.mpr ⟨hlater, rfl⟩)
  refine ⟨⟨rfl, hvalid⟩, hloads, ?_⟩
  have hafter : (run.2.get 0).terms = _ :=
    (get_loadInner e (.analytic 0) d).1.accepted _ hvalid hequivalent
  rw [hafter]
  exact ⟨Terms.isLoaded_loaded hequivalent _, rfl⟩

/-- A text is accepted as the number that it writes, but loading multiplies it with a number. -/
theorem text_times_number_is_misused :
    let o : ThirtyDayCall :=
      { reference := Value.midnight ⟨2025, 1, 1, by decide, by decide, by decide⟩
        reset := Value.midnight ⟨2025, 3, 31, by decide, by decide, by decide⟩
        maturity := Value.midnight ⟨2025, 12, 15, by decide, by decide, by decide⟩ }
    let t := o.priced (.figure (.text "1.1")) (.number (.real 100.0))
    let d := o.pricedDesk (.figure (.text "1.1")) (.number (.real 100.0))
    let e : Engine Exact := .decorator 1 .amount (.analytic 0)
    t.moneyness.read = .ok (.real 1.1) ∧ t.underlying.read = .ok (.real 100.0) ∧
      t.validate.result = .ok () ∧
      ((e.loadInner (.analytic 0)).run d).1.result = .error (.misuse .wrongKind) := by
  intro o t d e
  have hvalid : t.validate.result = .ok () :=
    ThirtyDayCall.validate_priced (ThirtyDayCall.validate rfl rfl (by decide) (by decide))
      (by norm_num) Value.read_elevenTenths (by norm_num) rfl
  refine ⟨Value.read_elevenTenths, rfl, hvalid, ?_⟩
  have hrun : (e.loadInner (.analytic 0)).run d = ((Engine.analytic 0).load t).run d :=
    run_loadInner e (.analytic 0) d
  rw [hrun, result_load hvalid, Terms.equivalent_of_misuse rfl]
  rfl

end OptionDesk
