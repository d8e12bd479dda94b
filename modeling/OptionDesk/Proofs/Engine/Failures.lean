import OptionDesk.Proofs.Engine.ResetSplit

/-!
# What a decorator leaves behind when it fails

A decorator has all fields of the equivalent plain option before it loads any of them. So wherever it
fails, a whole option stands at the place of the engine that it prices through: the one that was there,
or the equivalent one. The results there are whole as well. They are those of one calculation, or what
the decorator has made of the earlier results before it began to load.
-/
namespace OptionDesk

open Session Engine

variable {α : Type}

/-- What a decorator makes of the results of the other engine before it loads anything. -/
def ForwardStyle.clears : ForwardStyle → Results α → Results α
  | .amount, _ => .blank
  | .performance, r => r

variable [Scalar α]

namespace Terms

/-- The complete equivalent of forward terms has been loaded into terms, and nothing else. -/
structure IsLoaded (t before after : Terms α) : Prop where
  optionType : after.optionType = t.optionType
  underlying : after.underlying = t.underlying
  strike : t.moneyness.times t.underlying = .ok after.strike
  dividendCurve : (t.dividendCurve.curveFrom t.resetDate).result = .ok after.dividendCurve
  riskFreeCurve : (t.riskFreeCurve.curveFrom t.resetDate).result = .ok after.riskFreeCurve
  volSurface : (t.volSurface.volatilityFrom t.resetDate).result = .ok after.volSurface
  exerciseType : after.exerciseType = t.exerciseType
  stoppingTimes : after.stoppingTimes = t.stoppingTimes
  maturity : after.maturity = t.maturity
  form : after.form = before.form
  moneyness : after.moneyness = before.moneyness
  resetDate : after.resetDate = before.resetDate

theorem isLoaded_loaded {t plain : Terms α} (h : t.equivalent.result = .ok plain)
    (before : Terms α) : t.IsLoaded before (before.loaded plain) := by
  simp only [equivalent, Outcome.result_bind_eq_ok, Outcome.result_ofMisuse_eq_ok] at h
  obtain ⟨strike, hstrike, q, hq, r, hr, v, hv, hplain⟩ := h
  cases hplain
  exact ⟨rfl, rfl, hstrike, hq, hr, hv, rfl, rfl, rfl, rfl, rfl, rfl⟩

/-- Loading forward terms leaves whole terms behind, and which ones does not depend on what follows. -/
structure LeavesWhole (t before after : Terms α) : Prop where
  whole : after = before ∨ t.IsLoaded before after
  refused : ∀ error, t.validate.result = .error error → after = before
  unmatched : ∀ error, t.equivalent.result = .error error → after = before
  accepted : ∀ plain, t.validate.result = .ok () → t.equivalent.result = .ok plain →
    after = before.loaded plain

theorem leavesWhole_of_refused {t : Terms α} {error : PricingError α}
    (h : t.validate.result = .error error) (before : Terms α) : t.LeavesWhole before before :=
  ⟨.inl rfl, fun _ _ => rfl, fun _ _ => rfl, fun _ hvalid => nomatch h.symm.trans hvalid⟩

theorem leavesWhole_of_unmatched {t : Terms α} {error : PricingError α}
    (h : t.equivalent.result = .error error) (before : Terms α) : t.LeavesWhole before before :=
  ⟨.inl rfl, fun _ _ => rfl, fun _ _ => rfl, fun _ _ hplain => nomatch h.symm.trans hplain⟩

theorem leavesWhole_loaded {t plain : Terms α} (hvalid : t.validate.result = .ok ())
    (hplain : t.equivalent.result = .ok plain) (before : Terms α) :
    t.LeavesWhole before (before.loaded plain) := by
  refine ⟨.inr (isLoaded_loaded hplain before), fun _ hrefused => ?_, fun _ hunmatched => ?_,
    fun plain' _ hplain' => ?_⟩
  · exact nomatch hvalid.symm.trans hrefused
  · exact nomatch hplain.symm.trans hunmatched
  · rw [Except.ok.inj (hplain.symm.trans hplain')]

end Terms

namespace Engine

/-- Loading touches the terms only, and leaves them whole. -/
theorem get_load (inner : Engine α) (t : Terms α) (d : Desk α) :
    ∃ terms, t.LeavesWhole (d.get inner.place).terms terms ∧
      ((inner.load t).run d).2.get inner.place = { d.get inner.place with terms } := by
  rw [load]
  rcases hvalid : t.validate with ⟨error | _, notices⟩
  · rw [run_bind_of_error _ (run_lift _ d)]
    exact ⟨_, Terms.leavesWhole_of_refused (by rw [hvalid]) _, rfl⟩
  · rw [run_bind_of_ok _ (run_lift _ d)]
    rcases hplain : t.equivalent with ⟨error | plain, notices'⟩
    · rw [run_bind_of_error _ (run_lift _ d)]
      exact ⟨_, Terms.leavesWhole_of_unmatched (by rw [hplain]) _, rfl⟩
    · rw [run_bind_of_ok _ (run_lift _ d), run_change_bind, run_validate]
      exact ⟨_, Terms.leavesWhole_loaded (by rw [hvalid]) (by rw [hplain]) _,
        Desk.get_put_self d _ _⟩

/-- A load that succeeds has loaded the complete equivalent option. -/
theorem isLoaded_of_load {inner : Engine α} {t : Terms α} {d : Desk α}
    (hok : ((inner.load t).run d).1.result = .ok ()) : t.IsLoaded (d.get inner.place).terms
      (((inner.load t).run d).2.get inner.place).terms := by
  obtain ⟨terms, hwhole, hcell⟩ := get_load inner t d
  rw [load] at hok
  simp only [fst_run_bind, run_lift, Outcome.result_bind_eq_ok] at hok
  obtain ⟨_, hvalid, plain, hplain, -⟩ := hok
  rw [hcell, hwhole.accepted plain hvalid hplain]
  exact Terms.isLoaded_loaded hplain _

omit [Scalar α] in
theorem result_clearFor (inner : Engine α) (style : ForwardStyle) (d : Desk α) :
    ((inner.clearFor style).run d).1.result = .ok () := by
  cases style <;> rfl

omit [Scalar α] in
theorem get_clearFor (inner : Engine α) (style : ForwardStyle) (d : Desk α) :
    (((inner.clearFor style).run d).2.get inner.place).terms = (d.get inner.place).terms ∧
      (((inner.clearFor style).run d).2.get inner.place).results =
        style.clears (d.get inner.place).results := by
  cases style with
  | amount =>
    rw [clearFor, reset, get_change]
    exact ⟨rfl, rfl⟩
  | performance => exact ⟨rfl, rfl⟩

theorem get_loadInner (e inner : Engine α) (d : Desk α) :
    let after := ((e.loadInner inner).run d).2.get inner.place
    (d.get e.place).terms.LeavesWhole (d.get inner.place).terms after.terms ∧
      after.results = (d.get inner.place).results := by
  intro after
  obtain ⟨terms, hwhole, hcell⟩ := get_load inner (d.get e.place).terms d
  have hafter : after = { d.get inner.place with terms } := by
    rw [← hcell]
    exact congrArg (fun run => run.2.get inner.place) (run_loadInner e inner d)
  rw [hafter]
  exact ⟨hwhole, rfl⟩

/-- Before the other engine calculates, it has whole terms, and results that are cleared at most. -/
theorem get_prepare {e inner : Engine α} (h : inner.place ≠ e.place) (style : ForwardStyle)
    (d : Desk α) :
    (d.get e.place).terms.LeavesWhole (d.get inner.place).terms
        (((e.prepare style inner).run d).2.get inner.place).terms ∧
      (((e.prepare style inner).run d).2.get inner.place).results =
        style.clears (d.get inner.place).results := by
  obtain ⟨hterms, hresults⟩ := get_clearFor inner style d
  obtain ⟨terms, hwhole, hcell⟩ :=
    get_load inner (d.get e.place).terms ((inner.clearFor style).run d).2
  rw [run_prepare h, snd_run_bind_ok (result_clearFor inner style d), hcell, ← hterms, ← hresults]
  exact ⟨hwhole, rfl⟩

/-- If there is an equivalent option, the preparation ends as its validation does. -/
theorem result_prepare {e inner : Engine α} (h : inner.place ≠ e.place) (style : ForwardStyle)
    {d : Desk α} {plain : Terms α} (hvalid : (d.get e.place).terms.validate.result = .ok ())
    (hplain : (d.get e.place).terms.equivalent.result = .ok plain) :
    ((e.prepare style inner).run d).1.result =
      ((d.get inner.place).terms.loaded plain).validate.result := by
  rw [run_prepare h]
  cases style with
  | amount =>
    rw [clearFor, reset, run_change_bind, (run_load inner _ hvalid hplain).2, Desk.get_put_self]
  | performance => exact (run_load inner d hvalid hplain).2

/-- A preparation that succeeds has loaded the complete equivalent option. -/
theorem isLoaded_of_prepare {e inner : Engine α} (h : inner.place ≠ e.place) {style : ForwardStyle}
    {d : Desk α} (hok : ((e.prepare style inner).run d).1.result = .ok ()) :
    (d.get e.place).terms.IsLoaded (d.get inner.place).terms
      (((e.prepare style inner).run d).2.get inner.place).terms := by
  have hclear := result_clearFor inner style d
  rw [run_prepare h] at hok ⊢
  rw [result_run_bind_ok hclear] at hok
  rw [snd_run_bind_ok hclear, ← (get_clearFor inner style d).1]
  exact isLoaded_of_load hok

/-- The end of a decorated calculation leaves other places alone. -/
theorem keeps_conclude {e : Engine α} (inner : Engine α) (style : ForwardStyle) {j : ℕ}
    (h : j ≠ e.place) : Keeps (fun d => d.get j) (e.conclude style inner) := by
  have hchange (g : Cell α → Cell α) : Keeps (fun d => id (d.get j)) (e.change g) :=
    keeps_change e fun hplace => absurd hplace h
  have htake : Keeps (fun d => d.get j) (e.takeResults style inner) :=
    (keeps_cell e _).bind fun _ => (keeps_cell inner _).bind fun _ =>
      (Keeps.lift _).bind fun _ => hchange _
  exact htake.bind fun _ => (hchange _).bind fun _ => (keeps_cell e _).bind fun _ => .lift _

variable [NormalSource α]

/-- The results that another engine has after a decorated calculation: those before it, cleared at
most, or all that the other engine has published in the one calculation that it was called for. -/
inductive LeavesResults (e inner : Engine α) (style : ForwardStyle) (d : Desk α) : Results α → Prop
  | kept {r : Results α} (same : r = style.clears (d.get inner.place).results) :
      LeavesResults e inner style d r
  | completed {r : Results α}
      (prepared : ((e.prepare style inner).run d).1.result = .ok ())
      (published : (inner.outcome ((e.prepare style inner).run d).2).result = .ok r) :
      LeavesResults e inner style d r

theorem get_calculate_decorator {base : Engine α} (hplain : base.inner? = none) {q : ℕ}
    (hplace : base.place ≠ q) (style : ForwardStyle) (d : Desk α) :
    let e := decorator q style base
    let after := (e.calculate.run d).2.get base.place
    (d.get q).terms.LeavesWhole (d.get base.place).terms after.terms ∧
      LeavesResults e base style d after.results := by
  intro e after
  have hprepared := get_prepare (e := e) hplace style d
  have hafter : after = ((e.prepare style base >>= fun _ => base.calculate >>= fun _ =>
      e.conclude style base).run d).2.get base.place :=
    congrArg (fun x => (Session.run x d).2.get base.place) (calculate_decorator q style base)
  rcases hprepare : (e.prepare style base).run d with ⟨⟨error | _, notices⟩, d₁⟩
  · rw [hprepare] at hprepared
    rw [hafter, run_bind_of_error _ hprepare]
    exact ⟨hprepared.1, .kept hprepared.2⟩
  · rw [hprepare] at hprepared
    obtain ⟨hwhole, hresults⟩ := hprepared
    obtain ⟨-, hterms, hrefused, -⟩ := publishes_quotation (separate_of_plain hplain) d₁
    have houtcome := outcome_eq (separate_of_plain hplain) d₁
    rw [run_bind_of_ok _ hprepare] at hafter
    rcases hcalculate : base.calculate.run d₁ with ⟨⟨error | _, notices'⟩, d₂⟩
    · rw [run_bind_of_error _ hcalculate] at hafter
      have hfails : (base.quotation d₁).result = .error error := by
        rw [← houtcome, outcome, seen, hcalculate]
        rfl
      rw [hcalculate] at hterms hrefused
      rw [hafter, hterms, (hrefused error hfails).1]
      exact ⟨hwhole, .kept hresults⟩
    · rw [run_bind_of_ok _ hcalculate] at hafter
      have hkept : after = d₂.get base.place :=
        hafter.trans (keeps_conclude (e := e) base style hplace d₂)
      have hpublished : (base.outcome d₁).result = .ok (d₂.get base.place).results := by
        rw [outcome, seen, hcalculate]
        rfl
      rw [hcalculate] at hterms
      rw [hkept, hterms]
      exact ⟨hwhole, .completed (by rw [hprepare]) (by rw [hprepare]; exact hpublished)⟩

end Engine

variable [NormalSource α]

/-- A decorator never leaves a mixture of options behind. Whatever stands on the desk, and wherever
loading or calculating may fail, the terms of the plain engine are afterwards those from before or the
complete equivalent option, and those from before if the decorator's own terms are refused. Loading
leaves the results alone; a calculation leaves nothing or, for a performance, the earlier results, unless
the plain engine has completed the calculation that it was called for. -/
theorem decorator_leaves_a_whole_option {base : Engine α} (hplain : base.inner? = none) {q : ℕ}
    (hplace : base.place ≠ q) (style : ForwardStyle) (d : Desk α) :
    let e := decorator q style base
    let t := (d.get q).terms
    let before := d.get base.place
    let loaded := ((e.loadInner base).run d).2.get base.place
    let calculated := (e.calculate.run d).2.get base.place
    (t.LeavesWhole before.terms loaded.terms ∧ loaded.results = before.results) ∧
      t.LeavesWhole before.terms calculated.terms ∧ LeavesResults e base style d calculated.results :=
  ⟨get_loadInner (decorator q style base) base d, get_calculate_decorator hplain hplace style d⟩

/-- A month of thirty days leaves no time after a reset on 30 January, so the formula refuses the option
that is loaded. It stands there whole, while the earlier results are cleared for an amount only. -/
theorem refused_by_the_formula_and_left_whole :
    letI : NormalSource Exact := ⟨Unit, fun _ => (), fun _ => (.real 0, ())⟩
    let o : ThirtyDayCall :=
      { reference := Value.midnight ⟨2025, 1, 1, by decide, by decide, by decide⟩
        reset := Value.midnight ⟨2025, 1, 30, by decide, by decide, by decide⟩
        maturity := Value.midnight ⟨2025, 1, 31, by decide, by decide, by decide⟩ }
    let earlier : Results Exact := { Results.blank with value := .number (.real 7) }
    let d : Desk Exact := o.desk.put 0 { Cell.blank .plain with results := earlier }
    let amount : Engine Exact := .decorator 1 .amount (.analytic 0)
    let performance : Engine Exact := .decorator 1 .performance (.analytic 0)
    let refusal : PricingError Exact := .terms .plain .maturityNotAfterReference
    ((amount.calculate.run d).1.result = .error refusal ∧
      ((amount.calculate.run d).2.get 0).terms = o.loaded ∧
      ((amount.calculate.run d).2.get 0).results = .blank) ∧
    (performance.calculate.run d).1.result = .error refusal ∧
      ((performance.calculate.run d).2.get 0).terms = o.loaded ∧
      ((performance.calculate.run d).2.get 0).results = earlier := by
  let _ : NormalSource Exact := ⟨Unit, fun _ => (), fun _ => (.real 0, ())⟩
  intro o earlier d amount performance refusal
  have hdays : DayCount.thirtyDays o.reference.date o.reset.date = 29 ∧
      DayCount.thirtyDays o.reference.date o.maturity.date = 30 ∧
      DayCount.thirtyDays o.reset.date o.maturity.date = 0 := by decide
  obtain ⟨hr, hT, hτ⟩ := hdays
  have hvalid : o.terms.validate.result = .ok () := ThirtyDayCall.validate hr hT (by decide) (by decide)
  have hequivalent : o.terms.equivalent.result = .ok o.loaded := o.equivalent (by decide)
  have hterms : (d.get 1).terms = o.terms := rfl
  have hbefore : (d.get 0).terms = .blank .plain := rfl
  have hleft (style : ForwardStyle) : let e : Engine Exact := .decorator 1 style (.analytic 0)
      (e.calculate.run d).1.result = .error refusal ∧
        ((e.calculate.run d).2.get 0).terms = o.loaded ∧
        ((e.calculate.run d).2.get 0).results = style.clears earlier := by
    intro e
    have hrefused : ((e.prepare style (.analytic 0)).run d).1.result = .error refusal := by
      rw [@result_prepare Exact _ e (.analytic 0) Nat.zero_ne_one style d o.loaded hvalid hequivalent]
      exact ThirtyDayCall.loaded_refused hτ le_rfl
    obtain ⟨-, hwhole, hresults⟩ :=
      @decorator_leaves_a_whole_option Exact _ _ (.analytic 0) rfl 1 Nat.zero_ne_one style d
    refine ⟨?_, ?_, ?_⟩
    · rw [show e.calculate = _ from calculate_decorator 1 style (.analytic 0), fst_run_bind,
        Outcome.result_bind_of_error hrefused]
    · exact hwhole.accepted o.loaded hvalid hequivalent
    · cases hresults with
      | kept same => exact same
      | completed prepared => exact nomatch hrefused.symm.trans prepared
  exact ⟨hleft .amount, hleft .performance⟩

end OptionDesk
