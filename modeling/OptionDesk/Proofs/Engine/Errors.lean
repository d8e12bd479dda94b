import OptionDesk.Proofs.Engine.Frame
import OptionDesk.Proofs.Terms

/-!
# Where errors come from

That an outcome is not one given error is closed under sequences, so it is read off the single checks.
No check of a field and no count of days says that maturity is not after the reference date, validation
never misuses a value, and nothing that is read for a simulation before it draws says that samples are
missing.
-/
namespace OptionDesk

variable {α β γ : Type} {e : PricingError α}

namespace Outcome

/-- The outcome is anything but one error. -/
def Spares (x : Outcome α β) (e : PricingError α) : Prop := x.result ≠ .error e

theorem Spares.bind {x : Outcome α β} {f : β → Outcome α γ} (hx : x.Spares e)
    (hf : ∀ b, x.result = .ok b → (f b).Spares e) : (x >>= f).Spares e := by
  intro h
  cases hresult : x.result with
  | error e' =>
    rw [result_bind_of_error hresult] at h
    cases h
    exact hx hresult
  | ok b =>
    rw [result_bind_of_ok hresult] at h
    exact hf b hresult h

theorem spares_pure (b : β) (e : PricingError α) : (pure b : Outcome α β).Spares e := nofun

theorem spares_of_ok {x : Outcome α β} {b : β} (h : x.result = .ok b) (e : PricingError α) :
    x.Spares e := by
  simp [Spares, h]

theorem spares_fail {e' : PricingError α} (h : e' ≠ e) : (fail e' : Outcome α β).Spares e := by
  simpa [Spares] using h

theorem spares_require {p : Prop} [Decidable p] {e' : PricingError α} (h : p ∨ e' ≠ e) :
    (require p e').Spares e := by
  by_cases hp : p
  · rw [require_of hp]
    exact spares_pure () e
  · rw [require_of_not hp]
    exact spares_fail (h.resolve_left hp)

theorem spares_ofMisuse (h : ∀ m, .misuse m ≠ e) (x : Except Misuse β) : (ofMisuse x).Spares e := by
  cases x with
  | error m => exact spares_fail (h m)
  | ok b => exact spares_pure b e

end Outcome

open Outcome

namespace Session

variable {σ : Type} {s : σ}

theorem spares_bind {x : Session σ α β} {f : β → Session σ α γ} (hx : (x.run s).1.Spares e)
    (hf : ∀ b, (x.run s).1.result = .ok b → ((f b).run (x.run s).2).1.Spares e) :
    ((x >>= f).run s).1.Spares e := by
  rw [fst_run_bind]
  exact hx.bind hf

theorem spares_lift_bind {o : Outcome α β} {f : β → Session σ α γ} (ho : o.Spares e)
    (hf : ∀ b, o.result = .ok b → ((f b).run s).1.Spares e) :
    ((lift o >>= f).run s).1.Spares e :=
  spares_bind ho hf

end Session

/-- An error that neither counting days between dates nor the check of a single field can give. -/
structure PricingError.Remote (e : PricingError α) : Prop where
  dayCount : ∀ name, .dayCount name ≠ e
  terms : ∀ form e', e' ≠ .maturityNotAfterReference → .terms form e' ≠ e

/-- An error that reading does not give either. -/
structure PricingError.Distant (e : PricingError α) : Prop extends e.Remote where
  misuse : ∀ m, .misuse m ≠ e

theorem distant_statistics (e : StatisticsError α) : (PricingError.statistics e).Distant :=
  ⟨⟨nofun, nofun⟩, nofun⟩

theorem remote_misuse (m : Misuse) : (PricingError.misuse m : PricingError α).Remote := ⟨nofun, nofun⟩

theorem remote_maturityNotAfterReference (form : TermForm) :
    (.terms form .maturityNotAfterReference : PricingError α).Remote := by
  refine ⟨nofun, fun form' e' hne h => ?_⟩
  cases h
  exact hne rfl

variable [Scalar α]

theorem DayCount.spares_yearFraction (he : e.Distant) (d : DayCount) (s t : Value α) :
    (d.yearFraction s t).Spares e := by
  cases d with
  | basis b => exact spares_ofMisuse he.misuse _
  | unsupported name => exact spares_fail (he.dayCount name)

theorem DayCount.spares_timeFrom (he : e.Distant) (d : DayCount) (reference moment : Value α) :
    (d.timeFrom reference moment).Spares e := by
  unfold timeFrom
  split
  · exact d.spares_yearFraction he _ _
  · exact spares_ofMisuse he.misuse _

/-! ## Terms -/

namespace Terms

theorem spares_yearsFrom (he : e.Distant) (s d : Value α) : (yearsFrom s d).Spares e := by
  unfold yearsFrom
  split
  · exact DayCount.spares_yearFraction he _ _ _
  · exact DayCount.spares_yearFraction he _ _ _
  · exact spares_fail (he.misuse _)

variable {t : Terms α} (he : e.Remote)

include he

/-- The years to a date can be counted, unless the basis is not supported. -/
theorem spares_yearsFrom_dateTime {s d : Value α} (hs : ∃ c, s = .curve c) (hd : ∃ t, d = .dateTime t) :
    (yearsFrom s d).Spares e := by
  obtain ⟨c, rfl⟩ := hs
  obtain ⟨date, rfl⟩ := hd
  show (c.dayCount.yearFraction (.dateTime c.reference) (.dateTime date)).Spares e
  cases c.dayCount with
  | basis b =>
    rw [DayCount.yearFraction_dateTime]
    exact spares_pure _ e
  | unsupported name => exact spares_fail (he.dayCount name)

omit [Scalar α] in
theorem spares_refuse {e' : TermError} (h : e' ≠ .maturityNotAfterReference) :
    (t.refuse e' : Outcome α β).Spares e :=
  spares_fail (he.terms t.form e' h)

omit [Scalar α] in
theorem spares_demand {p : Prop} [Decidable p] {e' : TermError}
    (h : p ∨ e' ≠ .maturityNotAfterReference) : (t.demand p e').Spares e :=
  spares_require (h.imp_right (he.terms t.form e'))

theorem spares_number (f : TermField) : (t.number f).Spares e := by
  unfold number
  split
  · exact spares_refuse he (by nofun)
  · split
    · exact spares_refuse he (by nofun)
    · split
      · exact spares_pure _ e
      · exact spares_refuse he (by nofun)

theorem spares_checkStrike : t.checkStrike.Spares e := by
  unfold checkStrike
  split
  · exact spares_pure _ e
  · exact (spares_number he _).bind fun _ _ => spares_demand he (.inr (by nofun))

omit [Scalar α] in
theorem spares_checkCurve (f : TermField) : (t.checkCurve f).Spares e := by
  unfold checkCurve
  split <;> first | exact spares_pure _ e | exact spares_refuse he (by nofun)

omit [Scalar α] in
theorem spares_exercise : t.exercise.Spares e := by
  unfold exercise
  split <;> first | exact spares_pure _ e | exact spares_refuse he (by nofun)

/-- The check of a plain option is the only one that compares maturity with the reference date. -/
theorem spares_validatePlain (h : (∀ x, t.maturityTime.result = .ok x → ¬x ≤ 0) ∨
    .terms t.form .maturityNotAfterReference ≠ e) : t.validatePlain.Spares e := by
  have hkind : t.checkOptionType.Spares e := by
    unfold checkOptionType
    split <;> first | exact spares_pure _ e | exact spares_refuse he (by nofun)
  have hvolatility : t.checkVolatility.Spares e := by
    unfold checkVolatility
    split <;> first | exact spares_pure _ e | exact spares_refuse he (by nofun)
  have hmaturity : t.checkMaturity.Spares e := by
    unfold checkMaturity
    split <;> first | exact spares_pure _ e | exact spares_refuse he (by nofun)
  refine hkind.bind fun _ _ => (spares_exercise he).bind fun _ _ => (spares_number he _).bind fun _ _ =>
    (spares_demand he (.inr (by nofun))).bind fun _ _ => (spares_checkStrike he).bind fun _ _ =>
    (spares_checkCurve he _).bind fun _ _ => (spares_checkCurve he _).bind fun _ hcurve =>
    hvolatility.bind fun _ _ => hmaturity.bind fun _ hdate =>
    (spares_yearsFrom_dateTime he (checkCurve_eq_ok.mp hcurve) (checkMaturity_eq_ok.mp hdate)).bind
      fun x hx => ?_
  exact (spares_require (h.imp_left fun h => h x hx)).bind fun _ _ => spares_demand he (.inr (by nofun))

theorem spares_validateReset (hc : ∃ c, t.riskFreeCurve = .curve c) (hd : ∃ d, t.maturity = .dateTime d) :
    t.validateReset.Spares e := by
  have hdate : t.checkResetDate.Spares e := by
    unfold checkResetDate
    split <;> first | exact spares_pure _ e | exact spares_refuse he (by nofun)
  exact (spares_number he _).bind fun _ _ => (spares_demand he (.inr (by nofun))).bind fun _ _ =>
    hdate.bind fun _ hreset =>
    (spares_yearsFrom_dateTime he hc (checkResetDate_eq_ok.mp hreset)).bind fun _ _ =>
    (spares_demand he (.inr (by nofun))).bind fun _ _ =>
    (spares_yearsFrom_dateTime he hc hd).bind fun _ _ => spares_demand he (.inr (by nofun))

theorem spares_validate (h : (∀ x, t.maturityTime.result = .ok x → ¬x ≤ 0) ∨
    .terms t.form .maturityNotAfterReference ≠ e) : t.validate.Spares e := by
  unfold validate
  split
  · exact spares_validatePlain he h
  · refine (spares_validatePlain he h).bind fun _ hplain => ?_
    obtain ⟨-, -, hcurve, -, hdate⟩ := parts_of_validatePlain hplain
    exact spares_validateReset he hcurve hdate
  · exact spares_pure _ e

end Terms

/-! ## What a simulation is told -/

section Statistics

variable {e : StatisticsError α}

theorem Curve.spares_timeTo (c : Curve α) (moment : Value α) :
    (c.timeTo moment).Spares (.statistics e) :=
  DayCount.spares_timeFrom (distant_statistics e) _ _ _

theorem DiscountCurve.spares_factorAt (c : DiscountCurve α) (t : α) :
    (c.factorAt t).Spares (.statistics e) := by
  have htable : (c.factorTable (.entry t)).Spares (.statistics e) := by
    unfold factorTable
    split
    · exact (spares_ofMisuse (by nofun) _).bind fun _ _ => spares_pure _ _
    · split
      · nofun
      · dsimp only
        split <;> nofun
  refine htable.bind fun table _ => ?_
  split <;> nofun

theorem Curve.spares_discountAt (c : Curve α) (moment : Value α) :
    (c.discountAt moment).Spares (.statistics e) := by
  induction c generalizing moment with
  | discount c => exact (spares_timeTo _ moment).bind fun _ _ => c.spares_factorAt _
  | implied base reference ih =>
    refine (DayCount.spares_yearFraction (distant_statistics e) _ _ _).bind fun _ _ =>
      (spares_timeTo _ moment).bind fun _ _ => (ih _).bind fun _ _ => (ih _).bind fun _ _ => ?_
    unfold Outcome.divide
    split <;> nofun

theorem Curve.spares_zeroYield (c : Curve α) (moment : Value α) :
    (c.zeroYield moment).Spares (.statistics e) := by
  have hfactor (c : Curve α) : (c.yieldFromFactor moment).Spares (.statistics e) :=
    (c.spares_timeTo moment).bind fun _ _ => (c.spares_discountAt _).bind fun _ _ => spares_pure _ _
  cases c with
  | discount c =>
    cases hrate : c.flatRate with
    | none =>
      rw [zeroYield, hrate]
      exact hfactor _
    | some rate =>
      rw [zeroYield, hrate]
      exact spares_ofMisuse (by nofun) _
  | implied base reference => exact hfactor _

theorem Surface.spares_query (s : Surface α) (strike expiry : Value α) :
    (s.query strike expiry).Spares (.statistics e) := by
  refine (spares_ofMisuse (by nofun) _).bind fun _ _ => (spares_ofMisuse (by nofun) _).bind fun _ _ =>
    (spares_ofMisuse (by nofun) _).bind fun v _ => ?_
  split <;> nofun

theorem Volatility.spares_timeTo (v : Volatility α) (moment : Value α) :
    (v.timeTo moment).Spares (.statistics e) :=
  DayCount.spares_timeFrom (distant_statistics e) _ _ _

theorem Volatility.spares_varianceAt (v : Volatility α) (moment strike : Value α) :
    (v.varianceAt moment strike).Spares (.statistics e) := by
  induction v generalizing moment with
  | constant reference level dayCount =>
    exact (spares_timeTo _ moment).bind fun _ _ => spares_pure _ _
  | surface s =>
    exact (spares_timeTo _ moment).bind fun _ _ => (s.spares_query _ _).bind fun _ _ => spares_pure _ _
  | implied base reference ih =>
    exact (DayCount.spares_yearFraction (distant_statistics e) _ _ _).bind fun _ _ =>
      (spares_timeTo _ moment).bind fun _ _ => (ih _).bind fun _ _ => (ih _).bind fun _ _ =>
      (spares_require (.inr (by nofun))).bind fun _ _ => spares_pure _ _

theorem Volatility.spares_levelAt (v : Volatility α) (moment strike : Value α) :
    (v.levelAt moment strike).Spares (.statistics e) := by
  cases v with
  | constant reference level dayCount => exact spares_pure _ _
  | surface s => exact (spares_timeTo _ moment).bind fun _ _ => s.spares_query _ _
  | implied base reference =>
    exact (spares_timeTo _ moment).bind fun _ _ => (spares_varianceAt _ _ _).bind fun _ _ =>
      spares_pure _ _

theorem Terms.spares_simulation (t : Terms α) (s : Settings α) :
    (t.simulation s).Spares (.statistics e) := by
  have hcurve (v : Value α) : v.asCurve.Spares (.statistics e) := by
    unfold Value.asCurve
    split <;> nofun
  have hvolatility (v : Value α) : v.asVolatility.Spares (.statistics e) := by
    unfold Value.asVolatility
    split <;> nofun
  exact (spares_ofMisuse (by nofun) _).bind fun _ _ => (spares_ofMisuse (by nofun) _).bind fun _ _ =>
    (hcurve _).bind fun _ _ => (hcurve _).bind fun _ _ => (hvolatility _).bind fun v _ =>
    (Curve.spares_zeroYield _ _).bind fun _ _ => (Curve.spares_zeroYield _ _).bind fun _ _ =>
    (spares_yearsFrom (distant_statistics e) _ _).bind fun _ _ => (v.spares_levelAt _ _).bind fun _ _ =>
    spares_pure _ _

/-- Building a model from its terms. -/
theorem SimulationTerms.spares_model [NormalSource α] (t : SimulationTerms α) :
    t.model.Spares (.statistics e) := by
  have hread {β : Type} (x : Except Misuse β) : (ofMisuse x).Spares (.statistics e : PricingError α) :=
    spares_ofMisuse (by nofun) x
  have hgenerator (drift variance length : Value α) (timeSteps : α) (seed : Int) :
      (PathGenerator.build drift variance length timeSteps seed).Spares (.statistics e) := by
    have hprocess : (PathProcess.build drift variance length timeSteps).Spares (.statistics e) :=
      (hread _).bind fun _ _ => (spares_require (.inr (by nofun))).bind fun _ _ =>
        (hread _).bind fun _ _ => (spares_require (.inr (by nofun))).bind fun _ _ =>
        (hread _).bind fun _ _ => (spares_require (.inr (by nofun))).bind fun _ _ =>
        (spares_require (.inr (by nofun))).bind fun _ _ => spares_pure _ _
    exact hprocess.bind fun _ _ => (spares_require (.inr (by nofun))).bind fun _ _ => spares_pure _ _
  have hpricer (kind underlying strike discount antithetic : Value α) :
      (EuropeanPricer.build kind underlying strike discount antithetic).Spares (.statistics e) := by
    unfold EuropeanPricer.build
    split
    · exact (hread _).bind fun _ _ => (spares_require (.inr (by nofun))).bind fun _ _ =>
        (hread _).bind fun _ _ => (spares_require (.inr (by nofun))).bind fun _ _ =>
        (hread _).bind fun _ _ => (spares_require (.inr (by nofun))).bind fun _ _ => spares_pure _ _
    · nofun
  exact (hread _).bind fun _ _ => (spares_require (.inr (by nofun))).bind fun _ _ =>
    (hread _).bind fun _ _ => (spares_require (.inr (by nofun))).bind fun _ _ =>
    (hread _).bind fun _ _ => (spares_require (.inr (by nofun))).bind fun _ _ =>
    (hread _).bind fun _ _ => (spares_require (.inr (by nofun))).bind fun _ _ =>
    (hgenerator _ _ _ _ _).bind fun _ _ => (hpricer _ _ _ _ _).bind fun _ _ =>
    (spares_require (.inr (by nofun))).bind fun _ _ =>
    (spares_require (.inr (by nofun))).bind fun _ _ => spares_pure _ _

end Statistics

end OptionDesk
