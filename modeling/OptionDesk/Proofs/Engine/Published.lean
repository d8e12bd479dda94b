import OptionDesk.Proofs.Engine.Stable
import Mathlib.Data.List.Basic

/-!
# What engines publish

Every published result is a number or null, and what an engine does not produce is null. A decorator
produces value, gamma and theta itself; for the others it depends on the engine that it prices through.
-/
namespace OptionDesk

variable {α : Type}

/-- A result is a number, or nothing. -/
def Value.IsResult (v : Value α) : Prop := v = .null ∨ ∃ x, v = .number x

theorem Value.isResult_null : (.null : Value α).IsResult := Or.inl rfl

theorem Value.isResult_number (x : α) : (.number x : Value α).IsResult := Or.inr ⟨x, rfl⟩

namespace Results

/-- Results of which only those that are produced may be there. -/
def Covers (produced : ResultField → Prop) (r : Results α) : Prop :=
  ∀ f, (r.get f).IsResult ∧ (¬produced f → r.get f = .null)

/-- Results of which those that are not produced are absent. -/
def Within (produced : ResultField → Prop) (r : Results α) : Prop :=
  ∀ f, ¬produced f → r.get f = .null

theorem Covers.within {produced : ResultField → Prop} {r : Results α} (h : r.Covers produced) :
    r.Within produced := fun f => (h f).2

theorem covers_blank (produced : ResultField → Prop) : Covers produced (blank : Results α) := by
  intro f
  rw [get_blank]
  exact ⟨Value.isResult_null, fun _ => rfl⟩

theorem covers_set {produced : ResultField → Prop} {r : Results α} (hr : Covers produced r)
    {f : ResultField} (hf : produced f) {v : Value α} (hv : v.IsResult) :
    Covers produced (r.set f v) := by
  intro g
  by_cases hg : f = g
  · subst hg
    rw [get_set_self]
    exact ⟨hv, fun hnot => absurd hf hnot⟩
  · rw [get_set_of_ne r v hg]
    exact hr g

theorem name_of_ofName? {name : String} {f : ResultField} (h : ResultField.ofName? name = some f) :
    f.name = name := by
  have hfound := List.find?_some h
  exact eq_of_beq hfound

variable [Scalar α]

theorem isResult_published {v w : Value α} (h : published v = .ok w) : w.IsResult := by
  unfold published at h
  split at h
  · cases h
    exact Value.isResult_null
  · cases hread : v.read with
    | error m =>
      rw [hread] at h
      cases h
    | ok x =>
      rw [hread] at h
      cases h
      exact Value.isResult_number x

theorem entry_eq_ok {p q : String × Value α} (h : entry p = .ok q) :
    q.1 = p.1 ∧ published p.2 = .ok q.2 := by
  unfold entry at h
  cases hp : published p.2 with
  | error m =>
    rw [hp] at h
    cases h
  | ok w =>
    rw [hp] at h
    cases h
    exact ⟨rfl, rfl⟩

/-- Reading published values keeps their names and gives results, if all of them can be read. -/
theorem entries_eq_ok {values entries : List (String × Value α)}
    (h : values.mapM entry = .ok entries) :
    entries.map Prod.fst = values.map Prod.fst ∧ (∀ p ∈ entries, p.2.IsResult) ∧
      ∀ p ∈ values, ∃ w, published p.2 = .ok w := by
  induction values generalizing entries with
  | nil =>
    cases h
    exact ⟨rfl, fun p hp => absurd hp List.not_mem_nil, fun p hp => absurd hp List.not_mem_nil⟩
  | cons p values ih =>
    rw [List.mapM_cons] at h
    cases hp : entry p with
    | error m =>
      rw [hp] at h
      cases h
    | ok q =>
      cases hrest : values.mapM entry with
      | error m =>
        rw [hp, hrest] at h
        cases h
      | ok rest =>
        rw [hp, hrest] at h
        cases h
        obtain ⟨hname, hvalue⟩ := entry_eq_ok hp
        obtain ⟨hnames, hresults, hread⟩ := ih hrest
        refine ⟨?_, ?_, ?_⟩
        · rw [List.map_cons, List.map_cons, hname, hnames]
        · intro r hr
          rcases List.mem_cons.mp hr with rfl | hr
          · exact isResult_published hvalue
          · exact hresults r hr
        · intro r hr
          rcases List.mem_cons.mp hr with rfl | hr
          · exact ⟨q.2, hvalue⟩
          · exact hread r hr

omit [Scalar α] in
theorem covers_foldl_assign {produced : ResultField → Prop} {entries : List (String × Value α)}
    (hnames : ∀ f : ResultField, f.name ∈ entries.map Prod.fst → produced f)
    (hresults : ∀ p ∈ entries, p.2.IsResult) {r : Results α} (hr : Covers produced r) :
    Covers produced (entries.foldl assign r) := by
  induction entries generalizing r with
  | nil => exact hr
  | cons p entries ih =>
    have hassign : Covers produced (r.assign p) := by
      unfold assign
      cases hf : ResultField.ofName? p.1 with
      | none => exact hr
      | some f =>
        have hname := name_of_ofName? hf
        refine covers_set hr (hnames f ?_) (hresults p List.mem_cons_self)
        rw [hname]
        exact List.mem_cons_self
    refine ih (fun f hf => hnames f (List.mem_cons_of_mem _ hf)) ?_ hassign
    exact fun q hq => hresults q (List.mem_cons_of_mem _ hq)

/-- What has been published covers the published names. -/
theorem covers_publication {values : List (String × Value α)} {r : Results α}
    (h : (publication values).result = .ok r) :
    Covers (fun f => f.name ∈ values.map Prod.fst) r := by
  unfold publication publish at h
  cases hunknown : (values.map Prod.fst).filter fun n => (ResultField.ofName? n).isNone with
  | cons name names =>
    rw [hunknown] at h
    cases h
  | nil =>
    cases hentries : values.mapM entry with
    | error m =>
      rw [hunknown, hentries] at h
      cases h
    | ok entries =>
      rw [hunknown, hentries] at h
      cases h
      obtain ⟨hnames, hresults, -⟩ := entries_eq_ok hentries
      refine covers_foldl_assign (fun f hf => ?_) hresults (covers_blank _)
      rw [← hnames]
      exact hf

/-- A name that is unknown or a value that is no number refuses a publication. -/
theorem publication_refused {values : List (String × Value α)}
    (h : ∃ p ∈ values, ResultField.ofName? p.1 = none ∨ ∃ m, published p.2 = .error m) :
    ∃ error, publication values = .fail (.results error) := by
  unfold publication
  cases hpublish : publish values with
  | error error => exact ⟨error, rfl⟩
  | ok r =>
    exfalso
    unfold publish at hpublish
    obtain ⟨p, hp, hname | ⟨m, hvalue⟩⟩ := h
    · have hmem : p.1 ∈ (values.map Prod.fst).filter fun n => (ResultField.ofName? n).isNone := by
        rw [List.mem_filter, hname]
        exact ⟨List.mem_map_of_mem hp, rfl⟩
      split at hpublish
      · next hunknown =>
        rw [hunknown] at hmem
        cases hmem
      · cases hpublish
    · cases hentries : values.mapM entry with
      | error m =>
        rw [hentries] at hpublish
        split at hpublish <;> cases hpublish
      | ok entries =>
        obtain ⟨-, -, hread⟩ := entries_eq_ok hentries
        obtain ⟨w, hw⟩ := hread p hp
        rw [hvalue] at hw
        cases hw

end Results

/-! ## Kinds of engines -/

theorem AnalyticGreeks.covers_results (g : AnalyticGreeks α) :
    Results.Covers (· ≠ .errorEstimate) g.results := by
  intro f
  cases f
  case errorEstimate => exact ⟨Value.isResult_null, fun _ => rfl⟩
  all_goals exact ⟨Value.isResult_number _, fun hnot => absurd (by decide) hnot⟩

/-- The results that a decorator has if the engine that it prices through produces some. -/
def ForwardStyle.carries (style : ForwardStyle) (produced : ResultField → Prop) :
    ResultField → Prop
  | .value | .gamma | .theta => True
  | .delta => style = .performance ∨ produced .delta ∧ produced .strikeSensitivity
  | .strikeSensitivity => False
  | f => produced f

variable [Scalar α]

theorem Value.scaled_eq_ok {factor : α} {v w : Value α} (h : (v.scaled factor).result = .ok w) :
    w.IsResult ∧ (v = .null → w = .null) := by
  unfold scaled at h
  split at h
  · cases h
    exact ⟨isResult_null, fun _ => rfl⟩
  · next hv =>
    obtain ⟨x, _, hx⟩ := Outcome.result_bind_eq_ok.mp h
    cases hx
    exact ⟨isResult_number _, fun hnull => absurd hnull hv⟩

theorem Value.shifted_eq_ok {shift factor : α} {v w : Value α}
    (h : (v.shifted shift factor).result = .ok w) : w.IsResult ∧ (v = .null → w = .null) := by
  unfold shifted at h
  split at h
  · cases h
    exact ⟨isResult_null, fun _ => rfl⟩
  · next hv =>
    obtain ⟨x, _, hx⟩ := Outcome.result_bind_eq_ok.mp h
    cases hx
    exact ⟨isResult_number _, fun hnull => absurd hnull hv⟩

namespace Terms

theorem strikeDelta_eq_ok {t : Terms α} {discount : α} {r : Results α} {w : Value α}
    (h : (t.strikeDelta discount r).result = .ok w) :
    w.IsResult ∧ (r.delta = .null ∨ r.strikeSensitivity = .null → w = .null) := by
  unfold strikeDelta at h
  split at h
  · cases h
    exact ⟨Value.isResult_null, fun _ => rfl⟩
  · cases h
    exact ⟨Value.isResult_null, fun _ => rfl⟩
  · next hdelta hstrike =>
    simp only [Outcome.result_bind_eq_ok] at h
    obtain ⟨_, _, _, _, _, _, hw⟩ := h
    cases hw
    refine ⟨Value.isResult_number _, fun hnull => ?_⟩
    rcases hnull with hnull | hnull
    · exact absurd hnull hdelta
    · exact absurd hnull hstrike

theorem covers_priceAnalytically {t : Terms α} {r : Results α}
    (h : t.priceAnalytically.result = .ok r) : Results.Covers (· ≠ .errorEstimate) r := by
  simp only [priceAnalytically, Outcome.result_bind_eq_ok] at h
  obtain ⟨_, _, _, _, _, _, _, _, _, _, hr⟩ := h
  cases hr
  exact AnalyticGreeks.covers_results _

theorem covers_priceBySimulation [NormalSource α] {t : Terms α} {s : Settings α} {r : Results α}
    (h : (t.priceBySimulation s).result = .ok r) :
    Results.Covers (fun f => f = .value ∨ f = .errorEstimate) r := by
  simp only [priceBySimulation, Outcome.result_bind_eq_ok] at h
  obtain ⟨_, _, _, _, _, _, _, _, _, _, _, _, hr⟩ := h
  cases hr
  intro f
  cases f
  case value => exact ⟨Value.isResult_number _, fun hnot => absurd (Or.inl rfl) hnot⟩
  case errorEstimate => exact ⟨Value.isResult_number _, fun hnot => absurd (Or.inr rfl) hnot⟩
  all_goals exact ⟨Value.isResult_null, fun _ => rfl⟩

theorem covers_amountResults {t : Terms α} {engine : EngineClass} {r s : Results α}
    {produced : ResultField → Prop} (hr : r.Within produced)
    (h : (t.amountResults engine r).result = .ok s) :
    s.Covers (ForwardStyle.amount.carries produced) := by
  simp only [amountResults, Outcome.result_bind_eq_ok] at h
  obtain ⟨_, _, _, _, _, _, _, _, _, hdelta, _, hdividendRho, _, _, _, hvega, _, hrho, _, herror,
    hs⟩ := h
  cases hs
  obtain ⟨hdelta, hnoDelta⟩ := strikeDelta_eq_ok hdelta
  obtain ⟨hdividendRho, hnoDividendRho⟩ := Value.shifted_eq_ok hdividendRho
  obtain ⟨hvega, hnoVega⟩ := Value.scaled_eq_ok hvega
  obtain ⟨hrho, hnoRho⟩ := Value.scaled_eq_ok hrho
  obtain ⟨herror, hnoError⟩ := Value.scaled_eq_ok herror
  intro f
  cases f
  case delta =>
    refine ⟨hdelta, fun hnot => hnoDelta ?_⟩
    by_cases hproduced : produced .delta
    · exact Or.inr (hr _ fun hstrike => hnot (Or.inr ⟨hproduced, hstrike⟩))
    · exact Or.inl (hr _ hproduced)
  case vega => exact ⟨hvega, fun hnot => hnoVega (hr _ hnot)⟩
  case rho => exact ⟨hrho, fun hnot => hnoRho (hr _ hnot)⟩
  case dividendRho => exact ⟨hdividendRho, fun hnot => hnoDividendRho (hr _ hnot)⟩
  case strikeSensitivity => exact ⟨Value.isResult_null, fun _ => rfl⟩
  case errorEstimate => exact ⟨herror, fun hnot => hnoError (hr _ hnot)⟩
  all_goals exact ⟨Value.isResult_number _, fun hnot => absurd trivial hnot⟩

theorem covers_performanceResults {t : Terms α} {engine : EngineClass} {r s : Results α}
    {produced : ResultField → Prop} (hr : r.Within produced)
    (h : (t.performanceResults engine r).result = .ok s) :
    s.Covers (ForwardStyle.performance.carries produced) := by
  simp only [performanceResults, Outcome.result_bind_eq_ok] at h
  obtain ⟨_, _, _, _, _, _, _, _, _, _, _, _, _, hrho, _, _, _, hvega, _, hdividendRho, _, herror,
    hs⟩ := h
  cases hs
  obtain ⟨hdividendRho, hnoDividendRho⟩ := Value.scaled_eq_ok hdividendRho
  obtain ⟨hvega, hnoVega⟩ := Value.scaled_eq_ok hvega
  obtain ⟨hrho, hnoRho⟩ := Value.shifted_eq_ok hrho
  obtain ⟨herror, hnoError⟩ := Value.scaled_eq_ok herror
  intro f
  cases f
  case delta => exact ⟨Value.isResult_number _, fun hnot => absurd (Or.inl rfl) hnot⟩
  case vega => exact ⟨hvega, fun hnot => hnoVega (hr _ hnot)⟩
  case rho => exact ⟨hrho, fun hnot => hnoRho (hr _ hnot)⟩
  case dividendRho => exact ⟨hdividendRho, fun hnot => hnoDividendRho (hr _ hnot)⟩
  case strikeSensitivity => exact ⟨Value.isResult_null, fun _ => rfl⟩
  case errorEstimate => exact ⟨herror, fun hnot => hnoError (hr _ hnot)⟩
  all_goals exact ⟨Value.isResult_number _, fun hnot => absurd trivial hnot⟩

theorem covers_conclude {t : Terms α} {style : ForwardStyle} {engine : EngineClass}
    {r s : Results α} {produced : ResultField → Prop} (hr : r.Within produced)
    (h : (t.conclude style engine r).result = .ok s) : s.Covers (style.carries produced) := by
  simp only [conclude, Outcome.result_bind_eq_ok] at h
  obtain ⟨results, hresults, _, _, hs⟩ := h
  cases hs
  cases style with
  | amount => exact covers_amountResults hr hresults
  | performance => exact covers_performanceResults hr hresults

end Terms

/-- What the engines of fixed results have been given. -/
def Desk.given (d : Desk α) (j : ℕ) : List (String × Value α) := (d.get j).fixed

namespace Engine

open Session

/-- An engine whose calculation publishes results. -/
def IsPublishing : Engine α → Prop
  | other _ _ _ => False
  | _ => True

/-- The results that an engine can produce, where engines of fixed results have been given some. -/
def produces (given : ℕ → List (String × Value α)) : Engine α → ResultField → Prop
  | analytic _, f => f ≠ .errorEstimate
  | monteCarlo _ _, f => f = .value ∨ f = .errorEstimate
  | fixed place, f => f.name ∈ (given place).map Prod.fst
  | custom _ _ rule, f =>
    ∃ t values, (rule t).result = .ok values ∧ f.name ∈ values.map Prod.fst
  | other _ _ _, _ => True
  | decorator _ style inner, f => style.carries (inner.produces given) f

variable [NormalSource α]

theorem covers_quotation_plain {e : Engine α} (he : e.IsPublishing) (hplain : e.inner? = none)
    {d : Desk α} {r : Results α} (h : (e.quotation d).result = .ok r) :
    r.Covers (e.produces d.given) := by
  cases e with
  | analytic place => exact Terms.covers_priceAnalytically h
  | monteCarlo place settings => exact Terms.covers_priceBySimulation h
  | fixed place =>
    obtain ⟨_, _, hr⟩ := Outcome.result_bind_eq_ok.mp h
    exact Results.covers_publication hr
  | custom place name rule =>
    simp only [quotation, Outcome.result_bind_eq_ok] at h
    obtain ⟨_, _, values, hvalues, hr⟩ := h
    intro f
    obtain ⟨hresult, hnull⟩ := Results.covers_publication hr f
    exact ⟨hresult, fun hnot => hnull fun hf => hnot ⟨_, values, hvalues, hf⟩⟩
  | other place terms results => exact he.elim
  | decorator place style inner => cases hplain

omit [Scalar α] [NormalSource α] in
theorem stable_fixed (fixed : List (String × Value α)) :
    Stable fun c : Cell α => c.fixed = fixed :=
  ⟨fun _ _ _ h _ => h, fun _ _ h => h, fun _ _ h => h, fun _ _ _ h => h⟩

theorem covers_quotation_decorator {place : ℕ} {style : ForwardStyle} {inner : Engine α}
    (hsubs : ∀ sub ∈ inner.chain, sub.place ≠ place) (hseparate : inner.Separate)
    (hinner : ∀ {d : Desk α} {r : Results α}, (inner.quotation d).result = .ok r →
      r.Within (inner.produces d.given))
    {d : Desk α} {r : Results α} (h : ((decorator place style inner).quotation d).result = .ok r) :
    r.Covers ((decorator place style inner).produces d.given) := by
  obtain ⟨results, hresults, hr⟩ := Outcome.result_bind_eq_ok.mp h
  refine Terms.covers_conclude (r := results) ?_ hr
  have hrun : (inner.through style (d.get place).terms).run d = _ :=
    run_through (e := decorator place style inner) (hsubs inner inner.mem_chain_self) style d
  have hgiven (j : ℕ) := (stable_fixed (d.given j)).prepare j (decorator place style inner) inner
    style d rfl
  rw [seen_of_run_eq _ hrun] at hresults
  rcases hprepare : ((decorator place style inner).prepare style inner).run d with
    ⟨⟨error | _, notices⟩, d₁⟩
  · rw [seen, run_bind_of_error _ hprepare] at hresults
    cases hresults
  · rw [hprepare] at hgiven
    have hsame : d₁.given = d.given := funext hgiven
    have hquote : (inner.quotation d₁).result = .ok results := by
      rw [← outcome_eq hseparate, outcome, seen_eq_ok]
      rw [seen_eq_ok, run_bind_of_ok _ hprepare] at hresults
      exact hresults
    rw [← hsame]
    exact hinner hquote

/-- Whatever an engine leaves, it leaves nothing that it cannot produce. -/
theorem within_quotation {e : Engine α} (h : ∀ sub ∈ e.chain, sub.Separate) {d : Desk α}
    {r : Results α} (hr : (e.quotation d).result = .ok r) : r.Within (e.produces d.given) := by
  induction e generalizing d r with
  | other place terms results => exact fun f hnot => absurd trivial hnot
  | decorator place style inner ih =>
    have hinner : ∀ sub ∈ inner.chain, sub.Separate :=
      fun sub hsub => h sub (mem_chain_of_mem_inner hsub)
    exact (covers_quotation_decorator (h _ (mem_chain_self _) inner rfl)
      (hinner inner inner.mem_chain_self) (ih hinner) hr).within
  | _ => exact (covers_quotation_plain (by trivial) rfl hr).within

/-- What an engine publishes are numbers, and only such as it can produce. -/
theorem covers_quotation {e : Engine α} (he : e.IsPublishing) (h : ∀ sub ∈ e.chain, sub.Separate)
    {d : Desk α} {r : Results α} (hr : (e.quotation d).result = .ok r) :
    r.Covers (e.produces d.given) := by
  cases e with
  | decorator place style inner =>
    have hinner : ∀ sub ∈ inner.chain, sub.Separate :=
      fun sub hsub => h sub (mem_chain_of_mem_inner hsub)
    exact covers_quotation_decorator (h _ (mem_chain_self _) inner rfl)
      (hinner inner inner.mem_chain_self) (within_quotation hinner) hr
  | _ => exact covers_quotation_plain he rfl hr

/-- A quotation looks at the other places, and at its own only for the terms and for what is given to
an engine of fixed results. -/
theorem quotation_congr {e : Engine α} (he : e.IsPublishing) (h : e.Separate) {d d' : Desk α}
    (hoff : AgreeOff e.place d d') (hterms : (d.get e.place).terms = (d'.get e.place).terms)
    (hfixed : (d.get e.place).fixed = (d'.get e.place).fixed) :
    e.quotation d = e.quotation d' := by
  cases e with
  | analytic place => exact congrArg Terms.priceAnalytically hterms
  | monteCarlo place settings => exact congrArg (Terms.priceBySimulation · settings) hterms
  | fixed place =>
    change (d.get place).terms = (d'.get place).terms at hterms
    change (d.get place).fixed = (d'.get place).fixed at hfixed
    rw [quotation, quotation, hterms, hfixed]
  | custom place name rule =>
    change (d.get place).terms = (d'.get place).terms at hterms
    rw [quotation, quotation, hterms]
  | other place terms results => exact he.elim
  | decorator place style inner =>
    have hsubs : ∀ sub ∈ inner.chain, sub.place ≠ place := h inner rfl
    change (d.get place).terms = (d'.get place).terms at hterms
    obtain ⟨hend, hafter⟩ :=
      (avoids_through hsubs style (d.get place).terms).couples d d' hoff
    rw [quotation, quotation, ← hterms]
    simp only [seen]
    rw [hend, hafter inner.place (hsubs inner inner.mem_chain_self)]

end Engine

end OptionDesk
