import OptionDesk.Proofs.Engine.History
import OptionDesk.Proofs.Engine.Published

/-!
# Failure leaves no trace

A calculation that fails, at whatever step, leaves the engine's terms, results and readiness as they
were. One that succeeds keeps the terms and overwrites every result, whatever stood there before. Terms
and results that are refused as a whole change nothing on the desk.
-/
namespace OptionDesk

open Session Engine

variable {α : Type}

/-- Terms refuse to be updated with an unknown name. -/
theorem Terms.update_unknown {t : Terms α} {fields : List (String × Value α)}
    (h : ∃ p ∈ fields, TermField.ofName? t.form p.1 = none) :
    t.update fields = .error (.unknownFields (unknownNames t.form (fields.map Prod.fst))) := by
  obtain ⟨p, hp, hname⟩ := h
  have hmem : p.1 ∈ unknownNames t.form (fields.map Prod.fst) := by
    rw [unknownNames, List.mem_mergeSort, List.mem_filter, hname]
    exact ⟨List.mem_map_of_mem hp, rfl⟩
  unfold update
  split
  · next hnone =>
    rw [hnone] at hmem
    cases hmem
  · rfl

namespace Engine

/-- An update with an unknown name fails and leaves the desk alone. -/
theorem run_updateTerms_unknown (e : Engine α) {d : Desk α} {fields : List (String × Value α)}
    (h : ∃ p ∈ fields, TermField.ofName? (d.get e.place).terms.form p.1 = none) :
    (e.updateTerms fields).run d = (.fail (.terms (d.get e.place).terms.form (.unknownFields
      (Terms.unknownNames (d.get e.place).terms.form (fields.map Prod.fst)))), d) := by
  rw [updateTerms, run_cell_bind, Terms.update_unknown h]
  rfl

variable [Scalar α]

/-- Publishing under an unknown name, or what is no number, fails and leaves the desk alone. -/
theorem run_publish_refused (e : Engine α) (d : Desk α) {values : List (String × Value α)}
    (h : ∃ p ∈ values,
      ResultField.ofName? p.1 = none ∨ ∃ m, Results.published p.2 = .error m) :
    ∃ error, (e.publish values).run d = (.fail (.results error), d) := by
  obtain ⟨error, herror⟩ := Results.publication_refused h
  refine ⟨error, ?_⟩
  rw [publish, herror]
  rfl

variable [NormalSource α]

/-- What a calculation may do to the place of its engine, and on what this depends. -/
structure Atomic (e : Engine α) (d : Desk α) : Prop where
  terms : ((e.calculate.run d).2.get e.place).terms = (d.get e.place).terms
  /-- A calculation that fails leaves results and readiness as they were. -/
  refused : ∀ error, (e.calculate.run d).1.result = .error error →
    ((e.calculate.run d).2.get e.place).results = (d.get e.place).results ∧
    ((e.calculate.run d).2.get e.place).ready = (d.get e.place).ready
  /-- One that succeeds leaves numbers, and null for what the engine does not produce. -/
  accepted : (e.calculate.run d).1.result = .ok () →
    ((e.calculate.run d).2.get e.place).results.Covers (e.produces d.given)
  /-- Nothing depends on earlier results, or on anything else at the place but what is to be priced. -/
  overwrites : ∀ d', AgreeOff e.place d d' → (d'.get e.place).terms = (d.get e.place).terms →
    (d'.get e.place).fixed = (d.get e.place).fixed →
    (e.calculate.run d').1 = (e.calculate.run d).1 ∧
    ((e.calculate.run d).1.result = .ok () →
      ((e.calculate.run d').2.get e.place).results = ((e.calculate.run d).2.get e.place).results)

theorem atomic {e : Engine α} (he : e.IsPublishing) (hsubs : ∀ sub ∈ e.chain, sub.Separate)
    (d : Desk α) : Atomic e d := by
  have h : e.Separate := hsubs e e.mem_chain_self
  obtain ⟨hends, hterms, hrefused, haccepted⟩ := publishes_quotation h d
  have hresult : (e.calculate.run d).1.result = (e.quotation d).result.map fun _ => () := by
    rw [hends, Outcome.result_map]
  refine ⟨hterms, ?_, ?_, ?_⟩
  · intro error herror
    cases hquote : (e.quotation d).result with
    | error error' => exact hrefused error' hquote
    | ok r =>
      rw [hresult, hquote] at herror
      cases herror
  · intro hok
    cases hquote : (e.quotation d).result with
    | error error =>
      rw [hresult, hquote] at hok
      cases hok
    | ok r =>
      rw [(haccepted r hquote).1]
      exact covers_quotation he hsubs hquote
  · intro d' hoff hsameTerms hsameFixed
    obtain ⟨hends', -, -, haccepted'⟩ := publishes_quotation h d'
    rw [← quotation_congr he h hoff hsameTerms.symm hsameFixed.symm] at hends' haccepted'
    refine ⟨hends'.trans hends.symm, fun hok => ?_⟩
    cases hquote : (e.quotation d).result with
    | error error =>
      rw [hresult, hquote] at hok
      cases hok
    | ok r => rw [(haccepted r hquote).1, (haccepted' r hquote).1]

end Engine

variable [Scalar α] [NormalSource α]

/-- On a desk whose engines have places of their own, every calculation is atomic, from every state of
the desk; what is refused as a whole changes nothing; and after every history a decorator is ready
exactly if a calculation of its own has succeeded. -/
theorem calculations_are_atomic {engines : List (Engine α)} (h : WellPlaced engines) :
    (∀ e ∈ engines, e.IsPublishing → ∀ d, Atomic e d) ∧
    (∀ e ∈ engines, ∀ d fields,
      (∃ p ∈ fields, TermField.ofName? (d.get e.place).terms.form p.1 = none) →
      ∃ error, (e.updateTerms fields).run d = (.fail error, d)) ∧
    (∀ e ∈ engines, ∀ d values,
      (∃ p ∈ values, ResultField.ofName? p.1 = none ∨ ∃ m, Results.published p.2 = .error m) →
      ∃ error, (e.publish values).run d = (.fail error, d)) ∧
    ∀ e ∈ engines, e.inner? ≠ none → ∀ history : List (Engine α × EngineAction α),
      (∀ step ∈ history, step.1 ∈ engines) →
      ((((Desk.opening engines).after history).get e.place).ready = true ↔
        (e, .ok ()) ∈ (Desk.opening engines).calls history) := by
  refine ⟨?_, ?_, ?_, ?_⟩
  · intro e he hpublishing d
    exact atomic hpublishing (fun sub hsub => h.separate (h.mem_of_mem_chain he hsub)) d
  · intro e _ d fields hunknown
    exact ⟨_, run_updateTerms_unknown e hunknown⟩
  · intro e _ d values hrefused
    obtain ⟨error, herror⟩ := run_publish_refused e d hrefused
    exact ⟨.results error, herror⟩
  · intro e he hdecorator history hhistory
    rw [Desk.ready_after h he hdecorator hhistory, Desk.ready_opening]
    simp

/-- A decorator over a decorator: its calculations are atomic from every state, and it is ready after
its first calculation exactly if that succeeds. -/
theorem calculations_are_atomic_through_two_levels :
    let plain : Engine Float := .analytic 0
    let amount : Engine Float := .decorator 1 .amount plain
    let performance : Engine Float := .decorator 2 .performance amount
    let engines := [performance, amount, plain]
    let start : Desk Float := .opening engines
    WellPlaced engines ∧ (∀ d, Atomic performance d) ∧
      (((start.after [(performance, .calculate)]).get 2).ready = true ↔
        (performance, .ok ()) ∈ start.calls [(performance, .calculate)]) := by
  intro plain amount performance engines start
  have hplaced : WellPlaced engines := by
    refine ((WellPlaced.nil.cons ?_ ?_).cons ?_ ?_).cons ?_ ?_
    all_goals simp [performance, amount, plain, inner?, place]
  have hmem : performance ∈ engines := List.mem_cons_self
  obtain ⟨hatomic, -, -, hready⟩ := calculations_are_atomic hplaced
  refine ⟨hplaced, hatomic performance hmem trivial, ?_⟩
  apply hready performance hmem (by simp [performance, inner?])
  intro step hstep
  rw [List.mem_singleton.mp hstep]
  exact hmem

end OptionDesk
