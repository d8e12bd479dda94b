import OptionDesk.Proofs.Engine.Frame
import Mathlib.Data.List.Basic

/-!
# What a calculation amounts to

A calculation ends as its quotation does: the outcome of pricing what stands at the engine's place
and, for a decorator, at the places of the engines that it prices through. Results and readiness
change only if the quotation gives results, and then these are what the engine has published.
-/
namespace OptionDesk

namespace Engine

open Session

variable {α : Type}

/-- The engines that a calculation runs through, from the outermost one to the plain one. -/
def chain : Engine α → List (Engine α)
  | decorator place style inner => decorator place style inner :: inner.chain
  | e => [e]

/-- A decorator prices through engines at other places than its own. -/
def Separate (e : Engine α) : Prop :=
  ∀ inner, e.inner? = some inner → ∀ sub ∈ inner.chain, sub.place ≠ e.place

theorem mem_chain_self (e : Engine α) : e ∈ e.chain := by
  cases e <;> simp [chain]

theorem eq_of_mem_chain {e sub : Engine α} (he : e.inner? = none) (h : sub ∈ e.chain) :
    sub = e := by
  cases e with
  | decorator place style inner => cases he
  | _ => exact List.mem_singleton.mp h

theorem mem_chain_of_mem_inner {place : ℕ} {style : ForwardStyle} {inner sub : Engine α}
    (h : sub ∈ inner.chain) : sub ∈ (decorator place style inner).chain :=
  List.mem_cons_of_mem _ h

theorem separate_of_plain {e : Engine α} (h : e.inner? = none) : e.Separate := by
  intro inner hinner
  rw [h] at hinner
  cases hinner

/-- A decorator of an amount clears the engine that it prices through. -/
def clearFor (inner : Engine α) : ForwardStyle → DeskSession α Unit
  | .amount => inner.reset
  | .performance => pure ()

variable [Scalar α]

/-- What a decorator does before the engine that it prices through calculates. -/
def prepare (e : Engine α) (style : ForwardStyle) (inner : Engine α) : DeskSession α Unit := do
  inner.clearFor style
  e.loadInner inner

/-- What a decorator does afterwards. -/
def conclude (e : Engine α) (style : ForwardStyle) (inner : Engine α) : DeskSession α Unit := do
  e.takeResults style inner
  e.change fun c => { c with ready := true }
  e.reportForward style

/-- Load the plain option that is equivalent to forward terms. -/
def load (inner : Engine α) (t : Terms α) : DeskSession α Unit := do
  .lift t.validate
  let plain ← .lift t.equivalent
  inner.change fun c => { c with terms := c.terms.loaded plain }
  inner.validate

variable [NormalSource α]

/-- Price forward terms through an engine, wherever the terms stand. -/
def through (inner : Engine α) (style : ForwardStyle) (t : Terms α) : DeskSession α Unit := do
  inner.clearFor style
  inner.load t
  inner.calculate

end Engine

/-- The results of a decorated option, with the log. -/
def Terms.conclude {α : Type} [Scalar α] (t : Terms α) (style : ForwardStyle)
    (engine : EngineClass) (r : Results α) : Outcome α (Results α) := do
  let results ← t.forwardResults style engine r
  t.reportForward style results
  return results

theorem Terms.result_reportForward {α : Type} [Scalar α] (t : Terms α) (style : ForwardStyle)
    (r : Results α) : (t.reportForward style r).result = .ok () := by
  unfold reportForward
  split <;> rfl

namespace Engine

open Session

variable {α : Type} [Scalar α] [NormalSource α]

/-- The outcome of a calculation: its error, or all results that stand there afterwards. -/
def outcome (e : Engine α) (d : Desk α) : Outcome α (Results α) :=
  e.calculate.seen (fun d => (d.get e.place).results) d

/-- The outcome of pricing what stands on the desk, without publishing it. -/
def quotation : Engine α → Desk α → Outcome α (Results α)
  | analytic place, d => (d.get place).terms.priceAnalytically
  | monteCarlo place settings, d => (d.get place).terms.priceBySimulation settings
  | fixed place, d => do
    (d.get place).terms.validate
    Results.publication (d.get place).fixed
  | custom place _ rule, d => do
    (d.get place).terms.validate
    let values ← rule (d.get place).terms
    Results.publication values
  | other place _ _, d => pure (d.get place).results
  | decorator place style inner, d => do
    let t := (d.get place).terms
    let r ← (inner.through style t).seen (fun d => (d.get inner.place).results) d
    t.conclude style inner.engineClass r

/-- A calculation that ends as an outcome does, and publishes what that gives. -/
structure Publishes (e : Engine α) (d : Desk α) (o : Outcome α (Results α)) : Prop where
  ends : (e.calculate.run d).1 = (fun _ => ()) <$> o
  terms : ((e.calculate.run d).2.get e.place).terms = (d.get e.place).terms
  refused : ∀ error, o.result = .error error →
    ((e.calculate.run d).2.get e.place).results = (d.get e.place).results ∧
    ((e.calculate.run d).2.get e.place).ready = (d.get e.place).ready
  accepted : ∀ r, o.result = .ok r →
    ((e.calculate.run d).2.get e.place).results = r ∧
    ((e.calculate.run d).2.get e.place).ready = (e.inner?.isSome || (d.get e.place).ready)

theorem publishes_of_error {e : Engine α} {d d' : Desk α} {error : PricingError α}
    {notices : List (Notice α)} {c : Cell α}
    (hrun : e.calculate.run d = (⟨.error error, notices⟩, d')) (hcell : d'.get e.place = c)
    (hterms : c.terms = (d.get e.place).terms) (hresults : c.results = (d.get e.place).results)
    (hready : c.ready = (d.get e.place).ready) : Publishes e d ⟨.error error, notices⟩ := by
  constructor
  · rw [hrun, Outcome.map_mk]
    rfl
  · rw [hrun, hcell, hterms]
  · intro _ _
    rw [hrun, hcell]
    exact ⟨hresults, hready⟩
  · intro r hr
    cases hr

theorem publishes_of_ok {e : Engine α} {d d' : Desk α} {notices : List (Notice α)} {c : Cell α}
    (hrun : e.calculate.run d = (⟨.ok (), notices⟩, d')) (hcell : d'.get e.place = c)
    (hterms : c.terms = (d.get e.place).terms)
    (hready : c.ready = (e.inner?.isSome || (d.get e.place).ready)) :
    Publishes e d ⟨.ok c.results, notices⟩ := by
  constructor
  · rw [hrun, Outcome.map_mk]
    rfl
  · rw [hrun, hcell, hterms]
  · intro error herror
    cases herror
  · intro r hr
    cases hr
    rw [hrun, hcell]
    exact ⟨rfl, hready⟩

/-! ## Plain engines -/

omit [Scalar α] [NormalSource α] in
theorem run_lift_setResults (e : Engine α) (o : Outcome α (Results α)) (d : Desk α) :
    (Session.lift o >>= e.setResults).run d = ((fun _ => ()) <$> o, match o.result with
      | .ok r => d.put e.place { d.get e.place with results := r }
      | .error _ => d) := by
  rcases o with ⟨_ | r, notices⟩ <;> rfl

/-- A calculation that only publishes an outcome. -/
theorem publishes_of_run {e : Engine α} (he : e.inner? = none) {d : Desk α}
    {o : Outcome α (Results α)}
    (hrun : e.calculate.run d = (Session.lift o >>= e.setResults).run d) : Publishes e d o := by
  rw [run_lift_setResults] at hrun
  rcases o with ⟨error | r, notices⟩
  · rw [Outcome.map_mk] at hrun
    exact publishes_of_error hrun rfl rfl rfl rfl
  · rw [Outcome.map_mk] at hrun
    refine publishes_of_ok hrun (Desk.get_put_self d _ _) rfl ?_
    rw [he]
    rfl

theorem publishes_analytic (place : ℕ) (d : Desk α) :
    Publishes (analytic place) d ((analytic place).quotation d) :=
  publishes_of_run rfl rfl

theorem publishes_monteCarlo (place : ℕ) (settings : Settings α) (d : Desk α) :
    Publishes (monteCarlo place settings) d ((monteCarlo place settings).quotation d) :=
  publishes_of_run rfl rfl

theorem publishes_custom (place : ℕ) (name : String)
    (rule : Terms α → Outcome α (List (String × Value α))) (d : Desk α) :
    Publishes (custom place name rule) d ((custom place name rule).quotation d) := by
  apply publishes_of_run rfl
  simp only [calculate, quotation, validate, publish, lift_bind, bind_assoc, run_cell_bind]
  exact run_bind_congr rfl fun _ => rfl

/-- An engine of fixed results counts the calculations that it begins. -/
theorem publishes_fixed (place : ℕ) (d : Desk α) :
    Publishes (fixed place) d ((fixed place).quotation d) := by
  have hrun : (fixed place).calculate.run d = (Session.lift (d.get place).terms.validate >>=
      fun _ => (fixed place).change (fun c => { c with calculations := c.calculations + 1 }) >>=
      fun _ => Session.lift (Results.publication (d.get place).fixed) >>=
        (fixed place).setResults).run d := by
    simp only [calculate, validate, publish, bind_assoc, run_cell_bind]
    refine run_bind_congr rfl fun _ => ?_
    rw [run_change_bind, run_cell_bind, Desk.get_put_self]
    rfl
  rw [quotation]
  rcases hvalid : (d.get place).terms.validate with ⟨error | _, notices⟩
  · rw [hvalid] at hrun
    exact publishes_of_error hrun rfl rfl rfl rfl
  · rw [hvalid, run_bind_of_ok _ (run_lift _ d), run_change_bind, run_lift_setResults] at hrun
    rcases hgiven : Results.publication (d.get place).fixed with ⟨error | r, notices'⟩
    · rw [hgiven, Outcome.map_mk] at hrun
      exact publishes_of_error hrun (Desk.get_put_self d _ _) rfl rfl rfl
    · rw [hgiven, Outcome.map_mk] at hrun
      refine publishes_of_ok hrun (Desk.get_put_self _ _ _) ?_ ?_
      · rw [Desk.get_put_self]
      · rw [Desk.get_put_self]
        rfl

/-! ## Decorators -/

theorem calculate_decorator (place : ℕ) (style : ForwardStyle) (inner : Engine α) :
    (decorator place style inner).calculate = (do
      (decorator place style inner).prepare style inner
      inner.calculate
      (decorator place style inner).conclude style inner) := by
  cases style <;> simp [calculate, prepare, clearFor, conclude]

omit [NormalSource α] in
theorem run_loadInner (e inner : Engine α) (d : Desk α) :
    (e.loadInner inner).run d = (inner.load (d.get e.place).terms).run d := by
  simp only [loadInner, load, validate, bind_assoc, run_cell_bind]
  exact run_bind_congr rfl fun _ => rfl

omit [NormalSource α] in
/-- A decorator prepares with the terms that it has when it begins. -/
theorem run_prepare {e inner : Engine α} (h : inner.place ≠ e.place) (style : ForwardStyle)
    (d : Desk α) :
    (e.prepare style inner).run d =
      (inner.clearFor style >>= fun _ => inner.load (d.get e.place).terms).run d := by
  refine run_bind_congr rfl fun _ => ?_
  have hkeeps : Keeps (fun d => (d.get e.place).terms) (inner.clearFor style) := by
    cases style with
    | amount => exact keeps_change inner fun hplace => absurd hplace.symm h
    | performance => exact Keeps.pure _
  rw [run_loadInner]
  exact congrArg (fun t => (inner.load t).run _) (hkeeps d)

omit [NormalSource α] in
theorem run_reportForward (e : Engine α) (style : ForwardStyle) (d : Desk α) :
    (e.reportForward style).run d =
      ((d.get e.place).terms.reportForward style (d.get e.place).results, d) := rfl

omit [NormalSource α] in
/-- The end of a decorated calculation publishes the results that it takes over and is ready then. -/
theorem run_conclude {e inner : Engine α} {style : ForwardStyle} {d : Desk α}
    {o : Outcome α (Results α)}
    (ho : (d.get e.place).terms.conclude style inner.engineClass (d.get inner.place).results = o) :
    ((e.conclude style inner).run d).1 = (fun _ => ()) <$> o ∧
      ((e.conclude style inner).run d).2.get e.place = match o.result with
        | .ok r => { d.get e.place with results := r, ready := true }
        | .error _ => d.get e.place := by
  have hrun : (e.conclude style inner).run d = (Session.lift
      ((d.get e.place).terms.forwardResults style inner.engineClass (d.get inner.place).results) >>=
      fun r => e.setResults r >>= fun _ => e.change (fun c => { c with ready := true }) >>=
      fun _ => e.reportForward style).run d := by
    simp only [conclude, takeResults, bind_assoc, run_cell_bind]
  rw [Terms.conclude] at ho
  subst ho
  rcases hresults : (d.get e.place).terms.forwardResults style inner.engineClass
    (d.get inner.place).results with ⟨error | r, notices⟩
  · rw [hrun, hresults]
    exact ⟨rfl, rfl⟩
  · have hreport := (d.get e.place).terms.result_reportForward style r
    rw [hrun, hresults, run_bind_of_ok _ (run_lift _ d), setResults, run_change_bind,
      run_change_bind, run_reportForward]
    simp [Desk.get_put_self, Bind.bind, Outcome.bind, Outcome.map_mk, hreport, Except.map]

/-! ## Places that a calculation avoids -/

section Avoiding

variable {q : ℕ} {e inner : Engine α}

omit [Scalar α] [NormalSource α] in
theorem avoids_clearFor (h : inner.place ≠ q) (style : ForwardStyle) :
    Avoids q (inner.clearFor style) := by
  cases style with
  | amount => exact avoids_reset h
  | performance => exact .pure _

omit [NormalSource α] in
theorem avoids_load (h : inner.place ≠ q) (t : Terms α) : Avoids q (inner.load t) :=
  Avoids.bind (.lift _) fun _ => Avoids.bind (.lift _) fun _ =>
    (avoids_change h _).bind fun _ => avoids_validate h

omit [NormalSource α] in
theorem avoids_loadInner (he : e.place ≠ q) (h : inner.place ≠ q) :
    Avoids q (e.loadInner inner) :=
  (avoids_validate he).bind fun _ => (avoids_cell he).bind fun _ =>
    Avoids.bind (.lift _) fun _ => (avoids_change h _).bind fun _ => avoids_validate h

omit [NormalSource α] in
theorem avoids_prepare (he : e.place ≠ q) (h : inner.place ≠ q) (style : ForwardStyle) :
    Avoids q (e.prepare style inner) :=
  (avoids_clearFor h style).bind fun _ => avoids_loadInner he h

omit [NormalSource α] in
theorem avoids_takeResults (he : e.place ≠ q) (h : inner.place ≠ q) (style : ForwardStyle) :
    Avoids q (e.takeResults style inner) :=
  (avoids_cell he).bind fun _ => (avoids_cell h).bind fun _ =>
    Avoids.bind (.lift _) fun _ => avoids_change he _

omit [NormalSource α] in
theorem avoids_conclude (he : e.place ≠ q) (h : inner.place ≠ q) (style : ForwardStyle) :
    Avoids q (e.conclude style inner) :=
  (avoids_takeResults he h style).bind fun _ => (avoids_change he _).bind fun _ =>
    (avoids_cell he).bind fun _ => .lift _

/-- A calculation stays at the places of the engines that it runs through. -/
theorem avoids_calculate (e : Engine α) (h : ∀ sub ∈ e.chain, sub.place ≠ q) :
    Avoids q e.calculate := by
  have he := h e e.mem_chain_self
  induction e with
  | analytic place =>
    exact (avoids_cell he).bind fun _ => Avoids.bind (.lift _) fun _ => avoids_change he _
  | monteCarlo place settings =>
    exact (avoids_cell he).bind fun _ => Avoids.bind (.lift _) fun _ => avoids_change he _
  | fixed place =>
    exact (avoids_validate he).bind fun _ => (avoids_change he _).bind fun _ =>
      (avoids_cell he).bind fun _ => avoids_publish he _
  | custom place name rule =>
    exact (avoids_validate he).bind fun _ => (avoids_cell he).bind fun _ =>
      Avoids.bind (.lift _) fun _ => avoids_publish he _
  | other place terms results => exact .pure _
  | decorator place style inner ih =>
    have hsubs : ∀ sub ∈ inner.chain, sub.place ≠ q :=
      fun sub hsub => h sub (mem_chain_of_mem_inner hsub)
    have hinner := hsubs inner inner.mem_chain_self
    rw [calculate_decorator]
    exact (avoids_prepare he hinner style).bind fun _ => (ih hsubs hinner).bind fun _ =>
      avoids_conclude he hinner style

theorem avoids_through (h : ∀ sub ∈ inner.chain, sub.place ≠ q) (style : ForwardStyle)
    (t : Terms α) : Avoids q (inner.through style t) :=
  (avoids_clearFor (h inner inner.mem_chain_self) style).bind fun _ =>
    (avoids_load (h inner inner.mem_chain_self) t).bind fun _ => avoids_calculate inner h

end Avoiding

/-! ## Every engine -/

theorem run_through {e inner : Engine α} (h : inner.place ≠ e.place) (style : ForwardStyle)
    (d : Desk α) :
    (inner.through style (d.get e.place).terms).run d = (do
      e.prepare style inner
      inner.calculate : DeskSession α Unit).run d := by
  rw [through, ← bind_assoc]
  exact run_bind_congr (run_prepare h style d).symm fun _ => rfl

theorem run_calculate_decorator {place : ℕ} {inner : Engine α} (h : inner.place ≠ place)
    (style : ForwardStyle) (d : Desk α) :
    (decorator place style inner).calculate.run d = (do
      inner.through style (d.get place).terms
      (decorator place style inner).conclude style inner : DeskSession α Unit).run d := by
  have hthrough := run_through (e := decorator place style inner) h style d
  rw [calculate_decorator, ← bind_assoc]
  exact run_bind_congr hthrough.symm fun _ => rfl

theorem publishes_decorator {place : ℕ} {style : ForwardStyle} {inner : Engine α}
    (h : (decorator place style inner).Separate) (d : Desk α) :
    Publishes (decorator place style inner) d ((decorator place style inner).quotation d) := by
  have hsubs : ∀ sub ∈ inner.chain, sub.place ≠ place := h inner rfl
  have hrun := run_calculate_decorator (hsubs inner inner.mem_chain_self) style d
  have hquote : (decorator place style inner).quotation d = _ :=
    bind_seen _ (inner.through style (d.get place).terms) d _
  have hcell := (avoids_through hsubs style (d.get place).terms).keeps d
  rcases hthrough : (inner.through style (d.get place).terms).run d with
    ⟨⟨error | _, notices⟩, d₁⟩
  · rw [run_bind_of_error _ hthrough] at hrun
    rw [hthrough] at hquote hcell
    rw [hquote]
    exact publishes_of_error hrun hcell rfl rfl rfl
  · rw [run_bind_of_ok _ hthrough] at hrun
    rw [hthrough] at hcell hquote
    replace hcell : d₁.get place = d.get place := hcell
    replace hquote : (decorator place style inner).quotation d =
        (⟨.ok (), notices⟩ : Outcome α Unit) >>= fun _ => (d₁.get place).terms.conclude style
          inner.engineClass (d₁.get inner.place).results := by
      rw [hquote, ← hcell]
    rcases ho : (d₁.get place).terms.conclude style inner.engineClass (d₁.get inner.place).results
      with ⟨error | r, notices'⟩
    all_goals
      obtain ⟨hend, hafter⟩ := run_conclude (e := decorator place style inner) ho
      rw [hend, Outcome.map_mk] at hrun
      rw [hquote, ho]
    · exact publishes_of_error hrun (hafter.trans hcell) rfl rfl rfl
    · have hterms : (d₁.get place).terms = (d.get place).terms := by rw [hcell]
      exact publishes_of_ok (c := { d₁.get place with results := r, ready := true }) hrun hafter
        hterms rfl

/-- Every calculation publishes its quotation. -/
theorem publishes_quotation {e : Engine α} (h : e.Separate) (d : Desk α) :
    Publishes e d (e.quotation d) := by
  cases e with
  | analytic place => exact publishes_analytic place d
  | monteCarlo place settings => exact publishes_monteCarlo place settings d
  | fixed place => exact publishes_fixed place d
  | custom place name rule => exact publishes_custom place name rule d
  | other place terms results => exact publishes_of_ok rfl rfl rfl rfl
  | decorator place style inner => exact publishes_decorator h d

/-- The outcome of a calculation is its quotation. -/
theorem outcome_eq {e : Engine α} (h : e.Separate) (d : Desk α) :
    e.outcome d = e.quotation d := by
  obtain ⟨hends, -, -, haccepted⟩ := publishes_quotation h d
  rw [outcome, seen, hends]
  rcases hquote : e.quotation d with ⟨error | r, notices⟩
  · rfl
  · rw [(haccepted r (by rw [hquote])).1]
    simp [Outcome.map_mk, Except.map]

/-- A calculation succeeds with the results that it quotes. -/
theorem quotation_eq_ok {e : Engine α} (h : e.Separate) {d : Desk α} {r : Results α} :
    (e.quotation d).result = .ok r ↔
      (e.calculate.run d).1.result = .ok () ∧ ((e.calculate.run d).2.get e.place).results = r := by
  rw [← outcome_eq h, outcome, seen_eq_ok]
  exact and_congr_left fun _ => ⟨fun ⟨_, h⟩ => h, fun h => ⟨(), h⟩⟩

end Engine

end OptionDesk
