import OptionDesk.Proofs.Engine.Stable

/-!
# Histories of a desk

A history is a list of actions, each on one of the engines that stand on a desk; actions that fail are
part of it. A calculation calls further ones, of the engines that it runs through, and a decorator is
ready exactly when one of all these calls of its own calculation has succeeded.
-/
namespace OptionDesk

open Session Engine

variable {α : Type}

/-- Engines with places of their own, and with the engines that they price through among them. -/
structure WellPlaced (engines : List (Engine α)) : Prop where
  closed : ∀ e ∈ engines, ∀ inner, e.inner? = some inner → inner ∈ engines
  distinct : ∀ e ∈ engines, ∀ e' ∈ engines, e.place = e'.place → e = e'

/-- The desk on which engines have just got their places. -/
def Desk.opening (engines : List (Engine α)) : Desk α :=
  engines.foldl (fun d e => d.seat e []) .empty

theorem Engine.length_chain_le {e sub : Engine α} (h : sub ∈ e.chain) :
    sub.chain.length ≤ e.chain.length := by
  induction e with
  | decorator place style inner ih =>
    rcases List.mem_cons.mp h with rfl | h
    · exact Nat.le_refl _
    · have hinner := ih h
      rw [chain, List.length_cons]
      omega
  | _ => exact Nat.le_of_eq (by rw [eq_of_mem_chain rfl h])

namespace WellPlaced

theorem nil : WellPlaced ([] : List (Engine α)) :=
  ⟨fun _ he => absurd he List.not_mem_nil, fun _ he => absurd he List.not_mem_nil⟩

variable {engines : List (Engine α)} (h : WellPlaced engines)
include h

/-- A new engine takes a free place, and prices through an engine that is there already. -/
theorem cons {e : Engine α} (hinner : ∀ inner, e.inner? = some inner → inner ∈ engines)
    (hplace : ∀ e' ∈ engines, e'.place ≠ e.place) : WellPlaced (e :: engines) := by
  constructor
  · intro e₁ he₁ inner hinner₁
    rcases List.mem_cons.mp he₁ with rfl | he₁
    · exact List.mem_cons_of_mem _ (hinner inner hinner₁)
    · exact List.mem_cons_of_mem _ (h.closed e₁ he₁ inner hinner₁)
  · intro e₁ he₁ e₂ he₂ hsame
    rcases List.mem_cons.mp he₁ with rfl | hold₁ <;> rcases List.mem_cons.mp he₂ with rfl | hold₂
    · rfl
    · exact absurd hsame.symm (hplace e₂ hold₂)
    · exact absurd hsame (hplace e₁ hold₁)
    · exact h.distinct e₁ hold₁ e₂ hold₂ hsame

theorem mem_of_mem_chain {e sub : Engine α} (he : e ∈ engines) (hsub : sub ∈ e.chain) :
    sub ∈ engines := by
  induction e with
  | decorator place style inner ih =>
    rcases List.mem_cons.mp hsub with rfl | hsub
    · exact he
    · exact ih (h.closed _ he inner rfl) hsub
  | _ =>
    rw [eq_of_mem_chain rfl hsub]
    exact he

/-- An engine cannot price through itself, so the places that it prices through are others. -/
theorem separate {e : Engine α} (he : e ∈ engines) : e.Separate := by
  intro inner hinner sub hsub hplace
  have hmem := h.mem_of_mem_chain (h.closed e he inner hinner) hsub
  have hself : sub = e := h.distinct sub hmem e he hplace
  have hle := length_chain_le hsub
  cases e with
  | decorator place style inner' =>
    cases hinner
    rw [hself, chain, List.length_cons] at hle
    omega
  | _ => cases hinner

end WellPlaced

theorem Desk.get_seat (d : Desk α) (e : Engine α) (j : ℕ) :
    Desk.get (d.seat e []) j = if j = e.place then .blank e.termForm else d.get j := by
  by_cases hj : j = e.place
  · rw [if_pos hj, hj]
    exact Desk.get_put_self d _ _
  · rw [if_neg hj]
    exact Desk.get_put_of_ne d _ hj

/-- Every engine of an opened desk has blank terms of its own form. -/
theorem WellPlaced.get_opening {engines : List (Engine α)} (h : WellPlaced engines) {e : Engine α}
    (he : e ∈ engines) : (Desk.opening engines).get e.place = .blank e.termForm := by
  have hseats (rest : List (Engine α)) (d : Desk α) (hrest : ∀ e' ∈ rest, e' ∈ engines)
      (hd : d.get e.place = .blank e.termForm ∨ e ∈ rest) :
      (rest.foldl (fun d e => d.seat e []) d).get e.place = .blank e.termForm := by
    induction rest generalizing d with
    | nil => exact hd.resolve_right List.not_mem_nil
    | cons e' rest ih =>
      apply ih _ fun e'' he'' => hrest e'' (List.mem_cons_of_mem _ he'')
      rw [Desk.get_seat]
      by_cases hplace : e.place = e'.place
      · rw [if_pos hplace, h.distinct e' (hrest e' List.mem_cons_self) e he hplace.symm]
        exact .inl rfl
      · rw [if_neg hplace]
        refine hd.imp_right fun hmem => (List.mem_cons.mp hmem).resolve_left ?_
        exact fun heq => hplace (congrArg Engine.place heq)
  exact hseats engines .empty (fun _ he' => he') (.inr he)

/-- Nothing is ready on a desk that has just been opened. -/
theorem Desk.ready_opening (engines : List (Engine α)) (j : ℕ) :
    ((opening engines).get j).ready = false := by
  have hseats (d : Desk α) (hd : ∀ j, (d.get j).ready = false) :
      ∀ j, ((engines.foldl (fun d e => d.seat e []) d).get j).ready = false := by
    induction engines generalizing d with
    | nil => exact hd
    | cons e engines ih =>
      apply ih
      intro j
      rw [get_seat]
      split
      · rfl
      · exact hd j
  exact hseats .empty (fun _ => rfl) j

variable [Scalar α] [NormalSource α]

/-- A desk after a history. -/
def Desk.after (d : Desk α) (history : List (Engine α × EngineAction α)) : Desk α :=
  history.foldl (fun d step => ((step.1.perform step.2).run d).2) d

/-- An update that is accepted puts its terms in the place of the engine, and history goes on from there. -/
theorem Desk.after_update {e : Engine α} {d : Desk α} {fields : List (String × Value α)} {t : Terms α}
    (h : (d.get e.place).terms.update fields = .ok t) (history : List (Engine α × EngineAction α)) :
    d.after ((e, .update fields) :: history) =
      Desk.after (d.put e.place { d.get e.place with terms := t }) history := by
  rw [after, List.foldl_cons, perform, updateTerms, run_cell_bind, h]
  rfl

/-- The calculations that a calculation calls, itself last, and how they end. -/
def Engine.calls : Engine α → Desk α → List (Engine α × Except (PricingError α) Unit)
  | decorator place style inner, d =>
    let e := decorator place style inner
    let prepared := (e.prepare style inner).run d
    (match prepared.1.result with
      | .ok _ => inner.calls prepared.2
      | .error _ => []) ++ [(e, (e.calculate.run d).1.result)]
  | e, d => [(e, (e.calculate.run d).1.result)]

/-- The calculations that an action calls. -/
def EngineAction.calls (e : Engine α) (d : Desk α) :
    EngineAction α → List (Engine α × Except (PricingError α) Unit)
  | .calculate => e.calls d
  | _ => []

/-- All calculations that a history calls. -/
def Desk.calls (d : Desk α) :
    List (Engine α × EngineAction α) → List (Engine α × Except (PricingError α) Unit)
  | [] => []
  | (e, action) :: history => action.calls e d ++ Desk.calls ((e.perform action).run d).2 history

/-! ## Readiness -/

namespace Engine

omit [Scalar α] [NormalSource α] in
theorem stable_ready (ready : Bool) : Stable fun c : Cell α => c.ready = ready :=
  ⟨fun _ _ _ h _ => h, fun _ _ h => h, fun _ _ h => h, fun _ _ _ h => h⟩

theorem calls_of_plain {e : Engine α} (he : e.inner? = none) (d : Desk α) :
    e.calls d = [(e, (e.calculate.run d).1.result)] := by
  cases e with
  | decorator place style inner => cases he
  | _ => rfl

theorem mem_calls_decorator {place : ℕ} {style : ForwardStyle} {inner : Engine α} {d : Desk α}
    {call : Engine α × Except (PricingError α) Unit} :
    call ∈ (decorator place style inner).calls d ↔
      ((∃ u, (((decorator place style inner).prepare style inner).run d).1.result = .ok u) ∧
        call ∈ inner.calls (((decorator place style inner).prepare style inner).run d).2) ∨
      call = (decorator place style inner, ((decorator place style inner).calculate.run d).1.result) := by
  rw [calls, List.mem_append, List.mem_singleton]
  cases (((decorator place style inner).prepare style inner).run d).1.result with
  | error error => simp
  | ok u => simp

theorem ready_calculate_plain {target e : Engine α} (htarget : target.inner? ≠ none)
    (he : e.inner? = none) (d : Desk α) :
    ((e.calculate.run d).2.get target.place).ready = true ↔
      (d.get target.place).ready = true ∨ (target, .ok ()) ∈ e.calls d := by
  have hready : ((e.calculate.run d).2.get target.place).ready = (d.get target.place).ready :=
    (stable_ready _).calculate_plain target.place he d rfl
  rw [hready, calls_of_plain he, List.mem_singleton]
  constructor
  · exact Or.inl
  · rintro (h | h)
    · exact h
    · exact absurd (congrArg (fun call => call.1.inner?) h) (by rw [he]; exact htarget)

omit [NormalSource α] in
/-- The end of a decorated calculation makes the decorator ready if it succeeds, and no other. -/
theorem ready_conclude (e inner : Engine α) (style : ForwardStyle) (j : ℕ) (d : Desk α) :
    (((e.conclude style inner).run d).2.get j).ready = true ↔
      (d.get j).ready = true ∨
        (j = e.place ∧ ((e.conclude style inner).run d).1.result = .ok ()) := by
  by_cases hj : j = e.place
  · subst hj
    rcases ho : (d.get e.place).terms.conclude style inner.engineClass (d.get inner.place).results
      with ⟨error | r, notices⟩
    · obtain ⟨hend, hcell⟩ := run_conclude ho
      rw [hend, hcell, Outcome.map_mk]
      simp [Except.map]
    · obtain ⟨hend, hcell⟩ := run_conclude ho
      rw [hend, hcell, Outcome.map_mk]
      simp [Except.map]
  · have hready : (((e.conclude style inner).run d).2.get j).ready = (d.get j).ready :=
      (stable_ready _).conclude j (fun hplace => absurd hplace hj) inner style d rfl
    rw [hready]
    constructor
    · exact Or.inl
    · rintro (h | ⟨h, -⟩)
      · exact h
      · exact absurd h hj

/-- While an engine calculates, a decorator becomes ready exactly if a calculation of its own
succeeds. -/
theorem ready_calculate {target e : Engine α} (htarget : target.inner? ≠ none)
    (hplaces : ∀ sub ∈ e.chain, sub.place = target.place → sub = target) (d : Desk α) :
    ((e.calculate.run d).2.get target.place).ready = true ↔
      (d.get target.place).ready = true ∨ (target, .ok ()) ∈ e.calls d := by
  induction e generalizing d with
  | decorator place style inner ih =>
    have hself : target.place = place → target = decorator place style inner :=
      fun hplace => (hplaces _ (mem_chain_self _) hplace.symm).symm
    have hinner := ih fun sub hsub => hplaces sub (mem_chain_of_mem_inner hsub)
    have hprepared := (stable_ready (d.get target.place).ready).prepare target.place
      (decorator place style inner) inner style d rfl
    rw [mem_calls_decorator, calculate_decorator]
    rcases hprepare : ((decorator place style inner).prepare style inner).run d with
      ⟨⟨error | _, notices⟩, d₁⟩
    · -- Without the preparation nothing else is called.
      rw [run_bind_of_error _ hprepare]
      rw [hprepare] at hprepared
      simp [hprepared]
    · rw [run_bind_of_ok _ hprepare]
      rw [hprepare] at hprepared
      have hready := hinner d₁
      rcases hcalculate : inner.calculate.run d₁ with ⟨⟨error | _, notices'⟩, d₂⟩
      · rw [run_bind_of_error _ hcalculate]
        rw [hcalculate] at hready
        simp [hready, hprepared]
      · rw [run_bind_of_ok _ hcalculate]
        rw [hcalculate] at hready
        have hown (result : Except (PricingError α) Unit) :
            target.place = place ∧ result = .ok () ↔
              (target, .ok ()) = (decorator place style inner, result) := by
          constructor
          · rintro ⟨hplace, rfl⟩
            rw [← hself hplace]
          · intro h
            cases h
            exact ⟨rfl, rfl⟩
        dsimp only at hprepared hready ⊢
        rw [ready_conclude, hready, hprepared, or_assoc]
        exact or_congr Iff.rfl (or_congr (iff_and_self.mpr fun _ => ⟨_, rfl⟩) (hown _))
  | _ => exact ready_calculate_plain htarget rfl d

theorem ready_perform {target e : Engine α} (htarget : target.inner? ≠ none)
    (hplaces : ∀ sub ∈ e.chain, sub.place = target.place → sub = target)
    (action : EngineAction α) (d : Desk α) :
    (((e.perform action).run d).2.get target.place).ready = true ↔
      (d.get target.place).ready = true ∨ (target, .ok ()) ∈ action.calls e d := by
  by_cases haction : action = .calculate
  · subst haction
    exact ready_calculate htarget hplaces d
  · have hready : (((e.perform action).run d).2.get target.place).ready =
        (d.get target.place).ready :=
      (stable_ready _).perform_other target.place (fun _ _ hc => hc) e haction d rfl
    have hcalls : action.calls e d = [] := by
      cases action with
      | calculate => exact absurd rfl haction
      | _ => rfl
    rw [hready, hcalls]
    simp

end Engine

omit [Scalar α] [NormalSource α] in
theorem Terms.form_update {t t' : Terms α} {fields : List (String × Value α)}
    (h : t.update fields = .ok t') : t'.form = t.form := by
  have hassign (p : String × Value α) (t : Terms α) : (t.assign p).form = t.form := by
    unfold Terms.assign
    split
    · exact Terms.form_set t _ _
    · rfl
  have hfold (fields : List (String × Value α)) (t : Terms α) :
      (fields.foldl Terms.assign t).form = t.form := by
    induction fields generalizing t with
    | nil => rfl
    | cons p fields ih => rw [List.foldl_cons, ih, hassign]
  unfold Terms.update at h
  split at h
  · cases h
    exact hfold fields t
  · cases h

omit [Scalar α] [NormalSource α] in
/-- Nothing that a client does changes the form of terms. -/
theorem Engine.stable_form (form : TermForm) : Stable fun c : Cell α => c.terms.form = form :=
  ⟨fun _ _ _ h hupdate => (Terms.form_update hupdate).trans h, fun _ _ h => h, fun _ _ h => h,
    fun _ _ _ h => h⟩

/-- The terms of every engine have its form over all histories. -/
theorem WellPlaced.form_after {engines : List (Engine α)} (h : WellPlaced engines) {e : Engine α}
    (he : e ∈ engines) (history : List (Engine α × EngineAction α)) :
    (((Desk.opening engines).after history).get e.place).terms.form = e.termForm := by
  have hafter (d : Desk α) (hd : (d.get e.place).terms.form = e.termForm) :
      ((d.after history).get e.place).terms.form = e.termForm := by
    induction history generalizing d with
    | nil => exact hd
    | cons step history ih =>
      apply ih
      exact (Engine.stable_form _).perform e.place (fun _ hc => hc) (fun _ _ hc => hc) step.1 step.2 d hd
  apply hafter
  rw [h.get_opening he]
  rfl

/-- Over a history a decorator becomes ready exactly if a calculation of its own succeeds. -/
theorem Desk.ready_after {engines : List (Engine α)} (h : WellPlaced engines) {target : Engine α}
    (hmem : target ∈ engines) (htarget : target.inner? ≠ none)
    {history : List (Engine α × EngineAction α)} (hhistory : ∀ step ∈ history, step.1 ∈ engines)
    (d : Desk α) :
    ((d.after history).get target.place).ready = true ↔
      (d.get target.place).ready = true ∨ (target, .ok ()) ∈ d.calls history := by
  induction history generalizing d with
  | nil => simp [after, calls]
  | cons step history ih =>
    obtain ⟨e, action⟩ := step
    have he : e ∈ engines := hhistory (e, action) List.mem_cons_self
    have hrest := ih (fun step hstep => hhistory step (List.mem_cons_of_mem _ hstep))
      ((e.perform action).run d).2
    have hplaces : ∀ sub ∈ e.chain, sub.place = target.place → sub = target :=
      fun sub hsub hplace => h.distinct sub (h.mem_of_mem_chain he hsub) target hmem hplace
    rw [calls, List.mem_append, ← or_assoc, ← ready_perform htarget hplaces action d]
    exact hrest

end OptionDesk
