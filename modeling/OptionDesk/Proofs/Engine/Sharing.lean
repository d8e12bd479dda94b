import OptionDesk.Proofs.Engine.ForwardStart

/-!
# One plain engine for many decorators

A plain engine may serve any number of decorators, and clients that use it directly. What a decorator
publishes is the price of its own terms, whatever has been calculated before: a history matters only through
the terms that it leaves to the decorator.
-/
namespace OptionDesk

open Session Engine

section

variable {α : Type} [Scalar α] [NormalSource α]

/-- What a client does with an engine stays at the places of the engines that it prices through. -/
theorem Engine.avoids_perform {q : ℕ} (e : Engine α) (h : ∀ sub ∈ e.chain, sub.place ≠ q)
    (action : EngineAction α) : Avoids q (e.perform action) := by
  have he := h e e.mem_chain_self
  have hupdate (fields : List (String × Value α)) : Avoids q (e.updateTerms fields) := by
    refine (avoids_cell he).bind fun c => ?_
    cases c.terms.update fields with
    | ok t => exact avoids_change he _
    | error error => exact .fail _
  cases action with
  | update fields => exact hupdate fields
  | setMarket m => exact hupdate m.terms
  | validate => exact avoids_validate he
  | calculate => exact avoids_calculate e h
  | reset => exact avoids_reset he
  | loadInner =>
    cases e with
    | decorator place style inner =>
      exact avoids_loadInner he (h inner (mem_chain_of_mem_inner inner.mem_chain_self))
    | _ => exact .fail _
  | takeResults =>
    cases e with
    | decorator place style inner =>
      exact avoids_takeResults he (h inner (mem_chain_of_mem_inner inner.mem_chain_self)) style
    | _ => exact .fail _
  | assignResult name v =>
    simp only [perform, assignResult]
    split
    · exact avoids_change he _
    · exact .fail _
  | setFixed values => exact avoids_change he fun c => { c with fixed := values }

/-- A history of other engines leaves an engine alone, unless they price through it. -/
theorem Desk.get_after_of_avoids {q : ℕ} (history : List (Engine α × EngineAction α))
    (h : ∀ step ∈ history, ∀ sub ∈ step.1.chain, sub.place ≠ q) (d : Desk α) :
    (d.after history).get q = d.get q := by
  induction history generalizing d with
  | nil => rfl
  | cons step history ih =>
    rw [List.forall_mem_cons] at h
    exact (ih h.2 _).trans ((step.1.avoids_perform h.1 step.2).keeps d)

/-- Decorators that share a plain engine do not see one another. Over any history of all the engines of
a desk, the outcome of a decorator's calculation, its error or all that it publishes, is the price of
the decorator's own terms. So two histories that leave it with the same terms leave it with the same
outcome. -/
theorem shared_engine_leaves_no_trace {engines : List (Engine α)} (hplaced : WellPlaced engines)
    {q : ℕ} {style : ForwardStyle} {base : Engine α}
    (hmem : decorator q style base ∈ engines)
    {price : Terms α → Outcome α (Results α)} (hprice : base.price? = some price)
    (history : List (Engine α × EngineAction α)) :
    let d := (Desk.opening engines).after history
    (decorator q style base).outcome d =
      (d.get q).terms.priceForward style base.engineClass price ∧
    ∀ history' : List (Engine α × EngineAction α),
      (((Desk.opening engines).after history').get q).terms = (d.get q).terms →
      (decorator q style base).outcome ((Desk.opening engines).after history') =
        (decorator q style base).outcome d := by
  intro d
  have hprices (history : List (Engine α × EngineAction α)) :
      (decorator q style base).outcome ((Desk.opening engines).after history) =
        (((Desk.opening engines).after history).get q).terms.priceForward style base.engineClass
          price := by
    rw [outcome_eq (hplaced.separate hmem)]
    exact hplaced.quotation_decorator hmem hprice history
  refine ⟨hprices history, fun history' hterms => ?_⟩
  rw [hprices history, hprices history', hterms]

end

/-- The closed formula shared by an amount and a performance. The amount has calculated, and a client has used
the formula directly, before the performance is filled in; without all that it publishes the same. -/
theorem shared_formula_leaves_no_trace :
    letI : NormalSource Exact := ⟨Unit, fun _ => (), fun _ => (.real 0, ())⟩
    let formula : Engine Exact := .analytic 0
    let amount : Engine Exact := .decorator 1 .amount formula
    let performance : Engine Exact := .decorator 2 .performance formula
    let engines := [performance, amount, formula]
    let spring := ForwardStart.callOfYear (Value.midnight ⟨2024, 4, 1, by decide, by decide, by decide⟩)
    let autumn := ForwardStart.callOfYear (Value.midnight ⟨2024, 10, 1, by decide, by decide, by decide⟩)
    let fill (e : Engine Exact) (o : ForwardStart) : Engine Exact × EngineAction Exact :=
      (e, .update ((o.fields .european []).map fun p => (p.1.name, p.2)))
    let others := [fill amount spring, (amount, .calculate), (formula, .calculate)]
    let filled := (Desk.opening engines).after [fill amount spring]
    let shared := (Desk.opening engines).after (others ++ [fill performance autumn])
    let alone := (Desk.opening engines).after [fill performance autumn]
    WellPlaced engines ∧ (amount.calculate.run filled).1.result = .ok () ∧
      (performance.outcome shared).result.map Results.value =
        .ok (.number (.real (autumn.price .performance))) ∧
      performance.outcome alone = performance.outcome shared := by
  let _ : NormalSource Exact := ⟨Unit, fun _ => (), fun _ => (.real 0, ())⟩
  intro formula amount performance engines spring autumn fill others filled shared alone
  have hplaced : WellPlaced engines := by
    refine ((WellPlaced.nil.cons ?_ ?_).cons ?_ ?_).cons ?_ ?_
    all_goals simp [performance, amount, formula, inner?, place]
  have hquotes {reset : DateTime} (style : ForwardStyle)
      (hreset : reset.before (ForwardStart.callOfYear reset).riskFree.reference = false)
      (hlater : reset.before (ForwardStart.callOfYear reset).maturity = true) :
      (((ForwardStart.callOfYear reset).terms .european []).priceForward style .analytic
        Terms.priceAnalytically).result.map Results.value =
          .ok (.number (.real ((ForwardStart.callOfYear reset).price style))) :=
    (ForwardStart.describes_terms _ .european []).priceForward rfl
      (ForwardStart.callOfYear_valid (.inl rfl) hreset hlater) rfl (ForwardStart.callOfYear_later hlater)
      style .analytic
  have hcalculates : (amount.calculate.run filled).1.result = .ok () := by
    have hamount : amount ∈ engines := List.mem_cons_of_mem _ List.mem_cons_self
    have hterms : (filled.get 1).terms = spring.terms .european [] :=
      congrArg Cell.terms (spring.get_after_update .european [] (e := amount) rfl)
    have hquotation : (amount.quotation filled).result.map Results.value =
        .ok (.number (.real (spring.price .amount))) := by
      have hformula := hplaced.quotation_over_formula hamount [fill amount spring]
      refine (congrArg (fun x => x.result.map Results.value) hformula).trans ?_
      rw [hterms]
      exact hquotes .amount (by decide) (by decide)
    exact (Engine.value_of_quotation (hplaced.separate hamount) hquotation).1
  have hshared : (shared.get 2).terms = autumn.terms .european [] := by
    have hunused : ((Desk.opening engines).after others).get 2 = .blank .forward := by
      refine Desk.get_after_of_avoids others ?_ (Desk.opening engines)
      simp [others, fill, amount, formula, chain, place]
    have hfilled := autumn.get_after_update .european [] (e := performance) (congrArg Cell.terms hunused)
    have hsplit : shared = Desk.after ((Desk.opening engines).after others) [fill performance autumn] :=
      List.foldl_append
    rw [hsplit]
    exact congrArg Cell.terms hfilled
  have halone : (alone.get 2).terms = autumn.terms .european [] :=
    congrArg Cell.terms (autumn.get_after_update .european [] (e := performance) rfl)
  obtain ⟨hprice, hsame⟩ := shared_engine_leaves_no_trace hplaced
    (List.mem_cons_self : performance ∈ engines) rfl (others ++ [fill performance autumn])
  refine ⟨hplaced, hcalculates, ?_, hsame _ (halone.trans hshared.symm)⟩
  refine (congrArg (fun x => x.result.map Results.value) hprice).trans ?_
  rw [hshared]
  exact hquotes .performance (by decide) (by decide)

end OptionDesk
