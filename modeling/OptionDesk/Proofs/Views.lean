import OptionDesk.Curve.Build

/-!
# Views from one date after another

Curves and volatility structures are looked at from dates that are not before their own, and so are the
views of them. Whether there is a chain of such views, and where it leads, depends on the dates alone. What
a single view keeps of its base, a whole chain keeps.
-/
namespace OptionDesk

variable {α β : Type}

/-- A date decides whether there is a view from it, and only by coming too early. -/
theorem Value.result_view (early : DateTime → Bool) (refusal : PricingError α) (view : DateTime → β)
    {r : DateTime} {v : β} :
    Outcome.result (do
      let d ← (dateTime r).referenceDate
      Outcome.require (¬early d) refusal
      return view d) = .ok v ↔ early r = false ∧ v = view r := by
  rw [referenceDate, pure_bind, Outcome.result_bind]
  -- Only the answer of the comparison matters; the instants are too large to compute with.
  generalize early r = refused
  cases refused with
  | true => simp [Outcome.require_of_not, Except.bind]
  | false => simp [Outcome.require_of, Except.bind, eq_comm]

/-- Things that stand at a date each: they can be looked at from that date and all later ones, and a view
stands at the date that it is taken from. -/
structure ViewsForward (reference : β → DateTime) (implied : β → DateTime → β)
    (view : β → DateTime → Outcome α β) : Prop where
  result : ∀ c r v, (view c r).result = .ok v ↔ r.before (reference c) = false ∧ v = implied c r
  reference_implied : ∀ c r, reference (implied c r) = r

namespace ViewsForward

variable {reference : β → DateTime} {implied : β → DateTime → β} {view : β → DateTime → Outcome α β}
  {c v : β} {r : DateTime} {dates : List DateTime}

theorem nil : (List.foldlM view c []).result = .ok v ↔ v = c := by
  rw [List.foldlM_nil, Outcome.result_pure, Except.ok.injEq, eq_comm]

variable (h : ViewsForward reference implied view)

include h

theorem cons : ((r :: dates).foldlM view c).result = .ok v ↔
    r.before (reference c) = false ∧ (dates.foldlM view (implied c r)).result = .ok v := by
  rw [List.foldlM_cons, Outcome.result_bind_eq_ok]
  simp only [h.result, and_assoc, exists_and_left, exists_eq_left]

theorem concat : ((dates ++ [r]).foldlM view c).result = .ok v ↔
    ∃ w, (dates.foldlM view c).result = .ok w ∧ r.before (reference w) = false ∧ v = implied w r := by
  rw [List.foldlM_append, Outcome.result_bind_eq_ok]
  simp only [h.cons, nil]

/-- By induction on the dates: what each view keeps, the chain keeps. -/
theorem kept {γ : Type} {f : β → γ} (hf : ∀ c r, f (implied c r) = f c)
    (hv : (dates.foldlM view c).result = .ok v) : f v = f c := by
  induction dates generalizing c with
  | nil => rw [nil.mp hv]
  | cons r dates ih => exact (ih (h.cons.mp hv).2).trans (hf c r)

/-- A chain goes forward in time. -/
theorem before (hv : (dates.foldlM view c).result = .ok v) :
    (reference v).before (reference c) = false := by
  induction dates generalizing c with
  | nil =>
    rw [nil.mp hv]
    exact DateTime.before_self _
  | cons r dates ih =>
    obtain ⟨hr, hrest⟩ := h.cons.mp hv
    have hlater := ih hrest
    rw [h.reference_implied] at hlater
    exact DateTime.before_trans hr hlater

end ViewsForward

end OptionDesk
