import OptionDesk.Proofs.Engine.Calculation

/-!
# What actions preserve

A stable property of what stands at a place survives whatever a client does with any engine of the desk,
calculations included, as long as it does not speak of readiness. One that does survives everything but
the end of a decorated calculation.
-/
namespace OptionDesk

namespace Engine

open Session

variable {α : Type}

/-- A property of what stands at a place that new terms, results and counts do not affect. -/
structure Stable (P : Cell α → Prop) : Prop where
  update : ∀ c fields terms, P c → c.terms.update fields = .ok terms → P { c with terms }
  load : ∀ c plain, P c → P { c with terms := c.terms.loaded plain }
  results : ∀ c results, P c → P { c with results }
  counts : ∀ c calculations resets, P c → P { c with calculations, resets }

variable {P : Cell α → Prop} (h : Stable P) (j : ℕ)
include h

theorem Stable.updateTerms (e : Engine α) (fields : List (String × Value α)) :
    Preserves (fun d => P (d.get j)) (e.updateTerms fields) := by
  intro d hd
  rw [Engine.updateTerms, run_cell_bind]
  cases hupdate : (d.get e.place).terms.update fields with
  | error error => exact hd
  | ok terms =>
    by_cases hj : j = e.place
    · subst hj
      change P (((e.change _).run d).2.get e.place)
      rw [get_change]
      exact h.update _ fields terms hd hupdate
    · exact preserves_change e (fun hplace => absurd hplace hj) d hd

theorem Stable.setResults (e : Engine α) (r : Results α) :
    Preserves (fun d => P (d.get j)) (e.setResults r) :=
  preserves_change e fun _ c hc => h.results c r hc

theorem Stable.reset (e : Engine α) : Preserves (fun d => P (d.get j)) e.reset :=
  preserves_change e fun _ c hc => h.counts _ c.calculations _ (h.results c .blank hc)

theorem Stable.assignResult (e : Engine α) (name : String) (v : Value α) :
    Preserves (fun d => P (d.get j)) (e.assignResult name v) := by
  unfold Engine.assignResult
  cases ResultField.ofName? name with
  | some f => exact preserves_change e fun _ c hc => h.results c _ hc
  | none => exact .fail _

variable [Scalar α]

omit h in
theorem preserves_validate (e : Engine α) (Q : Desk α → Prop) : Preserves Q e.validate :=
  (preserves_cell e Q).bind fun _ => .lift _

theorem Stable.publish (e : Engine α) (values : List (String × Value α)) :
    Preserves (fun d => P (d.get j)) (e.publish values) :=
  (Preserves.lift _).bind fun r => h.setResults j e r

theorem Stable.loadInner (e inner : Engine α) :
    Preserves (fun d => P (d.get j)) (e.loadInner inner) := by
  refine (preserves_validate e _).bind fun _ => (preserves_cell e _).bind fun _ =>
    (Preserves.lift _).bind fun plain => Preserves.bind ?_ fun _ => preserves_validate inner _
  exact preserves_change inner fun _ c hc => h.load c plain hc

theorem Stable.prepare (e inner : Engine α) (style : ForwardStyle) :
    Preserves (fun d => P (d.get j)) (e.prepare style inner) := by
  refine Preserves.bind ?_ fun _ => h.loadInner j e inner
  cases style with
  | amount => exact h.reset j inner
  | performance => exact .pure _

theorem Stable.takeResults (e inner : Engine α) (style : ForwardStyle) :
    Preserves (fun d => P (d.get j)) (e.takeResults style inner) :=
  (preserves_cell e _).bind fun _ => (preserves_cell inner _).bind fun _ =>
    (Preserves.lift _).bind fun r => h.setResults j e r

/-- The end of a decorated calculation may make the decorator ready. -/
theorem Stable.conclude {e : Engine α} (hready : j = e.place → ∀ c, P c → P { c with ready := true })
    (inner : Engine α) (style : ForwardStyle) :
    Preserves (fun d => P (d.get j)) (e.conclude style inner) :=
  (h.takeResults j e inner style).bind fun _ => (preserves_change e hready).bind fun _ =>
    (preserves_cell e _).bind fun _ => .lift _

variable [NormalSource α]

/-- The calculation of a plain engine preserves what is stable, readiness included. -/
theorem Stable.calculate_plain {e : Engine α} (he : e.inner? = none) :
    Preserves (fun d => P (d.get j)) e.calculate := by
  cases e with
  | analytic place =>
    exact (preserves_cell _ _).bind fun _ => (Preserves.lift _).bind fun r => h.setResults j _ r
  | monteCarlo place settings =>
    exact (preserves_cell _ _).bind fun _ => (Preserves.lift _).bind fun r => h.setResults j _ r
  | fixed place =>
    refine (preserves_validate _ _).bind fun _ => Preserves.bind ?_ fun _ =>
      (preserves_cell _ _).bind fun _ => h.publish j _ _
    exact preserves_change _ fun _ c hc => h.counts c _ _ hc
  | custom place name rule =>
    exact (preserves_validate _ _).bind fun _ => (preserves_cell _ _).bind fun _ =>
      (Preserves.lift _).bind fun _ => h.publish j _ _
  | other place terms results => exact .pure _
  | decorator place style inner => cases he

theorem Stable.calculate (hready : ∀ c, P c → P { c with ready := true }) (e : Engine α) :
    Preserves (fun d => P (d.get j)) e.calculate := by
  induction e with
  | decorator place style inner ih =>
    rw [calculate_decorator]
    exact (h.prepare j _ inner style).bind fun _ => ih.bind fun _ =>
      h.conclude j (fun _ => hready) inner style
  | _ => exact h.calculate_plain j rfl

/-- Actions other than calculations preserve what is stable, readiness included. -/
theorem Stable.perform_other (hfixed : ∀ c fixed, P c → P { c with fixed }) (e : Engine α)
    {action : EngineAction α} (haction : action ≠ .calculate) :
    Preserves (fun d => P (d.get j)) (e.perform action) := by
  cases action with
  | update fields => exact h.updateTerms j e fields
  | setMarket m => exact h.updateTerms j e m.terms
  | validate => exact preserves_validate e _
  | calculate => exact absurd rfl haction
  | reset => exact h.reset j e
  | loadInner =>
    cases e with
    | decorator place style inner => exact h.loadInner j _ inner
    | _ => exact .fail _
  | takeResults =>
    cases e with
    | decorator place style inner => exact h.takeResults j _ inner style
    | _ => exact .fail _
  | assignResult name v => exact h.assignResult j e name v
  | setFixed values => exact preserves_change e fun _ c hc => hfixed c values hc

theorem Stable.perform (hready : ∀ c, P c → P { c with ready := true })
    (hfixed : ∀ c fixed, P c → P { c with fixed }) (e : Engine α) (action : EngineAction α) :
    Preserves (fun d => P (d.get j)) (e.perform action) := by
  by_cases haction : action = .calculate
  · subst haction
    exact h.calculate j hready e
  · exact h.perform_other j hfixed e haction

end Engine

end OptionDesk
