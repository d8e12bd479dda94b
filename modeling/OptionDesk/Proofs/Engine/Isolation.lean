import OptionDesk.Proofs.Engine.History

/-!
# Decorators that share an engine

Any number of decorators may price through one plain engine, which clients may also use directly. Every
calculation of a decorator loads all terms of the plain engine before it prices them, so its outcome is
a function of the decorator's own terms: nothing is left over from earlier runs, of whatever engine.
-/
namespace OptionDesk

open Session Engine

variable {α : Type}

namespace Terms

/-- Terms of a plain option, in which the strike is fixed from the beginning. -/
structure IsPlain (t : Terms α) : Prop where
  form : t.form = .plain
  moneyness : t.moneyness = .null
  resetDate : t.resetDate = .null

theorem isPlain_blank : (blank .plain : Terms α).IsPlain := ⟨rfl, rfl, rfl⟩

theorem isPlain_set {t : Terms α} (h : t.IsPlain) {f : TermField} (hf : f ∈ TermField.plain)
    (v : Value α) : (t.set f v).IsPlain := by
  obtain ⟨hform, hmoneyness, hresetDate⟩ := h
  cases f
  case moneyness => exact absurd hf (by decide)
  case resetDate => exact absurd hf (by decide)
  all_goals exact ⟨hform, hmoneyness, hresetDate⟩

theorem isPlain_assign {t : Terms α} (h : t.IsPlain) (p : String × Value α) :
    (t.assign p).IsPlain := by
  unfold assign
  rw [h.form]
  cases hf : TermField.ofName? .plain p.1 with
  | none => exact h
  | some f => exact isPlain_set h (List.mem_of_find?_eq_some hf) p.2

theorem isPlain_foldl_assign {t : Terms α} (h : t.IsPlain) (fields : List (String × Value α)) :
    (fields.foldl assign t).IsPlain := by
  induction fields generalizing t with
  | nil => exact h
  | cons p fields ih => exact ih (isPlain_assign h p)

theorem isPlain_update {t t' : Terms α} (h : t.IsPlain) {fields : List (String × Value α)}
    (hupdate : t.update fields = .ok t') : t'.IsPlain := by
  unfold update at hupdate
  split at hupdate
  · cases hupdate
    exact isPlain_foldl_assign h fields
  · cases hupdate

theorem isPlain_loaded {t : Terms α} (h : t.IsPlain) (plain : Terms α) :
    (t.loaded plain).IsPlain :=
  ⟨h.form, h.moneyness, h.resetDate⟩

/-- Loading leaves nothing of the terms that were there before. -/
theorem loaded_eq {t plain : Terms α} (ht : t.IsPlain) (hplain : plain.IsPlain) :
    t.loaded plain = plain := by
  obtain ⟨hform, hmoneyness, hresetDate⟩ := hplain
  cases plain
  cases hform
  cases hmoneyness
  cases hresetDate
  simp only [loaded, ht.form, ht.moneyness, ht.resetDate]

variable [Scalar α]

theorem isPlain_equivalent {t plain : Terms α} (h : t.equivalent.result = .ok plain) :
    plain.IsPlain := by
  simp only [equivalent, Outcome.result_bind_eq_ok] at h
  obtain ⟨_, _, _, _, _, _, _, _, hplain⟩ := h
  cases hplain
  exact ⟨rfl, rfl, rfl⟩

/-- The price of the plain option that is equivalent to forward terms. -/
def priceEquivalent (t : Terms α) (price : Terms α → Outcome α (Results α)) :
    Outcome α (Results α) := do
  t.validate
  let plain ← t.equivalent
  plain.validate
  price plain

/-- The price of forward terms through an engine that prices plain ones. -/
def priceForward (t : Terms α) (style : ForwardStyle) (engine : EngineClass)
    (price : Terms α → Outcome α (Results α)) : Outcome α (Results α) := do
  let r ← t.priceEquivalent price
  t.conclude style engine r

end Terms

namespace Engine

variable [Scalar α] [NormalSource α]

/-- What a plain engine makes of the terms that stand at its place. -/
def price? : Engine α → Option (Terms α → Outcome α (Results α))
  | analytic _ => some Terms.priceAnalytically
  | monteCarlo _ settings => some (Terms.priceBySimulation · settings)
  | custom _ _ rule => some fun t => do
    t.validate
    let values ← rule t
    Results.publication values
  | _ => none

theorem inner?_of_price? {e : Engine α} {price : Terms α → Outcome α (Results α)}
    (h : e.price? = some price) : e.inner? = none := by
  cases e with
  | decorator place style inner => cases h
  | _ => rfl

theorem quotation_of_price? {e : Engine α} {price : Terms α → Outcome α (Results α)}
    (h : e.price? = some price) (d : Desk α) : e.quotation d = price (d.get e.place).terms := by
  cases e <;> cases h <;> rfl

theorem separate_of_price? {e : Engine α} {price : Terms α → Outcome α (Results α)}
    (h : e.price? = some price) : e.Separate := separate_of_plain (inner?_of_price? h)

theorem termForm_of_price? {e : Engine α} {price : Terms α → Outcome α (Results α)}
    (h : e.price? = some price) : e.termForm = .plain := by
  cases e <;> cases h <;> rfl

section Shared

variable {base : Engine α} {price : Terms α → Outcome α (Results α)}

/-- Once the terms are loaded, nothing else at the place of the plain engine matters. -/
theorem seen_load (hprice : base.price? = some price) (t : Terms α) {d : Desk α}
    (hd : (d.get base.place).terms.IsPlain) :
    (do base.load t; base.calculate : DeskSession α Unit).seen
      (fun d => (d.get base.place).results) d = t.priceEquivalent price := by
  simp only [load, Terms.priceEquivalent, bind_assoc, seen_lift_bind]
  refine Outcome.bind_congr_of_ok fun _ _ => Outcome.bind_congr_of_ok fun plain hplain => ?_
  have hloaded := Terms.loaded_eq hd (Terms.isPlain_equivalent hplain)
  have houtcome (d : Desk α) : base.calculate.seen (fun d => (d.get base.place).results) d =
      price (d.get base.place).terms :=
    (outcome_eq (separate_of_price? hprice) d).trans (quotation_of_price? hprice d)
  rw [seen_of_run_eq _ (run_change_bind base _ _ d), seen_bind, run_validate, houtcome,
    Desk.get_put_self, hloaded]

/-- Whether the plain engine is cleared before does not matter. -/
theorem seen_through (hprice : base.price? = some price) (style : ForwardStyle) (t : Terms α)
    {d : Desk α} (hd : (d.get base.place).terms.IsPlain) :
    (base.through style t).seen (fun d => (d.get base.place).results) d =
      t.priceEquivalent price := by
  cases style with
  | performance => exact seen_load hprice t hd
  | amount =>
    rw [through, clearFor, reset, seen_of_run_eq _ (run_change_bind base _ _ d)]
    apply seen_load hprice
    rw [Desk.get_put_self]
    exact hd

/-- A quotation through a plain engine is a function of the decorator's terms. -/
theorem quotation_decorator (hprice : base.price? = some price) (q : ℕ) (style : ForwardStyle)
    {d : Desk α} (hd : (d.get base.place).terms.IsPlain) :
    (decorator q style base).quotation d =
      (d.get q).terms.priceForward style base.engineClass price := by
  simp only [quotation, Terms.priceForward, seen_through hprice style _ hd]

end Shared

omit [Scalar α] [NormalSource α] in
/-- Nothing that a client does makes plain terms other than plain. -/
theorem stable_isPlain : Stable fun c : Cell α => c.terms.IsPlain :=
  ⟨fun _ _ _ h hupdate => Terms.isPlain_update h hupdate,
    fun _ plain h => Terms.isPlain_loaded h plain, fun _ _ h => h, fun _ _ _ h => h⟩

end Engine

/-! ## Histories -/

/-- The terms of a plain engine are plain on a desk that has just been opened. -/
theorem Desk.isPlain_opening {engines : List (Engine α)} {base : Engine α}
    (h : ∀ e ∈ engines, e.place = base.place → e.termForm = .plain) :
    ((opening engines).get base.place).terms.IsPlain := by
  have hseats (d : Desk α) (hd : (d.get base.place).terms.IsPlain) :
      ((engines.foldl (fun d e => d.seat e []) d).get base.place).terms.IsPlain := by
    induction engines generalizing d with
    | nil => exact hd
    | cons e engines ih =>
      apply ih fun e he => h e (List.mem_cons_of_mem _ he)
      rw [get_seat]
      by_cases hplace : base.place = e.place
      · rw [if_pos hplace, h e List.mem_cons_self hplace.symm]
        exact Terms.isPlain_blank
      · rw [if_neg hplace]
        exact hd
  exact hseats .empty Terms.isPlain_blank

variable [Scalar α] [NormalSource α]

theorem Desk.isPlain_after (history : List (Engine α × EngineAction α)) {p : ℕ} {d : Desk α}
    (hd : (d.get p).terms.IsPlain) : ((d.after history).get p).terms.IsPlain := by
  induction history generalizing d with
  | nil => exact hd
  | cons step history ih =>
    apply ih
    exact stable_isPlain.perform p (fun _ hc => hc) (fun _ _ hc => hc) step.1 step.2 d hd

/-- Over any history of the desk, a decorator over a plain engine quotes the price of its terms. -/
theorem WellPlaced.quotation_decorator {engines : List (Engine α)} (h : WellPlaced engines) {q : ℕ}
    {style : ForwardStyle} {base : Engine α} (hmem : decorator q style base ∈ engines)
    {price : Terms α → Outcome α (Results α)} (hprice : base.price? = some price)
    (history : List (Engine α × EngineAction α)) :
    let d := (Desk.opening engines).after history
    (decorator q style base).quotation d =
      (d.get q).terms.priceForward style base.engineClass price := by
  intro d
  have hopening : ((Desk.opening engines).get base.place).terms.IsPlain := by
    apply Desk.isPlain_opening
    intro e he hplace
    rw [h.distinct e he base (h.closed _ hmem base rfl) hplace]
    exact termForm_of_price? hprice
  exact Engine.quotation_decorator hprice q style (Desk.isPlain_after history hopening)

end OptionDesk
