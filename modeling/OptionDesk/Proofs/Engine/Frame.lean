import OptionDesk.Engine.Action
import Mathlib.Data.Nat.Notation

/-!
# What a session sees and keeps

A session at the desk touches the places of few engines. A few notions say so: what can be seen of the
state after a session that succeeds, what a session keeps however it ends, and which states it cannot
tell apart. They are closed under sequences, so what holds of the operations on one place carries over
to everything that is made of them.
-/
namespace OptionDesk

namespace Session

variable {σ α β γ δ : Type}

/-- What can be seen of the state after a session, if it succeeds. -/
def seen (π : σ → γ) (x : Session σ α β) (s : σ) : Outcome α γ :=
  (fun _ => π (x.run s).2) <$> (x.run s).1

/-- However a session ends, an observation of the state gives what it gave before. -/
def Keeps (π : σ → γ) (x : Session σ α β) : Prop := ∀ s, π (x.run s).2 = π s

/-- However a session ends, a property of the state is not lost. -/
def Preserves (P : σ → Prop) (x : Session σ α β) : Prop := ∀ s, P s → P (x.run s).2

/-- From related states a session ends in one way, and leaves related states. -/
def Couples (R : σ → σ → Prop) (x : Session σ α β) : Prop :=
  ∀ s t, R s t → (x.run s).1 = (x.run t).1 ∧ R (x.run s).2 (x.run t).2

theorem fst_run_bind (x : Session σ α β) (f : β → Session σ α γ) (s : σ) :
    ((x >>= f).run s).1 = (x.run s).1 >>= fun b => ((f b).run (x.run s).2).1 := by
  rcases h : x s with ⟨⟨_ | b, notices⟩, t⟩
  all_goals simp [run, Bind.bind, Session.bind, Outcome.bind, h]

theorem run_bind_congr {x y : Session σ α β} {f g : β → Session σ α γ} {s : σ}
    (hx : x.run s = y.run s) (hf : ∀ b, (f b).run (y.run s).2 = (g b).run (y.run s).2) :
    (x >>= f).run s = (y >>= g).run s := by
  simp only [run] at hx hf
  rcases h : y s with ⟨⟨_ | b, notices⟩, t⟩
  · simp [run, Bind.bind, Session.bind, hx, h]
  · rw [h] at hf
    simp [run, Bind.bind, Session.bind, hx, h, hf b]

theorem run_bind_of_ok {x : Session σ α β} (f : β → Session σ α γ) {s t : σ} {b : β}
    {notices : List (Notice α)} (h : x.run s = (⟨.ok b, notices⟩, t)) :
    (x >>= f).run s =
      (⟨((f b).run t).1.result, notices ++ ((f b).run t).1.notices⟩, ((f b).run t).2) := by
  simp only [run] at h
  simp [run, Bind.bind, Session.bind, h]

theorem run_bind_of_error {x : Session σ α β} (f : β → Session σ α γ) {s t : σ}
    {e : PricingError α} {notices : List (Notice α)} (h : x.run s = (⟨.error e, notices⟩, t)) :
    (x >>= f).run s = (⟨.error e, notices⟩, t) := by
  simp only [run] at h
  simp [run, Bind.bind, Session.bind, h]

theorem lift_bind (o : Outcome α β) (f : β → Outcome α γ) :
    (lift (o >>= f) : Session σ α γ) = lift o >>= fun b => lift (f b) := by
  funext s
  rcases o with ⟨_ | b, notices⟩ <;> rfl

theorem snd_run_bind (x : Session σ α β) (f : β → Session σ α γ) (s : σ) :
    ((x >>= f).run s).2 = match (x.run s).1.result with
      | .ok b => ((f b).run (x.run s).2).2
      | .error _ => (x.run s).2 := by
  rcases h : x s with ⟨⟨_ | b, notices⟩, t⟩
  all_goals simp [run, Bind.bind, Session.bind, h]

theorem snd_run_bind_ok {x : Session σ α β} {f : β → Session σ α γ} {s : σ} {b : β}
    (h : (x.run s).1.result = .ok b) :
    ((x >>= f).run s).2 = ((f b).run (x.run s).2).2 := by
  rw [snd_run_bind, h]

theorem snd_run_bind_error {x : Session σ α β} {f : β → Session σ α γ} {s : σ}
    {e : PricingError α} (h : (x.run s).1.result = .error e) :
    ((x >>= f).run s).2 = (x.run s).2 := by
  rw [snd_run_bind, h]

theorem result_run_bind_ok {x : Session σ α β} {f : β → Session σ α γ} {s : σ} {b : β}
    (h : (x.run s).1.result = .ok b) :
    ((x >>= f).run s).1.result = ((f b).run (x.run s).2).1.result := by
  rw [fst_run_bind, Outcome.result_bind_of_ok h]

theorem result_run_bind_error {x : Session σ α β} {f : β → Session σ α γ} {s : σ}
    {e : PricingError α} (h : (x.run s).1.result = .error e) :
    ((x >>= f).run s).1.result = .error e := by
  rw [fst_run_bind, Outcome.result_bind_of_error h]

/-! ## Seeing -/

theorem seen_bind (π : σ → δ) (x : Session σ α β) (f : β → Session σ α γ) (s : σ) :
    (x >>= f).seen π s = (x.run s).1 >>= fun b => (f b).seen π (x.run s).2 := by
  rcases h : x s with ⟨⟨_ | b, notices⟩, t⟩
  · simp [seen, run, Bind.bind, Session.bind, Outcome.bind, Functor.map, h]
  · rcases k : f b t with ⟨⟨_ | c, notices'⟩, u⟩
    all_goals simp [seen, run, Bind.bind, Session.bind, Outcome.bind, Functor.map, h, k]

theorem seen_lift_bind (π : σ → δ) (o : Outcome α β) (f : β → Session σ α γ) (s : σ) :
    (lift o >>= f).seen π s = o >>= fun b => (f b).seen π s :=
  seen_bind π (lift o) f s

theorem seen_of_run_eq (π : σ → γ) {x y : Session σ α β} {s t : σ} (h : x.run s = y.run t) :
    x.seen π s = y.seen π t := by
  rw [seen, seen, h]

/-- What is seen after a session may be looked at further. -/
theorem bind_seen (π : σ → γ) (x : Session σ α β) (s : σ) (f : γ → Outcome α δ) :
    x.seen π s >>= f = (x.run s).1 >>= fun _ => f (π (x.run s).2) :=
  bind_map_left _ _ _

theorem seen_eq_ok {π : σ → γ} {x : Session σ α β} {s : σ} {c : γ} :
    (x.seen π s).result = .ok c ↔ (∃ b, (x.run s).1.result = .ok b) ∧ π (x.run s).2 = c := by
  rcases h : x s with ⟨⟨_ | b, notices⟩, t⟩
  all_goals simp [seen, run, h, Except.map]

/-! ## Keeping -/

variable {π : σ → δ}

theorem Keeps.lift (o : Outcome α β) : Keeps π (Session.lift o) := fun _ => rfl

theorem Keeps.pure (b : β) : Keeps π (Pure.pure b : Session σ α β) := fun _ => rfl

theorem Keeps.fail (e : PricingError α) : Keeps π (Session.fail e : Session σ α β) := fun _ => rfl

theorem Keeps.bind {x : Session σ α β} {f : β → Session σ α γ} (hx : Keeps π x)
    (hf : ∀ b, Keeps π (f b)) : Keeps π (x >>= f) := by
  intro s
  rcases h : (x.run s).1.result with e | b
  · rw [snd_run_bind_error h]
    exact hx s
  · rw [snd_run_bind_ok h, hf b]
    exact hx s

/-! ## Preserving -/

variable {P : σ → Prop}

theorem Preserves.lift (o : Outcome α β) : Preserves P (Session.lift o) := fun _ h => h

theorem Preserves.pure (b : β) : Preserves P (Pure.pure b : Session σ α β) := fun _ h => h

theorem Preserves.fail (e : PricingError α) : Preserves P (Session.fail e : Session σ α β) :=
  fun _ h => h

theorem Preserves.bind {x : Session σ α β} {f : β → Session σ α γ} (hx : Preserves P x)
    (hf : ∀ b, Preserves P (f b)) : Preserves P (x >>= f) := by
  intro s hs
  rcases h : (x.run s).1.result with e | b
  · rw [snd_run_bind_error h]
    exact hx s hs
  · rw [snd_run_bind_ok h]
    exact hf b _ (hx s hs)

/-! ## Coupling -/

variable {R : σ → σ → Prop}

theorem Couples.lift (o : Outcome α β) : Couples R (Session.lift o) := fun _ _ h => ⟨rfl, h⟩

theorem Couples.pure (b : β) : Couples R (Pure.pure b : Session σ α β) := fun _ _ h => ⟨rfl, h⟩

theorem Couples.fail (e : PricingError α) : Couples R (Session.fail e : Session σ α β) :=
  fun _ _ h => ⟨rfl, h⟩

theorem Couples.bind {x : Session σ α β} {f : β → Session σ α γ} (hx : Couples R x)
    (hf : ∀ b, Couples R (f b)) : Couples R (x >>= f) := by
  intro s t h
  obtain ⟨hend, hstate⟩ := hx s t h
  rw [fst_run_bind, fst_run_bind, ← hend]
  rcases hb : (x.run s).1.result with e | b
  · have hb' : (x.run t).1.result = .error e := by rw [← hend, hb]
    rw [snd_run_bind_error hb, snd_run_bind_error hb']
    refine ⟨?_, hstate⟩
    simp [Bind.bind, Outcome.bind, hb]
  · have hb' : (x.run t).1.result = .ok b := by rw [← hend, hb]
    have hrest := hf b _ _ hstate
    rw [snd_run_bind_ok hb, snd_run_bind_ok hb']
    refine ⟨?_, hrest.2⟩
    simp [Bind.bind, Outcome.bind, hb, hrest.1]

end Session

namespace Engine

open Session

variable {α β γ : Type}

theorem run_cell_bind (e : Engine α) (f : Cell α → DeskSession α β) (d : Desk α) :
    (e.cell >>= f).run d = (f (d.get e.place)).run d := rfl

theorem run_change_bind (e : Engine α) (g : Cell α → Cell α) (f : Unit → DeskSession α β)
    (d : Desk α) :
    (e.change g >>= f).run d = (f ()).run (d.put e.place (g (d.get e.place))) := rfl

theorem run_validate [Scalar α] (e : Engine α) (d : Desk α) :
    e.validate.run d = ((d.get e.place).terms.validate, d) := rfl

theorem get_change (e : Engine α) (g : Cell α → Cell α) (d : Desk α) :
    ((e.change g).run d).2.get e.place = g (d.get e.place) :=
  Desk.get_put_self d e.place (g (d.get e.place))

theorem keeps_cell (e : Engine α) (π : Desk α → γ) : Keeps π e.cell := fun _ => rfl

/-- A change at one place keeps what is observed at others, and at its own place what the change
itself keeps. -/
theorem keeps_change (e : Engine α) {j : ℕ} {ρ : Cell α → γ} {g : Cell α → Cell α}
    (h : j = e.place → ∀ c, ρ (g c) = ρ c) : Keeps (fun d => ρ (d.get j)) (e.change g) := by
  intro d
  by_cases hj : j = e.place
  · subst hj
    exact (congrArg ρ (get_change e g d)).trans (h rfl _)
  · exact congrArg ρ (Desk.get_put_of_ne d _ hj)

theorem preserves_cell (e : Engine α) (P : Desk α → Prop) : Preserves P e.cell := fun _ h => h

/-- A change at one place preserves what holds at others, and at its own what the change itself
preserves. -/
theorem preserves_change (e : Engine α) {j : ℕ} {P : Cell α → Prop} {g : Cell α → Cell α}
    (h : j = e.place → ∀ c, P c → P (g c)) : Preserves (fun d => P (d.get j)) (e.change g) := by
  intro d hd
  by_cases hj : j = e.place
  · subst hj
    rw [get_change]
    exact h rfl _ hd
  · have hcell : ((e.change g).run d).2.get j = d.get j := Desk.get_put_of_ne d _ hj
    rw [hcell]
    exact hd

/-! ## Avoiding a place -/

/-- The desks agree at all places but one. -/
def AgreeOff (q : ℕ) (d d' : Desk α) : Prop := ∀ j, j ≠ q → d.get j = d'.get j

/-- A session that neither looks at a place nor changes what stands there. -/
structure Avoids (q : ℕ) (x : DeskSession α β) : Prop where
  keeps : Keeps (fun d => d.get q) x
  couples : Couples (AgreeOff q) x

variable {q : ℕ}

theorem Avoids.lift (o : Outcome α β) : Avoids q (Session.lift o : DeskSession α β) :=
  ⟨Keeps.lift o, Couples.lift o⟩

theorem Avoids.pure (b : β) : Avoids q (Pure.pure b : DeskSession α β) :=
  ⟨Keeps.pure b, Couples.pure b⟩

theorem Avoids.fail (error : PricingError α) : Avoids q (Session.fail error : DeskSession α β) :=
  ⟨Keeps.fail error, Couples.fail error⟩

theorem Avoids.bind {x : DeskSession α β} {f : β → DeskSession α γ} (hx : Avoids q x)
    (hf : ∀ b, Avoids q (f b)) : Avoids q (x >>= f) :=
  ⟨hx.keeps.bind fun b => (hf b).keeps, hx.couples.bind fun b => (hf b).couples⟩

variable {e : Engine α} (he : e.place ≠ q)
include he

theorem avoids_cell : Avoids q e.cell := by
  refine ⟨keeps_cell e _, fun d d' h => ⟨?_, h⟩⟩
  change pure (d.get e.place) = pure (d'.get e.place)
  rw [h e.place he]

theorem avoids_change (g : Cell α → Cell α) : Avoids q (e.change g) := by
  have hkeeps : Keeps (fun d => id (d.get q)) (e.change g) :=
    keeps_change e fun hq => absurd hq.symm he
  refine ⟨hkeeps, fun d d' h => ⟨rfl, ?_⟩⟩
  intro j hj
  change Desk.get (d.put _ _) j = Desk.get (d'.put _ _) j
  rw [h e.place he]
  by_cases hplace : j = e.place
  · rw [hplace, Desk.get_put_self, Desk.get_put_self]
  · rw [Desk.get_put_of_ne d _ hplace, Desk.get_put_of_ne d' _ hplace, h j hj]

theorem avoids_reset : Avoids q e.reset := avoids_change he _

variable [Scalar α]

theorem avoids_validate : Avoids q e.validate :=
  (avoids_cell he).bind fun c => .lift c.terms.validate

theorem avoids_publish (values : List (String × Value α)) : Avoids q (e.publish values) :=
  Avoids.bind (.lift _) fun _ => avoids_change he _

end Engine

end OptionDesk
