import OptionDesk.Notice

/-!
# Outcomes

An evaluation ends with a value or with an error, and leaves the notices of all it did up to there.
The notices never influence the result: the result of a sequence is the sequence of the results.
-/

namespace OptionDesk

structure Outcome (α β : Type) where
  result : Except (PricingError α) β
  notices : List (Notice α)

namespace Outcome

variable {α β γ : Type}

protected def pure (b : β) : Outcome α β := ⟨.ok b, []⟩

def fail (e : PricingError α) : Outcome α β := ⟨.error e, []⟩

/-- Report something and go on. -/
def report (n : Notice α) : Outcome α Unit := ⟨.ok (), [n]⟩

protected def bind (x : Outcome α β) (f : β → Outcome α γ) : Outcome α γ :=
  match x.result with
  | .ok b => ⟨(f b).result, x.notices ++ (f b).notices⟩
  | .error e => ⟨.error e, x.notices⟩

instance : Monad (Outcome α) where
  pure := Outcome.pure
  bind := Outcome.bind

instance : LawfulMonad (Outcome α) := LawfulMonad.mk' _
  (fun x => by
    rcases x with ⟨_ | _, _⟩ <;> simp [Functor.map, Outcome.bind, Outcome.pure])
  (fun _ _ => by simp [Pure.pure, Bind.bind, Outcome.pure, Outcome.bind])
  (fun x f g => by
    rcases x with ⟨_ | b, _⟩
    · simp [Bind.bind, Outcome.bind]
    · rcases h : (f b).result with _ | c <;> simp [Bind.bind, Outcome.bind, h])

/-- A misfit of values is an error like any other. -/
def ofMisuse : Except Misuse β → Outcome α β
  | .ok b => ⟨.ok b, []⟩
  | .error m => fail (.misuse m)

/-- Go on only if the condition holds. -/
def require (p : Prop) [Decidable p] (e : PricingError α) : Outcome α Unit :=
  if p then ⟨.ok (), []⟩ else fail e

@[simp] theorem result_pure (b : β) : (pure b : Outcome α β).result = .ok b := rfl

@[simp] theorem notices_pure (b : β) : (pure b : Outcome α β).notices = [] := rfl

@[simp] theorem result_fail (e : PricingError α) : (fail e : Outcome α β).result = .error e := rfl

@[simp] theorem result_report (n : Notice α) : (report n).result = .ok () := rfl

@[simp] theorem notices_report (n : Notice α) : (report n).notices = [n] := rfl

@[simp] theorem result_bind (x : Outcome α β) (f : β → Outcome α γ) :
    (x >>= f).result = x.result.bind fun b => (f b).result := by
  rcases x with ⟨_ | _, _⟩ <;> rfl

@[simp] theorem result_map (g : β → γ) (x : Outcome α β) :
    (g <$> x).result = x.result.map g := by
  rcases x with ⟨_ | _, _⟩ <;> rfl

theorem map_mk (g : β → γ) (result : Except (PricingError α) β) (notices : List (Notice α)) :
    g <$> (⟨result, notices⟩ : Outcome α β) = ⟨result.map g, notices⟩ := by
  rcases result with _ | _ <;> simp [Functor.map, Outcome.bind, Outcome.pure, Except.map]

/-- A sequence succeeds exactly when each step does. -/
theorem result_bind_eq_ok {x : Outcome α β} {f : β → Outcome α γ} {c : γ} :
    (x >>= f).result = .ok c ↔ ∃ b, x.result = .ok b ∧ (f b).result = .ok c := by
  rcases x with ⟨_ | b, _⟩ <;> simp [Except.bind]

theorem result_bind_of_ok {x : Outcome α β} {b : β} (h : x.result = .ok b) (f : β → Outcome α γ) :
    (x >>= f).result = (f b).result := by
  rw [result_bind, h]
  rfl

theorem result_bind_of_error {x : Outcome α β} {e : PricingError α} (h : x.result = .error e)
    (f : β → Outcome α γ) : (x >>= f).result = .error e := by
  rw [result_bind, h]
  rfl

/-- What follows a step matters only for the values that the step can give. -/
theorem bind_congr_of_ok {x : Outcome α β} {f g : β → Outcome α γ}
    (h : ∀ b, x.result = .ok b → f b = g b) : x >>= f = x >>= g := by
  rcases x with ⟨_ | b, notices⟩
  · rfl
  · simp [Bind.bind, Outcome.bind, h b rfl]

@[simp] theorem ofMisuse_ok (b : β) : (ofMisuse (.ok b) : Outcome α β) = pure b := rfl

@[simp] theorem ofMisuse_error (m : Misuse) :
    (ofMisuse (.error m) : Outcome α β) = fail (.misuse m) := rfl

theorem result_ofMisuse_eq_ok {x : Except Misuse β} {b : β} :
    (ofMisuse x : Outcome α β).result = .ok b ↔ x = .ok b := by
  cases x <;> simp [ofMisuse, fail]

theorem result_require (p : Prop) [Decidable p] (e : PricingError α) :
    (require p e).result = if p then .ok () else .error e := by
  unfold require; split <;> rfl

/-- A condition is passed exactly when it holds. -/
theorem result_require_eq_ok {p : Prop} [Decidable p] {e : PricingError α} {u : Unit} :
    (require p e).result = .ok u ↔ p := by
  rw [result_require]
  split <;> simp [*]

theorem require_of {p : Prop} [Decidable p] (h : p) (e : PricingError α) :
    require p e = pure () := by
  simp [require, h]; rfl

theorem require_of_not {p : Prop} [Decidable p] (h : ¬p) (e : PricingError α) :
    require p e = fail e := by
  simp [require, h]

end Outcome

end OptionDesk
