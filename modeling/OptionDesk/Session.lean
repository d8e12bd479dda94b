import OptionDesk.Outcome

/-!
# Sessions

A session is an evaluation over a state that stays: whatever it has changed by the time it fails
remains changed. What a failed session leaves behind is therefore part of what can be said about it.
-/

namespace OptionDesk

def Session (σ α β : Type) := σ → Outcome α β × σ

namespace Session

variable {σ τ α β γ : Type}

def run (x : Session σ α β) (s : σ) : Outcome α β × σ := x s

protected def pure (b : β) : Session σ α β := fun s => (Outcome.pure b, s)

protected def bind (x : Session σ α β) (f : β → Session σ α γ) : Session σ α γ := fun s =>
  let (o, s') := x s
  match o.result with
  | .ok b =>
    let (o', s'') := f b s'
    (⟨o'.result, o.notices ++ o'.notices⟩, s'')
  | .error e => (⟨.error e, o.notices⟩, s')

instance : Monad (Session σ α) where
  pure := Session.pure
  bind := Session.bind

instance : LawfulMonad (Session σ α) := LawfulMonad.mk' _
  (fun x => by
    funext s
    rcases h : x s with ⟨⟨_ | _, _⟩, _⟩ <;>
      simp [Functor.map, Session.bind, Session.pure, Outcome.pure, h])
  (fun _ _ => by
    funext s
    simp [Pure.pure, Bind.bind, Session.pure, Session.bind, Outcome.pure])
  (fun x f g => by
    funext s
    rcases h : x s with ⟨⟨_ | b, _⟩, t⟩
    · simp [Bind.bind, Session.bind, h]
    · rcases k : f b t with ⟨⟨_ | c, _⟩, u⟩ <;> simp [Bind.bind, Session.bind, h, k])

/-- An evaluation that does not touch the state. -/
def lift (o : Outcome α β) : Session σ α β := fun s => (o, s)

def fail (e : PricingError α) : Session σ α β := lift (.fail e)

def get : Session σ α σ := fun s => (Outcome.pure s, s)

def modify (f : σ → σ) : Session σ α Unit := fun s => (Outcome.pure (), f s)

instance : MonadLift (Outcome α) (Session σ α) := ⟨lift⟩

@[simp] theorem run_pure (b : β) (s : σ) : (pure b : Session σ α β).run s = (pure b, s) := rfl

@[simp] theorem run_lift (o : Outcome α β) (s : σ) : (lift o : Session σ α β).run s = (o, s) := rfl

@[simp] theorem run_fail (e : PricingError α) (s : σ) :
    (fail e : Session σ α β).run s = (.fail e, s) := rfl

@[simp] theorem run_get (s : σ) : (get : Session σ α σ).run s = (pure s, s) := rfl

@[simp] theorem run_modify (f : σ → σ) (s : σ) :
    (modify f : Session σ α Unit).run s = (pure (), f s) := rfl

end Session

end OptionDesk
