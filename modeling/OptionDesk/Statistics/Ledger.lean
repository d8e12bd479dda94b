import OptionDesk.Registry
import OptionDesk.Session
import OptionDesk.Statistics

/-!
# Named accumulators

A ledger keeps accumulators under names. A name that has not been used yet stands for an empty one.
An entry changes the accumulator that it is made on and no other, and an entry that is refused
changes none.
-/

namespace OptionDesk

/-- A change to one accumulator. -/
inductive LedgerEntry (α : Type)
  | add (v : Value α)
  | addValues (v : Value α)
  | merge (other : String)
  /-- Start afresh with the samples of two others. -/
  | combine (first second : String)
  | reset

abbrev Ledger (α : Type) := Registry String (Accumulator α)

namespace Ledger

variable {α : Type} [Scalar α]

def get (l : Ledger α) (name : String) : Accumulator α := (l.get? name).getD .empty

/-- Change the accumulator of a name. -/
def amend (l : Ledger α) (name : String) (f : Accumulator α → Accumulator α) : Ledger α :=
  l.put name (f (l.get name))

/-- Merge the accumulator `other` into `name`, one figure after the other. Each figure is computed
from what the ledger holds by then, and `other` may be `name` itself. -/
def mergeInto (l : Ledger α) (name other : String) : Ledger α :=
  if (l.get other).count = 0 then l
  else if (l.get name).count = 0 then l.put name (l.get other)
  else
    let count := (l.get name).count + (l.get other).count
    let delta := (l.get other).mean - (l.get name).mean
    let l := l.amend name fun s =>
      { s with mean := s.mean + delta * ((l.get other).count : α) / (count : α) }
    let l := l.amend name fun s =>
      { s with deviations := s.deviations + ((l.get other).deviations +
          delta * delta * (s.count : α) * ((l.get other).count : α) / (count : α)) }
    let l := l.amend name fun s => { s with count }
    let l := l.amend name fun s => { s with least := min s.least (l.get other).least }
    l.amend name fun s => { s with greatest := max s.greatest (l.get other).greatest }

/-- The ledger with an entry made on a name. -/
def amended (l : Ledger α) (name : String) : LedgerEntry α → Outcome α (Ledger α)
  | .add v => l.put name <$> (l.get name).addValue v
  | .addValues v => l.put name <$> (l.get name).addValues v
  | .merge other => pure (l.mergeInto name other)
  | .combine first second => pure (l.put name (.combine (l.get first) (l.get second)))
  | .reset => pure (l.put name .empty)

def enter (name : String) (entry : LedgerEntry α) : Session (Ledger α) α Unit := do
  let l ← .get
  let l ← .lift (l.amended name entry)
  .modify fun _ => l

@[simp] theorem get_empty (name : String) : get (.empty : Ledger α) name = .empty := rfl

@[simp] theorem get_put_self (l : Ledger α) (name : String) (s : Accumulator α) :
    get (l.put name s) name = s := by
  simp [get]

theorem get_put_of_ne (l : Ledger α) {name other : String} (s : Accumulator α)
    (h : other ≠ name) : get (l.put name s) other = l.get other := by
  simp [get, Registry.get?_put_of_ne l s h]

@[simp] theorem get_amend (l : Ledger α) (name j : String) (f : Accumulator α → Accumulator α) :
    get (l.amend name f) j = if j = name then f (l.get name) else l.get j := by
  by_cases h : j = name
  · subst h
    simp [amend]
  · simp [amend, get_put_of_ne l _ h, h]

/-- Merging figure by figure gives the merged accumulator, also when both names are the same: each
figure is read before it is written, and those written first are not needed again. -/
theorem get_mergeInto (l : Ledger α) (name other j : String) :
    get (l.mergeInto name other) j =
      if j = name then (l.get name).merge (l.get other) else l.get j := by
  unfold mergeInto Accumulator.merge
  by_cases ht : (l.get other).count = 0
  · by_cases hj : j = name <;> simp [ht, hj]
  · by_cases hs : (l.get name).count = 0
    · by_cases hj : j = name
      · simp [ht, hs, hj]
      · simp [ht, hs, hj, get_put_of_ne l _ hj]
    · by_cases hj : j = name
      · by_cases ho : other = name <;> simp [ht, hs, hj, ho]
      · simp [ht, hs, hj]

/-- An entry that is accepted leaves the ledger as amended, and a refused one leaves it alone. -/
theorem run_enter (l : Ledger α) (name : String) (entry : LedgerEntry α) :
    ((enter name entry).run l).2 = match (l.amended name entry).result with
      | .ok l' => l'
      | .error _ => l := by
  rcases h : (l.amended name entry).result with e | l'
  all_goals simp [enter, Session.run, Session.get, Session.lift, Session.modify, Bind.bind,
    Session.bind, Outcome.pure, h]

theorem result_enter (l : Ledger α) (name : String) (entry : LedgerEntry α) :
    ((enter name entry).run l).1.result = (l.amended name entry).result.map fun _ => () := by
  rcases h : (l.amended name entry).result with e | l'
  all_goals simp [enter, Session.run, Session.get, Session.lift, Session.modify, Bind.bind,
    Session.bind, Outcome.pure, h, Except.map]

end Ledger

end OptionDesk
