/-!
# Registries

A registry keeps one entry for each key that has been used. Putting an entry replaces the one under
the same key and leaves those under other keys as they are.
-/

namespace OptionDesk

structure Registry (κ β : Type) where
  entries : List (κ × β)

namespace Registry

variable {κ β : Type} [DecidableEq κ]

def empty : Registry κ β := ⟨[]⟩

def get? (r : Registry κ β) (k : κ) : Option β := r.entries.lookup k

/-- The entries with one of them replaced, or added at the end. -/
def replace (k : κ) (b : β) : List (κ × β) → List (κ × β)
  | [] => [(k, b)]
  | (i, x) :: rest => if i = k then (i, b) :: rest else (i, x) :: replace k b rest

def put (r : Registry κ β) (k : κ) (b : β) : Registry κ β := ⟨replace k b r.entries⟩

@[simp] theorem get?_empty (k : κ) : (empty : Registry κ β).get? k = none := rfl

theorem lookup_replace_self (k : κ) (b : β) (entries : List (κ × β)) :
    (replace k b entries).lookup k = some b := by
  induction entries with
  | nil => simp [replace]
  | cons head rest ih =>
    obtain ⟨i, x⟩ := head
    by_cases h : i = k
    · simp [replace, h]
    · have hk : (k == i) = false := by simp [Ne.symm h]
      simp [replace, h, List.lookup_cons, hk, ih]

theorem lookup_replace_of_ne {k j : κ} (h : j ≠ k) (b : β) (entries : List (κ × β)) :
    (replace k b entries).lookup j = entries.lookup j := by
  have hj : (j == k) = false := by simp [h]
  induction entries with
  | nil => simp [replace, List.lookup_cons, hj]
  | cons head rest ih =>
    obtain ⟨i, x⟩ := head
    by_cases hi : i = k
    · subst hi
      simp [replace, List.lookup_cons, hj]
    · simp [replace, hi, List.lookup_cons, ih]

@[simp] theorem get?_put_self (r : Registry κ β) (k : κ) (b : β) : (r.put k b).get? k = some b :=
  lookup_replace_self k b r.entries

theorem get?_put_of_ne (r : Registry κ β) {k j : κ} (b : β) (h : j ≠ k) :
    (r.put k b).get? j = r.get? j :=
  lookup_replace_of_ne h b r.entries

end Registry

end OptionDesk
