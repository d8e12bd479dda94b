import OptionDesk.Value

/-!
# Tables

Numbers arranged in nested lists of one shape. A value is read as a table only if all the lists at
one depth have one length; the shape is settled before any entry is read, and a missing entry is an
undefined number.
-/

namespace OptionDesk

inductive Table (α : Type)
  | entry (x : α)
  | rows (items : List (Table α))

namespace Table

variable {α β : Type}

mutual

def map (f : α → β) : Table α → Table β
  | entry x => entry (f x)
  | rows items => rows (mapRows f items)

def mapRows (f : α → β) : List (Table α) → List (Table β)
  | [] => []
  | t :: rest => map f t :: mapRows f rest

end

mutual

/-- The numbers in reading order. -/
def entries : Table α → List α
  | entry x => [x]
  | rows items => entriesRows items

def entriesRows : List (Table α) → List α
  | [] => []
  | t :: rest => entries t ++ entriesRows rest

end

/-- A single list of numbers. -/
def vector? : Table α → Option (List α)
  | entry _ => none
  | rows items => items.mapM fun
    | entry x => some x
    | rows _ => none

theorem vector?_entries (xs : List α) : (rows (xs.map entry)).vector? = some xs := by
  have hentries : xs.mapM (fun x => some (id x)) = some (xs.map id) := List.mapM_pure
  rw [List.map_id] at hentries
  show (xs.map entry).mapM _ = some xs
  rw [List.mapM_map]
  exact hentries

mutual

/-- What a function does matters only at the entries. -/
theorem map_congr {f g : α → β} : (t : Table α) → (∀ x ∈ t.entries, f x = g x) → t.map f = t.map g
  | entry x, h => congrArg entry (h x List.mem_cons_self)
  | rows items, h => congrArg rows (mapRows_congr items h)

theorem mapRows_congr {f g : α → β} : (items : List (Table α)) →
    (∀ x ∈ entriesRows items, f x = g x) → mapRows f items = mapRows g items
  | [], _ => rfl
  | t :: rest, h => by
    rw [mapRows, mapRows, map_congr t fun x hx => h x (List.mem_append_left _ hx),
      mapRows_congr rest fun x hx => h x (List.mem_append_right _ hx)]

end

end Table

namespace Value

variable {α : Type}

mutual

/-- Lengths of the lists at each depth, if those at one depth agree. -/
def lengths : Value α → Option (List Nat)
  | list items => (commonLengths items).map (items.length :: ·)
  | _ => some []

def commonLengths : List (Value α) → Option (List Nat)
  | [] => some []
  | [v] => v.lengths
  | v :: w :: rest => do
    let first ← v.lengths
    let others ← commonLengths (w :: rest)
    if first = others then some first else none

end

variable [Scalar α]

mutual

def readEntries : Value α → Except Misuse (Table α)
  | list items => return .rows (← readRows items)
  | null => .ok (.entry Scalar.undefined)
  | figure f => f.read.map .entry
  | _ => .error .wrongKind

def readRows : List (Value α) → Except Misuse (List (Table α))
  | [] => .ok []
  | v :: rest => return (← v.readEntries) :: (← readRows rest)

end

def table (v : Value α) : Except Misuse (Table α) :=
  if v.lengths.isSome then v.readEntries else .error .raggedTable

/-- The elements of a value that can be gone through: a list, or the characters of a text. -/
def elements : Value α → Except Misuse (List (Value α))
  | list items => .ok items
  | figure (.text s) => .ok (s.toList.map fun c => .figure (.text c.toString))
  | _ => .error .wrongKind

end Value

end OptionDesk
