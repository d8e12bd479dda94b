import OptionDesk.Path
import Mathlib.Data.Int.Notation
import Mathlib.Data.List.Basic

/-!
# Streams and the paths that are read off them

The normal numbers of a seed form one stream, which its generators cut into rows of one number for each
step of a path. A client may hold any number of generators, all derived from a first one by numbered
substreams, and use them in any order. The paths that each has given since it was last begun again are
those of the rows of its own stream, from the first one on, whether they were drawn one by one or in
batches, and nothing that is done with other generators matters to it. The chain of indices through which
a generator was derived is all that its stream depends on, and other chains lead to other seeds.
-/
namespace OptionDesk

/-! ## Rows of a stream -/

namespace NormalSource

variable {α : Type} [NormalSource α]

/-- Where a stream stands after some more numbers. -/
def skip : ℕ → State α → State α
  | 0, s => s
  | n + 1, s => skip n (draw s).2

theorem skip_add (m n : ℕ) (s : State α) : skip (m + n) s = skip n (skip m s) := by
  induction m generalizing s with
  | zero => rw [Nat.zero_add, skip]
  | succ m ih => rw [Nat.add_right_comm, skip, skip, ih]

/-- The number that follows some others in the stream of a seed. -/
def normalAt (seed : Seed) (n : ℕ) : α := (draw (skip n (start seed))).1

/-- A row of the stream of a seed that is cut into rows of one width. -/
def rowAt (seed : Seed) (width j : ℕ) : List α :=
  (List.range width).map fun i => normalAt seed (j * width + i)

theorem take_eq (n : ℕ) (s : State α) :
    take n s = ((List.range n).map fun i => (draw (skip i s)).1, skip n s) := by
  induction n generalizing s with
  | zero => rfl
  | succ n ih =>
    simp only [take, ih]
    rw [List.range_succ_eq_map, List.map_cons, List.map_map]
    rfl

variable (seed : Seed) (width : ℕ)

/-- After some rows the next numbers are the next row. -/
theorem take_skip (j : ℕ) : take width (skip (j * width) (start seed)) =
    ((rowAt seed width j : List α), skip ((j + 1) * width) (start seed)) := by
  rw [take_eq, Nat.succ_mul, skip_add]
  simp only [rowAt, normalAt, skip_add]

theorem takeRows_skip (n j : ℕ) : takeRows width n (skip (j * width) (start seed)) =
    ((List.range n).map fun i => (rowAt seed width (j + i) : List α),
      skip ((j + n) * width) (start seed)) := by
  induction n generalizing j with
  | zero => rfl
  | succ n ih =>
    rw [takeRows, take_skip, List.range_succ_eq_map, List.map_cons, List.map_map]
    dsimp only
    rw [ih (j + 1), Nat.add_right_comm j 1 n]
    simp only [Function.comp_def, Nat.succ_eq_add_one, Nat.add_zero, Nat.add_assoc, Nat.add_comm 1]

end NormalSource

/-! ## Chains of substreams -/

/-- The seed to which a chain of substream indices leads. -/
def Seed.descend (seed : Seed) (chain : List ℕ) : Seed := chain.foldl Seed.child seed

theorem Seed.descend_eq (seed : Seed) (chain : List ℕ) :
    seed.descend chain = ⟨seed.entropy, seed.path ++ chain⟩ := by
  induction chain generalizing seed with
  | nil => rw [descend, List.foldl_nil, List.append_nil]
  | cons index chain ih =>
    have hchild : (seed.child index).descend chain = _ := ih (seed.child index)
    rw [descend, List.foldl_cons]
    exact hchild.trans (by rw [child, List.append_assoc, List.singleton_append])

theorem Seed.descend_append (seed : Seed) (chain : List ℕ) (index : ℕ) :
    seed.descend (chain ++ [index]) = (seed.descend chain).child index := by
  rw [descend, List.foldl_append]
  rfl

/-- Different chains from one seed never meet. -/
theorem Seed.descend_injective (seed : Seed) : Function.Injective seed.descend := by
  intro chain chain' h
  rw [descend_eq, descend_eq] at h
  exact List.append_cancel_left (Seed.mk.inj h).2

variable {α : Type} [Scalar α] [NormalSource α]

open NormalSource

/-! ## One generator -/

/-- The path that a process draws from a row of the stream of a seed. -/
def PathProcess.pathAt (process : PathProcess α) (seed : Seed) (j : ℕ) : Path α where
  times := process.times
  drift := process.stepDrifts
  diffusion := (rowAt seed process.timeSteps j).map (process.stepDeviation * ·)

namespace PathGenerator

variable (process : PathProcess α) (seed : Seed)

/-- A generator that has given the paths of the first rows of its stream. -/
def past (n : ℕ) : PathGenerator α := ⟨process, seed, skip (n * process.timeSteps) (start seed)⟩

omit [Scalar α] in
theorem past_zero : past process seed 0 = ofSeed process seed := by
  rw [past, Nat.zero_mul]
  rfl

theorem next_past (n : ℕ) :
    (past process seed n).next = (process.pathAt seed n, past process seed (n + 1)) := by
  rw [next, past, take_skip]
  rfl

theorem take_past (n m : ℕ) : (past process seed n).take m =
    (process.batch ((List.range m).map fun i => rowAt seed process.timeSteps (n + i)),
      past process seed (n + m)) := by
  rw [take, past, takeRows_skip]
  rfl

theorem paths_take_past (n m : ℕ) : ((past process seed n).take m).1.paths =
    (List.range m).map fun i => process.pathAt seed (n + i) := by
  rw [take_past, PathProcess.batch, PathBatch.paths, List.map_map, List.map_map]
  rfl

theorem iterate_past (n m : ℕ) : (past process seed n).iterate m =
    ((List.range m).map fun i => process.pathAt seed (n + i), past process seed (n + m)) := by
  have hpaths : ((past process seed n).iterate m).1 = _ :=
    (paths_take _ m).symm.trans (paths_take_past process seed n m)
  have hlast : ((past process seed n).iterate m).2 = past process seed (n + m) := by
    induction m generalizing n with
    | zero => rfl
    | succ m ih =>
      rw [iterate, next_past]
      exact (ih (n + 1) ((paths_take _ m).symm.trans (paths_take_past process seed _ m))).trans
        (by rw [Nat.add_right_comm, Nat.add_assoc])
  exact Prod.ext hpaths hlast

theorem length_iterate (g : PathGenerator α) (n : ℕ) : (g.iterate n).1.length = n := by
  rw [← paths_take, PathBatch.paths, List.length_map, length_diffusion_take]

theorem run_nextBatch_of_lt {g : PathGenerator α} {n : ℤ} (h : n < 1) :
    (nextBatch n).run g = (.fail (.path .noPaths), g) := by
  rw [Session.run, nextBatch, if_pos h]

theorem run_nextBatch_of_le {g : PathGenerator α} {n : ℤ} (h : 1 ≤ n) :
    (nextBatch n).run g = (pure (g.take n.toNat).1, (g.take n.toNat).2) := by
  rw [Session.run, nextBatch, if_neg (by omega)]

end PathGenerator

/-! ## Many generators -/

/-- What a client can do with a generator. -/
inductive PathAction
  | next
  /-- Take paths one by one. -/
  | iterate (n : ℕ)
  | nextBatch (n : ℤ)
  | reset
  | substream (index : ℤ)

/-- An action on the generator at a place. -/
structure PathRequest where
  place : ℕ
  action : PathAction

/-- A generator with the chain through which it has been derived and the paths that it has given since
it was last begun again. -/
structure Drawing (α : Type) [NormalSource α] where
  generator : PathGenerator α
  chain : List ℕ
  paths : List (Path α)

namespace Drawing

/-- What an action leaves of the generator on which it is made. -/
def after (t : Drawing α) : PathAction → Drawing α
  | .next =>
    let (p, generator) := t.generator.next
    { t with generator, paths := t.paths ++ [p] }
  | .iterate n =>
    let (ps, generator) := t.generator.iterate n
    { t with generator, paths := t.paths ++ ps }
  | .nextBatch n =>
    let (o, generator) := (PathGenerator.nextBatch n).run t.generator
    match o.result with
    | .ok b => { t with generator, paths := t.paths ++ b.paths }
    | .error _ => { t with generator }
  | .reset => { t with generator := t.generator.reset, paths := [] }
  | .substream _ => t

/-- The generators that an action derives. -/
def derived (t : Drawing α) : PathAction → List (Drawing α)
  | .substream index => match (t.generator.substream index).result with
    | .ok generator => [⟨generator, t.chain ++ [index.toNat], []⟩]
    | .error _ => []
  | _ => []

/-- An action at a place; what it derives is put behind the others. -/
def perform (ts : List (Drawing α)) (r : PathRequest) : List (Drawing α) :=
  match ts[r.place]? with
  | some t => ts.set r.place (t.after r.action) ++ t.derived r.action
  | none => ts

/-- All generators after a history, the first of which was there from the beginning. -/
def run (process : PathProcess α) (root : Seed) (history : List PathRequest) : List (Drawing α) :=
  history.foldl perform [⟨.ofSeed process root, [], []⟩]

variable {process : PathProcess α} {root : Seed} {t : Drawing α}

/-- Everything that a generator is comes from its chain and from how many paths it has given. -/
structure Follows (process : PathProcess α) (root : Seed) (t : Drawing α) : Prop where
  generator : t.generator = .past process (root.descend t.chain) t.paths.length
  paths : t.paths = (List.range t.paths.length).map (process.pathAt (root.descend t.chain))

theorem follows_start (process : PathProcess α) (root : Seed) (chain : List ℕ) :
    Follows process root ⟨.ofSeed process (root.descend chain), chain, []⟩ :=
  ⟨(PathGenerator.past_zero _ _).symm, rfl⟩

/-- The next paths of the stream continue those that have been given. -/
theorem Follows.draw (h : Follows process root t) (n : ℕ) :
    Follows process root
      { t with
        generator := .past process (root.descend t.chain) (t.paths.length + n)
        paths := t.paths ++
          (List.range n).map fun i => process.pathAt (root.descend t.chain) (t.paths.length + i) } := by
  constructor
  · simp
  · dsimp only
    rw [List.length_append, List.length_map, List.length_range, List.range_add, List.map_append,
      ← h.paths, List.map_map]
    rfl

theorem Follows.after (h : Follows process root t) (a : PathAction) :
    Follows process root (t.after a) := by
  cases a with
  | next =>
    have hdraw := h.draw 1
    rw [Drawing.after, h.generator, PathGenerator.next_past]
    exact hdraw
  | iterate n =>
    have hdraw := h.draw n
    rw [Drawing.after, h.generator, PathGenerator.iterate_past]
    exact hdraw
  | nextBatch n =>
    obtain hn | hn := Int.lt_or_le n 1
    · rw [Drawing.after, PathGenerator.run_nextBatch_of_lt hn]
      exact h
    · have hdraw := h.draw n.toNat
      rw [Drawing.after, PathGenerator.run_nextBatch_of_le hn]
      dsimp only [Outcome.result_pure]
      rw [h.generator, PathGenerator.paths_take_past, PathGenerator.take_past]
      exact hdraw
  | reset =>
    rw [Drawing.after, h.generator]
    exact follows_start process root t.chain
  | substream index => exact h

/-- What is derived stands at the beginning of its own stream, wherever the other generator stands. -/
theorem Follows.derived_eq (h : Follows process root t) (index : ℕ) : t.derived (.substream index) =
    [⟨.ofSeed process (root.descend (t.chain ++ [index])), t.chain ++ [index], []⟩] := by
  have hchild : (t.generator.substream index).result =
      .ok (.ofSeed process (root.descend (t.chain ++ [index]))) := by
    rw [PathGenerator.substream, Outcome.require_of (by omega), h.generator, root.descend_append]
    rfl
  rw [derived, hchild]
  rfl

theorem Follows.derived (h : Follows process root t) (a : PathAction) :
    ∀ t' ∈ t.derived a, Follows process root t' := by
  intro t' ht'
  cases a with
  | substream index =>
    obtain hindex | hindex := Int.lt_or_le index 0
    · rw [Drawing.derived, PathGenerator.substream, Outcome.require_of_not (by omega)] at ht'
      cases ht'
    · obtain ⟨i, rfl⟩ := Int.eq_ofNat_of_zero_le hindex
      rw [h.derived_eq] at ht'
      rw [List.mem_singleton.mp ht']
      exact follows_start process root _
  | _ => cases ht'

/-! ## Histories -/

theorem follows_perform {ts : List (Drawing α)} (h : ∀ t ∈ ts, Follows process root t)
    (r : PathRequest) : ∀ t ∈ perform ts r, Follows process root t := by
  intro t ht
  unfold perform at ht
  split at ht
  · next own hown =>
    have hplace := h own (List.mem_of_getElem? hown)
    obtain hset | hderived := List.mem_append.mp ht
    · obtain hold | rfl := List.mem_or_eq_of_mem_set hset
      · exact h t hold
      · exact hplace.after r.action
    · exact hplace.derived r.action t hderived
  · exact h t ht

theorem follows_run (history : List PathRequest) :
    ∀ t ∈ run process root history, Follows process root t := by
  have hfold (ts : List (Drawing α)) (h : ∀ t ∈ ts, Follows process root t) :
      ∀ t ∈ history.foldl perform ts, Follows process root t := by
    induction history generalizing ts with
    | nil => exact h
    | cons r history ih => exact ih _ (follows_perform h r)
  refine hfold _ fun t ht => ?_
  rw [List.mem_singleton.mp ht]
  exact follows_start process root []

theorem getElem?_perform {ts : List (Drawing α)} {k : ℕ} (h : ts[k]? = some t) (r : PathRequest) :
    (perform ts r)[k]? = some (if r.place = k then t.after r.action else t) := by
  have hk : k < ts.length := (List.getElem?_eq_some_iff.mp h).1
  unfold perform
  split
  · next own hown =>
    rw [List.getElem?_append_left (by rwa [List.length_set]), List.getElem?_set]
    split
    · next hplace =>
      subst hplace
      rw [if_pos hk, Option.some.inj (hown.symm.trans h)]
    · exact h
  · next hnone =>
    have hplace : r.place ≠ k := by
      rintro rfl
      exact nomatch hnone.symm.trans h
    rw [if_neg hplace, h]

end Drawing

/-- Does an action only derive a generator? -/
def PathAction.derives : PathAction → Bool
  | .substream _ => true
  | _ => false

/-- How many paths a generator has given since it was last begun again, after one more action. -/
def PathAction.count (n : ℕ) : PathAction → ℕ
  | .next => n + 1
  | .iterate m => n + m
  | .nextBatch m => n + m.toNat
  | .reset => 0
  | .substream _ => n

/-- The actions of a history on the generator at a place, without those that only derive others. -/
def PathRequest.calls (k : ℕ) (history : List PathRequest) : List PathAction :=
  ((history.filter fun r => r.place = k).map PathRequest.action).filter fun a => !a.derives

namespace Drawing

variable {t : Drawing α}

/-- A generator goes through its own actions only, whatever is done with others in between. -/
theorem getElem?_foldl_perform {ts : List (Drawing α)} {k : ℕ} (h : ts[k]? = some t)
    (history : List PathRequest) :
    (history.foldl perform ts)[k]? = some ((PathRequest.calls k history).foldl after t) := by
  induction history generalizing ts t with
  | nil => exact h
  | cons r history ih =>
    rw [List.foldl_cons, ih (getElem?_perform h r)]
    by_cases hplace : r.place = k
    · cases hderives : r.action.derives with
      | false => simp [PathRequest.calls, hplace, hderives]
      | true =>
        have hsame : t.after r.action = t := by
          cases haction : r.action with
          | substream index => rfl
          | _ =>
            rw [haction] at hderives
            cases hderives
        simp [PathRequest.calls, hplace, hderives, hsame]
    · simp [PathRequest.calls, hplace]

theorem chain_after (t : Drawing α) (a : PathAction) : (t.after a).chain = t.chain := by
  cases a with
  | nextBatch n =>
    rw [after]
    dsimp only
    split <;> rfl
  | _ => rfl

theorem length_paths_after (t : Drawing α) (a : PathAction) :
    (t.after a).paths.length = a.count t.paths.length := by
  cases a with
  | next => exact List.length_append
  | iterate n =>
    rw [after, List.length_append, PathGenerator.length_iterate]
    rfl
  | nextBatch n =>
    obtain hn | hn := Int.lt_or_le n 1
    · rw [after, PathGenerator.run_nextBatch_of_lt hn, PathAction.count, Int.toNat_of_nonpos (by omega)]
      rfl
    · rw [after, PathGenerator.run_nextBatch_of_le hn]
      dsimp only [Outcome.result_pure]
      rw [List.length_append, PathGenerator.paths_take, PathGenerator.length_iterate]
      rfl
  | reset => rfl
  | substream index => rfl

theorem foldl_after (t : Drawing α) (actions : List PathAction) :
    (actions.foldl after t).chain = t.chain ∧
      (actions.foldl after t).paths.length = actions.foldl PathAction.count t.paths.length := by
  induction actions generalizing t with
  | nil => exact ⟨rfl, rfl⟩
  | cons a actions ih =>
    obtain ⟨hchain, hlength⟩ := ih (t.after a)
    rw [List.foldl_cons, List.foldl_cons, hchain, hlength, chain_after, length_paths_after]
    exact ⟨rfl, rfl⟩

end Drawing

open Drawing

/-- What a process and a seed fix of all that can ever be drawn. -/
structure PathProcess.IsReproducible (process : PathProcess α) (root : Seed) : Prop where
  /-- Path number `j` since a generator was last begun again is that of row `j` of its own stream. -/
  stream : ∀ history, ∀ t ∈ run process root history, ∀ (j : ℕ) (path : Path α),
    t.paths[j]? = some path → path.times = process.times ∧ path.drift = process.stepDrifts ∧
      path.diffusion =
        (rowAt (root.descend t.chain) process.timeSteps j).map (process.stepDeviation * ·)
  /-- From then on a generator goes through its own actions alone, and gives all paths asked for. -/
  undisturbed : ∀ earlier later k t, (run process root earlier)[k]? = some t →
    ∃ t', (run process root (earlier ++ later))[k]? = some t' ∧
      t' = (PathRequest.calls k later).foldl after t ∧ t'.chain = t.chain ∧
      t'.paths.length = (PathRequest.calls k later).foldl PathAction.count t.paths.length
  /-- A substream depends on its chain alone, and deriving it changes nothing else. -/
  derived : ∀ history k t, (run process root history)[k]? = some t → ∀ index : ℕ,
    run process root (history ++ [⟨k, .substream index⟩]) = run process root history ++
      [⟨.ofSeed process (root.descend (t.chain ++ [index])), t.chain ++ [index], []⟩]
  /-- The seeds of two chains are equal only if the chains are. -/
  distinct : ∀ chain chain', root.descend chain = root.descend chain' → chain = chain'

/-- The paths of a process are reproducible. Whatever is done in whatever order with a generator and
all that are derived from it, each of them has given, since it was last begun again, the paths of the
first rows of a stream that its seed and its chain fix, as many as were asked of it, one by one or in
batches of any size. -/
theorem PathProcess.paths_are_reproducible (process : PathProcess α) (root : Seed) :
    process.IsReproducible root where
  stream := by
    intro history t ht j path hpath
    have hfollows := follows_run history t ht
    rw [hfollows.paths, List.getElem?_map] at hpath
    obtain ⟨i, hi, rfl⟩ := Option.map_eq_some_iff.mp hpath
    obtain ⟨hlt, hindex⟩ := List.getElem?_eq_some_iff.mp hi
    rw [List.getElem_range] at hindex
    subst hindex
    exact ⟨rfl, rfl, rfl⟩
  undisturbed := by
    intro earlier later k t ht
    obtain ⟨hchain, hlength⟩ := foldl_after t (PathRequest.calls k later)
    refine ⟨_, ?_, rfl, hchain, hlength⟩
    rw [run, List.foldl_append]
    exact getElem?_foldl_perform ht later
  derived := by
    intro history k t ht index
    have hfollows := follows_run history t (List.mem_of_getElem? ht)
    rw [run, List.foldl_append]
    show perform (run process root history) ⟨k, .substream index⟩ = _
    rw [perform, ht]
    dsimp only
    rw [hfollows.derived_eq]
    congr 1
    obtain ⟨hk, rfl⟩ := List.getElem?_eq_some_iff.mp ht
    exact List.set_getElem_self hk
  distinct := fun _ _ h => root.descend_injective h

end OptionDesk
