import OptionDesk.Proofs.Sampling
import Mathlib.Data.List.Basic
import Mathlib.Logic.Relation

/-!
# Batches on a pool of threads

A model may hand the batches of a request to several threads. Any batch that waits may start on a free
thread and any batch that runs may finish, at any moment. The caller takes the results in the order of
the batches, whatever the order in which they come. An error that it meets there ends the request: what
waits is given up, what runs is waited for, and nothing is merged. Results are merged once all of them
are there.

Threads read the model that they work for, so a schedule could matter. It does not, because the model
stays as it is while a thread runs.
-/
namespace OptionDesk

namespace SamplingModel

variable {α : Type} [Scalar α] [NormalSource α]

/-- What a thread makes of a batch and its substream, with the model at hand. -/
def Work (α : Type) [NormalSource α] : Type :=
  SamplingModel α → Batch → PathGenerator α → Except (PricingError α) (Accumulator α)

/-- What becomes of a batch while the model stays as it is. -/
def Work.on (work : Work α) (m : SamplingModel α) (batch : Batch) :
    Except (PricingError α) (Accumulator α) :=
  work m batch (m.generator.child batch.index)

/-- The statistics of the payoffs of the first paths of the substream. -/
def ownWork : Work α := fun m batch g =>
  (Accumulator.empty.addBatch (m.pricer.priceBatch (g.take batch.size).1)).mapError .statistics

/-- A request whose batches the caller works through alone, one after the other. -/
def addSamplesWith (work : Work α) (samples : ℤ) : Session (SamplingModel α) α Unit := do
  .lift <| .require (¬samples < 1) (.simulation (.samplesBelowOne samples))
  let m ← .get
  let batches := (request m.batchSize m.batchesDrawn samples).batches
  .modify (advance batches.length)
  let m ← .get
  let partials ← .lift ⟨batches.mapM (work.on m), []⟩
  .modify (mergeAll partials)
  let m ← .get
  .lift <| .report (.record (.samplesAdded samples batches.length m.statistics.count))

inductive JobState (α : Type) [NormalSource α]
  | pending
  /-- A thread works on the batch, with a substream of its own. -/
  | running (substream : PathGenerator α)
  | finished (result : Except (PricingError α) (Accumulator α))
  | cancelled

namespace JobState

def IsOver : JobState α → Prop
  | finished _ | cancelled => True
  | _ => False

def isRunning : JobState α → Bool
  | running _ => true
  | _ => false

end JobState

structure Job (α : Type) [NormalSource α] where
  batch : Batch
  state : JobState α

/-- What the caller is about. -/
inductive Phase (α : Type)
  /-- It has the results of the first batches and waits for the next. -/
  | collecting (partials : List (Accumulator α))
  /-- It has met an error and waits for the threads. -/
  | failing (e : PricingError α)
  /-- It has merged the results up to some that are left. -/
  | merging (rest : List (Accumulator α))
  | returned
  | raised (e : PricingError α)

/-- A request on its way: the model that all threads share, the batches and the caller. -/
structure Pool (α : Type) [NormalSource α] where
  model : SamplingModel α
  jobs : List (Job α)
  phase : Phase α

namespace Pool

def batches (c : Pool α) : List Batch := c.jobs.map Job.batch

/-- Number of threads at work. -/
def busy (c : Pool α) : ℕ := c.jobs.countP fun job => job.state.isRunning

def put (c : Pool α) (i : ℕ) (job : Job α) : Pool α := { c with jobs := c.jobs.set i job }

/-- A request for `n` samples that has taken its numbers. -/
def opened (m : SamplingModel α) (n : ℤ) : Pool α :=
  let batches := (request m.batchSize m.batchesDrawn n).batches
  ⟨m.advance batches.length, batches.map fun batch => ⟨batch, .pending⟩, .collecting []⟩

/-- What the request leaves, when it is over. -/
def outcome? (n : ℤ) (c : Pool α) : Option (Outcome α Unit × SamplingModel α) :=
  match c.phase with
  | .returned =>
    some (.report (.record (.samplesAdded n c.jobs.length c.model.statistics.count)), c.model)
  | .raised e => some (.fail e, c.model)
  | _ => none

/-- One thing that can happen next, on a pool of so many threads. -/
inductive Step (workers : ℕ) (work : Work α) : Pool α → Pool α → Prop
  | start {c : Pool α} {i : ℕ} {batch : Batch} (hjob : c.jobs[i]? = some ⟨batch, .pending⟩)
      (hfree : c.busy < workers) :
      Step workers work c (c.put i ⟨batch, .running (c.model.generator.child batch.index)⟩)
  | finish {c : Pool α} {i : ℕ} {batch : Batch} {g : PathGenerator α}
      (hjob : c.jobs[i]? = some ⟨batch, .running g⟩) :
      Step workers work c (c.put i ⟨batch, .finished (work c.model batch g)⟩)
  /-- The caller takes the next result in the order of the batches. -/
  | receive {c : Pool α} {partials : List (Accumulator α)} {batch : Batch} {s : Accumulator α}
      (hphase : c.phase = .collecting partials)
      (hjob : c.jobs[partials.length]? = some ⟨batch, .finished (.ok s)⟩) :
      Step workers work c { c with phase := .collecting (partials ++ [s]) }
  | fail {c : Pool α} {partials : List (Accumulator α)} {batch : Batch} {e : PricingError α}
      (hphase : c.phase = .collecting partials)
      (hjob : c.jobs[partials.length]? = some ⟨batch, .finished (.error e)⟩) :
      Step workers work c { c with phase := .failing e }
  | cancel {c : Pool α} {e : PricingError α} {i : ℕ} {batch : Batch} (hphase : c.phase = .failing e)
      (hjob : c.jobs[i]? = some ⟨batch, .pending⟩) :
      Step workers work c (c.put i ⟨batch, .cancelled⟩)
  | raise {c : Pool α} {e : PricingError α} (hphase : c.phase = .failing e)
      (hidle : ∀ job ∈ c.jobs, job.state.IsOver) :
      Step workers work c { c with phase := .raised e }
  | close {c : Pool α} {partials : List (Accumulator α)} (hphase : c.phase = .collecting partials)
      (hall : partials.length = c.jobs.length) :
      Step workers work c { c with phase := .merging partials }
  | merge {c : Pool α} {s : Accumulator α} {rest : List (Accumulator α)}
      (hphase : c.phase = .merging (s :: rest)) :
      Step workers work c { c with model := c.model.mergeAll [s], phase := .merging rest }
  | finishMerging {c : Pool α} (hphase : c.phase = .merging []) :
      Step workers work c { c with phase := .returned }

/-- A schedule leads from one pool to another. -/
def Reaches (workers : ℕ) (work : Work α) : Pool α → Pool α → Prop :=
  Relation.ReflTransGen (Step workers work)

end Pool

/-! ## The caller alone -/

theorem mapM_ownWork (m : SamplingModel α) (k first : ℕ) (sizes : List ℕ) :
    (numbered first sizes).mapM (ownWork.on (m.advance k)) =
      (m.sampleBatches first sizes).mapError .statistics := by
  induction sizes generalizing first with
  | nil => rfl
  | cons size sizes ih =>
    have hown : ownWork.on (m.advance k) ⟨first, size⟩ =
        (m.sampleBatch first size).mapError .statistics := rfl
    rw [numbered, List.mapM_cons, ih, hown, sampleBatches]
    cases m.sampleBatch first size with
    | error e => rfl
    | ok s => cases m.sampleBatches (first + 1) sizes <;> rfl

/-- The requests of a model are those that do its own work. -/
theorem addSamplesWith_ownWork (n : ℤ) :
    addSamplesWith ownWork n = (addSamples n : Session (SamplingModel α) α Unit) := by
  funext m
  by_cases hn : n < 1
  · unfold addSamplesWith addSamples
    rw [Outcome.require_of_not (not_not_intro hn)]
    rfl
  · unfold addSamplesWith addSamples
    rw [Outcome.require_of hn]
    dsimp only [Session.run, Session.lift, Session.get, Session.modify, Bind.bind, Session.bind,
      Outcome.pure, request]
    rw [length_numbered, mapM_ownWork]
    cases m.sampleBatches m.batchesDrawn (batchSizes m.batchSize n.toNat) <;> rfl

theorem run_addSamplesWith_of_lt_one (work : Work α) (m : SamplingModel α) {n : ℤ} (hn : n < 1) :
    (addSamplesWith work n).run m = (.fail (.simulation (.samplesBelowOne n)), m) := by
  unfold addSamplesWith
  rw [Outcome.require_of_not (not_not_intro hn)]
  rfl

section Serial

variable {work : Work α} {m : SamplingModel α} {n : ℤ}

/-- The numbers of the batches are used up first, and then the results of all batches decide. -/
theorem run_addSamplesWith_of_one_le (hn : 1 ≤ n) :
    let batches := (request m.batchSize m.batchesDrawn n).batches
    let begun := m.advance batches.length
    (addSamplesWith work n).run m =
      match batches.mapM (work.on begun) with
      | .error e => (.fail e, begun)
      | .ok partials => (.report (.record (.samplesAdded n batches.length
          (begun.mergeAll partials).statistics.count)), begun.mergeAll partials) := by
  intro batches begun
  unfold addSamplesWith
  rw [Outcome.require_of (by omega)]
  dsimp only [Session.run, Session.lift, Session.get, Session.modify, Bind.bind, Session.bind,
    Outcome.pure]
  cases batches.mapM (work.on begun) <;> rfl

theorem run_addSamplesWith_of_error (hn : 1 ≤ n) {e : PricingError α} :
    let batches := (request m.batchSize m.batchesDrawn n).batches
    batches.mapM (work.on (m.advance batches.length)) = .error e →
      (addSamplesWith work n).run m = (.fail e, m.advance batches.length) := by
  intro batches h
  rw [run_addSamplesWith_of_one_le hn, h]

theorem run_addSamplesWith_of_ok (hn : 1 ≤ n) {partials : List (Accumulator α)} :
    let batches := (request m.batchSize m.batchesDrawn n).batches
    batches.mapM (work.on (m.advance batches.length)) = .ok partials →
      (addSamplesWith work n).run m =
        (.report (.record (.samplesAdded n batches.length
          ((m.advance batches.length).mergeAll partials).statistics.count)),
        (m.advance batches.length).mergeAll partials) := by
  intro batches h
  rw [run_addSamplesWith_of_one_le hn, h]

end Serial

theorem mergeAll_append (m : SamplingModel α) (first second : List (Accumulator α)) :
    m.mergeAll (first ++ second) = (m.mergeAll first).mergeAll second := by
  rw [mergeAll, List.foldl_append]
  rfl

/-! ## Computations in order, each of which may fail -/

section Lists

variable {β γ ε : Type} {f : β → Except ε γ} {l : List β} {results : List γ} {b : β} {e : ε}

theorem mapM_take_succ (h : (l.take results.length).mapM f = .ok results)
    (hb : l[results.length]? = some b) {r : γ} (hr : f b = .ok r) :
    (l.take (results ++ [r]).length).mapM f = .ok (results ++ [r]) := by
  rw [List.length_append, List.length_singleton, List.take_add_one, hb, Option.toList_some,
    List.mapM_append, h, List.mapM_cons, hr]
  rfl

theorem mapM_of_error (h : (l.take results.length).mapM f = .ok results)
    (hb : l[results.length]? = some b) (he : f b = .error e) : l.mapM f = .error e := by
  obtain ⟨hlt, hget⟩ := List.getElem?_eq_some_iff.mp hb
  rw [← List.take_append_drop results.length l, List.mapM_append, h, List.drop_eq_getElem_cons hlt,
    hget, List.mapM_cons, he]
  rfl

theorem forall₂_of_mapM_eq_ok (h : l.mapM f = .ok results) :
    List.Forall₂ (fun b r => f b = .ok r) l results := by
  induction l generalizing results with
  | nil =>
    cases h
    exact .nil
  | cons b l ih =>
    rw [List.mapM_cons] at h
    cases hr : f b with
    | error e =>
      rw [hr] at h
      cases h
    | ok r =>
      rw [hr] at h
      cases hrest : l.mapM f with
      | error e =>
        rw [hrest] at h
        cases h
      | ok rest =>
        rw [hrest] at h
        cases h
        exact .cons hr (ih hrest)

/-- The error is that of the first to fail. -/
theorem exists_of_mapM_eq_error (h : l.mapM f = .error e) :
    ∃ before b rest, l = before ++ b :: rest ∧ f b = .error e ∧ ∀ a ∈ before, ∃ r, f a = .ok r := by
  induction l with
  | nil => cases h
  | cons b l ih =>
    rw [List.mapM_cons] at h
    cases hr : f b with
    | error e' =>
      rw [hr] at h
      cases h
      exact ⟨[], b, l, rfl, hr, fun a ha => by cases ha⟩
    | ok r =>
      rw [hr] at h
      cases hrest : l.mapM f with
      | error e' =>
        rw [hrest] at h
        cases h
        obtain ⟨before, b', rest, rfl, hb', hbefore⟩ := ih hrest
        exact ⟨b :: before, b', rest, rfl, hb', List.forall_mem_cons.mpr ⟨⟨r, hr⟩, hbefore⟩⟩
      | ok rest =>
        rw [hrest] at h
        cases h

theorem sum_map_set_lt {weight : β → ℕ} {i : ℕ} {b' : β} (hb : l[i]? = some b)
    (hlt : weight b' < weight b) : ((l.set i b').map weight).sum < (l.map weight).sum := by
  induction l generalizing i with
  | nil => cases hb
  | cons a l ih =>
    cases i with
    | zero =>
      cases hb
      simpa using hlt
    | succ i => simpa using ih hb

end Lists

/-! ## What a schedule keeps -/

/-- A thread reads its own substream, and its result is what becomes of the batch. -/
def Job.Sound (work : Work α) (m : SamplingModel α) (job : Job α) : Prop :=
  match job.state with
  | .running g => g = m.generator.child job.batch.index
  | .finished r => r = work.on m job.batch
  | _ => True

namespace Pool

/-- What the caller knows. The model is touched only when all threads are done. -/
def CallerSound (work : Work α) (m : SamplingModel α) (c : Pool α) : Phase α → Prop
  | .collecting partials => c.model = m ∧
      (c.batches.take partials.length).mapM (work.on m) = .ok partials ∧
      (∀ job ∈ c.jobs.take partials.length, job.state.IsOver) ∧ ∀ job ∈ c.jobs, job.state ≠ .cancelled
  | .failing e => c.model = m ∧ c.batches.mapM (work.on m) = .error e
  | .merging rest => (∀ job ∈ c.jobs, job.state.IsOver) ∧
      ∃ merged, c.batches.mapM (work.on m) = .ok (merged ++ rest) ∧ c.model = m.mergeAll merged
  | .returned => (∀ job ∈ c.jobs, job.state.IsOver) ∧
      ∃ partials, c.batches.mapM (work.on m) = .ok partials ∧ c.model = m.mergeAll partials
  | .raised e => (∀ job ∈ c.jobs, job.state.IsOver) ∧ c.model = m ∧
      c.batches.mapM (work.on m) = .error e

structure Sound (work : Work α) (m : SamplingModel α) (c : Pool α) : Prop where
  jobs : ∀ job ∈ c.jobs, job.Sound work m
  caller : c.CallerSound work m c.phase

variable {work : Work α} {m : SamplingModel α} {workers : ℕ} {c c' : Pool α}

theorem Sound.caller_of (h : c.Sound work m) {phase : Phase α} (hphase : c.phase = phase) :
    c.CallerSound work m phase := hphase ▸ h.caller

/-- While a thread has something to do, the model is the one that the batches were handed out with. -/
theorem Sound.model_eq (h : c.Sound work m) {job : Job α} (hjob : job ∈ c.jobs)
    (hbusy : ¬job.state.IsOver) : c.model = m := by
  cases hphase : c.phase with
  | collecting partials => exact (h.caller_of hphase).1
  | failing e => exact (h.caller_of hphase).1
  | merging rest => exact absurd ((h.caller_of hphase).1 job hjob) hbusy
  | returned => exact absurd ((h.caller_of hphase).1 job hjob) hbusy
  | raised e => exact (h.caller_of hphase).2.1

section

variable {i : ℕ} {batch : Batch} {state state' : JobState α}

omit [Scalar α]

theorem getElem?_batches (hjob : c.jobs[i]? = some ⟨batch, state⟩) : c.batches[i]? = some batch := by
  rw [batches, List.getElem?_map, hjob]
  rfl

theorem batches_put (hjob : c.jobs[i]? = some ⟨batch, state⟩) :
    (c.put i ⟨batch, state'⟩).batches = c.batches := by
  obtain ⟨hi, hbatch⟩ := List.getElem?_eq_some_iff.mp (getElem?_batches hjob)
  have hsame : c.batches.set i c.batches[i] = c.batches := List.set_getElem_self hi
  rw [hbatch] at hsame
  rw [batches, put, List.map_set]
  exact hsame

end

/-- A thread that goes on, or a batch that is given up, leaves everything sound. -/
theorem Sound.put (h : c.Sound work m) {i : ℕ} {batch : Batch} {state state' : JobState α}
    (hjob : c.jobs[i]? = some ⟨batch, state⟩) (hbusy : ¬state.IsOver)
    (hnew : Job.Sound work m ⟨batch, state'⟩)
    (hkept : state' = .cancelled → ∃ e, c.phase = .failing e) :
    (c.put i ⟨batch, state'⟩).Sound work m := by
  have hmem := List.mem_of_getElem? hjob
  refine ⟨fun job hjob' => ?_, ?_⟩
  · rcases List.mem_or_eq_of_mem_set hjob' with hold | rfl
    · exact h.jobs job hold
    · exact hnew
  · have hbatches : (c.put i ⟨batch, state'⟩).batches = c.batches := batches_put hjob
    cases hphase : c.phase with
    | collecting partials =>
      obtain ⟨hmodel, hpartials, htaken, hwaiting⟩ := h.caller_of hphase
      -- what the caller has taken is over, so this batch is none of that
      have hlater : partials.length ≤ i := by
        by_contra hlt
        have htake : (c.jobs.take partials.length)[i]? = some ⟨batch, state⟩ := by
          rw [List.getElem?_take_of_lt (by omega), hjob]
        exact hbusy (htaken _ (List.mem_of_getElem? htake))
      have hput : (c.put i ⟨batch, state'⟩).phase = .collecting partials := hphase
      rw [hput]
      refine ⟨hmodel, ?_, ?_, fun job hjob' => ?_⟩
      · rw [hbatches]
        exact hpartials
      · rw [Pool.put, List.take_set_of_le hlater]
        exact htaken
      · rcases List.mem_or_eq_of_mem_set hjob' with hold | rfl
        · exact hwaiting job hold
        · intro hcancelled
          obtain ⟨e, he⟩ := hkept hcancelled
          rw [hphase] at he
          cases he
    | failing e =>
      obtain ⟨hmodel, hresults⟩ := h.caller_of hphase
      have hput : (c.put i ⟨batch, state'⟩).phase = .failing e := hphase
      rw [hput]
      exact ⟨hmodel, hbatches ▸ hresults⟩
    | merging rest => exact absurd ((h.caller_of hphase).1 _ hmem) hbusy
    | returned => exact absurd ((h.caller_of hphase).1 _ hmem) hbusy
    | raised e => exact absurd ((h.caller_of hphase).1 _ hmem) hbusy

/-- Whatever happens next, nothing that is known is lost. -/
theorem Sound.step (h : c.Sound work m) (hstep : Step workers work c c') : c'.Sound work m := by
  cases hstep with
  | start hjob hfree =>
    have hmodel := h.model_eq (List.mem_of_getElem? hjob) id
    refine h.put hjob id ?_ (fun hcancelled => by cases hcancelled)
    rw [hmodel]
    exact rfl
  | @finish i batch g hjob =>
    have hmem := List.mem_of_getElem? hjob
    have hmodel := h.model_eq hmem id
    have hsubstream : g = m.generator.child batch.index := h.jobs _ hmem
    refine h.put hjob id ?_ (fun hcancelled => by cases hcancelled)
    rw [hmodel, hsubstream]
    exact rfl
  | cancel hphase hjob => exact h.put hjob id trivial fun _ => ⟨_, hphase⟩
  | @receive partials batch s hphase hjob =>
    obtain ⟨hmodel, hpartials, htaken, hwaiting⟩ := h.caller_of hphase
    have hresult : .ok s = work.on m batch := h.jobs _ (List.mem_of_getElem? hjob)
    refine ⟨h.jobs, hmodel, mapM_take_succ hpartials (getElem?_batches hjob) hresult.symm, ?_, hwaiting⟩
    rw [List.length_append, List.length_singleton, List.take_add_one, hjob]
    intro job hjob'
    rcases List.mem_append.mp hjob' with htake | hlast
    · exact htaken job htake
    · rw [List.mem_singleton.mp hlast]
      trivial
  | @fail partials batch e hphase hjob =>
    obtain ⟨hmodel, hpartials, -, -⟩ := h.caller_of hphase
    have hresult : .error e = work.on m batch := h.jobs _ (List.mem_of_getElem? hjob)
    exact ⟨h.jobs, hmodel, mapM_of_error hpartials (getElem?_batches hjob) hresult.symm⟩
  | raise hphase hidle => exact ⟨h.jobs, hidle, h.caller_of hphase⟩
  | @close partials hphase hall =>
    obtain ⟨hmodel, hpartials, htaken, -⟩ := h.caller_of hphase
    have hbatches : c.batches.take partials.length = c.batches := by
      rw [hall, batches, ← List.length_map (f := Job.batch), List.take_length]
    rw [hbatches] at hpartials
    rw [hall, List.take_length] at htaken
    exact ⟨h.jobs, htaken, [], hpartials, hmodel⟩
  | @merge s rest hphase =>
    obtain ⟨hover, merged, hmerged, hmodel⟩ := h.caller_of hphase
    refine ⟨h.jobs, hover, merged ++ [s], ?_, ?_⟩
    · rw [List.append_assoc]
      exact hmerged
    · rw [mergeAll_append, ← hmodel]
  | finishMerging hphase =>
    obtain ⟨hover, merged, hmerged, hmodel⟩ := h.caller_of hphase
    rw [List.append_nil] at hmerged
    exact ⟨h.jobs, hover, merged, hmerged, hmodel⟩

theorem Step.batches_eq (h : Step workers work c c') : c'.batches = c.batches := by
  cases h with
  | start hjob _ => exact batches_put hjob
  | finish hjob => exact batches_put hjob
  | cancel _ hjob => exact batches_put hjob
  | _ => rfl

theorem sound_opened (work : Work α) (m : SamplingModel α) (n : ℤ) :
    (opened m n).Sound work
      (m.advance (request m.batchSize m.batchesDrawn n).batches.length) := by
  have hpending {job : Job α} (hjob : job ∈ (opened m n).jobs) : job.state = .pending := by
    obtain ⟨batch, -, rfl⟩ := List.mem_map.mp hjob
    rfl
  refine ⟨fun job hjob => ?_, rfl, rfl, fun job hjob => absurd hjob List.not_mem_nil,
    fun job hjob => ?_⟩
  · rw [Job.Sound, hpending hjob]
    trivial
  · rw [hpending hjob]
    exact nofun

omit [Scalar α] in
theorem batches_opened (m : SamplingModel α) (n : ℤ) :
    (opened m n).batches = (request m.batchSize m.batchesDrawn n).batches := by
  rw [batches, opened, List.map_map]
  exact List.map_id _

/-- Whatever has happened since the request began. -/
theorem Reaches.sound {n : ℤ} (h : Reaches workers work (opened m n) c) :
    c.Sound work (m.advance (request m.batchSize m.batchesDrawn n).batches.length) ∧
      c.batches = (request m.batchSize m.batchesDrawn n).batches := by
  induction h with
  | refl => exact ⟨sound_opened work m n, batches_opened m n⟩
  | tail _ hstep ih => exact ⟨ih.1.step hstep, (Step.batches_eq hstep).trans ih.2⟩

end Pool

end SamplingModel

end OptionDesk
