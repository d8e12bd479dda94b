import OptionDesk.Proofs.Sampling.Pool
import Mathlib.Order.WellFounded

/-!
# Schedules of a request

Every step of a schedule uses up some of the work that a request begins with, and as long as the
request is not over something can happen next. So every schedule ends, on any number of threads, and it
ends as the caller alone would have ended: with the statistics of all batches merged in their order, or
with the error of the first batch that fails and nothing merged.
-/
namespace OptionDesk

namespace SamplingModel

variable {α : Type} [Scalar α] [NormalSource α]

/-- A request for `n` samples on so many threads can end like this. The caller works alone if it has no
other thread, or no second batch. -/
inductive RunsTo (workers : ℕ) (work : Work α) (m : SamplingModel α) (n : ℤ) :
    Outcome α Unit × SamplingModel α → Prop
  | refused (hn : n < 1) : RunsTo workers work m n (.fail (.simulation (.samplesBelowOne n)), m)
  | alone (hn : 1 ≤ n)
      (halone : workers = 1 ∨ (request m.batchSize m.batchesDrawn n).batches.length = 1) :
      RunsTo workers work m n ((addSamplesWith work n).run m)
  | pooled (hn : 1 ≤ n) (hworkers : workers ≠ 1)
      (hbatches : (request m.batchSize m.batchesDrawn n).batches.length ≠ 1) {c : Pool α}
      (hc : Pool.Reaches workers work (.opened m n) c) {o : Outcome α Unit × SamplingModel α}
      (ho : c.outcome? n = some o) : RunsTo workers work m n o

/-- What a request leaves, by what becomes of its batches. -/
inductive Settled (work : Work α) (m : SamplingModel α) (n : ℤ) (o : Outcome α Unit × SamplingModel α) :
    Prop
  | refused (hn : n < 1) (ho : o = (.fail (.simulation (.samplesBelowOne n)), m))
  /-- The statistics of all batches are merged, in the order of the batches. -/
  | merged (hn : 1 ≤ n) {batches : List Batch}
      (hbatches : batches = (request m.batchSize m.batchesDrawn n).batches)
      {partials : List (Accumulator α)}
      (hpartials : List.Forall₂ (fun batch s => work.on (m.advance batches.length) batch = .ok s)
        batches partials)
      (hresult : o.1.result = .ok ()) (hmodel : o.2 = (m.advance batches.length).mergeAll partials)
  /-- The error is that of the first batch to fail, and only the numbers are used up. -/
  | raised (hn : 1 ≤ n) {before rest : List Batch} {batch : Batch} {e : PricingError α}
      (hbatches : before ++ batch :: rest = (request m.batchSize m.batchesDrawn n).batches)
      (hbefore : ∀ b ∈ before,
        ∃ s, work.on (m.advance (before ++ batch :: rest).length) b = .ok s)
      (hbatch : work.on (m.advance (before ++ batch :: rest).length) batch = .error e)
      (hresult : o.1.result = .error e) (hstatistics : o.2.statistics = m.statistics)
      (hmodel : o.2 = m.advance (before ++ batch :: rest).length)

theorem settled_run (work : Work α) (m : SamplingModel α) (n : ℤ) :
    Settled work m n ((addSamplesWith work n).run m) := by
  by_cases hn : n < 1
  · exact .refused hn (run_addSamplesWith_of_lt_one work m hn)
  have hone : 1 ≤ n := by omega
  cases h : (request m.batchSize m.batchesDrawn n).batches.mapM
      (work.on (m.advance (request m.batchSize m.batchesDrawn n).batches.length)) with
  | ok partials =>
    have hrun := run_addSamplesWith_of_ok hone h
    refine .merged hone rfl (forall₂_of_mapM_eq_ok h) ?_ ?_
    · rw [hrun, Outcome.result_report]
    · rw [hrun]
  | error e =>
    have hrun := run_addSamplesWith_of_error hone h
    obtain ⟨before, batch, rest, hbatches, hbatch, hbefore⟩ := exists_of_mapM_eq_error h
    rw [hbatches] at hrun hbatch hbefore
    refine .raised hone hbatches.symm hbefore hbatch ?_ ?_ ?_
    · rw [hrun, Outcome.result_fail]
    · rw [hrun]
      rfl
    · rw [hrun]

/-- Steps that a batch has before it. -/
def JobState.stepsLeft : JobState α → ℕ
  | pending => 2
  | running _ => 1
  | _ => 0

/-- Steps that the caller has before it, on so many batches. -/
def Phase.stepsLeft (batches : ℕ) : Phase α → ℕ
  | collecting partials => batches - partials.length + batches + 2
  | merging rest => rest.length + 1
  | failing _ => 1
  | _ => 0

namespace Pool

variable {work : Work α} {m : SamplingModel α} {workers : ℕ} {n : ℤ} {c c' : Pool α}

/-- A request that is over leaves what the caller alone would have left. -/
theorem Reaches.outcome_eq (hn : 1 ≤ n) (h : Reaches workers work (opened m n) c)
    {o : Outcome α Unit × SamplingModel α} (ho : c.outcome? n = some o) :
    o = (addSamplesWith work n).run m := by
  obtain ⟨hsound, hbatches⟩ := h.sound
  have hlength : c.jobs.length = (request m.batchSize m.batchesDrawn n).batches.length := by
    rw [← hbatches, batches, List.length_map]
  unfold outcome? at ho
  cases hphase : c.phase with
  | returned =>
    obtain ⟨-, partials, hpartials, hmodel⟩ := hsound.caller_of hphase
    rw [hbatches] at hpartials
    rw [hphase] at ho
    rw [run_addSamplesWith_of_ok hn hpartials, ← hmodel, ← hlength]
    exact (Option.some.inj ho).symm
  | raised e =>
    obtain ⟨-, hmodel, herror⟩ := hsound.caller_of hphase
    rw [hbatches] at herror
    rw [hphase] at ho
    rw [run_addSamplesWith_of_error hn herror, ← hmodel]
    exact (Option.some.inj ho).symm
  | _ =>
    rw [hphase] at ho
    cases ho

/-! ## Every schedule ends -/

def stepsLeft (c : Pool α) : ℕ :=
  (c.jobs.map fun job => job.state.stepsLeft).sum + c.phase.stepsLeft c.jobs.length

omit [Scalar α] in
theorem stepsLeft_put {i : ℕ} {batch : Batch} {state state' : JobState α}
    (hjob : c.jobs[i]? = some ⟨batch, state⟩) (hlt : state'.stepsLeft < state.stepsLeft) :
    (c.put i ⟨batch, state'⟩).stepsLeft < c.stepsLeft := by
  have hsum : ((c.jobs.set i ⟨batch, state'⟩).map fun job => job.state.stepsLeft).sum <
      (c.jobs.map fun job => job.state.stepsLeft).sum := sum_map_set_lt hjob hlt
  have hlength : (c.put i ⟨batch, state'⟩).jobs.length = c.jobs.length := List.length_set
  rw [stepsLeft, hlength]
  exact Nat.add_lt_add_right hsum _

omit [Scalar α] in
/-- A step of the caller uses up work when it brings the caller closer to its end. -/
theorem stepsLeft_lt_of_phase {model : SamplingModel α} {phase phase' : Phase α}
    (hphase : c.phase = phase) (hlt : phase'.stepsLeft c.jobs.length < phase.stepsLeft c.jobs.length) :
    stepsLeft ⟨model, c.jobs, phase'⟩ < c.stepsLeft := by
  subst hphase
  exact Nat.add_lt_add_left hlt _

theorem Step.stepsLeft_lt (h : Step workers work c c') : c'.stepsLeft < c.stepsLeft := by
  cases h with
  | start hjob _ => exact stepsLeft_put hjob Nat.one_lt_two
  | finish hjob => exact stepsLeft_put hjob Nat.one_pos
  | cancel _ hjob => exact stepsLeft_put hjob Nat.two_pos
  | receive hphase hjob =>
    obtain ⟨hlt, -⟩ := List.getElem?_eq_some_iff.mp hjob
    apply stepsLeft_lt_of_phase hphase
    simp only [Phase.stepsLeft, List.length_append, List.length_singleton]
    omega
  | fail hphase _ =>
    apply stepsLeft_lt_of_phase hphase
    simp only [Phase.stepsLeft]
    omega
  | raise hphase _ => exact stepsLeft_lt_of_phase hphase Nat.one_pos
  | close hphase hall =>
    apply stepsLeft_lt_of_phase hphase
    simp only [Phase.stepsLeft]
    omega
  | merge hphase => exact stepsLeft_lt_of_phase hphase (Nat.lt_succ_self _)
  | finishMerging hphase => exact stepsLeft_lt_of_phase hphase Nat.one_pos

/-- No schedule goes on for ever. -/
theorem wellFounded_step (workers : ℕ) (work : Work α) :
    WellFounded fun c' c : Pool α => Step workers work c c' :=
  Subrelation.wf Step.stepsLeft_lt (measure stepsLeft).wf

omit [Scalar α] in
theorem exists_running (h : 0 < c.busy) :
    ∃ (i : ℕ) (batch : Batch) (g : PathGenerator α), c.jobs[i]? = some ⟨batch, .running g⟩ := by
  obtain ⟨⟨batch, state⟩, hmem, hrunning⟩ := List.countP_pos_iff.mp h
  obtain ⟨i, hi⟩ := List.getElem?_of_mem hmem
  cases state with
  | running g => exact ⟨i, batch, g, hi⟩
  | _ => cases hrunning

/-- The caller does not wait in vain: a batch that is not over can be worked on or given up. -/
theorem exists_step_of_not_over (hworkers : 0 < workers) {i : ℕ} {batch : Batch} {state : JobState α}
    (hjob : c.jobs[i]? = some ⟨batch, state⟩) (hbusy : ¬state.IsOver) :
    ∃ c', Step workers work c c' := by
  cases state with
  | pending =>
    by_cases hfree : c.busy < workers
    · exact ⟨_, .start hjob hfree⟩
    · obtain ⟨j, batch', g, hrunning⟩ := exists_running (c := c) (by omega)
      exact ⟨_, .finish hrunning⟩
  | running g => exact ⟨_, .finish hjob⟩
  | finished r => exact absurd trivial hbusy
  | cancelled => exact absurd trivial hbusy

/-- As long as a request is not over, something can happen next. -/
theorem Sound.exists_step (h : c.Sound work m) (hworkers : 0 < workers) (hopen : c.outcome? n = none) :
    ∃ c', Step workers work c c' := by
  cases hphase : c.phase with
  | collecting partials =>
    obtain ⟨-, hpartials, -, hwaiting⟩ := h.caller_of hphase
    have hlength := (forall₂_of_mapM_eq_ok hpartials).length_eq
    rw [List.length_take, batches, List.length_map] at hlength
    by_cases hall : partials.length = c.jobs.length
    · exact ⟨_, .close hphase hall⟩
    · have hlt : partials.length < c.jobs.length := by omega
      obtain ⟨⟨batch, state⟩, hjob⟩ : ∃ job, c.jobs[partials.length]? = some job :=
        ⟨_, List.getElem?_eq_getElem hlt⟩
      cases state with
      | pending => exact exists_step_of_not_over hworkers hjob id
      | running g => exact ⟨_, .finish hjob⟩
      | finished r =>
        cases r with
        | ok s => exact ⟨_, .receive hphase hjob⟩
        | error e => exact ⟨_, .fail hphase hjob⟩
      | cancelled => exact absurd rfl (hwaiting _ (List.mem_of_getElem? hjob))
  | failing e =>
    by_cases hidle : ∀ job ∈ c.jobs, job.state.IsOver
    · exact ⟨_, .raise hphase hidle⟩
    · obtain ⟨⟨batch, state⟩, hmem, hbusy⟩ : ∃ job ∈ c.jobs, ¬job.state.IsOver := by
        simpa only [not_forall, exists_prop] using hidle
      obtain ⟨i, hjob⟩ := List.getElem?_of_mem hmem
      exact exists_step_of_not_over hworkers hjob hbusy
  | merging rest =>
    cases rest with
    | nil => exact ⟨_, .finishMerging hphase⟩
    | cons s rest => exact ⟨_, .merge hphase⟩
  | returned =>
    rw [outcome?, hphase] at hopen
    cases hopen
  | raised e =>
    rw [outcome?, hphase] at hopen
    cases hopen

/-- Whatever has happened so far, the request can be brought to an end. -/
theorem Reaches.exists_outcome (hworkers : 0 < workers) (h : Reaches workers work (opened m n) c) :
    ∃ c' o, Reaches workers work (opened m n) c' ∧ c'.outcome? n = some o := by
  induction c using (wellFounded_step workers work).induction with
  | _ c ih =>
    cases ho : c.outcome? n with
    | some o => exact ⟨c, o, h, ho⟩
    | none =>
      obtain ⟨c', hstep⟩ := h.sound.1.exists_step hworkers ho
      exact ih c' hstep (h.tail hstep)

end Pool

/-- However a request is scheduled, it ends as the caller alone would have ended it. -/
theorem runsTo_iff {workers : ℕ} (hworkers : 0 < workers) (work : Work α) (m : SamplingModel α) (n : ℤ)
    (o : Outcome α Unit × SamplingModel α) :
    RunsTo workers work m n o ↔ o = (addSamplesWith work n).run m := by
  constructor
  · intro h
    cases h with
    | refused hn => exact (run_addSamplesWith_of_lt_one work m hn).symm
    | alone _ _ => rfl
    | pooled hn _ _ hc ho => exact hc.outcome_eq hn ho
  · rintro rfl
    by_cases hn : n < 1
    · rw [run_addSamplesWith_of_lt_one work m hn]
      exact .refused hn
    have hone : 1 ≤ n := by omega
    by_cases halone : workers = 1 ∨ (request m.batchSize m.batchesDrawn n).batches.length = 1
    · exact .alone hone halone
    · obtain ⟨hmany, hbatches⟩ := not_or.mp halone
      obtain ⟨c, o, hc, ho⟩ :=
        Pool.Reaches.exists_outcome hworkers (.refl : Pool.Reaches workers work (.opened m n) _)
      rw [← hc.outcome_eq hone ho]
      exact .pooled hone hmany hbatches hc ho

/-- A request does not depend on its schedule, on any number of threads and whatever its batches come
to. Every schedule ends, and as the caller alone would have ended it: all statistics are merged in the
order of the batches, or the error is that of the first batch that fails and only the numbers are used
up. In particular, the requests of a model that do its own work end as they do on one thread. -/
theorem schedules_do_not_matter {workers : ℕ} (hworkers : 0 < workers) (work : Work α)
    (m : SamplingModel α) (n : ℤ) :
    (∀ o, RunsTo workers work m n o ↔ o = (addSamplesWith work n).run m) ∧
      Settled work m n ((addSamplesWith work n).run m) ∧
      (WellFounded fun c' c : Pool α => Pool.Step workers work c c') ∧
      (∀ c, Pool.Reaches workers work (.opened m n) c → c.outcome? n = none →
        ∃ c', Pool.Step workers work c c') ∧
      ∀ o, RunsTo workers ownWork m n o ↔ o = (addSamples n).run m := by
  refine ⟨runsTo_iff hworkers work m n, settled_run work m n, Pool.wellFounded_step workers work,
    fun c hc hopen => hc.sound.1.exists_step hworkers hopen, fun o => ?_⟩
  rw [← addSamplesWith_ownWork]
  exact runsTo_iff hworkers ownWork m n o

/-- Of three batches on two threads the later two fail, each in its own way. -/
theorem first_failure_counts_on_two_threads :
    let m : SamplingModel Float :=
      ⟨.ofSeed ⟨0, 1, 1, 1⟩ (.root 42), .logReturn, .ofList [1.5, 2.5], 2, 7⟩
    let work : Work Float := fun _ batch _ =>
      if batch.index = 7 then .ok (.ofList [1.0, 2.0])
      else if batch.index = 8 then .error (.misuse .overflow)
      else .error (.misuse .divisionByZero)
    ∀ o, RunsTo 2 work m 5 o ↔ o = (.fail (.misuse .overflow), m.advance 3) := by
  intro m work
  have hbatches : (request m.batchSize m.batchesDrawn 5).batches = [⟨7, 2⟩, ⟨8, 2⟩, ⟨9, 1⟩] := by
    show (request 2 7 5).batches = _
    rfl
  have hserial : (addSamplesWith work 5).run m = (.fail (.misuse .overflow), m.advance 3) := by
    have hrun : _ → (addSamplesWith work 5).run m = _ :=
      run_addSamplesWith_of_error (by decide) (e := .misuse .overflow)
    rw [hbatches] at hrun
    exact hrun rfl
  rw [← hserial]
  exact (schedules_do_not_matter Nat.two_pos work m 5).1

end SamplingModel

end OptionDesk
