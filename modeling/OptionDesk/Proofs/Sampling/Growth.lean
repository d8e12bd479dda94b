import OptionDesk.Proofs.Sampling.CommonPaths

/-!
# How a pricer grows

A pricer can be called for an estimate from a number of samples, for one within a tolerance, and for a
table of estimates. All that any of these calls does to the sampling model, also when it fails, is to
merge finite batches into its statistics and to use up numbers of batches. So over any history of calls
samples are only added, and in exact arithmetic the statistics remain the summary of real samples.
-/
namespace OptionDesk

namespace SamplingModel

variable {α : Type} [Scalar α] [NormalSource α]

/-! ## Drawing -/

/-- One model becomes another by drawing finite batches. Numbers of batches may be lost on the way. -/
structure Grows (m m' : SamplingModel α) : Prop where
  generator_eq : m'.generator = m.generator
  pricer_eq : m'.pricer = m.pricer
  batchSize_eq : m'.batchSize = m.batchSize
  batchesDrawn_le : m.batchesDrawn ≤ m'.batchesDrawn
  exists_batches : ∃ batches : List Batch,
    batches.all (Batch.isFinite m.generator m.pricer) = true ∧
      m'.statistics = merged m.generator m.pricer m.statistics batches

namespace Grows

variable {m m' m'' : SamplingModel α}

theorem refl (m : SamplingModel α) : Grows m m := ⟨rfl, rfl, rfl, le_rfl, [], rfl, rfl⟩

theorem trans (h : Grows m m') (h' : Grows m' m'') : Grows m m'' := by
  obtain ⟨first, hfirst, hstatistics⟩ := h.exists_batches
  obtain ⟨second, hsecond, hstatistics'⟩ := h'.exists_batches
  rw [h.generator_eq, h.pricer_eq] at hsecond hstatistics'
  refine ⟨h'.generator_eq.trans h.generator_eq, h'.pricer_eq.trans h.pricer_eq,
    h'.batchSize_eq.trans h.batchSize_eq, h.batchesDrawn_le.trans h'.batchesDrawn_le,
    first ++ second, ?_, ?_⟩
  · rw [List.all_append, hfirst, hsecond]
    rfl
  · rw [hstatistics', hstatistics, merged_append]

theorem count_le (h : Grows m m') : m.statistics.count ≤ m'.statistics.count := by
  obtain ⟨batches, -, hstatistics⟩ := h.exists_batches
  rw [hstatistics, count_merged]
  exact Nat.le_add_right _ _

end Grows

theorem Request.all_isFinite_granted (generator : PathGenerator α) (pricer : PathPricer α)
    (r : Request) : (r.granted generator pricer).all (Batch.isFinite generator pricer) = true := by
  rw [granted]
  cases h : r.verdict generator pricer with
  | error e => rfl
  | ok u =>
    have hsamples : ¬r.samples < 1 := not_lt.mpr (one_le_of_verdict h)
    rw [verdict, if_neg hsamples] at h
    split at h
    · assumption
    · cases h

theorem grows_addSamples (m : SamplingModel α) (n : ℤ) : Grows m ((addSamples n).run m).2 := by
  obtain ⟨-, hstate⟩ := run_addSamples m n
  rw [hstate]
  exact ⟨rfl, rfl, rfl, Nat.le_add_right _ _, _, Request.all_isFinite_granted _ _ _, rfl⟩

/-- A batch that some later request may take. -/
def MayDraw (m : SamplingModel α) (batch : Batch) : Prop :=
  ∃ first n, m.batchesDrawn ≤ first ∧ batch ∈ (request m.batchSize first n).batches

theorem Grows.mayDraw {m m' : SamplingModel α} (h : Grows m m') {batch : Batch}
    (hbatch : m'.MayDraw batch) : m.MayDraw batch := by
  obtain ⟨first, n, hfirst, hmem⟩ := hbatch
  rw [h.batchSize_eq] at hmem
  exact ⟨first, n, h.batchesDrawn_le.trans hfirst, hmem⟩

/-- A session ends with the error of a batch that is not finite, one of those that may be drawn. -/
def Stumbles {β : Type} (m : SamplingModel α) (result : Except (PricingError α) β) : Prop :=
  result = .error (.statistics .nonFiniteBatch) ∧
    ∃ batch : Batch, m.MayDraw batch ∧ ¬batch.isFinite m.generator m.pricer

theorem Grows.stumbles {β : Type} {m m' : SamplingModel α} (h : Grows m m')
    {result : Except (PricingError α) β} (hresult : m'.Stumbles result) : m.Stumbles result := by
  obtain ⟨herror, batch, hdrawn, hbatch⟩ := hresult
  rw [h.generator_eq, h.pricer_eq] at hbatch
  exact ⟨herror, batch, h.mayDraw hdrawn, hbatch⟩

theorem not_stumbles {β : Type} {m : SamplingModel α}
    (h : ∀ batch, m.MayDraw batch → batch.isFinite m.generator m.pricer = true)
    (result : Except (PricingError α) β) : ¬m.Stumbles result := by
  rintro ⟨-, batch, hdrawn, hbatch⟩
  exact hbatch (h batch hdrawn)

theorem Grows.isFinite {m m' : SamplingModel α} (h : Grows m m')
    (hfinite : ∀ batch, m.MayDraw batch → batch.isFinite m.generator m.pricer = true) :
    ∀ batch, m'.MayDraw batch → batch.isFinite m'.generator m'.pricer = true := by
  rw [h.generator_eq, h.pricer_eq]
  exact fun batch hbatch => hfinite batch (h.mayDraw hbatch)

/-- A request for at least one sample adds as many, unless it stumbles. -/
theorem addSamples_ends (m : SamplingModel α) {n : ℤ} (hn : 1 ≤ n) :
    (((addSamples n).run m).1.result = .ok () ∧
        (((addSamples n).run m).2.statistics.count : ℤ) = m.statistics.count + n) ∨
      m.Stumbles ((addSamples n).run m).1.result := by
  obtain ⟨hresult, hstate⟩ := run_addSamples m n
  have hsamples : ¬(request m.batchSize m.batchesDrawn n).samples < 1 := not_lt.mpr hn
  rw [Request.verdict, if_neg hsamples] at hresult
  by_cases hfinite : (request m.batchSize m.batchesDrawn n).batches.all
      (Batch.isFinite m.generator m.pricer) = true
  · have hverdict : (request m.batchSize m.batchesDrawn n).verdict m.generator m.pricer = .ok () := by
      rw [Request.verdict, if_neg hsamples, if_pos hfinite]
    rw [if_pos hfinite] at hresult
    refine .inl ⟨hresult, ?_⟩
    rw [hstate, Request.granted, hverdict, count_merged, request, map_size_numbered, sum_batchSizes]
    omega
  · rw [if_neg hfinite] at hresult
    refine .inr ⟨hresult, ?_⟩
    obtain ⟨batch, hbatch, hbad⟩ : ∃ batch ∈ (request m.batchSize m.batchesDrawn n).batches,
        ¬batch.isFinite m.generator m.pricer = true := by
      simpa using hfinite
    exact ⟨batch, ⟨m.batchesDrawn, n, le_rfl, hbatch⟩, hbad⟩

/-! ## Figures that are there -/

omit [Scalar α] in
theorem mean_of_pos {m : SamplingModel α} (h : 0 < m.statistics.count) :
    (mean.run m).1.result = .ok m.statistics.mean := by
  change (Outcome.ofStatistics m.statistics.mean?).result = _
  rw [Accumulator.mean?, if_neg h.ne']
  rfl

theorem errorEstimate_of_two_le {m : SamplingModel α} (h : 2 ≤ m.statistics.count) :
    ∃ error, m.statistics.errorEstimate? = .ok error := by
  unfold Accumulator.errorEstimate? Accumulator.variance?
  rw [if_neg (not_lt.mpr h)]
  exact ⟨_, rfl⟩

theorem run_errorEstimate {m : SamplingModel α} {error : α}
    (h : m.statistics.errorEstimate? = .ok error) : errorEstimate.run m = (⟨.ok error, []⟩, m) := by
  change (Outcome.ofStatistics m.statistics.errorEstimate?, m) = _
  rw [h]
  rfl

/-! ## Every call draws and nothing else -/

/-- Draw what is missing to a number of samples, if anything is. -/
def topUp (n : ℤ) : Session (SamplingModel α) α Unit := do
  let m ← .get
  if m.statistics.count < n then addSamples (n - m.statistics.count)

/-- The rounds of a call for a tolerance, after the samples that it always needs, and its estimate. -/
def finish (tolerance : α) (maxSamples : ℤ) : Session (SamplingModel α) α α := do
  let m ← .get
  refine maxSamples tolerance ((maxSamples - m.statistics.count).toNat + 1)
  mean

omit [Scalar α] in
theorem run_get_bind {β : Type} (f : SamplingModel α → Session (SamplingModel α) α β)
    (m : SamplingModel α) : (.get >>= f : Session _ α β).run m = (f m).run m := rfl

theorem valueWithSamples_eq (n : ℤ) : (valueWithSamples n : Session (SamplingModel α) α α) = (do
    let m ← .get
    .lift <| .require (¬n < m.statistics.count) (.simulation (.fewerThanDrawn n m.statistics.count))
    topUp n
    mean) := by
  funext m
  rw [valueWithSamples]
  change (Session.get >>= _).run m = (Session.get >>= _).run m
  rw [run_get_bind, run_get_bind]
  refine Session.run_bind_congr rfl fun _ => ?_
  change (ite (m.statistics.count < n) _ _ : Session _ α α).run m =
    (ite (m.statistics.count < n) _ _ >>= fun _ => mean : Session _ α α).run m
  split <;> rfl

theorem value_eq (tolerance : Value α) (maxSamples : ℤ) :
    (value tolerance maxSamples : Session (SamplingModel α) α α) = (do
      let limit ← .lift <| .ofMisuse tolerance.operand
      .lift <| .require (¬limit ≤ 0) (.simulation (.toleranceNotPositive tolerance))
      .lift <| .require (¬maxSamples < 2) (.simulation (.maxSamplesBelowTwo maxSamples))
      topUp (min leastRound maxSamples)
      finish limit maxSamples) := by
  unfold value topUp
  simp only [bind_assoc]
  refine bind_congr fun limit => bind_congr fun _ => bind_congr fun _ => bind_congr fun m => ?_
  split
  · rfl
  · rfl

theorem run_topUp_of_lt {m : SamplingModel α} {n : ℤ} (h : m.statistics.count < n) :
    (topUp n).run m = (addSamples (n - m.statistics.count)).run m := by
  rw [topUp, run_get_bind, if_pos h]

theorem run_topUp_of_le {m : SamplingModel α} {n : ℤ} (h : n ≤ m.statistics.count) :
    (topUp n).run m = (pure (), m) := by
  rw [topUp, run_get_bind, if_neg (not_lt.mpr h)]
  rfl

section Calls

open Session

variable (m₀ : SamplingModel α)

theorem preserves_addSamples (n : ℤ) : Preserves (Grows m₀) (addSamples n) :=
  fun m h => h.trans (grows_addSamples m n)

theorem preserves_mean : Preserves (Grows m₀) mean := fun _ h => h

theorem preserves_errorEstimate : Preserves (Grows m₀) errorEstimate := fun _ h => h

theorem preserves_get : Preserves (Grows m₀) (.get : Session _ α _) := fun _ h => h

theorem preserves_topUp (n : ℤ) : Preserves (Grows m₀) (topUp n) := by
  refine (preserves_get m₀).bind fun m => ?_
  split
  · exact preserves_addSamples m₀ _
  · exact Preserves.pure _

theorem preserves_valueWithSamples (n : ℤ) : Preserves (Grows m₀) (valueWithSamples n) := by
  rw [valueWithSamples_eq]
  exact (preserves_get m₀).bind fun _ => (Preserves.lift _).bind fun _ =>
    (preserves_topUp m₀ n).bind fun _ => preserves_mean m₀

theorem preserves_refine (maxSamples : ℤ) (tolerance : α) (fuel : ℕ) :
    Preserves (Grows m₀) (refine maxSamples tolerance fuel) := by
  induction fuel with
  | zero => exact (preserves_errorEstimate m₀).bind fun _ => Preserves.fail _
  | succ fuel ih =>
    refine (preserves_errorEstimate m₀).bind fun error => ?_
    split
    · exact (preserves_get m₀).bind fun _ => (Preserves.lift _).bind fun _ =>
        (preserves_addSamples m₀ _).bind fun _ => ih
    · exact Preserves.pure _

theorem preserves_value (tolerance : Value α) (maxSamples : ℤ) :
    Preserves (Grows m₀) (value tolerance maxSamples) := by
  rw [value_eq]
  exact (Preserves.lift _).bind fun limit => (Preserves.lift _).bind fun _ =>
    (Preserves.lift _).bind fun _ => (preserves_topUp m₀ _).bind fun _ =>
    (preserves_get m₀).bind fun _ => (preserves_refine m₀ _ _ _).bind fun _ => preserves_mean m₀

theorem preserves_convergenceRows (counts : List ℤ) :
    Preserves (Grows m₀) (convergenceRows counts) := by
  induction counts with
  | nil => exact Preserves.pure _
  | cons n counts ih =>
    exact (preserves_valueWithSamples m₀ n).bind fun _ => (preserves_errorEstimate m₀).bind fun _ =>
      ih.bind fun _ => Preserves.pure _

end Calls

/-- A call draws up to a number of samples, unless it stumbles. -/
theorem topUp_ends (m : SamplingModel α) (n : ℤ) :
    (((topUp n).run m).1.result = .ok () ∧
        (((topUp n).run m).2.statistics.count : ℤ) = max (m.statistics.count : ℤ) n) ∨
      m.Stumbles ((topUp n).run m).1.result := by
  by_cases h : (m.statistics.count : ℤ) < n
  · have hone : 1 ≤ n - m.statistics.count := by omega
    rw [run_topUp_of_lt h]
    refine (addSamples_ends m hone).imp_left fun ⟨hresult, hcount⟩ => ⟨hresult, ?_⟩
    rw [hcount]
    omega
  · rw [run_topUp_of_le (not_lt.mp h)]
    refine .inl ⟨rfl, ?_⟩
    rw [max_eq_left (not_lt.mp h)]

theorem count_of_topUp {m : SamplingModel α} {n : ℤ} {u : Unit}
    (h : ((topUp n).run m).1.result = .ok u) :
    (((topUp n).run m).2.statistics.count : ℤ) = max (m.statistics.count : ℤ) n := by
  obtain ⟨-, hcount⟩ | ⟨hfails, -⟩ := topUp_ends m n
  · exact hcount
  · cases h.symm.trans hfails

/-! ## Histories -/

/-- What a client may ask of a pricer. -/
inductive Call (α : Type)
  | samples (n : ℤ)
  | tolerance (tolerance : Value α) (maxSamples : ℤ)
  | table (counts : List ℤ)

/-- The model that a call leaves behind, however it ends. -/
def Call.leave (m : SamplingModel α) : Call α → SamplingModel α
  | samples n => ((valueWithSamples n).run m).2
  | tolerance x maxSamples => ((value x maxSamples).run m).2
  | table counts => ((convergenceTable counts).run m).2

/-- A model after a history of calls, some of which may have failed. -/
def afterCalls (m : SamplingModel α) (history : List (Call α)) : SamplingModel α :=
  history.foldl Call.leave m

theorem Call.grows_leave (m : SamplingModel α) (call : Call α) : Grows m (call.leave m) := by
  cases call with
  | samples n => exact preserves_valueWithSamples m n m (.refl m)
  | tolerance x maxSamples => exact preserves_value m x maxSamples m (.refl m)
  | table counts => exact preserves_convergenceRows m _ m (.refl m)

theorem grows_afterCalls (m : SamplingModel α) (history : List (Call α)) :
    Grows m (m.afterCalls history) := by
  induction history generalizing m with
  | nil => exact .refl m
  | cons call history ih => exact (call.grows_leave m).trans (ih _)

/-! ## Real samples -/

variable [NormalSource Exact]

theorem exists_summary_merged {generator : PathGenerator Exact} {pricer : PathPricer Exact}
    {batches : List Batch} (hfinite : batches.all (Batch.isFinite generator pricer) = true)
    (drawn : Multiset ℝ) :
    ∃ samples, merged generator pricer (Samples.summary drawn) batches = Samples.summary samples := by
  induction batches generalizing drawn with
  | nil => exact ⟨drawn, rfl⟩
  | cons batch batches ih =>
    rw [List.all_cons, Bool.and_eq_true] at hfinite
    cases hsamples : Exact.reals? (batch.samples generator pricer) with
    | none =>
      rw [Exact.reals?_eq_none_iff] at hsamples
      exact absurd (hsamples.symm.trans hfinite.1) Bool.false_ne_true
    | some samples =>
      obtain ⟨rest, hrest⟩ := ih hfinite.2 (drawn + samples)
      refine ⟨rest, ?_⟩
      rw [merged, List.foldl_cons, Batch.statistics, Exact.eq_map_of_reals? hsamples,
        Samples.ofList_summary, Samples.merge_summary]
      exact hrest

/-- If the normals are real numbers, no batch of a European option makes a call stumble. -/
theorem isFinite_of_isReal (hnormals : NormalSource.IsReal) {p : RealProcess}
    {generator : PathGenerator Exact} (hprocess : generator.process = p.exact) (i : SimulationInputs)
    (kind : OptionType) (antithetic : Bool) (batch : Batch) :
    batch.isFinite generator (.european (i.pricer kind antithetic)) = true := by
  obtain ⟨_, -, hreturns⟩ := exists_returns_of_batches hnormals p generator hprocess [batch]
  have hall := (hreturns i kind antithetic).1
  rwa [List.all_cons, List.all_nil, Bool.and_true] at hall

/-- A model that has begun with real samples has drawn real samples. -/
theorem Grows.exists_summary {m m' : SamplingModel Exact} (h : Grows m m') {drawn : Multiset ℝ}
    (hdrawn : m.statistics = Samples.summary drawn) :
    ∃ samples, m'.statistics = Samples.summary samples := by
  obtain ⟨batches, hfinite, hstatistics⟩ := h.exists_batches
  rw [hstatistics, hdrawn]
  exact exists_summary_merged hfinite drawn

end SamplingModel

end OptionDesk
