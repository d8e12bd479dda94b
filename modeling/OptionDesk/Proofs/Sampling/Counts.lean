import OptionDesk.Proofs.Engine.Calculation
import OptionDesk.Proofs.Engine.Errors
import OptionDesk.Proofs.Sampling.Splitting
import OptionDesk.Proofs.Sampling.Tolerance

/-!
# Numbers of samples

Every way to call a pricer starts from the samples that it has drawn. An estimate is asked for at a
total number of samples, and so is each row of a table; what is missing is drawn. A mean needs one sample
and an error two, and the checks of the settings see to it that an engine does not ask for them earlier.
-/
namespace OptionDesk

namespace SamplingModel

variable {α : Type} [Scalar α] [NormalSource α] {m : SamplingModel α} {n : ℤ}

/-! ## Estimates -/

/-- What a call for the estimate from `n` samples does to a model. -/
structure Estimates (m : SamplingModel α) (n : ℤ) : Prop where
  /-- It is refused with nothing drawn. -/
  refused : ((∃ e, m.estimate n = .error e) ∧ m.driven [n] = m) ↔
    n < m.statistics.count ∨ n = 0 ∧ m.statistics.count = 0
  accepted : ¬(n < m.statistics.count ∨ n = 0 ∧ m.statistics.count = 0) →
    m.Stumbles (m.estimate n) ∨
      ((m.driven [n]).statistics.count : ℤ) = n ∧ m.estimate n = .ok (m.driven [n]).statistics.mean
  unchanged : n = m.statistics.count → m.driven [n] = m

theorem run_valueWithSamples_of_le (h : m.statistics.count ≤ n) : (valueWithSamples n).run m =
    (topUp n >>= fun _ => mean : Session (SamplingModel α) α α).run m := by
  rw [valueWithSamples_eq, run_get_bind, Outcome.require_of (not_lt.mpr h)]
  rfl

theorem driven_of_le (h : m.statistics.count ≤ n) : m.driven [n] = ((topUp n).run m).2 := by
  change ((valueWithSamples n).run m).2 = _
  rw [run_valueWithSamples_of_le h]
  cases hdraws : ((topUp n).run m).1.result with
  | error e => exact Session.snd_run_bind_error hdraws
  | ok u => exact Session.snd_run_bind_ok hdraws

/-- A call that is not refused ends with as many samples as it says, unless it stumbles. -/
theorem estimate_ends (h : m.statistics.count ≤ n) (hone : 1 ≤ n) :
    m.Stumbles (m.estimate n) ∨
      ((m.driven [n]).statistics.count : ℤ) = n ∧ m.estimate n = .ok (m.driven [n]).statistics.mean := by
  have hestimate : m.estimate n = ((topUp n >>= fun _ => mean :
      Session (SamplingModel α) α α).run m).1.result := by
    rw [estimate, run_valueWithSamples_of_le h]
  rw [hestimate, driven_of_le h]
  obtain ⟨hdraws, hcount⟩ | hstumbles := topUp_ends m n
  · rw [max_eq_right h] at hcount
    refine .inr ⟨hcount, ?_⟩
    rw [Session.result_run_bind_ok hdraws, mean_of_pos (by omega)]
  · exact .inl ⟨Session.result_run_bind_error hstumbles.1, hstumbles.2⟩

/-- A request for at least one sample uses up numbers of batches, however it ends. -/
theorem left_of_addSamples_ne (m : SamplingModel α) (hn : 1 ≤ n) : ((addSamples n).run m).2 ≠ m := by
  intro hleft
  have hnumbers := congrArg batchesDrawn hleft
  rw [(run_addSamples m n).2] at hnumbers
  have hnone : batchSizes m.batchSize n.toNat = [] :=
    List.length_eq_zero_iff.mp (by simpa using hnumbers)
  have hsum := sum_batchSizes m.batchSize n.toNat
  rw [hnone, List.sum_nil] at hsum
  omega

theorem estimates (m : SamplingModel α) (n : ℤ) : Estimates m n := by
  obtain hless | hequal | hmore := lt_trichotomy n m.statistics.count
  · have hrun := run_valueWithSamples_of_lt hless
    have hrefused : (∃ e, m.estimate n = .error e) ∧ m.driven [n] = m :=
      ⟨⟨_, congrArg (fun run => run.1.result) hrun⟩, congrArg Prod.snd hrun⟩
    exact ⟨iff_of_true hrefused (.inl hless), fun h => absurd (.inl hless) h, fun h => by omega⟩
  · obtain ⟨hestimate, hleft⟩ := run_valueWithSamples_of_eq hequal
    by_cases hnone : m.statistics.count = 0
    · have hempty : n = 0 ∧ m.statistics.count = 0 := by omega
      rw [Accumulator.mean?, if_pos hnone] at hestimate
      exact ⟨iff_of_true ⟨⟨_, hestimate⟩, hleft⟩ (.inr hempty), fun h => absurd (.inr hempty) h,
        fun _ => hleft⟩
    · rw [Accumulator.mean?, if_neg hnone] at hestimate
      refine ⟨iff_of_false ?_ (by omega), fun _ => estimate_ends hequal.ge (by omega), fun _ => hleft⟩
      rintro ⟨⟨e, he⟩, -⟩
      cases hestimate.symm.trans he
  · refine ⟨iff_of_false ?_ (by omega), fun _ => estimate_ends hmore.le (by omega), fun h => by omega⟩
    -- A failed call also uses up numbers of batches, so the model is not what it was.
    rintro ⟨-, hleft⟩
    rw [driven_of_le hmore.le, run_topUp_of_lt hmore] at hleft
    exact left_of_addSamples_ne m (by omega) hleft

/-! ## Tables -/

/-- What a model holds when a row of a table is written down. -/
structure Holds (m : SamplingModel α) (row : ConvergenceRow α) : Prop where
  samples : (m.statistics.count : ℤ) = row.samples
  value : m.statistics.mean? = .ok row.value
  error : m.statistics.errorEstimate? = .ok row.error

/-- A row for a number of samples that is not below those drawn, nor below two. -/
theorem row_ends (h : m.statistics.count ≤ n) (htwo : 2 ≤ n) :
    m.Stumbles ((row n).run m).1.result ∨ ∃ r, ((row n).run m).1.result = .ok r ∧
      ((row n).run m).2 = m.driven [n] ∧ r.samples = n ∧ (m.driven [n]).Holds r := by
  obtain hstumbles | ⟨hcount, hestimate⟩ := estimate_ends h (by omega)
  · exact .inl ⟨Session.result_run_bind_error hstumbles.1, hstumbles.2⟩
  · obtain ⟨error, herror⟩ : ∃ error, (m.driven [n]).statistics.errorEstimate? = .ok error :=
      errorEstimate_of_two_le (by omega)
    have hasked : (errorEstimate.run (m.driven [n])).1.result = .ok error := by
      rw [run_errorEstimate herror]
    have hmean : (m.driven [n]).statistics.mean? = .ok (m.driven [n]).statistics.mean :=
      if_neg (by omega)
    refine .inr ⟨⟨n, (m.driven [n]).statistics.mean, error⟩, ?_, ?_, rfl, hcount, hmean, herror⟩
    · rw [row, Session.result_run_bind_ok hestimate]
      exact Session.result_run_bind_ok hasked
    · rw [row, Session.snd_run_bind_ok hestimate]
      exact Session.snd_run_bind_ok hasked

/-- Row after row, each one is taken from the model as the calls for the counts up to it have left it. -/
theorem convergenceRows_ends {counts : List ℤ} (hsorted : counts.Pairwise (· < ·))
    (h : ∀ n ∈ counts, max 2 (m.statistics.count : ℤ) ≤ n) :
    m.Stumbles ((convergenceRows counts).run m).1.result ∨
      ((convergenceRows counts).run m).2 = m.driven counts ∧
        ∃ rows, ((convergenceRows counts).run m).1.result = .ok rows ∧
          rows.map ConvergenceRow.samples = counts ∧ ∀ i (hi : i < rows.length),
            (m.driven (counts.take (i + 1))).Holds rows[i] := by
  induction counts generalizing m with
  | nil => exact .inr ⟨rfl, [], rfl, rfl, fun i hi => absurd hi (Nat.not_lt_zero i)⟩
  | cons n counts ih =>
    have hn := h n List.mem_cons_self
    rw [convergenceRows_cons]
    obtain hstumbles | ⟨r, hrow, hleft, hsamples, hholds⟩ := row_ends (m := m) (n := n)
      (le_of_max_le_right hn) (le_of_max_le_left hn)
    · exact .inl ⟨Session.result_run_bind_error hstumbles.1, hstumbles.2⟩
    have hgrows : Grows m (m.driven [n]) := preserves_valueWithSamples m n m (.refl m)
    have hcount := hholds.samples
    rw [Session.result_run_bind_ok hrow, Session.snd_run_bind_ok hrow, hleft]
    obtain hstumbles | ⟨hdriven, rows, hrows, hmap, hrest⟩ := ih (m := m.driven [n]) hsorted.of_cons
      fun k hk => by
        have hlt := List.rel_of_pairwise_cons hsorted hk
        omega
    · exact .inl (hgrows.stumbles ⟨Session.result_run_bind_error hstumbles.1, hstumbles.2⟩)
    · refine .inr ⟨?_, r :: rows, ?_, by rw [List.map_cons, hsamples, hmap], fun i hi => ?_⟩
      · rw [Session.snd_run_bind_ok hrows]
        exact hdriven
      · rw [Session.result_run_bind_ok hrows]
        rfl
      · cases i with
        | zero => exact hholds
        | succ i => exact hrest i (Nat.lt_of_succ_lt_succ hi)

/-- What a table comes to on a model. -/
def Tabulates (m : SamplingModel α) (counts : List ℤ) : Prop :=
  m.Stumbles ((convergenceTable counts).run m).1.result ∨
    ∃ rows, ((convergenceTable counts).run m).1.result = .ok rows ∧
      ((convergenceTable counts).run m).2 = m.driven (rows.map ConvergenceRow.samples) ∧
      (rows.map ConvergenceRow.samples).Pairwise (· < ·) ∧
      (∀ n, n ∈ rows.map ConvergenceRow.samples ↔ n ∈ counts) ∧ ∀ i (hi : i < rows.length),
        (m.driven ((rows.map ConvergenceRow.samples).take (i + 1))).Holds rows[i]

theorem mem_sorted_counts (counts : List ℤ) (n : ℤ) :
    n ∈ counts.eraseDups.mergeSort (· ≤ ·) ↔ n ∈ counts := by
  rw [List.mem_mergeSort, List.mem_eraseDups]

theorem tabulates {counts : List ℤ} (h : ∀ n ∈ counts, max 2 (m.statistics.count : ℤ) ≤ n) :
    m.Tabulates counts := by
  have hsorted := pairwise_lt_counts counts
  obtain hstumbles | ⟨hdriven, rows, hrows, hmap, hholds⟩ := convergenceRows_ends hsorted
    fun n hn => h n ((mem_sorted_counts counts n).mp hn)
  · exact .inl hstumbles
  · rw [← hmap] at hsorted hholds hdriven
    refine .inr ⟨rows, hrows, ?_, hsorted, fun n => by rw [hmap, mem_sorted_counts], hholds⟩
    rw [← hdriven, hmap]
    rfl

/-- Neither the order of the counts nor their repetitions matter. -/
theorem convergenceTable_congr {counts counts' : List ℤ} (h : ∀ n, n ∈ counts' ↔ n ∈ counts) :
    (convergenceTable counts' : Session (SamplingModel α) α _) = convergenceTable counts := by
  have hsorted : counts'.eraseDups.mergeSort (· ≤ ·) = counts.eraseDups.mergeSort (· ≤ ·) := by
    refine (pairwise_lt_counts counts').eq_of_mem_iff (pairwise_lt_counts counts) fun n => ?_
    rw [mem_sorted_counts, mem_sorted_counts, h]
  rw [convergenceTable, hsorted, convergenceTable]

/-! ## Figures that are asked for too early -/

section Statistics

variable {e : StatisticsError α}

omit [Scalar α] in
/-- What follows a mean finds the samples that the mean has found. -/
theorem spares_mean_bind {β : Type} {f : α → Session (SamplingModel α) α β}
    (hf : ∀ v m', 2 ≤ m'.statistics.count → ((f v).run m').1.Spares (.statistics e))
    (htwo : 2 ≤ m.statistics.count) : ((mean >>= f).run m).1.Spares (.statistics e) := by
  exact Session.spares_bind (Outcome.spares_of_ok (mean_of_pos (by omega)) _) fun v _ => hf v m htwo

variable (he : e ≠ .nonFiniteBatch)

include he

theorem Stumbles.spares {β : Type} {x : Outcome α β} (h : m.Stumbles x.result) :
    x.Spares (.statistics e) := by
  rw [Outcome.Spares, h.1]
  simpa using he.symm

theorem spares_addSamples (hn : 1 ≤ n) : ((addSamples n).run m).1.Spares (.statistics e) := by
  obtain ⟨hok, -⟩ | hstumbles := addSamples_ends m hn
  · exact Outcome.spares_of_ok hok _
  · exact hstumbles.spares he

theorem spares_topUp : ((topUp n).run m).1.Spares (.statistics e) := by
  obtain ⟨hok, -⟩ | hstumbles := topUp_ends m n
  · exact Outcome.spares_of_ok hok _
  · exact hstumbles.spares he

/-- What follows an estimate from two samples at least finds so many. -/
theorem spares_valueWithSamples_bind {β : Type} (htwo : 2 ≤ n) {f : α → Session (SamplingModel α) α β}
    (hf : ∀ v m', 2 ≤ m'.statistics.count → ((f v).run m').1.Spares (.statistics e)) :
    ((valueWithSamples n >>= f).run m).1.Spares (.statistics e) := by
  by_cases h : n < m.statistics.count
  · rw [Session.run_bind_of_error f (run_valueWithSamples_of_lt h)]
    exact Outcome.spares_fail (by simp)
  · rw [Session.run_bind_congr (run_valueWithSamples_of_le (not_lt.mp h)) fun _ => rfl, bind_assoc]
    refine Session.spares_bind (spares_topUp he) fun _ hdraws => spares_mean_bind hf ?_
    have hcount := count_of_topUp hdraws
    omega

theorem spares_refine (maxSamples : ℤ) (tolerance : α) (fuel : ℕ) (htwo : 2 ≤ m.statistics.count) :
    ((refine maxSamples tolerance fuel).run m).1.Spares (.statistics e) := by
  obtain ⟨error, herror⟩ := errorEstimate_of_two_le htwo
  induction fuel generalizing m error with
  | zero =>
    rw [refine, Session.run_bind_of_ok _ (run_errorEstimate herror)]
    exact Outcome.spares_fail (by simp)
  | succ fuel ih =>
    rw [run_refine_succ fuel herror]
    split
    · have hround : (nextRound maxSamples tolerance error m.statistics.count).Spares (.statistics e) :=
        (Outcome.spares_require (.inr (by simp))).bind fun _ _ =>
          (Outcome.spares_require (.inr (by simp))).bind fun _ _ => Outcome.spares_pure _ _
      refine Session.spares_lift_bind hround fun n hn => ?_
      refine Session.spares_bind (spares_addSamples he (bounds_of_nextRound hn).1) fun _ _ => ?_
      have hcount := htwo.trans (grows_addSamples m n).count_le
      obtain ⟨error', herror'⟩ := errorEstimate_of_two_le hcount
      exact ih hcount error' herror'
    · exact Outcome.spares_pure () _

/-- What follows an estimate within a tolerance finds two samples at least. -/
theorem spares_value_bind {β : Type} (tolerance : Value α) {maxSamples : ℤ} (htwo : 2 ≤ maxSamples)
    {f : α → Session (SamplingModel α) α β}
    (hf : ∀ v m', 2 ≤ m'.statistics.count → ((f v).run m').1.Spares (.statistics e)) :
    ((value tolerance maxSamples >>= f).run m).1.Spares (.statistics e) := by
  have hleast : 2 ≤ min leastRound maxSamples := le_min (by decide) htwo
  rw [value_eq]
  simp only [bind_assoc]
  refine Session.spares_lift_bind (Outcome.spares_ofMisuse (by simp) _) fun limit _ => ?_
  refine Session.spares_lift_bind (Outcome.spares_require (.inr (by simp))) fun _ _ => ?_
  refine Session.spares_lift_bind (Outcome.spares_require (.inr (by simp))) fun _ _ => ?_
  refine Session.spares_bind (spares_topUp he) fun _ hdraws => ?_
  have hcount : 2 ≤ ((topUp (min leastRound maxSamples)).run m).2.statistics.count := by
    have hcount := count_of_topUp hdraws
    omega
  rw [finish, bind_assoc, run_get_bind, bind_assoc]
  exact Session.spares_bind (spares_refine he _ _ _ hcount) fun _ _ =>
    spares_mean_bind hf (hcount.trans (preserves_refine _ maxSamples limit _ _ (.refl _)).count_le)

end Statistics

end SamplingModel

namespace Settings

open SamplingModel

variable {α : Type} [Scalar α] {s : Settings α}

/-- What the checks say of the stopping rule. -/
theorem range_of_check (h : s.check.result = .ok ()) : (∀ n, s.samples = some n → 2 ≤ n) ∧
    (s.samples = none → ∃ x, s.tolerance = some x) ∧ 2 ≤ s.maxSamples := by
  simp only [check, Outcome.result_bind_eq_ok, Outcome.result_require_eq_ok] at h
  obtain ⟨_, hrule, h⟩ := h
  cases hsamples : s.samples with
  | none =>
    cases htolerance : s.tolerance with
    | none => simp [hsamples, htolerance] at hrule
    | some x =>
      simp only [hsamples, htolerance, Outcome.result_bind_eq_ok, Outcome.result_require_eq_ok] at h
      obtain ⟨_, -, _, hmax, -⟩ := h
      exact ⟨by simp, fun _ => ⟨x, rfl⟩, not_lt.mp hmax⟩
  | some n =>
    cases htolerance : s.tolerance with
    | none =>
      simp only [hsamples, htolerance, Outcome.result_bind_eq_ok, Outcome.result_require_eq_ok] at h
      obtain ⟨_, hn, _, hmax, -⟩ := h
      have htwo : 2 ≤ n := not_lt.mp hn
      exact ⟨by simpa using htwo, by simp, not_lt.mp hmax⟩
    | some x => simp [hsamples, htolerance] at hrule

omit [Scalar α] in
/-- The notice at the end of a session does not change how it goes on. -/
theorem result_closing_bind {σ β γ : Type} (notice : Notice α) (x : Session σ α β)
    (f : β → Session σ α γ) (m : σ) :
    ((closing notice x >>= f).run m).1.result = ((x >>= f).run m).1.result := by
  change (Session.bind (closing notice x) f m).1.result = (Session.bind x f m).1.result
  unfold Session.bind closing
  rcases x m with ⟨⟨_ | v, notices⟩, m'⟩ <;> rfl

variable [NormalSource α] {m : SamplingModel α} {e : StatisticsError α} (he : e ≠ .nonFiniteBatch)

include he

/-- What follows a run under checked settings finds two samples at least. -/
theorem spares_run_bind {β : Type} (h : s.check.result = .ok ()) {f : α → Session (SamplingModel α) α β}
    (hf : ∀ v m', 2 ≤ m'.statistics.count → ((f v).run m').1.Spares (.statistics e)) :
    ((s.run >>= f).run m).1.Spares (.statistics e) := by
  obtain ⟨hsamples, htolerance, hmost⟩ := range_of_check h
  cases hstop : s.samples with
  | some n =>
    rw [run, hstop]
    exact spares_valueWithSamples_bind he (hsamples n hstop) hf
  | none =>
    obtain ⟨x, hx⟩ := htolerance hstop
    rw [run, hstop, hx]
    exact spares_value_bind he (.number x) hmost hf

theorem spares_sample (h : s.check.result = .ok ()) : (s.sample.run m).1.Spares (.statistics e) := by
  have hreport (v : α) (m' : SamplingModel α) (htwo : 2 ≤ m'.statistics.count) :
      ((errorEstimate >>= fun error => .get >>= fun m =>
        .lift (s.reportError v error m.statistics.count) >>= fun _ => pure (v, error) :
        Session (SamplingModel α) α (α × α)).run m').1.Spares (.statistics e) := by
    obtain ⟨error, herror⟩ := errorEstimate_of_two_le htwo
    rw [Session.run_bind_of_ok _ (run_errorEstimate herror), run_get_bind]
    exact Session.spares_lift_bind (Outcome.spares_of_ok (s.result_reportError _ _ _) _) fun _ _ =>
      Outcome.spares_pure _ _
  have hrun := spares_run_bind he h hreport (m := m)
  rw [sample]
  cases s.logTimings with
  | false => exact hrun
  | true =>
    rw [Outcome.Spares, if_pos rfl, result_closing_bind]
    exact hrun

end Settings

/-- The checks of a simulation and its draws cannot fail for want of samples. -/
theorem Terms.spares_priceBySimulation {α : Type} [Scalar α] [NormalSource α] {s : Settings α}
    (hs : s.check.result = .ok ()) {e : StatisticsError α} (he : e ≠ .nonFiniteBatch) (t : Terms α) :
    (t.priceBySimulation s).Spares (.statistics e) :=
  (spares_validate (distant_statistics e).toRemote (.inr (by simp))).bind fun _ _ =>
    (spares_exercise (distant_statistics e).toRemote).bind fun _ _ =>
    (Outcome.spares_require (.inr (by simp))).bind fun _ _ =>
    (t.spares_simulation s).bind fun terms _ => terms.spares_model.bind fun _ _ => (Settings.spares_sample he hs).bind fun _ _ =>
    Outcome.spares_pure _ _

namespace SamplingModel

variable {α : Type} [Scalar α] [NormalSource α]

/-- The numbers of samples that a pricer and its engine keep to. After any history of calls on a pricer,
some of which may have failed, no further call takes samples away; an estimate from `n` samples is
refused with nothing drawn exactly if more than `n` have been drawn, or if none have and none are asked
for, and else ends with `n` samples and their mean, unless it stumbles; a table, unless it stumbles, has
one row for each count, in increasing order, with the mean and the error at the moment when so many
samples had been drawn. And under settings that pass their checks, the statistics of an engine fail for
no other reason than a batch that is not finite. -/
theorem counts_are_kept (m₀ : SamplingModel α) (history : List (Call α)) :
    let m := m₀.afterCalls history
    (∀ call : Call α, m.statistics.count ≤ (call.leave m).statistics.count) ∧
    (∀ n, m.Estimates n) ∧
    (∀ counts, (∀ n ∈ counts, max 2 (m.statistics.count : ℤ) ≤ n) → m.Tabulates counts) ∧
    (∀ counts counts' : List ℤ, (∀ n, n ∈ counts' ↔ n ∈ counts) →
      (convergenceTable counts').run m = (convergenceTable counts).run m) ∧
    ∀ (place : ℕ) (s : Settings α), s.check.result = .ok () → ∀ (d : Desk α) (e : StatisticsError α),
      ((Engine.monteCarlo place s).calculate.run d).1.result = .error (.statistics e) →
        e = .nonFiniteBatch := by
  intro m
  refine ⟨fun call => (call.grows_leave m).count_le, m.estimates, fun counts h => tabulates h,
    fun counts counts' h => by rw [convergenceTable_congr h], fun place s hs d e h => ?_⟩
  by_contra he
  have hspares := (d.get place).terms.spares_priceBySimulation hs he
  rw [(Engine.publishes_monteCarlo place s d).ends, Outcome.result_map, Engine.quotation] at h
  cases hprice : ((d.get place).terms.priceBySimulation s).result with
  | error e' =>
    rw [hprice] at h
    cases h
    exact hspares hprice
  | ok r =>
    rw [hprice] at h
    cases h

/-- A put of which three samples have been drawn, a table in which one count comes twice, and an engine
with the standard settings. -/
theorem counts_are_kept_from_three_samples :
    let _ : NormalSource Exact := ⟨Bool, fun _ => true, fun b => (.real (if b then 1 else -1), !b)⟩
    let i : SimulationInputs := ⟨100, 90, 0.02, 0.05, 1, 0.2, by norm_num, by norm_num, one_pos⟩
    let m₀ : SamplingModel Exact :=
      ⟨.ofSeed (i.process 3).exact (.root 42), .european (i.pricer .put false), .empty, 2, 0⟩
    let m := m₀.afterCalls [.samples 3]
    (m.statistics.count : ℤ) = 3 ∧ m.Estimates 5 ∧ m.Tabulates [6, 4, 6] ∧
      (convergenceTable [6, 4, 6]).run m = (convergenceTable [4, 6]).run m ∧
      (Settings.standard : Settings Exact).check.result = .ok () ∧
      ∀ (d : Desk Exact) (e : StatisticsError Exact),
        ((Engine.monteCarlo 0 Settings.standard).calculate.run d).1.result = .error (.statistics e) →
          e = .nonFiniteBatch := by
  intro _ i m₀ m
  have hnormals : NormalSource.IsReal := fun b => ⟨if b then 1 else -1, rfl⟩
  have hnone : m₀.statistics.count = 0 := rfl
  have hcount : (m.statistics.count : ℤ) = 3 :=
    (((estimates m₀ 3).accepted (by omega)).resolve_left
      (not_stumbles (fun batch _ => isFinite_of_isReal hnormals rfl i .put false batch) _)).1
  have hratio : (0 : ℝ) < 0.05 := by norm_num
  have hcheck : (Settings.standard : Settings Exact).check.result = .ok () := by
    simp [Settings.check, Settings.standard, Outcome.require_of, hratio]
  have hleast : ∀ n ∈ ([6, 4, 6] : List ℤ), max 2 (m.statistics.count : ℤ) ≤ n := by
    rw [hcount]
    decide
  have hsame (n : ℤ) : n ∈ ([6, 4, 6] : List ℤ) ↔ n ∈ ([4, 6] : List ℤ) := by
    simp only [List.mem_cons, List.not_mem_nil, or_false]
    omega
  obtain ⟨-, hestimates, htables, hcounts, hengine⟩ := counts_are_kept m₀ [.samples 3]
  exact ⟨hcount, hestimates 5, htables [6, 4, 6] hleast, hcounts [4, 6] [6, 4, 6] hsame, hcheck,
    hengine 0 _ hcheck⟩

end SamplingModel

end OptionDesk
