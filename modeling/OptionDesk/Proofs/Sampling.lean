import OptionDesk.MonteCarlo.Model
import Mathlib.Algebra.Order.Floor.Div
import Mathlib.Algebra.BigOperators.Group.List.Basic
import Mathlib.GroupTheory.GroupAction.Ring
import Mathlib.Data.Nat.Basic
import Mathlib.Tactic.Ring

/-!
# The batches of a sampling model

Requests cut their samples into batches and take numbers for them, one after the other, over the whole
lifetime of a model. The numbers are taken before anything is sampled and the statistics are merged
after everything is, so a request that fails in the middle uses up its numbers and adds nothing. No
law of arithmetic is used: what is said here holds of every scalar type and every source of normals.
-/
namespace OptionDesk

namespace SamplingModel

/-- A batch by its number and its size. -/
structure Batch where
  index : ℕ
  size : ℕ

/-- Batches of the given sizes, numbered from `first` on. -/
def numbered : ℕ → List ℕ → List Batch
  | _, [] => []
  | first, size :: sizes => ⟨first, size⟩ :: numbered (first + 1) sizes

/-- A request with the batches that it takes. -/
structure Request where
  samples : ℤ
  batches : List Batch

/-- The request for `n` samples on a model whose next batch is number `first`. -/
def request (batchSize first : ℕ) (n : ℤ) : Request :=
  ⟨n, numbered first (batchSizes batchSize n.toNat)⟩

/-- The requests of a history, the first of which finds number `first` free. -/
def requests (batchSize : ℕ) : ℕ → List ℤ → List Request
  | _, [] => []
  | first, n :: history =>
    request batchSize first n :: requests batchSize (first + n.toNat ⌈/⌉ batchSize) history

/-- The batches of a request hold its samples: as many as needed, all of them full but the last. -/
structure Request.Divided (b : ℕ) (r : Request) : Prop where
  length_batches : r.batches.length = r.samples.toNat ⌈/⌉ b
  sum_sizes : (r.batches.map Batch.size).sum = r.samples.toNat
  full : ∀ batch ∈ r.batches.dropLast, batch.size = b
  bounded : ∀ batch ∈ r.batches, 1 ≤ batch.size ∧ batch.size ≤ b

/-! ## Sizes and numbers -/

@[simp] theorem sum_batchSizes (b n : ℕ) : (batchSizes b n).sum = n := by
  have hdiv := Nat.div_add_mod n b
  unfold batchSizes
  by_cases h : n % b = 0
  · rw [if_pos h, List.append_nil, List.sum_replicate, smul_eq_mul, mul_comm]
    omega
  · rw [if_neg h, List.sum_append, List.sum_replicate, List.sum_singleton, smul_eq_mul, mul_comm]
    exact hdiv

theorem length_batchSizes {b : ℕ} (hb : 0 < b) (n : ℕ) :
    (batchSizes b n).length = n ⌈/⌉ b := by
  obtain ⟨q, r, hr, rfl⟩ : ∃ q r, r < b ∧ n = r + b * q :=
    ⟨n / b, n % b, Nat.mod_lt n hb, (Nat.mod_add_div n b).symm⟩
  have hquotient : (r + b * q) / b = q := by
    rw [Nat.add_mul_div_left _ _ hb, Nat.div_eq_of_lt hr, zero_add]
  have hremainder : (r + b * q) % b = r := by
    rw [Nat.add_mul_mod_self_left, Nat.mod_eq_of_lt hr]
  rw [Nat.ceilDiv_eq_add_pred_div]
  unfold batchSizes
  rw [hquotient, hremainder]
  by_cases h : r = 0
  · have hround : r + b * q + b - 1 = (b - 1) + b * q := by omega
    rw [if_pos h, List.append_nil, List.length_replicate, hround, Nat.add_mul_div_left _ _ hb,
      Nat.div_eq_of_lt (by omega), zero_add]
  · have hround : r + b * q + b - 1 = (r - 1) + b * (q + 1) := by
      rw [Nat.mul_add, Nat.mul_one]
      omega
    rw [if_neg h, List.length_append, List.length_replicate, List.length_singleton, hround,
      Nat.add_mul_div_left _ _ hb, Nat.div_eq_of_lt (by omega), zero_add]

/-- Every batch but the last of a request is full. -/
theorem eq_of_mem_dropLast_batchSizes {b n s : ℕ} (hs : s ∈ (batchSizes b n).dropLast) :
    s = b := by
  unfold batchSizes at hs
  by_cases h : n % b = 0
  · rw [if_pos h, List.append_nil] at hs
    exact List.eq_of_mem_replicate (List.mem_of_mem_dropLast hs)
  · rw [if_neg h, List.dropLast_concat] at hs
    exact List.eq_of_mem_replicate hs

theorem bounds_of_mem_batchSizes {b n s : ℕ} (hb : 0 < b) (hs : s ∈ batchSizes b n) :
    1 ≤ s ∧ s ≤ b := by
  have hlt := Nat.mod_lt n hb
  unfold batchSizes at hs
  rcases List.mem_append.mp hs with hs | hs
  · have := List.eq_of_mem_replicate hs
    omega
  · by_cases h : n % b = 0
    · simp [h] at hs
    · rw [if_neg h, List.mem_singleton] at hs
      omega

@[simp] theorem map_size_numbered (first : ℕ) (sizes : List ℕ) :
    (numbered first sizes).map Batch.size = sizes := by
  induction sizes generalizing first with
  | nil => rfl
  | cons size sizes ih => rw [numbered, List.map_cons, ih]

@[simp] theorem map_index_numbered (first : ℕ) (sizes : List ℕ) :
    (numbered first sizes).map Batch.index = List.range' first sizes.length := by
  induction sizes generalizing first with
  | nil => rfl
  | cons size sizes ih => rw [numbered, List.map_cons, ih, List.length_cons, List.range'_succ]

@[simp] theorem length_numbered (first : ℕ) (sizes : List ℕ) :
    (numbered first sizes).length = sizes.length := by
  rw [← List.length_map (f := Batch.size), map_size_numbered]

@[simp] theorem samples_request (b first : ℕ) (n : ℤ) : (request b first n).samples = n := rfl

theorem divided_request {b : ℕ} (hb : 0 < b) (first : ℕ) (n : ℤ) :
    (request b first n).Divided b := by
  have hsizes := map_size_numbered first (batchSizes b n.toNat)
  refine ⟨?_, ?_, ?_, ?_⟩
  · rw [request, length_numbered, length_batchSizes hb]
  · rw [request, hsizes, sum_batchSizes]
  · intro batch hbatch
    apply eq_of_mem_dropLast_batchSizes (n := n.toNat)
    rw [← hsizes, ← List.map_dropLast]
    exact List.mem_map_of_mem hbatch
  · intro batch hbatch
    apply bounds_of_mem_batchSizes hb (n := n.toNat)
    rw [← hsizes]
    exact List.mem_map_of_mem hbatch

theorem divided_of_mem_requests {b : ℕ} (hb : 0 < b) {first : ℕ} {history : List ℤ} {r : Request}
    (hr : r ∈ requests b first history) : r.Divided b := by
  induction history generalizing first with
  | nil => cases hr
  | cons n history ih =>
    rw [requests, List.mem_cons] at hr
    rcases hr with rfl | hr
    · exact divided_request hb first n
    · exact ih hr

theorem map_samples_requests (b first : ℕ) (history : List ℤ) :
    (requests b first history).map Request.samples = history := by
  induction history generalizing first with
  | nil => rfl
  | cons n history ih => rw [requests, List.map_cons, ih, request]

/-- The numbers of all batches of a history follow on one another without a gap. -/
theorem map_index_requests {b : ℕ} (hb : 0 < b) (first : ℕ) (history : List ℤ) :
    ((requests b first history).flatMap Request.batches).map Batch.index =
      List.range' first (history.map fun n => n.toNat ⌈/⌉ b).sum := by
  induction history generalizing first with
  | nil => rfl
  | cons n history ih =>
    rw [requests, List.flatMap_cons, List.map_append, request, map_index_numbered, ih,
      List.map_cons, List.sum_cons, length_batchSizes hb, List.range'_append_1]

/-! ## Requests on a model -/

variable {α : Type} [Scalar α] [NormalSource α]

/-- The payoffs of the first paths of the batch's own substream, as many as its size says. -/
def Batch.samples (generator : PathGenerator α) (pricer : PathPricer α) (batch : Batch) : List α :=
  pricer.priceBatch ((generator.child batch.index).take batch.size).1

def Batch.statistics (generator : PathGenerator α) (pricer : PathPricer α) (batch : Batch) :
    Accumulator α :=
  .ofList (batch.samples generator pricer)

def Batch.isFinite (generator : PathGenerator α) (pricer : PathPricer α) (batch : Batch) : Bool :=
  (batch.samples generator pricer).all Scalar.isFinite

/-- How a request ends. -/
def Request.verdict (generator : PathGenerator α) (pricer : PathPricer α) (r : Request) :
    Except (PricingError α) Unit :=
  if r.samples < 1 then .error (.simulation (.samplesBelowOne r.samples))
  else if r.batches.all (Batch.isFinite generator pricer) then .ok ()
  else .error (.statistics .nonFiniteBatch)

/-- The batches of a request that succeeds; none of one that fails. -/
def Request.granted (generator : PathGenerator α) (pricer : PathPricer α) (r : Request) :
    List Batch :=
  match r.verdict generator pricer with
  | .ok _ => r.batches
  | .error _ => []

/-- An accumulator merged with the statistics of batches, one batch after the other. -/
def merged (generator : PathGenerator α) (pricer : PathPricer α) (s : Accumulator α)
    (batches : List Batch) : Accumulator α :=
  batches.foldl (fun s batch => s.merge (batch.statistics generator pricer)) s

/-- A model after a history of requests. -/
def after (m : SamplingModel α) (history : List ℤ) : SamplingModel α :=
  history.foldl (fun m n => ((addSamples n).run m).2) m

theorem Request.one_le_of_verdict {generator : PathGenerator α} {pricer : PathPricer α} {r : Request}
    (h : r.verdict generator pricer = .ok ()) : 1 ≤ r.samples := by
  by_cases hn : r.samples < 1
  · rw [verdict, if_pos hn] at h
    cases h
  · omega

@[simp] theorem length_samples (generator : PathGenerator α) (pricer : PathPricer α)
    (batch : Batch) : (batch.samples generator pricer).length = batch.size := by
  simp [Batch.samples]

theorem sampleBatch_eq (m : SamplingModel α) (index size : ℕ) :
    m.sampleBatch index size =
      if Batch.isFinite m.generator m.pricer ⟨index, size⟩ then
        .ok (Batch.statistics m.generator m.pricer ⟨index, size⟩)
      else .error .nonFiniteBatch := by
  unfold sampleBatch Accumulator.addBatch
  rw [Accumulator.empty_merge_ofList]
  rfl

/-- Batches are sampled one by one, and all of them must be finite. -/
theorem sampleBatches_eq (m : SamplingModel α) (first : ℕ) (sizes : List ℕ) :
    m.sampleBatches first sizes =
      if (numbered first sizes).all (Batch.isFinite m.generator m.pricer) then
        .ok ((numbered first sizes).map (Batch.statistics m.generator m.pricer))
      else .error .nonFiniteBatch := by
  induction sizes generalizing first with
  | nil => rfl
  | cons size sizes ih =>
    rw [sampleBatches, sampleBatch_eq, ih, numbered, List.all_cons, List.map_cons]
    cases Batch.isFinite m.generator m.pricer ⟨first, size⟩
    · rfl
    · cases (numbered (first + 1) sizes).all (Batch.isFinite m.generator m.pricer) <;> rfl

@[simp] theorem batchSizes_zero (b : ℕ) : batchSizes b 0 = [] := by
  simp [batchSizes]

theorem merged_append (generator : PathGenerator α) (pricer : PathPricer α) (s : Accumulator α)
    (first second : List Batch) :
    merged generator pricer s (first ++ second) =
      merged generator pricer (merged generator pricer s first) second :=
  List.foldl_append

theorem count_merged (generator : PathGenerator α) (pricer : PathPricer α) (s : Accumulator α)
    (batches : List Batch) :
    (merged generator pricer s batches).count = s.count + (batches.map Batch.size).sum := by
  induction batches generalizing s with
  | nil => rfl
  | cons batch batches ih =>
    have hcount := ih (s.merge (batch.statistics generator pricer))
    rw [Accumulator.count_merge, Batch.statistics, Accumulator.count_ofList, length_samples]
      at hcount
    rw [List.map_cons, List.sum_cons, ← add_assoc]
    exact hcount

/-- A request for less than one sample is refused before anything else. -/
theorem run_addSamples_of_lt_one (m : SamplingModel α) {n : ℤ} (hn : n < 1) :
    (addSamples n).run m = (.fail (.simulation (.samplesBelowOne n)), m) := by
  unfold addSamples
  rw [Outcome.require_of_not (not_not_intro hn)]
  rfl

/-- Any other request takes its numbers, and then merges everything or nothing. -/
theorem run_addSamples_of_one_le (m : SamplingModel α) {n : ℤ} (hn : 1 ≤ n) :
    let sizes := batchSizes m.batchSize n.toNat
    (∀ e, m.sampleBatches m.batchesDrawn sizes = .error e →
      (addSamples n).run m = (.fail (.statistics e), m.advance sizes.length)) ∧
    ∀ partials, m.sampleBatches m.batchesDrawn sizes = .ok partials →
      ((addSamples n).run m).1.result = .ok () ∧
        ((addSamples n).run m).2 = (m.advance sizes.length).mergeAll partials := by
  intro sizes
  have hrequire : ¬n < 1 := by omega
  unfold addSamples
  rw [Outcome.require_of hrequire]
  dsimp only [Session.run, Session.lift, Session.get, Session.modify, Bind.bind, Session.bind]
  constructor
  · intro e hbatches
    simp only [Outcome.pure, hbatches, sizes]
    rfl
  · intro partials hbatches
    simp only [Outcome.pure, hbatches, sizes]
    exact ⟨rfl, rfl⟩

/-- The end of a request and the model that it leaves. Whatever the end, the numbers are used up. -/
theorem run_addSamples (m : SamplingModel α) (n : ℤ) :
    let r := request m.batchSize m.batchesDrawn n
    ((addSamples n).run m).1.result = r.verdict m.generator m.pricer ∧
      ((addSamples n).run m).2 = { m with
        batchesDrawn := m.batchesDrawn + (batchSizes m.batchSize n.toNat).length
        statistics := merged m.generator m.pricer m.statistics
          (r.granted m.generator m.pricer) } := by
  intro r
  by_cases hn : n < 1
  · have hverdict : r.verdict m.generator m.pricer =
        .error (.simulation (.samplesBelowOne n)) := if_pos hn
    have hsizes : batchSizes m.batchSize n.toNat = [] := by
      rw [Int.toNat_of_nonpos (by omega), batchSizes_zero]
    rw [run_addSamples_of_lt_one m hn, hsizes, Request.granted, hverdict]
    exact ⟨rfl, rfl⟩
  obtain ⟨hrefused, haccepted⟩ := run_addSamples_of_one_le m (show 1 ≤ n by omega)
  have hbatches := sampleBatches_eq m m.batchesDrawn (batchSizes m.batchSize n.toNat)
  by_cases hfinite : r.batches.all (Batch.isFinite m.generator m.pricer)
  · have hverdict : r.verdict m.generator m.pricer = .ok () :=
      (if_neg hn).trans (if_pos hfinite)
    obtain ⟨hresult, hleft⟩ := haccepted _ (hbatches.trans (if_pos hfinite))
    rw [hresult, hleft, Request.granted, hverdict, mergeAll, List.foldl_map]
    exact ⟨rfl, rfl⟩
  · have hverdict : r.verdict m.generator m.pricer = .error (.statistics .nonFiniteBatch) :=
      (if_neg hn).trans (if_neg hfinite)
    rw [hrefused _ (hbatches.trans (if_neg hfinite)), Request.granted, hverdict]
    exact ⟨rfl, rfl⟩

/-! ## Histories -/

/-- What a request for `n` samples does to a model. -/
structure Serves (m : SamplingModel α) (n : ℤ) (o : Outcome α Unit × SamplingModel α) : Prop where
  divided : (request m.batchSize m.batchesDrawn n).Divided m.batchSize
  indices : (request m.batchSize m.batchesDrawn n).batches.map Batch.index =
    List.range' m.batchesDrawn (n.toNat ⌈/⌉ m.batchSize)
  batchesDrawn : o.2.batchesDrawn = m.batchesDrawn + n.toNat ⌈/⌉ m.batchSize
  verdict : o.1.result = (request m.batchSize m.batchesDrawn n).verdict m.generator m.pricer
  refused : ∀ e, o.1.result = .error e → o.2.statistics = m.statistics
  accepted : o.1.result = .ok () → 1 ≤ n ∧
    o.2.statistics = merged m.generator m.pricer m.statistics
      (request m.batchSize m.batchesDrawn n).batches ∧
    (o.2.statistics.count : ℤ) = m.statistics.count + n

/-- What has become of a model after a history, if it was built with the given parts. -/
structure Lifetime (generator : PathGenerator α) (pricer : PathPricer α) (initial : Accumulator α)
    (b : ℕ) (history : List ℤ) (m : SamplingModel α) : Prop where
  generator_eq : m.generator = generator
  pricer_eq : m.pricer = pricer
  batchSize_eq : m.batchSize = b
  samples : (requests b 0 history).map Request.samples = history
  divided : ∀ r ∈ requests b 0 history, r.Divided b
  indices : ((requests b 0 history).flatMap Request.batches).map Batch.index =
    List.range m.batchesDrawn
  /-- No two batches read the same substream. -/
  seeds : (((requests b 0 history).flatMap Request.batches).map fun batch =>
    (generator.child batch.index).seed).Nodup
  statistics_eq : m.statistics = merged generator pricer initial
    ((requests b 0 history).flatMap (Request.granted generator pricer))

/-- How the requests of a history end, one after the other. -/
def ends (m : SamplingModel α) : List ℤ → List (Except (PricingError α) Unit)
  | [] => []
  | n :: history =>
    ((addSamples n).run m).1.result :: ends ((addSamples n).run m).2 history

theorem after_cons (m : SamplingModel α) (n : ℤ) (history : List ℤ) :
    after m (n :: history) = after ((addSamples n).run m).2 history := rfl

/-- A history leaves what its requests leave: all of them use up numbers, and statistics come from
those that succeed. -/
theorem after_eq {m : SamplingModel α} (hm : 0 < m.batchSize) (history : List ℤ) :
    after m history = { m with
      batchesDrawn := m.batchesDrawn + (history.map fun n => n.toNat ⌈/⌉ m.batchSize).sum
      statistics := merged m.generator m.pricer m.statistics
        ((requests m.batchSize m.batchesDrawn history).flatMap
          (Request.granted m.generator m.pricer)) } := by
  induction history generalizing m with
  | nil => rfl
  | cons n history ih =>
    have hstep := (run_addSamples m n).2
    have hrest := ih (m := ((addSamples n).run m).2) (by rw [hstep]; exact hm)
    rw [after_cons, hrest, hstep, length_batchSizes hm]
    simp only [requests, List.flatMap_cons, List.map_cons, List.sum_cons, merged_append,
      Nat.add_assoc]

theorem ends_eq {m : SamplingModel α} (hm : 0 < m.batchSize) (history : List ℤ) :
    ends m history = (requests m.batchSize m.batchesDrawn history).map
      (Request.verdict m.generator m.pricer) := by
  induction history generalizing m with
  | nil => rfl
  | cons n history ih =>
    obtain ⟨hresult, hstep⟩ := run_addSamples m n
    have hrest := ih (m := ((addSamples n).run m).2) (by rw [hstep]; exact hm)
    rw [ends, hresult, hrest, hstep, requests, List.map_cons, length_batchSizes hm]

omit [Scalar α] in
theorem child_seed_injective (generator : PathGenerator α) {i j : ℕ}
    (h : (generator.child i).seed = (generator.child j).seed) : i = j := by
  have hpath := congrArg Seed.path h
  exact List.singleton_inj.mp (List.append_cancel_left hpath)

theorem serves {m : SamplingModel α} (hm : 0 < m.batchSize) (n : ℤ) :
    Serves m n ((addSamples n).run m) := by
  obtain ⟨hresult, hstep⟩ := run_addSamples m n
  have hdivided := divided_request hm m.batchesDrawn n
  refine ⟨hdivided, ?_, ?_, hresult, ?_, ?_⟩
  · rw [request, map_index_numbered, length_batchSizes hm]
  · rw [hstep, length_batchSizes hm]
  · intro e he
    rw [hresult] at he
    rw [hstep, Request.granted, he]
    rfl
  · intro hok
    rw [hresult] at hok
    have hn : 1 ≤ n := Request.one_le_of_verdict hok
    have hcount := count_merged m.generator m.pricer m.statistics
      (request m.batchSize m.batchesDrawn n).batches
    have hmerged : ((addSamples n).run m).2.statistics = merged m.generator m.pricer m.statistics
        (request m.batchSize m.batchesDrawn n).batches := by
      rw [hstep, Request.granted, hok]
    rw [hdivided.sum_sizes, samples_request, ← hmerged] at hcount
    exact ⟨hn, hmerged, by omega⟩

theorem lifetime_after {m : SamplingModel α} (hm : 0 < m.batchSize) (hdrawn : m.batchesDrawn = 0)
    (history : List ℤ) :
    Lifetime m.generator m.pricer m.statistics m.batchSize history (after m history) := by
  have hafter := after_eq hm history
  have hindices := map_index_requests hm 0 history
  rw [← List.range_eq_range'] at hindices
  rw [hdrawn] at hafter
  refine ⟨?_, ?_, ?_, map_samples_requests _ 0 history,
    fun r hr => divided_of_mem_requests hm hr, ?_, ?_, ?_⟩
  · rw [hafter]
  · rw [hafter]
  · rw [hafter]
  · rw [hafter, hindices, zero_add]
  · have hnodup (k : ℕ) : ((List.range k).map fun i => (m.generator.child i).seed).Nodup :=
      List.nodup_range.map fun _ _ => child_seed_injective m.generator
    have hseeds := hnodup (history.map fun n => n.toNat ⌈/⌉ m.batchSize).sum
    rw [← hindices, List.map_map] at hseeds
    exact hseeds
  · rw [hafter]

/-- Whatever has been requested of a model since it was built, the batches of all requests are
numbered one after the other and read substreams of their own, its statistics are those it was built
with and those of the batches of the requests that succeeded, merged in order, and a further request
succeeds or is refused as a whole. -/
theorem lifetime_of_build {generator : PathGenerator α} {pricer : PathPricer α}
    {initial : Accumulator α} {batchSize workers : ℤ} {m : SamplingModel α}
    (h : (build generator pricer initial batchSize workers).result = .ok m) (history : List ℤ) :
    Lifetime generator pricer initial batchSize.toNat history (after m history) ∧
      ends m history = (requests batchSize.toNat 0 history).map
        (Request.verdict generator pricer) ∧
      ∀ n, Serves (after m history) n ((addSamples n).run (after m history)) := by
  simp only [build, Outcome.result_bind_eq_ok, Outcome.result_require_eq_ok] at h
  obtain ⟨_, hbatch, _, _, hm⟩ := h
  cases hm
  have hpos : 0 < (⟨generator, pricer, initial, batchSize.toNat, 0⟩ : SamplingModel α).batchSize := by
    dsimp only
    omega
  refine ⟨lifetime_after hpos rfl history, ends_eq hpos history, fun n => ?_⟩
  apply serves
  rw [after_eq hpos]
  exact hpos

/-- A model that draws two paths at a time, through a history with a request that is refused. -/
theorem lifetime_two_paths :
    let generator : PathGenerator Float := .ofSeed ⟨0, 1, 1, 1⟩ (.root 42)
    let m : SamplingModel Float := ⟨generator, .logReturn, .empty, 2, 0⟩
    (build generator .logReturn .empty 2 1).result = .ok m ∧
      Lifetime generator .logReturn .empty 2 [3, 0, 5] (after m [3, 0, 5]) ∧
      ends m [3, 0, 5] = (requests 2 0 [3, 0, 5]).map (Request.verdict generator .logReturn) ∧
      ∀ n, Serves (after m [3, 0, 5]) n ((addSamples n).run (after m [3, 0, 5])) := by
  intro generator m
  have hbuild : (build generator .logReturn .empty 2 1).result = .ok m := rfl
  exact ⟨hbuild, lifetime_of_build hbuild [3, 0, 5]⟩

end SamplingModel

end OptionDesk
