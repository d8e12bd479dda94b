import OptionDesk.Proofs.Sampling.CommonPaths
import OptionDesk.Proofs.Sampling.Pool
import Mathlib.Algebra.Order.BigOperators.Group.List

/-!
# Requests in parts

A request that is cut in parts takes the same batches as the whole if every part but the last fills
its batches: the same numbers, the same sizes, in the same order. They are merged one after the other
either way, so not a bit of the statistics differs, although no law of arithmetic is known of them. An
estimate after some requests is then the estimate of a single one, and this is what the rows of a
convergence table are.
-/
namespace OptionDesk

namespace Session

variable {σ α β γ : Type}

/-- Two runs that end in the same way and, if they succeed, in the same state. -/
structure Agrees (x y : Outcome α β × σ) : Prop where
  result : x.1.result = y.1.result
  state : ∀ b, y.1.result = .ok b → x.2 = y.2

theorem Agrees.refl (x : Outcome α β × σ) : Agrees x x := ⟨rfl, fun _ _ => rfl⟩

theorem Agrees.trans {x y z : Outcome α β × σ} (h : Agrees x y) (h' : Agrees y z) : Agrees x z :=
  ⟨h.result.trans h'.result,
    fun b hb => (h.state b (h'.result.trans hb)).trans (h'.state b hb)⟩

/-- Runs that agree still do after the same continuation. -/
theorem Agrees.bind {x y : Session σ α β} {s s' : σ} (h : Agrees (x.run s) (y.run s'))
    (f : β → Session σ α γ) : Agrees ((x >>= f).run s) ((y >>= f).run s') := by
  constructor
  · rw [fst_run_bind, fst_run_bind]
    cases hy : (y.run s').1.result with
    | error e =>
      rw [Outcome.result_bind_of_error hy, Outcome.result_bind_of_error (h.result.trans hy)]
    | ok b =>
      rw [Outcome.result_bind_of_ok hy, Outcome.result_bind_of_ok (h.result.trans hy), h.state b hy]
  · intro c hc
    rw [fst_run_bind] at hc
    obtain ⟨b, hb, -⟩ := Outcome.result_bind_eq_ok.mp hc
    rw [snd_run_bind_ok hb, snd_run_bind_ok (h.result.trans hb), h.state b hb]

/-- A run that begins with a step that succeeds is the rest of it from there on. -/
theorem agrees_of_ok {x : Session σ α β} {b : β} {s : σ} (h : (x.run s).1.result = .ok b)
    (f : β → Session σ α γ) : Agrees ((f b).run (x.run s).2) ((x >>= f).run s) := by
  refine ⟨?_, fun _ _ => (snd_run_bind_ok h).symm⟩
  rw [fst_run_bind, Outcome.result_bind_of_ok h]

/-- Continuations that agree after a step, if it succeeds, agree from its beginning on. -/
theorem agrees_bind_of_ok {x : Session σ α β} {f g : β → Session σ α γ} {s : σ}
    (h : ∀ b, (x.run s).1.result = .ok b → Agrees ((f b).run (x.run s).2) ((g b).run (x.run s).2)) :
    Agrees ((x >>= f).run s) ((x >>= g).run s) := by
  cases hx : (x.run s).1.result with
  | error e =>
    refine ⟨?_, fun _ _ => by rw [snd_run_bind_error hx, snd_run_bind_error hx]⟩
    rw [fst_run_bind, fst_run_bind, Outcome.result_bind_of_error hx, Outcome.result_bind_of_error hx]
  | ok b =>
    constructor
    · rw [fst_run_bind, fst_run_bind, Outcome.result_bind_of_ok hx, Outcome.result_bind_of_ok hx]
      exact (h b hx).result
    · intro c hc
      rw [fst_run_bind, Outcome.result_bind_of_ok hx] at hc
      rw [snd_run_bind_ok hx, snd_run_bind_ok hx]
      exact (h b hx).state c hc

end Session

namespace SamplingModel

open Session

/-! ## The batches of a sum -/

theorem batchSizes_mul_add {b : ℕ} (hb : 0 < b) (q n : ℕ) :
    batchSizes b (b * q + n) = List.replicate q b ++ batchSizes b n := by
  have hquotient : (b * q + n) / b = q + n / b := Nat.mul_add_div hb q n
  have hremainder : (b * q + n) % b = n % b := Nat.mul_add_mod b q n
  rw [batchSizes, batchSizes, hquotient, hremainder, List.replicate_add, List.append_assoc]

theorem batchSizes_mul {b : ℕ} (hb : 0 < b) (q : ℕ) : batchSizes b (b * q) = List.replicate q b := by
  have hsizes := batchSizes_mul_add hb q 0
  rwa [add_zero, batchSizes_zero, List.append_nil] at hsizes

theorem numbered_append (first : ℕ) (sizes rest : List ℕ) :
    numbered first (sizes ++ rest) = numbered first sizes ++ numbered (first + sizes.length) rest := by
  induction sizes generalizing first with
  | nil => rfl
  | cons size sizes ih =>
    rw [List.cons_append, numbered, ih, numbered, List.length_cons, List.cons_append]
    congr 3
    omega

/-- Samples that fill their batches come in the same batches alone and before others. -/
theorem batches_request_add {b : ℕ} (hb : 0 < b) (first : ℕ) {d n : ℤ} (hd : 0 ≤ d)
    (hfull : (b : ℤ) ∣ d) (hn : 0 ≤ n) :
    (request b first (d + n)).batches = (request b first d).batches ++
      (request b (first + (request b first d).batches.length) n).batches := by
  obtain ⟨q, hq⟩ : ∃ q : ℕ, d.toNat = b * q := by
    rw [← Int.toNat_of_nonneg hd] at hfull
    exact Int.natCast_dvd_natCast.mp hfull
  have hsum : (d + n).toNat = b * q + n.toNat := by
    rw [Int.toNat_add hd hn, hq]
  simp only [request, length_numbered]
  rw [hsum, hq, batchSizes_mul_add hb, batchSizes_mul hb, numbered_append]

variable {α : Type} [Scalar α] [NormalSource α]

/-- Parts of a request, all of which but the last fill their batches. -/
structure Cuts (b : ℕ) (parts : List ℤ) : Prop where
  nonempty : parts ≠ []
  positive : ∀ n ∈ parts, 1 ≤ n
  full : ∀ n ∈ parts.dropLast, (b : ℤ) ∣ n

/-- Neither the numbers that have been taken nor the statistics matter to a batch. -/
def Work.IsStateless (work : Work α) : Prop :=
  ∀ (m : SamplingModel α) (drawn : ℕ) (s : Accumulator α),
    work.on { m with batchesDrawn := drawn, statistics := s } = work.on m

theorem isStateless_ownWork : (ownWork : Work α).IsStateless := fun _ _ _ => rfl

/-! ## Requests -/

section Requests

variable {work : Work α} (hwork : work.IsStateless)

include hwork

theorem run_addSamplesWith_eq {m : SamplingModel α} {n : ℤ} (hn : 1 ≤ n) :
    let batches := (request m.batchSize m.batchesDrawn n).batches
    ((addSamplesWith work n).run m).1.result = (batches.mapM (work.on m)).map (fun _ => ()) ∧
      ∀ partials, batches.mapM (work.on m) = .ok partials →
        ((addSamplesWith work n).run m).2 = (m.advance batches.length).mergeAll partials := by
  intro batches
  have hadvance : work.on (m.advance batches.length) = work.on m := hwork m _ _
  cases hbatches : batches.mapM (work.on m) with
  | error e =>
    rw [← hadvance] at hbatches
    rw [run_addSamplesWith_of_error hn hbatches]
    exact ⟨rfl, fun _ h => nomatch h⟩
  | ok partials =>
    rw [← hadvance] at hbatches
    rw [run_addSamplesWith_of_ok hn hbatches]
    refine ⟨rfl, fun _ h => ?_⟩
    cases h
    rfl

/-- A request in two parts, the first of which fills its batches. -/
theorem agrees_in_two {m : SamplingModel α} (hm : 0 < m.batchSize) {d n : ℤ} (hd : 1 ≤ d)
    (hfull : (m.batchSize : ℤ) ∣ d) (hn : 1 ≤ n) :
    Agrees ((do addSamplesWith work d; addSamplesWith work n : Session _ α Unit).run m)
      ((addSamplesWith work (d + n)).run m) := by
  obtain ⟨hfirst, hfirststate⟩ := run_addSamplesWith_eq hwork (m := m) hd
  obtain ⟨hwhole, hwholestate⟩ := run_addSamplesWith_eq hwork (m := m) (n := d + n) (by omega)
  have hbatches := batches_request_add hm m.batchesDrawn (by omega : 0 ≤ d) hfull (by omega : 0 ≤ n)
  rw [hbatches, List.mapM_append] at hwhole hwholestate
  cases hpartials : (request m.batchSize m.batchesDrawn d).batches.mapM (work.on m) with
  | error e =>
    rw [hpartials] at hfirst hwhole
    refine ⟨?_, fun b hb => ?_⟩
    · rw [fst_run_bind, Outcome.result_bind_of_error hfirst, hwhole]
      rfl
    · rw [hwhole] at hb
      cases hb
  | ok partials =>
    have hstate := hfirststate partials hpartials
    rw [hpartials] at hfirst hwhole hwholestate
    obtain ⟨hsecond, hsecondstate⟩ := run_addSamplesWith_eq hwork
      (m := ((addSamplesWith work d).run m).2) hn
    have hsame : work.on ((addSamplesWith work d).run m).2 = work.on m := by
      rw [hstate]
      exact hwork m _ _
    have hnext : (request ((addSamplesWith work d).run m).2.batchSize
        ((addSamplesWith work d).run m).2.batchesDrawn n).batches = (request m.batchSize
          (m.batchesDrawn + (request m.batchSize m.batchesDrawn d).batches.length) n).batches := by
      rw [hstate]
      rfl
    rw [hsame, hnext] at hsecond hsecondstate
    refine ⟨?_, fun b hb => ?_⟩
    · rw [fst_run_bind, Outcome.result_bind_of_ok hfirst, hsecond, hwhole]
      cases List.mapM (work.on m) _ <;> rfl
    · rw [snd_run_bind_ok hfirst]
      cases hrest : (request m.batchSize (m.batchesDrawn +
          (request m.batchSize m.batchesDrawn d).batches.length) n).batches.mapM (work.on m) with
      | error e =>
        rw [hrest] at hwhole
        rw [hwhole] at hb
        cases hb
      | ok rest =>
        rw [hrest] at hwholestate
        rw [hsecondstate rest hrest, hwholestate (partials ++ rest) rfl, hstate, mergeAll_append,
          List.length_append]
        simp only [advance, mergeAll, Nat.add_assoc]

/-- A request in any number of parts, all of which but the last fill their batches. -/
theorem agrees_in_parts {m : SamplingModel α} (hm : 0 < m.batchSize) {parts : List ℤ}
    (hparts : Cuts m.batchSize parts) :
    Agrees ((parts.forM (addSamplesWith work)).run m) ((addSamplesWith work parts.sum).run m) := by
  have hcons (n : ℤ) (rest : List ℤ) : (n :: rest).forM (addSamplesWith work) =
      addSamplesWith work n >>= fun _ => rest.forM (addSamplesWith work) := rfl
  obtain ⟨hne, hpos, hfull⟩ := hparts
  induction parts generalizing m with
  | nil => exact absurd rfl hne
  | cons n parts ih =>
    cases parts with
    | nil =>
      have hsingle : [n].forM (addSamplesWith work) = addSamplesWith work n := bind_pure _
      rw [hsingle, List.sum_singleton]
      exact .refl _
    | cons k rest =>
      have hn : 1 ≤ n := hpos n List.mem_cons_self
      have hrest : ∀ i ∈ k :: rest, 1 ≤ i := fun i hi => hpos i (List.mem_cons_of_mem n hi)
      have hsum : 0 < (k :: rest).sum := List.sum_pos _ hrest (List.cons_ne_nil _ _)
      rw [hcons, List.sum_cons]
      refine Agrees.trans (agrees_bind_of_ok fun _ hok => ?_)
        (agrees_in_two hwork hm hn (hfull n List.mem_cons_self) hsum)
      obtain ⟨hresult, hstate⟩ := run_addSamplesWith_eq hwork (m := m) hn
      cases hpartials : (request m.batchSize m.batchesDrawn n).batches.mapM (work.on m) with
      | error e =>
        rw [hresult, hpartials] at hok
        cases hok
      | ok partials =>
        have hbatchSize : ((addSamplesWith work n).run m).2.batchSize = m.batchSize := by
          rw [hstate partials hpartials]
          rfl
        exact ih (by rwa [hbatchSize]) (List.cons_ne_nil _ _) hrest fun i hi => by
          rw [hbatchSize]
          exact hfull i (List.mem_cons_of_mem n hi)

end Requests

/-! ## The rows of a table -/

/-- A single row. -/
def row (n : ℤ) : Session (SamplingModel α) α (ConvergenceRow α) := do
  let value ← valueWithSamples n
  let error ← errorEstimate
  return ⟨n, value, error⟩

/-- The value and its error that a model gives when it is asked for one number of samples. -/
def freshRow (m : SamplingModel α) (n : ℤ) : Except (PricingError α) (ConvergenceRow α) :=
  ((row n).run m).1.result

theorem convergenceRows_cons (n : ℤ) (rest : List ℤ) :
    (convergenceRows (n :: rest) : Session (SamplingModel α) α _) = (do
      let first ← row n
      let rows ← convergenceRows rest
      return first :: rows) := by
  rw [convergenceRows, row]
  simp only [bind_assoc, pure_bind]

theorem run_valueWithSamples {m : SamplingModel α} {n : ℤ} (h : m.statistics.count < n) :
    (valueWithSamples n).run m =
      (do addSamples (n - m.statistics.count); mean : Session (SamplingModel α) α α).run m := by
  have henough : ¬n < m.statistics.count := by omega
  unfold valueWithSamples
  dsimp only [Session.run, Session.lift, Session.get, Bind.bind, Session.bind, Outcome.pure]
  rw [Outcome.require_of henough, if_pos h]
  rfl

/-- A model that has drawn `d` samples in a single request, or none yet. -/
def HasDrawn (m : SamplingModel α) (d : ℤ) (m' : SamplingModel α) : Prop :=
  d = 0 ∧ m' = m ∨
    1 ≤ d ∧ ((addSamples d).run m).1.result = .ok () ∧ m' = ((addSamples d).run m).2

section Rows

variable {m m' : SamplingModel α} (hm : 0 < m.batchSize) (hempty : m.statistics.count = 0) {d n : ℤ}

include hm hempty

theorem HasDrawn.count (h : HasDrawn m d m') : (m'.statistics.count : ℤ) = d := by
  obtain ⟨rfl, rfl⟩ | ⟨-, hok, rfl⟩ := h
  · rw [hempty]
    rfl
  · rw [((serves hm d).accepted hok).2.2, hempty]
    exact zero_add d

/-- The samples that are missing make up a single request. -/
theorem HasDrawn.agrees (h : HasDrawn m d m') (hfull : (m.batchSize : ℤ) ∣ d) (hn : d < n) :
    Agrees ((row n).run m') ((row n).run m) := by
  have hcount := h.count hm hempty
  have hnone : (m.statistics.count : ℤ) < n := by
    rw [hempty]
    obtain ⟨rfl, -⟩ | ⟨hd, -⟩ := h <;> omega
  have hdraws : Agrees ((addSamples (n - d)).run m') ((addSamples n).run m) := by
    obtain ⟨rfl, rfl⟩ | ⟨hd, hok, rfl⟩ := h
    · rw [sub_zero]
      exact .refl _
    · have htwo := agrees_in_two isStateless_ownWork hm hd hfull (n := n - d) (by omega)
      rw [addSamplesWith_ownWork, addSamplesWith_ownWork, addSamplesWith_ownWork,
        add_sub_cancel] at htwo
      exact (agrees_of_ok hok _).trans htwo
  have hvalue : Agrees ((valueWithSamples n).run m') ((valueWithSamples n).run m) := by
    rw [run_valueWithSamples (by rw [hcount]; exact hn), run_valueWithSamples hnone, hcount, hempty,
      Nat.cast_zero, sub_zero]
    exact hdraws.bind _
  exact hvalue.bind _

omit hm in
/-- After a row as many samples have been drawn as it says. -/
theorem hasDrawn_of_row (hn : 1 ≤ n) {first : ConvergenceRow α} (h : m.freshRow n = .ok first) :
    HasDrawn m n ((row n).run m).2 := by
  have hnone : (m.statistics.count : ℤ) < n := by
    rw [hempty]
    omega
  rw [freshRow, row, fst_run_bind] at h
  obtain ⟨value, hvalue, h⟩ := Outcome.result_bind_eq_ok.mp h
  have hstate : ((row n).run m).2 = ((valueWithSamples n).run m).2 := by
    rw [row, snd_run_bind_ok hvalue]
    rw [fst_run_bind] at h
    obtain ⟨error, herror, -⟩ := Outcome.result_bind_eq_ok.mp h
    rw [snd_run_bind_ok herror]
    rfl
  rw [run_valueWithSamples hnone, hempty, Nat.cast_zero, sub_zero] at hvalue hstate
  rw [fst_run_bind] at hvalue
  obtain ⟨_, hok, -⟩ := Outcome.result_bind_eq_ok.mp hvalue
  rw [snd_run_bind_ok hok] at hstate
  exact .inr ⟨hn, hok, hstate⟩

/-- Each row is what a model that has drawn nothing answers to its number of samples. -/
theorem HasDrawn.rows (h : HasDrawn m d m') {counts : List ℤ} (hsorted : (d :: counts).Pairwise (· < ·))
    (hfull : ∀ n ∈ (d :: counts).dropLast, (m.batchSize : ℤ) ∣ n) :
    ((convergenceRows counts).run m').1.result = counts.mapM m.freshRow := by
  induction counts generalizing d m' with
  | nil => rfl
  | cons n counts ih =>
    have hn : d < n := List.rel_of_pairwise_cons hsorted List.mem_cons_self
    have hd : 0 ≤ d := by
      obtain ⟨rfl, -⟩ | ⟨hd, -⟩ := h <;> omega
    have hrow := h.agrees hm hempty (hfull d List.mem_cons_self) hn
    rw [convergenceRows_cons, fst_run_bind, List.mapM_cons]
    cases hfirst : m.freshRow n with
    | error e =>
      rw [Outcome.result_bind_of_error (hrow.result.trans hfirst)]
      rfl
    | ok first =>
      have hdrawn : HasDrawn m n ((row n).run m').2 := by
        rw [hrow.state first hfirst]
        exact hasDrawn_of_row hempty (by omega) hfirst
      have hrest := ih hdrawn hsorted.of_cons fun i hi => hfull i (List.mem_cons_of_mem d hi)
      rw [Outcome.result_bind_of_ok (hrow.result.trans hfirst), fst_run_bind, Outcome.result_bind, hrest]
      cases counts.mapM m.freshRow <;> rfl

end Rows

/-! ## Numbers of samples in order -/

theorem nodup_eraseDups {β : Type} [BEq β] [LawfulBEq β] (l : List β) : l.eraseDups.Nodup := by
  induction hlength : l.length using Nat.strong_induction_on generalizing l with
  | _ size ih =>
    cases l with
    | nil => exact List.nodup_nil
    | cons b l =>
      have hshorter : (l.filter fun c => !c == b).length < size := by
        rw [← hlength, List.length_cons]
        exact Nat.lt_succ_of_le (List.length_filter_le _ _)
      rw [List.eraseDups_cons, List.nodup_cons, List.mem_eraseDups]
      exact ⟨by simp, ih _ hshorter _ rfl⟩

/-- The counts of a table increase. -/
theorem pairwise_lt_counts (counts : List ℤ) :
    (counts.eraseDups.mergeSort (· ≤ ·)).Pairwise (· < ·) := by
  have hsorted : (counts.eraseDups.mergeSort (· ≤ ·)).Pairwise fun a b => decide (a ≤ b) = true :=
    List.pairwise_mergeSort (fun a b c hab hbc => by simp only [decide_eq_true_eq] at *; omega)
      (fun a b => by simp only [Bool.or_eq_true, decide_eq_true_eq]; omega) _
  have hdistinct : (counts.eraseDups.mergeSort (· ≤ ·)).Nodup :=
    (List.mergeSort_perm _ _).nodup_iff.mpr (nodup_eraseDups counts)
  refine (hsorted.and hdistinct).imp fun hle => ?_
  simp only [decide_eq_true_eq] at hle
  exact lt_of_le_of_ne hle.1 hle.2

theorem exists_lt_of_mem_dropLast {l : List ℤ} (hl : l.Pairwise (· < ·)) {n : ℤ}
    (hn : n ∈ l.dropLast) : ∃ k ∈ l, n < k := by
  have hne : l ≠ [] := by
    rintro rfl
    cases hn
  have hsplit := List.dropLast_append_getLast hne
  rw [← hsplit, List.pairwise_append] at hl
  exact ⟨l.getLast hne, List.getLast_mem hne, hl.2.2 n hn _ List.mem_cons_self⟩

/-- The table of a model that has drawn nothing has the rows that such a model gives to each count. -/
theorem convergenceTable_eq {m : SamplingModel α} (hm : 0 < m.batchSize)
    (hempty : m.statistics.count = 0) {counts : List ℤ} (hpos : ∀ n ∈ counts, 1 ≤ n)
    (hfull : ∀ n ∈ counts, ∀ k ∈ counts, n < k → (m.batchSize : ℤ) ∣ n) :
    ((convergenceTable counts).run m).1.result =
      (counts.eraseDups.mergeSort (· ≤ ·)).mapM m.freshRow := by
  have hmem (n : ℤ) : n ∈ counts.eraseDups.mergeSort (· ≤ ·) ↔ n ∈ counts := by
    rw [List.mem_mergeSort, List.mem_eraseDups]
  have hsorted : (0 :: counts.eraseDups.mergeSort (· ≤ ·)).Pairwise (· < ·) := by
    refine List.pairwise_cons.mpr ⟨fun n hn => ?_, pairwise_lt_counts counts⟩
    exact hpos n ((hmem n).mp hn)
  have hdrawn : HasDrawn m 0 m := .inl ⟨rfl, rfl⟩
  refine hdrawn.rows hm hempty hsorted fun n hn => ?_
  obtain ⟨k, hk, hlt⟩ := exists_lt_of_mem_dropLast hsorted hn
  obtain rfl | hn := List.mem_cons.mp (List.mem_of_mem_dropLast hn)
  · exact dvd_zero _
  · have hone := hpos n ((hmem n).mp hn)
    obtain rfl | hk := List.mem_cons.mp hk
    · omega
    · exact hfull n ((hmem n).mp hn) k ((hmem k).mp hk) hlt

/-- A model is built with room for a sample in a batch, and without any samples. -/
theorem fresh_of_model {t : SimulationTerms α} {m : SamplingModel α} (h : t.model.result = .ok m) :
    0 < m.batchSize ∧ m.statistics.count = 0 := by
  simp only [SimulationTerms.model, build, Outcome.result_bind_eq_ok, Outcome.result_require_eq_ok] at h
  obtain ⟨_, _, _, _, _, _, _, _, _, _, _, _, _, _, _, _, _, _, _, _, _, hbatch, _, _, hm⟩ := h
  cases hm
  exact ⟨by dsimp only; omega, rfl⟩

/-- Cutting a request does not change what it comes to. If all parts but the last fill their batches, the
parts one after the other end as the whole does, and when they succeed they leave the same statistics and
the same numbers taken, whatever a batch is worked through with. So the rows of the table of a new
pricer, of which all counts but the largest fill their batches, are the values and errors that a new
pricer gives for each count alone. -/
theorem parts_make_up_the_whole {m : SamplingModel α} (hm : 0 < m.batchSize) :
    (∀ work : Work α, work.IsStateless → ∀ parts, Cuts m.batchSize parts →
      Agrees ((parts.forM (addSamplesWith work)).run m) ((addSamplesWith work parts.sum).run m)) ∧
    (∀ parts, Cuts m.batchSize parts →
      Agrees ((parts.forM addSamples).run m) ((addSamples parts.sum).run m)) ∧
    ∀ t : SimulationTerms α, t.model.result = .ok m → ∀ counts : List ℤ, (∀ n ∈ counts, 1 ≤ n) →
      (∀ n ∈ counts, ∀ k ∈ counts, n < k → (m.batchSize : ℤ) ∣ n) →
      ((convergenceTable counts).run m).1.result =
        (counts.eraseDups.mergeSort (· ≤ ·)).mapM m.freshRow := by
  have hown : (addSamplesWith ownWork : ℤ → Session (SamplingModel α) α Unit) = addSamples :=
    funext addSamplesWith_ownWork
  refine ⟨fun work hwork parts => agrees_in_parts hwork hm, fun parts hparts => ?_,
    fun t ht counts => convergenceTable_eq hm (fresh_of_model ht).2⟩
  rw [← hown]
  exact agrees_in_parts isStateless_ownWork hm hparts

/-- Nine samples in batches of two: in three parts, with work that knows only the number of a batch and with
the model's own, and a table in which one count comes twice. -/
theorem parts_make_up_nine_samples :
    letI : NormalSource Exact := ⟨Bool, fun _ => true, fun b => (.real (if b then 1 else -1), !b)⟩
    let t : SimulationTerms Exact :=
      { optionType := .optionType .put
        underlying := .number (.real 100)
        strike := .number (.real 90)
        dividendYield := .number (.real 0.02)
        riskFreeRate := .number (.real 0.05)
        residualTime := .number (.real 1)
        volatility := .number (.real 0.2)
        antithetic := .figure (.truth false)
        seed := 42
        timeSteps := .real 3
        batchSize := 2
        workers := 1 }
    let work : Work Exact := fun _ batch _ => .ok (.ofList (List.replicate batch.size batch.index))
    ∃ m : SamplingModel Exact, t.model.result = .ok m ∧ ((addSamples 9).run m).1.result = .ok () ∧
      Agrees (([4, 2, 3].forM (addSamplesWith work)).run m) ((addSamplesWith work 9).run m) ∧
      (([4, 2, 3].forM addSamples).run m).2 = ((addSamples 9).run m).2 ∧
      ((convergenceTable [2, 4, 2, 9]).run m).1.result = [2, 4, 9].mapM m.freshRow := by
  let _ : NormalSource Exact := ⟨Bool, fun _ => true, fun b => (.real (if b then 1 else -1), !b)⟩
  intro t work
  have hnormals : NormalSource.IsReal := fun b => ⟨if b then 1 else -1, rfl⟩
  let i : SimulationInputs :=
    ⟨100, 90, 0.02, 0.05, 1, 0.2, by norm_num, by norm_num, one_pos⟩
  have hgives : t.Gives .put i := ⟨rfl, rfl, rfl, rfl, rfl, rfl, rfl⟩
  have hsteps : ¬t.timeSteps < 1 := by
    rw [Exact.one_eq, Exact.real_lt]
    norm_num
  have hmodel : t.model.result = .ok (t.fresh .put i) :=
    hgives.model_eq_ok.mpr ⟨⟨by norm_num [i], hsteps, (by decide : (0 : ℤ) ≤ 42),
      (by decide : (1 : ℤ) ≤ 2), le_rfl⟩, rfl⟩
  have hdraws : ((addSamples 9).run (t.fresh .put i)).1.result = .ok () := by
    obtain ⟨_, _, -, hruns⟩ := t.exists_run_addSamples i [] 0 hnormals (n := 9) (by norm_num)
    rw [SimulationTerms.fresh_eq_drawn]
    exact (hruns .put 90 (by norm_num)).1
  have hcuts : Cuts 2 [4, 2, 3] := by
    refine ⟨List.cons_ne_nil _ _, ?_, ?_⟩
    all_goals decide
  obtain ⟨hwork, hown, htable⟩ := parts_make_up_the_whole (m := t.fresh .put i) Nat.two_pos
  have hcounts : ([2, 4, 2, 9] : List ℤ).eraseDups.mergeSort (· ≤ ·) = [2, 4, 9] := by
    have hdistinct : ([2, 4, 2, 9] : List ℤ).eraseDups = [2, 4, 9] := by decide
    rw [hdistinct, List.mergeSort_of_pairwise (by decide)]
  have hrows := htable t hmodel [2, 4, 2, 9] (by decide) (by decide)
  rw [hcounts] at hrows
  exact ⟨_, hmodel, hdraws, hwork work (fun _ _ _ => rfl) _ hcuts, (hown _ hcuts).state () hdraws, hrows⟩

end SamplingModel

end OptionDesk
