import OptionDesk.Proofs.Statistics

/-!
# Histories of a ledger

A history is a list of entries, each made on a name; an entry that is refused is part of it. Beside
the ledger runs a sheet, which keeps for every name the multiset of samples that accepted entries have
put there since the last reset: a merge adds the multiset of the other name, so a merge of a name into
itself doubles its own. After every history the ledger holds the summaries of the sheet, and an entry
is refused exactly when it offers a sample that is not a finite number.
-/
namespace OptionDesk

namespace Ledger

open Samples

noncomputable section

/-- The multisets of samples under all names. -/
abbrev Sheet := String → Multiset ℝ

/-- The sample that a value offers, if it reads as a finite number. -/
def sampleOf? (v : Value Exact) : Option ℝ :=
  match v.read with
  | .ok x => x.real?
  | .error _ => none

/-- The samples of a sequence, if it reads as a table of finite numbers. -/
def samplesOf? (v : Value Exact) : Option (List ℝ) :=
  match v.elements with
  | .ok items => match (Value.list items).table with
    | .ok table => Exact.reals? table.entries
    | .error _ => none
  | .error _ => none

/-- What an entry makes of the multiset under its name, unless it is refused. -/
def gathered (sheet : Sheet) (name : String) : LedgerEntry Exact → Option (Multiset ℝ)
  | .add v => (sampleOf? v).map fun x => x ::ₘ sheet name
  | .addValues v => (samplesOf? v).map fun xs => sheet name + xs
  | .merge other => some (sheet name + sheet other)
  | .combine first second => some (sheet first + sheet second)
  | .reset => some 0

/-- The sheet after an entry. -/
def gather (sheet : Sheet) (step : String × LedgerEntry Exact) : Sheet :=
  match gathered sheet step.1 step.2 with
  | some m => Function.update sheet step.1 m
  | none => sheet

/-- The sheet after a history. -/
def sheetAfter (history : List (String × LedgerEntry Exact)) : Sheet :=
  history.foldl gather fun _ => 0

/-- The ledger after a history. -/
def after (history : List (String × LedgerEntry Exact)) : Ledger Exact :=
  history.foldl (fun l step => ((enter step.1 step.2).run l).2) .empty

/-- Every name holds the summary of its multiset. -/
def Summarizes (l : Ledger Exact) (sheet : Sheet) : Prop :=
  ∀ name, l.get name = summary (sheet name)

/-- What becomes of a ledger when an entry is accepted with a multiset, or refused. -/
def Follows (l : Ledger Exact) (name : String) (entry : LedgerEntry Exact) :
    Option (Multiset ℝ) → Prop
  | some m => ((enter name entry).run l).1.result = .ok () ∧
      ∀ j, get ((enter name entry).run l).2 j = if j = name then summary m else l.get j
  | none => (∃ e, ((enter name entry).run l).1.result = .error e) ∧
      ((enter name entry).run l).2 = l

end

theorem follows_of_ok {l : Ledger Exact} (l' : Ledger Exact) {name : String}
    {entry : LedgerEntry Exact} {m : Multiset ℝ} (hok : (l.amended name entry).result = .ok l')
    (hget : ∀ j, l'.get j = if j = name then summary m else l.get j) :
    Follows l name entry (some m) := by
  have hrun := run_enter l name entry
  have hresult := result_enter l name entry
  rw [hok] at hrun hresult
  refine ⟨hresult, fun j => ?_⟩
  rw [hrun]
  exact hget j

theorem follows_of_error {l : Ledger Exact} {name : String} {entry : LedgerEntry Exact}
    {e : PricingError Exact} (herror : (l.amended name entry).result = .error e) :
    Follows l name entry none := by
  have hrun := run_enter l name entry
  have hresult := result_enter l name entry
  rw [herror] at hrun hresult
  exact ⟨⟨e, hresult⟩, hrun⟩

theorem get_put_eq (l : Ledger Exact) (name j : String) (s : Accumulator Exact) :
    get (l.put name s) j = if j = name then s else l.get j := by
  by_cases h : j = name
  · rw [if_pos h, h, get_put_self]
  · rw [if_neg h, get_put_of_ne l s h]

theorem follows_add {l : Ledger Exact} {name : String} {s : Multiset ℝ}
    (hs : l.get name = summary s) (v : Value Exact) :
    Follows l name (.add v) ((sampleOf? v).map fun x => x ::ₘ s) := by
  have hamended : (l.amended name (.add v)).result =
      ((l.get name).addValue v).result.map (l.put name) := Outcome.result_map _ _
  rcases hv : v.read with m | x
  · have hnone : sampleOf? v = none := by simp only [sampleOf?, hv]
    rw [hnone]
    apply follows_of_error (e := .misuse m)
    rw [hamended, Accumulator.addValue, hv]
    rfl
  · have hsample : sampleOf? v = x.real? := by simp only [sampleOf?, hv]
    have hadd : ((l.get name).addValue v).result =
        (Outcome.ofStatistics ((l.get name).add x)).result := by
      rw [Accumulator.addValue, hv]
      rfl
    rw [hsample]
    cases hx : x.real? with
    | none =>
      apply follows_of_error (e := .statistics (.nonFiniteSample x))
      rw [hamended, hadd, Accumulator.add, Exact.real?_eq_none_iff.mp hx]
      rfl
    | some r =>
      have hr := Exact.real?_eq_some_iff.mp hx
      apply follows_of_ok (l.put name (summary (r ::ₘ s)))
      · rw [hamended, hadd, hr, hs, Accumulator.add, Exact.isFinite_real, push_summary]
        rfl
      · exact fun j => get_put_eq l name j _

theorem follows_addValues {l : Ledger Exact} {name : String} {s : Multiset ℝ}
    (hs : l.get name = summary s) (v : Value Exact) :
    Follows l name (.addValues v) ((samplesOf? v).map fun xs => s + xs) := by
  have hamended : (l.amended name (.addValues v)).result =
      ((l.get name).addValues v).result.map (l.put name) := Outcome.result_map _ _
  rcases hv : v.elements with m | items
  · have hnone : samplesOf? v = none := by simp only [samplesOf?, hv]
    rw [hnone]
    apply follows_of_error (e := .misuse m)
    rw [hamended, Accumulator.addValues, hv]
    rfl
  rcases ht : (Value.list items).table with m | table
  · have hnone : samplesOf? v = none := by simp only [samplesOf?, hv, ht]
    rw [hnone]
    apply follows_of_error (e := .misuse m)
    rw [hamended, Accumulator.addValues, hv]
    simp only [Outcome.ofMisuse_ok, pure_bind, ht]
    rfl
  have hsamples : samplesOf? v = Exact.reals? table.entries := by simp only [samplesOf?, hv, ht]
  have hadd : ((l.get name).addValues v).result =
      (Outcome.ofStatistics ((l.get name).addBatch table.entries)).result := by
    rw [Accumulator.addValues, hv]
    simp only [Outcome.ofMisuse_ok, pure_bind, ht]
  rw [hsamples]
  cases hx : Exact.reals? table.entries with
  | none =>
    apply follows_of_error (e := .statistics .nonFiniteBatch)
    rw [hamended, hadd, Accumulator.addBatch, Exact.reals?_eq_none_iff.mp hx]
    rfl
  | some rs =>
    have hfinite : table.entries.all Scalar.isFinite = true := by
      rw [← Bool.not_eq_false, ← Exact.reals?_eq_none_iff, hx]
      exact Option.some_ne_none rs
    apply follows_of_ok (l.put name (summary (s + rs)))
    · rw [hamended, hadd, Accumulator.addBatch, if_pos hfinite, Exact.eq_map_of_reals? hx, hs,
        ofList_summary, merge_summary]
      rfl
    · exact fun j => get_put_eq l name j _

/-- One entry on a ledger that holds the summaries of a sheet. -/
theorem follows_gathered {l : Ledger Exact} {sheet : Sheet} (hl : Summarizes l sheet)
    (name : String) (entry : LedgerEntry Exact) :
    Follows l name entry (gathered sheet name entry) := by
  cases entry with
  | add v => exact follows_add (hl name) v
  | addValues v => exact follows_addValues (hl name) v
  | merge other =>
    apply follows_of_ok (l.mergeInto name other) rfl
    intro j
    rw [get_mergeInto, hl name, hl other, merge_summary]
  | combine first second =>
    apply follows_of_ok (l.put name (.combine (l.get first) (l.get second))) rfl
    intro j
    have hfirst : Accumulator.empty.merge (summary (sheet first)) = summary (sheet first) := by
      rw [← summary_zero, merge_summary, zero_add]
    rw [get_put_eq, hl first, hl second, Accumulator.combine, hfirst, merge_summary]
  | reset =>
    apply follows_of_ok (l.put name .empty) rfl
    intro j
    rw [get_put_eq, summary_zero]

/-- An entry keeps the ledger in step with the sheet. -/
theorem summarizes_gather {l : Ledger Exact} {sheet : Sheet} (hl : Summarizes l sheet)
    (step : String × LedgerEntry Exact) :
    Summarizes ((enter step.1 step.2).run l).2 (gather sheet step) := by
  have hstep := follows_gathered hl step.1 step.2
  intro j
  unfold gather
  cases hg : gathered sheet step.1 step.2 with
  | none =>
    rw [hg] at hstep
    rw [hstep.2]
    exact hl j
  | some m =>
    rw [hg] at hstep
    rw [hstep.2 j]
    dsimp only
    by_cases hj : j = step.1
    · rw [if_pos hj, hj, Function.update_self]
    · rw [if_neg hj, Function.update_of_ne hj]
      exact hl j

theorem summarizes_foldl (history : List (String × LedgerEntry Exact)) {l : Ledger Exact}
    {sheet : Sheet} (hl : Summarizes l sheet) :
    Summarizes (history.foldl (fun l step => ((enter step.1 step.2).run l).2) l)
      (history.foldl gather sheet) := by
  induction history generalizing l sheet with
  | nil => exact hl
  | cons step rest ih => exact ih (summarizes_gather hl step)

/-- Every history leaves the ledger in step with its sheet. -/
theorem summarizes_after (history : List (String × LedgerEntry Exact)) :
    Summarizes (after history) (sheetAfter history) := by
  apply summarizes_foldl history
  intro name
  rw [get_empty, summary_zero]

/-- After every history each name holds the figures of the samples gathered under it. A further entry
is accepted or refused as the sheet says; a refused one changes nothing, and an accepted one only its
own name. The inspectors answer for the multiset, so two histories that gather the same samples under
two names, in whatever order and grouping, leave the same accumulator there. -/
theorem histories_keep_exact_summaries (history : List (String × LedgerEntry Exact)) :
    (∀ name, (after history).get name = summary (sheetAfter history name)) ∧
    (∀ name entry,
      Follows (after history) name entry (gathered (sheetAfter history) name entry)) ∧
    (∀ name, Inspects ((after history).get name) (sheetAfter history name)) ∧
    ∀ other name name', sheetAfter other name' = sheetAfter history name →
      (after other).get name' = (after history).get name := by
  have hafter := summarizes_after history
  refine ⟨hafter, fun name entry => follows_gathered hafter name entry, fun name => ?_, ?_⟩
  · rw [hafter name]
    exact inspects_summary _
  · intro other name name' hsame
    rw [summarizes_after other name', hsame, hafter name]

/-- A merge of a name into itself doubles its multiset. -/
example (sheet : Sheet) (name : String) :
    gathered sheet name (.merge name) = some (sheet name + sheet name) := rfl

end Ledger

end OptionDesk
