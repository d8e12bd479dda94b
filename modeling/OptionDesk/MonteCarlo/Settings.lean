import OptionDesk.Outcome

/-!
# Settings of a simulation

Exactly one stopping rule applies: a number of samples, or a tolerance on the standard error bounded
by a number of samples.
-/

namespace OptionDesk

structure Settings (α : Type) where
  samples : Option Int
  tolerance : Option α
  maxSamples : Int
  antithetic : Bool
  seed : Int
  timeSteps : Int
  batchSize : Int
  workers : Int
  /-- A standard error above this share of the value is logged as a warning. -/
  warnRatio : Option α
  logTimings : Bool

/-- What a client sets one of the settings to. -/
inductive SettingValue (α : Type)
  | absent
  | whole (n : Int)
  | number (x : α)
  | truth (b : Bool)
  | text (s : String)

namespace Settings

variable {α : Type} [Scalar α]

def standard : Settings α where
  samples := some 100000
  tolerance := none
  maxSamples := 10000000
  antithetic := true
  seed := 42
  timeSteps := 1
  batchSize := 50000
  workers := 1
  warnRatio := some 0.05
  logTimings := false

/-- A setting by its name. -/
def assign (s : Settings α) (name : String) (v : SettingValue α) : Except Misuse (Settings α) :=
  match name, v with
  | "samples", .absent => .ok { s with samples := none }
  | "samples", .whole n => .ok { s with samples := some n }
  | "tolerance", .absent => .ok { s with tolerance := none }
  | "tolerance", .number x => .ok { s with tolerance := some x }
  | "tolerance", .whole n => .ok { s with tolerance := some (n : α) }
  | "max_samples", .whole n => .ok { s with maxSamples := n }
  | "antithetic_variance", .truth b => .ok { s with antithetic := b }
  | "random_seed", .whole n => .ok { s with seed := n }
  | "time_steps", .whole n => .ok { s with timeSteps := n }
  | "batch_size", .whole n => .ok { s with batchSize := n }
  | "workers", .whole n => .ok { s with workers := n }
  | "std_error_warn_ratio", .absent => .ok { s with warnRatio := none }
  | "std_error_warn_ratio", .number x => .ok { s with warnRatio := some x }
  | "std_error_warn_ratio", .whole n => .ok { s with warnRatio := some (n : α) }
  | "log_timings", .truth b => .ok { s with logTimings := b }
  | name, _ =>
    if ["samples", "tolerance", "max_samples", "antithetic_variance", "random_seed", "time_steps",
      "batch_size", "workers", "std_error_warn_ratio", "log_timings"].contains name then
      .error .wrongKind
    else .error .unknownName

def check (s : Settings α) : Outcome α Unit := do
  .require (s.samples.isNone ≠ s.tolerance.isNone) (.setting .stoppingRule)
  match s.samples with
  | some n => .require (¬n < 2) (.setting (.samples n))
  | none => pure ()
  match s.tolerance with
  | some x => .require (¬x ≤ 0) (.setting (.tolerance x))
  | none => pure ()
  .require (¬s.maxSamples < 2) (.setting (.maxSamples s.maxSamples))
  .require (¬s.timeSteps < 1) (.setting (.timeSteps s.timeSteps))
  .require (¬s.batchSize < 1) (.setting (.batchSize s.batchSize))
  .require (¬s.workers < 1) (.setting (.workers s.workers))
  match s.warnRatio with
  | some x => .require (¬x ≤ 0) (.setting (.warnRatio x))
  | none => pure ()

/-- The standard settings with some of them changed. -/
def ofFields (fields : List (String × SettingValue α)) : Outcome α (Settings α) := do
  let s ← .ofMisuse (fields.foldlM (fun s (name, v) => s.assign name v) standard)
  s.check
  return s

end Settings

end OptionDesk
