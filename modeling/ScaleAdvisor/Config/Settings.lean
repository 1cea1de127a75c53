import ScaleAdvisor.Catalog.Price
import ScaleAdvisor.Config.Duration
import ScaleAdvisor.Toml.Reader

/-!
The configuration of an adviser: a record with a default for every field, and the settings that a
valid one stands for.
-/

namespace ScaleAdvisor

structure AdvisorConfig where
  maxParallelSimulations : Nat := 8
  pollInterval : String := "20ms"
  simulationTimeout : String := "5s"
  resyncInterval : String := "50ms"
  /-- Where trace logs go; without one, where the system keeps temporary files. -/
  traceDir : Option String := none
  resultChannelCapacity : Nat := 16
  rngSeed : Option Nat := none
  weights : WeightTable Float := .standard

instance : Inhabited AdvisorConfig := ⟨{}⟩

/-- Times in milliseconds. -/
structure Settings where
  maxParallel : Nat := 8
  poll : Nat := 20
  timeout : Nat := 5000
  resync : Nat := 50
  traceDir : Option String := none
  rngSeed : Option Nat := none
  deriving DecidableEq, Repr

/-- Why a configuration is not valid. -/
inductive ConfigError where
  | noCapacity
  | badDuration (field : String) (reason : DurationError)
  deriving DecidableEq, Repr

/-- What is wrong, and why. -/
def ConfigError.texts : ConfigError → List String
  | .noCapacity => ["result_channel_capacity must be at least 1"]
  | .badDuration field reason => [field, reason.message]

def ConfigError.message (e : ConfigError) : String := ": ".intercalate e.texts

namespace AdvisorConfig

/-- Read a duration, naming its field on failure. -/
def duration (field text : String) : Except ConfigError Nat :=
  match Duration.parse text with
  | .ok ms => .ok ms
  | .error reason => .error (.badDuration field reason)

/-- Check a configuration; one simulation at least may run at a time. -/
def settings (c : AdvisorConfig) : Except ConfigError Settings := do
  if c.resultChannelCapacity = 0 then throw .noCapacity
  let poll ← duration "poll_interval" c.pollInterval
  let timeout ← duration "simulation_timeout" c.simulationTimeout
  let resync ← duration "resync_interval" c.resyncInterval
  return {
    maxParallel := max c.maxParallelSimulations 1
    poll, timeout, resync
    traceDir := c.traceDir
    rngSeed := c.rngSeed }

open Json in
def read? : Json.Reader AdvisorConfig := record? fun m => do
  let maxParallelSimulations ← m.fieldOr "max_parallel_simulations" nat64? 8
  let pollInterval ← m.fieldOr "poll_interval" text? "20ms"
  let simulationTimeout ← m.fieldOr "simulation_timeout" text? "5s"
  let resyncInterval ← m.fieldOr "resync_interval" text? "50ms"
  let traceDir ← m.field? "trace_dir" text?
  let resultChannelCapacity ← m.fieldOr "result_channel_capacity" nat64? 16
  let rngSeed ← m.field? "rng_seed" nat64?
  let weights ← m.fieldOr "weights" WeightTable.read? .standard
  return {
    maxParallelSimulations, pollInterval, simulationTimeout, resyncInterval, traceDir,
    resultChannelCapacity, rngSeed, weights }

open Json in
def toJson (c : AdvisorConfig) : Json :=
  .object [("max_parallel_simulations", ofNat c.maxParallelSimulations),
    ("poll_interval", .text c.pollInterval), ("simulation_timeout", .text c.simulationTimeout),
    ("resync_interval", .text c.resyncInterval), ("trace_dir", ofOption .text c.traceDir),
    ("result_channel_capacity", ofNat c.resultChannelCapacity),
    ("rng_seed", ofOption ofNat c.rngSeed), ("weights", c.weights.toJson)]

/-- What a configuration file may be. -/
inductive Parsed where
  | malformed
  | invalid (e : ConfigError)
  | valid (c : AdvisorConfig) (s : Settings)

/-- Check a configuration that has been read. -/
def checked (c : AdvisorConfig) : Parsed :=
  match c.settings with
  | .error e => .invalid e
  | .ok s => .valid c s

/-- Read and check the text of a configuration file. -/
def parse (text : String) : Parsed :=
  match (Toml.read? text).bind read? with
  | none => .malformed
  | some c => c.checked

end AdvisorConfig

end ScaleAdvisor
