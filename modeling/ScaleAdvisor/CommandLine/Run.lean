import ScaleAdvisor.Advice.Planner
import ScaleAdvisor.CommandLine.Command
import ScaleAdvisor.Json.Printer
import ScaleAdvisor.Scheduling.BinPack
import ScaleAdvisor.Wire.Advice

/-!
Running a command: read what it names, answer, and report. The faults of the configuration are found
first, then those of the request, the strategy and the prices.
-/

namespace ScaleAdvisor.CommandLine

/-- What a command finds around it. -/
structure Surroundings where
  /-- The text of a file that can be read. -/
  textOf : String → Option String
  input : String
  /-- The identifier of a request that has none. -/
  freshId : String
  /-- Where the system keeps temporary files. -/
  tempDir : String

inductive CommandError where
  | unreadableConfig (path : String)
  | malformedConfig
  | invalidConfig (e : ConfigError)
  | unreadableRequest (path : String)
  | malformedRequest
  | badStrategy (e : SimulationError)
  | unreadablePricing (path : String)
  | badPricing (e : ScoreError)
  | noAdvice (e : AdviceError)

/-- What is wrong, and why as far as that is known. -/
def CommandError.texts : CommandError → List String
  | .unreadableConfig path => ["reading config " ++ path]
  | .malformedConfig => ["TOML parse error"]
  | .invalidConfig e => e.texts
  | .unreadableRequest path => ["reading request " ++ path]
  | .malformedRequest => ["parsing request"]
  | .badStrategy e => [e.message]
  | .unreadablePricing path => ["reading pricing " ++ path]
  | .badPricing (.invalidPricing _) => ["invalid pricing data"]
  | .badPricing e => [e.message]
  | .noAdvice e => ["scaling advice failed: " ++ e.message]

/-- What a command prints, one line each, and how it fails if it does. -/
structure Report where
  lines : List String := []
  failure : Option CommandError := none

/-- All that is needed to answer a request. -/
structure Preparation where
  request : AdviceRequest
  settings : Settings
  scoring : Scoring Float

def readConfig (env : Surroundings) (path : String) :
    Except CommandError (AdvisorConfig × Settings) :=
  match env.textOf path with
  | none => .error (.unreadableConfig path)
  | some text =>
    match AdvisorConfig.parse text with
    | .malformed => .error .malformedConfig
    | .invalid e => .error (.invalidConfig e)
    | .valid c s => .ok (c, s)

/-- The request as it is read: without an identifier it gets a fresh one, and without a correlation
id its identifier stands for that too. -/
def readRequest (env : Surroundings) (path : String) : Except CommandError AdviceRequest := do
  let text ←
    if path = "-" then pure env.input
    else
      match env.textOf path with
      | some text => pure text
      | none => .error (.unreadableRequest path)
  match (Json.read? text).bind Wire.request? with
  | none => .error .malformedRequest
  | some r =>
    let id := if r.id.isEmpty then env.freshId else r.id
    return { r with id, correlationId := if r.correlationId.isEmpty then id else r.correlationId }

def readPricing (env : Surroundings) (path : String) : Except CommandError (PriceTable Float) :=
  match env.textOf path with
  | none => .error (.unreadablePricing path)
  | some text =>
    match PriceTable.parse text with
    | .ok prices => .ok prices
    | .error e => .error (.badPricing e)

/-- Let the options take the place of what the request says. -/
def applyOptions (o : AdviseOptions) (r : AdviceRequest) : Except CommandError AdviceRequest := do
  let simulation ←
    match o.strategy.map SimulationStrategy.parse with
    | none => pure r.simulation
    | some (.ok strategy) => pure strategy
    | some (.error e) => .error (.badStrategy e)
  return { r with simulation, mode := if o.incremental then .incremental else r.mode }

def prepare (env : Surroundings) (o : AdviseOptions) : Except CommandError Preparation := do
  let (config, settings) ←
    match o.config with
    | some path => readConfig env path
    | none => pure ({}, {})
  let request ← applyOptions o (← readRequest env o.request)
  let prices ← readPricing env o.pricing
  return {
    request, settings
    scoring := { strategy := request.scoring, prices, weights := config.weights } }

namespace Preparation

/-- The trace log that the request is to get, if it can be opened. -/
def trace (p : Preparation) (env : Surroundings) (canOpen : String → String → String → Bool) :
    Option String :=
  Planner.tracePath canOpen (p.settings.traceDir.getD env.tempDir) p.request

/-- Answer the request. Of equally good plans the first is taken. -/
def answer (p : Preparation) (trace : Option String) : Report :=
  let messages := (Planner.answer BinPack.algorithm p.settings p.scoring p.request trace
    none).first.messages
  { lines := messages.map fun m => m.toJson.sortMembers.write
    failure := messages.getLast?.bind fun m =>
      match m.outcome with
      | .ok _ => none
      | .error e => some (.noAdvice e) }

end Preparation

/-- Run a command, given which trace logs can be opened. -/
def Command.run (env : Surroundings) (canOpen : String → String → String → Bool) : Command → Report
  | .advise o =>
    match prepare env o with
    | .error e => { failure := some e }
    | .ok p => p.answer (p.trace env canOpen)
  | .checkConfig path =>
    match readConfig env path with
    | .error e => { failure := some e }
    | .ok _ => {}

end ScaleAdvisor.CommandLine
