import ScaleAdvisor.Simulation.Batch
import ScaleAdvisor.View.Registry

/-!
One pass: every eligible candidate of a group is simulated in a sandbox of its own over one base
view, and those that got anywhere are scored. The winner's sandbox can stay open and become the base
of the next pass.
-/

namespace ScaleAdvisor

/-- What takes the simulations of a pass from start to end, and knows why the whole run has been
cancelled, if it has. -/
structure Conductor (σ : Type) where
  cause : σ → Option String
  runAll (pass : Nat) : Forest → σ → List Simulation → Forest × σ × List Simulation

/-- Simulations that run side by side on a clock. -/
def SimulationRules.conductor (rules : SimulationRules) : Conductor Timeline where
  cause t := t.tokens.cause t.now rules.outer
  runAll := Simulation.runAll rules

/-- Everything that passes change. -/
structure Workspace (σ : Type) where
  forest : Forest
  registry : Registry
  clock : σ

/-- How simulations are scored. -/
structure Scoring (F : Type) where
  strategy : ScoringStrategy
  prices : PriceTable F
  weights : WeightTable F

/-- What a pass leaves behind. -/
structure Pass where
  number : Nat
  /-- In order of their names. -/
  simulations : List Simulation := []
  /-- The sandbox of each simulation, both by name. -/
  sandboxes : SortedMap String String := ∅
  /-- There was nothing to place. -/
  nothingPending : Bool := false

namespace Pass

def sandboxName (number : Nat) (c : Candidate) : String := c.name ++ "@p" ++ toString number

/-- Release sandboxes; those of simulations of the name `keep` stay open. -/
def releaseEach (keep : Option String) (f : Forest) (r : Registry) :
    List (String × String) → Forest × Registry
  | [] => (f, r)
  | (simulation, sandbox) :: rest =>
    let (f, r) := r.release f sandbox (keep == some simulation)
    releaseEach keep f r rest

/-- Release all sandboxes of the pass but the one to keep. -/
def release {σ : Type} (p : Pass) (keep : Option String) (w : Workspace σ) : Workspace σ :=
  let (forest, registry) := releaseEach keep w.forest w.registry p.sandboxes.entries
  { w with forest, registry }

/-- Give each candidate a sandbox and set up its simulation. A candidate that cannot be set up is
left out. When nothing is pending there is nothing to simulate, and all sandboxes are given back. -/
def prepare {σ : Type} (base : ViewId) (w : Workspace σ) (p : Pass) :
    List Candidate → Workspace σ × Pass
  | [] => (w, p)
  | c :: rest =>
    let sandbox := sandboxName p.number c
    let (forest, registry, v) := w.registry.sandboxOver w.forest sandbox base
    let w := { w with forest, registry }
    let taken := p.sandboxes.insert c.name sandbox
    match Simulation.create forest c v with
    | .ok s =>
      prepare base w { p with sandboxes := taken, simulations := p.simulations ++ [s] } rest
    | .error e =>
      if e.isNothingPending then
        let p := { p with sandboxes := taken, simulations := [], nothingPending := true }
        (p.release none w, p)
      else
        let (forest, registry) := registry.release forest sandbox false
        prepare base { w with forest, registry } { p with sandboxes := taken.erase c.name } rest

def sortByName (sims : List Simulation) : List Simulation :=
  sims.mergeSort fun a b => !(b.name < a.name)

/-- Run a pass over `base`. Fails only when the run is cancelled; then all sandboxes are given
back. -/
def run {σ : Type} (c : Conductor σ) (number : Nat) (base : ViewId) (candidates : List Candidate)
    (w : Workspace σ) : Workspace σ × Except SimulationError Pass :=
  let (w, p) := prepare base w { number } candidates
  if p.nothingPending then (w, .ok p)
  else
    let (forest, clock, simulations) := c.runAll number w.forest w.clock p.simulations
    let w := { w with forest, clock }
    match c.cause clock with
    | some cause => (p.release none w, .error (.cancelled cause))
    | none => (w, .ok { p with simulations := sortByName simulations })

/-- What the simulations that succeeded have come to. -/
def outcomes (p : Pass) : List Outcome := p.simulations.filterMap (·.outcome?)

def simulation? (p : Pass) (name : String) : Option Simulation :=
  p.simulations.find? (·.name == name)

def view? (p : Pass) (name : String) : Option ViewId := (p.simulation? name).map (·.view)

/-- The simulation of that name has put its node to use. -/
def usedScaledNode (p : Pass) (name : String) : Bool :=
  ((p.simulation? name).bind (·.outcome?)).any (·.usesScaledNode)

section

variable {F : Type} [Quantity F]

/-- The scores of all that placed something, or left nothing pending. A simulation that cannot be
scored is left out. -/
def scores (p : Pass) (scoring : Scoring F) : List (NodeScore F) :=
  (p.outcomes.filter fun o => o.converged || o.boundWorkloads != 0).filterMap fun o =>
    (score scoring.strategy scoring.prices scoring.weights o).toOption

/-- All scores that can win the pass. -/
def ties (p : Pass) (scoring : Scoring F) : Except SimulationError (List (NodeScore F)) :=
  match p.scores scoring with
  | [] => .ok []
  | scores =>
    match finalTies scoring.strategy.selector scoring.strategy.preference scores with
    | .ok ties => .ok ties
    | .error e => .error (.selectNodeScore e)

end

end Pass

end ScaleAdvisor
