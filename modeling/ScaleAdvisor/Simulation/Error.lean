import ScaleAdvisor.Catalog.Score
import ScaleAdvisor.Scheduling.Algorithm
import ScaleAdvisor.Text.Blank

/-!
Why a simulation, or the advice built on simulations, fails.
-/

namespace ScaleAdvisor

inductive SimulationError where
  | createSimulation (name : String) (source : SimulationError)
  | templateNotFound (pool template : String)
  | noUnscheduledWorkloads
  | runSimulation (name : String) (source : SimulationError)
  | simulationTimeout (name : String)
  | launchScheduler (source : SchedulerError)
  | computeNodeScore (name : String) (source : ScoreError)
  | selectNodeScore (source : ScoreError)
  | noWinningNodeScore
  | noScalingAdvice
  | unsupportedStrategy (name : String)
  | createSimulator (reason : String)
  | unimplemented (what : String)
  | cancelled (cause : String)
  | traceLog (path reason : String)
  | view (source : ViewError)

namespace SimulationError

def message : SimulationError → String
  | .createSimulation name source =>
    "failed to create simulation " ++ name ++ ": " ++ source.message
  | .templateNotFound pool template =>
    "node template " ++ template ++ " not found in node pool " ++ pool
  | .noUnscheduledWorkloads => "no unscheduled workloads"
  | .runSimulation name source => "failed to run simulation " ++ name ++ ": " ++ source.message
  | .simulationTimeout name => "simulation " ++ name ++ " timed out"
  | .launchScheduler source => "failed to launch scheduler: " ++ source.message
  | .computeNodeScore name source =>
    "failed to compute node score for " ++ name ++ ": " ++ source.message
  | .selectNodeScore source => "failed to select node score: " ++ source.message
  | .noWinningNodeScore => "no winning node score"
  | .noScalingAdvice => "no scaling advice could be produced"
  | .unsupportedStrategy name => "unsupported simulation strategy: " ++ name
  | .createSimulator reason => "failed to create simulator: " ++ reason
  | .unimplemented what => "not implemented: " ++ what
  | .cancelled cause => "cancelled: " ++ cause
  | .traceLog path reason => "failed to open trace log " ++ path ++ ": " ++ reason
  | .view source => "view error: " ++ source.message

/-- There was nothing to place, perhaps noticed while a simulation was set up. -/
def isNothingPending : SimulationError → Bool
  | .noUnscheduledWorkloads => true
  | .createSimulation _ source => source.isNothingPending
  | _ => false

end SimulationError

/-- A strategy by its name, with underscores or hyphens; blanks around it do not count. -/
def SimulationStrategy.parse (name : String) : Except SimulationError SimulationStrategy :=
  let name := Text.trim name
  if name = "multi_simulations_per_group" || name = "multi-simulations-per-group" then
    .ok .multiSimulationsPerGroup
  else if name = "single_simulation_per_group" || name = "single-simulation-per-group" then
    .ok .singleSimulationPerGroup
  else .error (.unsupportedStrategy name)

/-- Why a request got no plan. -/
structure AdviceError where
  requestId : String
  correlationId : String
  source : SimulationError

def AdviceError.message (e : AdviceError) : String :=
  "scaling advice request " ++ e.requestId ++ " (correlation " ++ e.correlationId ++ ") failed: " ++
    e.source.message

end ScaleAdvisor
