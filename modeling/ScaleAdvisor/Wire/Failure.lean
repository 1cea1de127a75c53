import ScaleAdvisor.Json.Record
import ScaleAdvisor.Simulation.Error
import ScaleAdvisor.Wire.Cluster

/-!
The JSON form of errors: a field `kind` says which error it is, and an error inside another one is
its `source`.
-/

namespace ScaleAdvisor.Wire

open Json

def viewErrorKind : ViewError → String
  | .alreadyExists _ _ => "AlreadyExists"
  | .notFound _ _ => "NotFound"
  | .alreadyBound _ _ => "AlreadyBound"
  | .closed _ => "Closed"

def scoreErrorKind : ScoreError → String
  | .priceNotFound _ _ => "PriceNotFound"
  | .invalidPrice _ _ => "InvalidPrice"
  | .invalidPricing _ => "InvalidPricing"
  | .computeNodeScore _ _ => "ComputeNodeScore"
  | .selectNodeScore _ => "SelectNodeScore"
  | .noWinningNodeScore => "NoWinningNodeScore"

def schedulerErrorKind : SchedulerError → String
  | .launchScheduler _ _ => "LaunchScheduler"
  | .taskFailed _ _ => "TaskFailed"
  | .cancelled _ => "Cancelled"
  | .view _ => "View"

def simulationErrorKind : SimulationError → String
  | .createSimulation _ _ => "CreateSimulation"
  | .templateNotFound _ _ => "TemplateNotFound"
  | .noUnscheduledWorkloads => "NoUnscheduledWorkloads"
  | .runSimulation _ _ => "RunSimulation"
  | .simulationTimeout _ => "SimulationTimeout"
  | .launchScheduler _ => "LaunchScheduler"
  | .computeNodeScore _ _ => "ComputeNodeScore"
  | .selectNodeScore _ => "SelectNodeScore"
  | .noWinningNodeScore => "NoWinningNodeScore"
  | .noScalingAdvice => "NoScalingAdvice"
  | .unsupportedStrategy _ => "UnsupportedSimulationStrategy"
  | .createSimulator _ => "CreateSimulator"
  | .unimplemented _ => "Unimplemented"
  | .cancelled _ => "Cancelled"
  | .traceLog _ _ => "TraceLog"
  | .view _ => "View"

def viewError? : Reader ViewError := record? fun m => do
  match ← m.field "kind" text? with
  | "AlreadyExists" =>
    let kind ← m.field "object" objectKind?
    return .alreadyExists (← m.field "view" text?) ⟨kind, ← m.field "key" text?⟩
  | "NotFound" =>
    let kind ← m.field "object" objectKind?
    return .notFound (← m.field "view" text?) ⟨kind, ← m.field "key" text?⟩
  | "AlreadyBound" => return .alreadyBound (← m.field "workload" text?) (← m.field "node" text?)
  | "Closed" => return .closed (← m.field "view" text?)
  | _ => none

/-- A score error, its price read by a reader of its own. -/
def scoreError? (price? : Reader Float) : Reader ScoreError := record? fun m => do
  match ← m.field "kind" text? with
  | "PriceNotFound" =>
    return .priceNotFound (← m.field "region" text?) (← m.field "instance_type" text?)
  | "InvalidPrice" =>
    return .invalidPrice (← m.field "instance_type" text?) (← m.field "price" price?)
  | "InvalidPricing" => return .invalidPricing (← m.field "text" text?)
  | "ComputeNodeScore" =>
    return .computeNodeScore (← m.field "name" text?) (← m.field "reason" text?)
  | "SelectNodeScore" => return .selectNodeScore (← m.field "text" text?)
  | "NoWinningNodeScore" => return .noWinningNodeScore
  | _ => none

def schedulerError? : Reader SchedulerError := record? fun m => do
  match ← m.field "kind" text? with
  | "LaunchScheduler" =>
    return .launchScheduler (← m.field "name" text?) (← m.field "reason" text?)
  | "TaskFailed" => return .taskFailed (← m.field "name" text?) (← m.field "reason" text?)
  | "Cancelled" => return .cancelled (← m.field "text" text?)
  | "View" => return .view (← m.field "source" viewError?)
  | _ => none

/-- A simulation error whose record is at most `depth` records deep. -/
def simulationErrorWithin? (price? : Reader Float) : Nat → Reader SimulationError
  | 0, _ => none
  | depth + 1, v => v |> record? fun m => do
    let within := m.field "source" (simulationErrorWithin? price? depth)
    match ← m.field "kind" text? with
    | "CreateSimulation" => return .createSimulation (← m.field "name" text?) (← within)
    | "TemplateNotFound" =>
      return .templateNotFound (← m.field "pool" text?) (← m.field "template" text?)
    | "NoUnscheduledWorkloads" => return .noUnscheduledWorkloads
    | "RunSimulation" => return .runSimulation (← m.field "name" text?) (← within)
    | "SimulationTimeout" => return .simulationTimeout (← m.field "text" text?)
    | "LaunchScheduler" => return .launchScheduler (← m.field "source" schedulerError?)
    | "ComputeNodeScore" =>
      return .computeNodeScore (← m.field "name" text?) (← m.field "source" (scoreError? price?))
    | "SelectNodeScore" => return .selectNodeScore (← m.field "source" (scoreError? price?))
    | "NoWinningNodeScore" => return .noWinningNodeScore
    | "NoScalingAdvice" => return .noScalingAdvice
    | "UnsupportedSimulationStrategy" => return .unsupportedStrategy (← m.field "text" text?)
    | "CreateSimulator" => return .createSimulator (← m.field "text" text?)
    | "Unimplemented" => return .unimplemented (← m.field "text" text?)
    | "Cancelled" => return .cancelled (← m.field "text" text?)
    | "TraceLog" => return .traceLog (← m.field "path" text?) (← m.field "text" text?)
    | "View" => return .view (← m.field "source" viewError?)
    | _ => none

def simulationError? (price? : Reader Float) : Reader SimulationError := fun v =>
  simulationErrorWithin? price? v.depth v

def adviceError? (price? : Reader Float) : Reader AdviceError := record? fun m => do
  let requestId ← m.field "request_id" text?
  let correlationId ← m.field "correlation_id" text?
  let source ← m.field "source" (simulationError? price?)
  return { requestId, correlationId, source }

end ScaleAdvisor.Wire
