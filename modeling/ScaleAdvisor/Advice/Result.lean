import ScaleAdvisor.Simulation.Error
import ScaleAdvisor.Wire.Advice

/-!
The messages that answer a request: partial plans, then one terminal message with the whole plan or
the failure.
-/

namespace ScaleAdvisor

structure AdviceResult where
  name : String
  labels : Labels
  outcome : Except AdviceError ScaleOutPlan
  terminal : Bool
  traceLogPath : Option String := none

namespace AdviceResult

open Json in
def outcomeMember : Except AdviceError ScaleOutPlan → String × Json
  | .ok plan => ("plan", Wire.ofPlan plan)
  | .error e => ("error", .object [("request_id", .text e.requestId),
      ("correlation_id", .text e.correlationId), ("message", .text e.source.message)])

open Json in
def toJson (r : AdviceResult) : Json :=
  .object ([("name", .text r.name), ("labels", Wire.ofLabels r.labels),
      ("terminal", .bool r.terminal), outcomeMember r.outcome] ++
    r.traceLogPath.toList.map fun path => ("trace_log_path", .text path))

end AdviceResult

end ScaleAdvisor
