import ScaleAdvisor.Advice.Result
import ScaleAdvisor.Advice.ScaleOut
import ScaleAdvisor.Config.Settings
import ScaleAdvisor.Config.Trace

/-!
The planner answers a request with messages: partial plans if the request asks for them, and at the
end exactly one terminal message with the whole plan or the failure.
-/

namespace ScaleAdvisor.Planner

/-- What an answered request leaves behind. -/
structure Answer (σ : Type) where
  messages : List AdviceResult
  clock : σ

def partialMessage (r : AdviceRequest) (p : ScaleOutPlan) : AdviceResult :=
  { name := r.id, labels := r.labels, outcome := .ok p, terminal := false }

def terminalMessage (r : AdviceRequest) (trace : Option String)
    (outcome : Except SimulationError ScaleOutPlan) : AdviceResult where
  name := r.id
  labels := r.labels
  outcome := match outcome with
    | .ok p => .ok p
    | .error source => .error ⟨r.id, r.correlationId, source⟩
  terminal := true
  traceLogPath := trace

/-- Partial plans are passed on only if the request wants them. -/
def partialMessages (r : AdviceRequest) (partials : List ScaleOutPlan) : List AdviceResult :=
  match r.mode with
  | .incremental => partials.map (partialMessage r)
  | .allAtOnce => []

/-- The path of a request's trace log. There is none if nobody asks for it or it cannot be
opened. -/
def tracePath (canOpen : String → String → String → Bool) (dir : String) (r : AdviceRequest) :
    Option String :=
  if r.diagnosticVerbosity != 0 && canOpen dir r.id r.correlationId then
    some (TraceLog.path dir r.id r.correlationId)
  else none

/-- Answer a request. -/
def plan {σ F : Type} [Quantity F] (c : Conductor σ) (r : AdviceRequest) (scoring : Scoring F)
    (trace : Option String) (clock : σ) : Choice (Answer σ) :=
  match r.simulation with
  | .singleSimulationPerGroup =>
    let e : SimulationError := .unimplemented ("simulation strategy " ++ r.simulation.text)
    .done ⟨[terminalMessage r trace (.error e)], clock⟩
  | .multiSimulationsPerGroup =>
    (ScaleOut.simulate c r scoring ∅ clock).bind fun result =>
      .done ⟨partialMessages r result.partials ++ [terminalMessage r trace result.outcome],
        result.workspace.clock⟩

def rules (s : Settings) (outer : TokenId) : SimulationRules :=
  { poll := s.poll, timeout := s.timeout, resync := s.resync, outer }

/-- Answer a request on a clock that starts at zero. The whole run may be cancelled at a set
time. -/
def answer {F : Type} [Quantity F] (algorithm : Algorithm) (s : Settings) (scoring : Scoring F)
    (r : AdviceRequest) (trace : Option String) (cancel : Option (Nat × String)) :
    Choice (Answer Timeline) :=
  let (tokens, outer) := TokenForest.root {}
  let clock : Timeline := {
    tokens
    launcher := .ofCapacity algorithm s.maxParallel
    agenda := cancel.toList.map fun (time, cause) => (time, .cancel outer cause) }
  plan (rules s outer).conductor r scoring trace clock

end ScaleAdvisor.Planner
