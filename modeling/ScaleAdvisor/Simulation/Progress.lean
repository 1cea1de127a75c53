import ScaleAdvisor.Catalog.Score
import ScaleAdvisor.View.Forest

/-!
What the event log of a view tells of a simulation: which workloads have been placed, which the
scheduler has given up on, and whether there is anything left to wait for.
-/

namespace ScaleAdvisor

/-- What is known so far, having read the first `cursor` events. -/
structure SimulationProgress where
  cursor : Nat := 0
  unscheduled : KeySet WorkloadKey
  /-- The node of each workload's first `Scheduled` event that names one. -/
  scheduled : SortedMap WorkloadKey String := ∅
  givenUp : KeySet WorkloadKey := ∅

/-- What a look at the events leads to. -/
inductive Verdict where
  | waiting
  | settled
  | cancelled (cause : String)
  | timedOut
  deriving DecidableEq, Repr

namespace SimulationProgress

/-- A workload has been placed; only the first time counts. -/
def place (p : SimulationProgress) (k : WorkloadKey) (node : String) : SimulationProgress :=
  if p.scheduled.contains k then p
  else { p with unscheduled := p.unscheduled.erase k, scheduled := p.scheduled.insert k node }

/-- Take in one event. -/
def note (p : SimulationProgress) (e : ViewEvent) : SimulationProgress :=
  match e.reason, e.nodeName with
  | .scheduled, some node => p.place e.workload node
  | .scheduled, none => p
  | .failedScheduling, _ => { p with givenUp := p.givenUp.add e.workload }

/-- Take in the events that follow those already read. -/
def read (p : SimulationProgress) (events : List ViewEvent) : SimulationProgress :=
  events.foldl note { p with cursor := p.cursor + events.length }

/-- Whether to go on waiting, given why the whole run is cancelled, if it is, and whether the
simulation's own time is up. -/
def verdict (p : SimulationProgress) (cause : Option String) (expired : Bool) : Verdict :=
  if p.unscheduled.isEmpty then .settled
  else
    match cause with
    | some cause => .cancelled cause
    | none =>
      if expired then .timedOut
      else if p.unscheduled.keys.all p.givenUp.has then .settled
      else .waiting

/-- Workloads with what they ask for, by node. -/
abbrev Assignments := SortedMap String (List (WorkloadKey × Resources))

/-- What a workload of a view asks for; one that is gone asks for nothing. -/
def requestsIn (f : Forest) (v : ViewId) (classes : List RuntimeClass) (k : WorkloadKey) :
    Except ViewError Resources :=
  (f.workload v k).map fun found => (found.map (·.effectiveRequests classes)).getD ∅

/-- Collect placed workloads by their nodes, in order of their keys. -/
def collect (f : Forest) (v : ViewId) (classes : List RuntimeClass)
    (placed : List (WorkloadKey × String)) : Except ViewError Assignments :=
  placed.foldlM (fun byNode (k, node) => do
    let requests ← requestsIn f v classes k
    return byNode.insert node (byNode.getD node [] ++ [(k, requests)])) ∅

/-- What the simulation has come to. -/
def outcome (p : SimulationProgress) (f : Forest) (v : ViewId) (name : String)
    (placement : Placement) (node : Node) : Except ViewError Outcome := do
  let classes ← f.runtimeClasses v
  let byNode ← collect f v classes p.scheduled.entries
  return {
    name, placement
    scaledNode := node
    scaled := ⟨node.name, byNode.getD node.name []⟩
    others := (byNode.erase node.name).entries.map fun (name, workloads) => ⟨name, workloads⟩
    unscheduled := p.unscheduled.keys }

end SimulationProgress

end ScaleAdvisor
