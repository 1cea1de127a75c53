import ScaleAdvisor.Advice.Request
import ScaleAdvisor.Catalog.Score
import ScaleAdvisor.Wire.Cluster

/-!
The JSON form of pools, requests, plans, assignments and scores.
-/

namespace ScaleAdvisor.Wire

open Json

def template? : Reader NodeTemplate := record? fun m => do
  let name ← m.field "name" text?
  let instanceType ← m.field "instance_type" text?
  let architecture ← m.fieldOr "architecture" text? "amd64"
  let capacity ← m.field "capacity" resources?
  let kubeReserved ← m.fieldOr "kube_reserved" resources? ∅
  let systemReserved ← m.fieldOr "system_reserved" resources? ∅
  let taints ← m.fieldOr "taints" (list? taint?) []
  return { name, instanceType, architecture, capacity, kubeReserved, systemReserved, taints }

def ofTemplate (t : NodeTemplate) : Json :=
  .object [("name", .text t.name), ("instance_type", .text t.instanceType),
    ("architecture", .text t.architecture), ("capacity", ofResources t.capacity),
    ("kube_reserved", ofResources t.kubeReserved),
    ("system_reserved", ofResources t.systemReserved), ("taints", ofList ofTaint t.taints)]

def pool? : Reader NodePool := record? fun m => do
  let name ← m.field "name" text?
  let region ← m.field "region" text?
  let priority ← m.fieldOr "priority" int32? 0
  let zones ← m.field "zones" (list? text?)
  let labels ← m.fieldOr "labels" labels? ∅
  let taints ← m.fieldOr "taints" (list? taint?) []
  let templates ← m.field "node_templates" (list? template?)
  let maxNodes ← m.field? "max_nodes" nat32?
  return { name, region, priority, zones, labels, taints, templates, maxNodes }

def ofPool (p : NodePool) : Json :=
  .object [("name", .text p.name), ("region", .text p.region), ("priority", .int p.priority),
    ("zones", ofList .text p.zones), ("labels", ofLabels p.labels),
    ("taints", ofList ofTaint p.taints), ("node_templates", ofList ofTemplate p.templates),
    ("max_nodes", ofOption ofNat p.maxNodes)]

/-- The pools of a constraint record. -/
def constraint? : Reader (List NodePool) := record? fun m => m.field "node_pools" (list? pool?)

def ofConstraint (pools : List NodePool) : Json := .object [("node_pools", ofList ofPool pools)]

def scoring? : Reader ScoringStrategy :=
  choice? [("least_cost", .leastCost), ("least_waste", .leastWaste)]

def ofScoring : ScoringStrategy → Json
  | .leastCost => .text "least_cost"
  | .leastWaste => .text "least_waste"

def simulationStrategy? : Reader SimulationStrategy :=
  choice? [("multi_simulations_per_group", .multiSimulationsPerGroup),
    ("single_simulation_per_group", .singleSimulationPerGroup)]

def ofSimulationStrategy (s : SimulationStrategy) : Json := .text s.text

def adviceMode? : Reader AdviceMode :=
  choice? [("incremental", .incremental), ("all_at_once", .allAtOnce)]

def ofAdviceMode : AdviceMode → Json
  | .incremental => .text "incremental"
  | .allAtOnce => .text "all_at_once"

def request? : Reader AdviceRequest := record? fun m => do
  let id ← m.field "id" text?
  let correlationId ← m.fieldOr "correlation_id" text? ""
  let labels ← m.fieldOr "labels" labels? ∅
  let pools ← m.field "constraint" constraint?
  let snapshot ← m.field "snapshot" snapshot?
  let scoring ← m.fieldOr "scoring_strategy" scoring? .leastCost
  let simulation ← m.fieldOr "simulation_strategy" simulationStrategy? .multiSimulationsPerGroup
  let mode ← m.fieldOr "advice_generation_mode" adviceMode? .allAtOnce
  let diagnosticVerbosity ← m.fieldOr "diagnostic_verbosity" nat32? 0
  return {
    id, correlationId, labels, pools, snapshot, scoring, simulation, mode, diagnosticVerbosity }

def ofRequest (r : AdviceRequest) : Json :=
  .object [("id", .text r.id), ("correlation_id", .text r.correlationId),
    ("labels", ofLabels r.labels), ("constraint", ofConstraint r.pools),
    ("snapshot", ofSnapshot r.snapshot), ("scoring_strategy", ofScoring r.scoring),
    ("simulation_strategy", ofSimulationStrategy r.simulation),
    ("advice_generation_mode", ofAdviceMode r.mode),
    ("diagnostic_verbosity", ofNat r.diagnosticVerbosity)]

def placement? : Reader Placement := record? fun m => do
  let pool ← m.field "node_pool" text?
  let template ← m.field "node_template" text?
  let instanceType ← m.field "instance_type" text?
  let region ← m.field "region" text?
  let zone ← m.field "zone" text?
  return { pool, template, instanceType, region, zone }

def ofPlacement (p : Placement) : Json :=
  .object [("node_pool", .text p.pool), ("node_template", .text p.template),
    ("instance_type", .text p.instanceType), ("region", .text p.region), ("zone", .text p.zone)]

def scaleItem? : Reader ScaleItem := record? fun m => do
  let placement ← m.field "placement" placement?
  let currentReplicas ← m.field "current_replicas" nat32?
  let delta ← m.field "delta" nat32?
  return { placement, currentReplicas, delta }

def ofScaleItem (i : ScaleItem) : Json :=
  .object [("placement", ofPlacement i.placement), ("current_replicas", ofNat i.currentReplicas),
    ("delta", ofNat i.delta)]

def plan? : Reader ScaleOutPlan := record? fun m => do
  let items ← m.field "items" (list? scaleItem?)
  let unsatisfied ← m.field "unsatisfied_workload_names" (list? text?)
  return { items, unsatisfied }

def ofPlan (p : ScaleOutPlan) : Json :=
  .object [("items", ofList ofScaleItem p.items),
    ("unsatisfied_workload_names", ofList .text p.unsatisfied)]

def assignedWorkload? : Reader (WorkloadKey × Resources) := record? fun m => do
  let key ← m.field "key" workloadKey?
  let requests ← m.field "requests" resources?
  return (key, requests)

def ofAssignedWorkload (w : WorkloadKey × Resources) : Json :=
  .object [("key", ofWorkloadKey w.1), ("requests", ofResources w.2)]

def assignment? : Reader NodeAssignment := record? fun m => do
  let nodeName ← m.field "node_name" text?
  let workloads ← m.field "workloads" (list? assignedWorkload?)
  return { nodeName, workloads }

def ofAssignment (a : NodeAssignment) : Json :=
  .object [("node_name", .text a.nodeName), ("workloads", ofList ofAssignedWorkload a.workloads)]

def preference? : Reader Preference := choice? [("higher", .higher), ("lower", .lower)]

def ofPreference : Preference → Json
  | .higher => .text "higher"
  | .lower => .text "lower"

/-- A selector by its own name, or by the strategy that it serves. -/
def selector? : Reader Selector :=
  choice? [("min_price", .minPrice), ("max_allocatable", .maxAllocatable),
    ("for_least_cost", ScoringStrategy.leastCost.selector),
    ("for_least_waste", ScoringStrategy.leastWaste.selector)]

def ofSelector : Selector → Json
  | .minPrice => .text "min_price"
  | .maxAllocatable => .text "max_allocatable"

def ofOutcome (o : Outcome) : Json :=
  .object [("name", .text o.name), ("placement", ofPlacement o.placement),
    ("scaled_node", ofNode o.scaledNode), ("scaled_assignment", ofAssignment o.scaled),
    ("other_assignments", ofList ofAssignment o.others),
    ("unscheduled", ofList (fun k => .text k.text) o.unscheduled),
    ("converged", .bool o.converged), ("bound_workloads", ofNat o.boundWorkloads)]

/-- A score, its prices and units written by a writer of their own. -/
def ofScore {F : Type} (ofQuantity : F → Json) (s : NodeScore F) : Json :=
  .object [("name", .text s.name), ("placement", ofPlacement s.placement), ("value", .int s.value),
    ("scaled_node_resources", ofResources s.resources),
    ("unscheduled", ofList (fun k => .text k.text) s.unscheduled),
    ("hourly_price", ofQuantity s.hourlyPrice),
    ("normalized_allocatable", ofQuantity s.normalizedAllocatable)]

end ScaleAdvisor.Wire
