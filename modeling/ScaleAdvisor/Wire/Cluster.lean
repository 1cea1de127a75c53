import ScaleAdvisor.Cluster.Object
import ScaleAdvisor.Json.Record
import ScaleAdvisor.View.Forest

/-!
The JSON form of cluster objects and of the events of a view. Amounts are 64-bit and priorities
32-bit integers.
-/

namespace ScaleAdvisor.Wire

open Json

def resources? : Reader Resources := fun v => (map? int64? v).map Resources.ofAmounts

def ofResources (r : Resources) : Json := ofMap .int r.amounts

def labels? : Reader Labels := map? text?

def ofLabels (l : Labels) : Json := ofMap .text l

def taintEffect? : Reader TaintEffect :=
  choice? [("NoSchedule", .noSchedule), ("PreferNoSchedule", .preferNoSchedule),
    ("NoExecute", .noExecute)]

def ofTaintEffect : TaintEffect → Json
  | .noSchedule => .text "NoSchedule"
  | .preferNoSchedule => .text "PreferNoSchedule"
  | .noExecute => .text "NoExecute"

def taint? : Reader Taint := record? fun m => do
  let key ← m.field "key" text?
  let value ← m.fieldOr "value" text? ""
  let effect ← m.field "effect" taintEffect?
  return { key, value, effect }

def ofTaint (t : Taint) : Json :=
  .object [("key", .text t.key), ("value", .text t.value), ("effect", ofTaintEffect t.effect)]

def operator? : Reader TolerationOperator := choice? [("Equal", .equal), ("Exists", .existence)]

def ofOperator : TolerationOperator → Json
  | .equal => .text "Equal"
  | .existence => .text "Exists"

def toleration? : Reader Toleration := record? fun m => do
  let key ← m.fieldOr "key" text? ""
  let operator ← m.fieldOr "operator" operator? .equal
  let value ← m.fieldOr "value" text? ""
  let effect ← m.field? "effect" taintEffect?
  return { key, operator, value, effect }

def ofToleration (t : Toleration) : Json :=
  .object [("key", .text t.key), ("operator", ofOperator t.operator), ("value", .text t.value),
    ("effect", ofOption ofTaintEffect t.effect)]

/-- A node from the fields of a record. -/
def nodeOf (m : Members) : Option Node := do
  let name ← m.field "name" text?
  let labels ← m.fieldOr "labels" labels? ∅
  let taints ← m.fieldOr "taints" (list? taint?) []
  let capacity ← m.field "capacity" resources?
  let allocatable ← m.field "allocatable" resources?
  let unschedulable ← m.fieldOr "unschedulable" bool? false
  return { name, labels, taints, capacity, allocatable, unschedulable }

def nodeMembers (n : Node) : Members :=
  [("name", .text n.name), ("labels", ofLabels n.labels), ("taints", ofList ofTaint n.taints),
    ("capacity", ofResources n.capacity), ("allocatable", ofResources n.allocatable),
    ("unschedulable", .bool n.unschedulable)]

def node? : Reader Node := record? nodeOf

def ofNode (n : Node) : Json := .object (nodeMembers n)

def workloadOf (m : Members) : Option Workload := do
  let inNamespace ← m.field "namespace" text?
  let name ← m.field "name" text?
  let requests ← m.fieldOr "requests" resources? ∅
  let nodeName ← m.field? "node_name" text?
  let priority ← m.field? "priority" int32?
  let priorityClassName ← m.field? "priority_class_name" text?
  let runtimeClassName ← m.field? "runtime_class_name" text?
  let nodeSelector ← m.fieldOr "node_selector" labels? ∅
  let tolerations ← m.fieldOr "tolerations" (list? toleration?) []
  return {
    inNamespace, name, requests, nodeName, priority, priorityClassName, runtimeClassName,
    nodeSelector, tolerations }

def workloadMembers (w : Workload) : Members :=
  [("namespace", .text w.inNamespace), ("name", .text w.name), ("requests", ofResources w.requests),
    ("node_name", ofOption .text w.nodeName), ("priority", ofOption .int w.priority),
    ("priority_class_name", ofOption .text w.priorityClassName),
    ("runtime_class_name", ofOption .text w.runtimeClassName),
    ("node_selector", ofLabels w.nodeSelector), ("tolerations", ofList ofToleration w.tolerations)]

def workload? : Reader Workload := record? workloadOf

def ofWorkload (w : Workload) : Json := .object (workloadMembers w)

def priorityClassOf (m : Members) : Option PriorityClass := do
  let name ← m.field "name" text?
  let value ← m.field "value" int32?
  return { name, value }

def priorityClassMembers (c : PriorityClass) : Members :=
  [("name", .text c.name), ("value", .int c.value)]

def priorityClass? : Reader PriorityClass := record? priorityClassOf

def ofPriorityClass (c : PriorityClass) : Json := .object (priorityClassMembers c)

def runtimeClassOf (m : Members) : Option RuntimeClass := do
  let name ← m.field "name" text?
  let overhead ← m.fieldOr "overhead" resources? ∅
  return { name, overhead }

def runtimeClassMembers (c : RuntimeClass) : Members :=
  [("name", .text c.name), ("overhead", ofResources c.overhead)]

def runtimeClass? : Reader RuntimeClass := record? runtimeClassOf

def ofRuntimeClass (c : RuntimeClass) : Json := .object (runtimeClassMembers c)

def objectKind? : Reader ObjectKind :=
  choice? [("node", .node), ("workload", .workload), ("priority_class", .priorityClass),
    ("runtime_class", .runtimeClass)]

/-- A kind by its bare name. -/
def kindTag? : Reader ObjectKind
  | .text s => objectKind? (.text s)
  | _ => none

/-- The fields of an object, whose field `kind` says which kind it is. All of the record has to be
readable, unknown fields too. -/
def objectOf (m : Members) : Option ClusterObject := do
  if !membersReadable m then none
  let kind ← m.field "kind" kindTag?
  let fields := m.filter (·.1 != "kind")
  match kind with
  | .node => (nodeOf fields).map .node
  | .workload => (workloadOf fields).map .workload
  | .priorityClass => (priorityClassOf fields).map .priorityClass
  | .runtimeClass => (runtimeClassOf fields).map .runtimeClass

def object? : Reader ClusterObject := record? objectOf

def ofObject (o : ClusterObject) : Json :=
  .object (("kind", .text o.kind.text) ::
    match o with
    | .node n => nodeMembers n
    | .workload w => workloadMembers w
    | .priorityClass c => priorityClassMembers c
    | .runtimeClass c => runtimeClassMembers c)

def snapshot? : Reader Snapshot := record? fun m => do
  let nodes ← m.fieldOr "nodes" (list? node?) []
  let workloads ← m.fieldOr "workloads" (list? workload?) []
  let priorityClasses ← m.fieldOr "priority_classes" (list? priorityClass?) []
  let runtimeClasses ← m.fieldOr "runtime_classes" (list? runtimeClass?) []
  return { nodes, workloads, priorityClasses, runtimeClasses }

def ofSnapshot (s : Snapshot) : Json :=
  .object [("nodes", ofList ofNode s.nodes), ("workloads", ofList ofWorkload s.workloads),
    ("priority_classes", ofList ofPriorityClass s.priorityClasses),
    ("runtime_classes", ofList ofRuntimeClass s.runtimeClasses)]

def workloadKey? : Reader WorkloadKey := record? fun m => do
  let inNamespace ← m.field "namespace" text?
  let name ← m.field "name" text?
  return { inNamespace, name }

def ofWorkloadKey (k : WorkloadKey) : Json :=
  .object [("namespace", .text k.inNamespace), ("name", .text k.name)]

def eventReason? : Reader EventReason :=
  choice? [("Scheduled", .scheduled), ("FailedScheduling", .failedScheduling)]

def ofEventReason : EventReason → Json
  | .scheduled => .text "Scheduled"
  | .failedScheduling => .text "FailedScheduling"

def event? : Reader ViewEvent := record? fun m => do
  let sequence ← m.field "sequence" nat64?
  let reason ← m.field "reason" eventReason?
  let workload ← m.field "workload" workloadKey?
  let nodeName ← m.field? "node_name" text?
  let message ← m.field "message" text?
  let resourceVersion ← m.field "resource_version" nat64?
  return { sequence, reason, workload, nodeName, message, resourceVersion }

def ofEvent (e : ViewEvent) : Json :=
  .object [("sequence", ofNat e.sequence), ("reason", ofEventReason e.reason),
    ("workload", ofWorkloadKey e.workload), ("node_name", ofOption .text e.nodeName),
    ("message", .text e.message), ("resource_version", ofNat e.resourceVersion)]

def ofStored (s : Stored) : Json :=
  .object [("object", ofObject s.object), ("version", ofNat s.version)]

def ofChangeKind : ChangeKind → Json
  | .added => .text "added"
  | .modified => .text "modified"
  | .deleted => .text "deleted"

/-- A change as a list of its kind, the key's kind, the key and the version. -/
def ofChange (c : Change) : Json :=
  .array [ofChangeKind c.kind, .text c.key.kind.text, .text c.key.name, ofNat c.version]

end ScaleAdvisor.Wire
