import ScaleAdvisor.Cluster.Workload

/-!
The objects of a cluster and the snapshot that lists them. An object is found by its kind and its
key text; a workload's key text joins its namespace and its name.
-/

namespace ScaleAdvisor

inductive ObjectKind where
  | node
  | workload
  | priorityClass
  | runtimeClass
  deriving DecidableEq, Repr

namespace ObjectKind

def text : ObjectKind → String
  | .node => "node"
  | .workload => "workload"
  | .priorityClass => "priority_class"
  | .runtimeClass => "runtime_class"

def rank : ObjectKind → Nat
  | .node => 0
  | .workload => 1
  | .priorityClass => 2
  | .runtimeClass => 3

instance : KeyOrder ObjectKind :=
  KeyOrder.comap rank fun {a b} h => by cases a <;> cases b <;> simp_all [rank]

end ObjectKind

structure ObjectKey where
  kind : ObjectKind
  name : String
  deriving DecidableEq, Repr

instance : KeyOrder ObjectKey :=
  KeyOrder.comap (fun k => (k.kind, k.name)) fun {a b} h => by
    cases a
    cases b
    simpa using h

def WorkloadKey.objectKey (k : WorkloadKey) : ObjectKey := ⟨.workload, k.text⟩

inductive ClusterObject where
  | node (n : Node)
  | workload (w : Workload)
  | priorityClass (c : PriorityClass)
  | runtimeClass (c : RuntimeClass)
  deriving DecidableEq

namespace ClusterObject

def kind : ClusterObject → ObjectKind
  | .node _ => .node
  | .workload _ => .workload
  | .priorityClass _ => .priorityClass
  | .runtimeClass _ => .runtimeClass

def keyText : ClusterObject → String
  | .node n => n.name
  | .workload w => w.key.text
  | .priorityClass c => c.name
  | .runtimeClass c => c.name

def key (o : ClusterObject) : ObjectKey := ⟨o.kind, o.keyText⟩

def node? : ClusterObject → Option Node
  | .node n => some n
  | _ => none

def workload? : ClusterObject → Option Workload
  | .workload w => some w
  | _ => none

def priorityClass? : ClusterObject → Option PriorityClass
  | .priorityClass c => some c
  | _ => none

def runtimeClass? : ClusterObject → Option RuntimeClass
  | .runtimeClass c => some c
  | _ => none

end ClusterObject

structure Snapshot where
  nodes : List Node := []
  workloads : List Workload := []
  priorityClasses : List PriorityClass := []
  runtimeClasses : List RuntimeClass := []
  deriving DecidableEq

namespace Snapshot

/-- All objects in the order in which they are loaded. -/
def objects (s : Snapshot) : List ClusterObject :=
  s.priorityClasses.map .priorityClass ++ s.runtimeClasses.map .runtimeClass ++
    s.nodes.map .node ++ s.workloads.map .workload

def pending (s : Snapshot) : List Workload := s.workloads.filter (·.isPending)

end Snapshot

end ScaleAdvisor
