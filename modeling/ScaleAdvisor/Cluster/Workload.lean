import ScaleAdvisor.Cluster.Node

/-!
Workloads: what they ask for, where they may run, and how urgent they are. Priority and overhead may
come from classes that a workload names.
-/

namespace ScaleAdvisor

/-- Namespace and name. -/
structure WorkloadKey where
  inNamespace : String
  name : String
  deriving DecidableEq, Repr

instance : KeyOrder WorkloadKey :=
  KeyOrder.comap (fun k => (k.inNamespace, k.name)) fun {a b} h => by
    cases a
    cases b
    simpa using h

theorem WorkloadKey.before_iff {j k : WorkloadKey} : KeyOrder.before j k = true ↔
    j.inNamespace < k.inNamespace ∨ j.inNamespace = k.inNamespace ∧ j.name < k.name := by
  change KeyOrder.before (j.inNamespace, j.name) (k.inNamespace, k.name) = true ↔ _
  rw [KeyOrder.before_prod_iff]
  simp only [KeyOrder.before, decide_eq_true_eq]

def WorkloadKey.text (k : WorkloadKey) : String := k.inNamespace ++ "/" ++ k.name

structure PriorityClass where
  name : String
  value : Int
  deriving DecidableEq

structure RuntimeClass where
  name : String
  /-- Asked for on top of a workload's own requests. -/
  overhead : Resources := ∅
  deriving DecidableEq

structure Workload where
  inNamespace : String
  name : String
  requests : Resources := ∅
  /-- The node it is bound to; no name or an empty one means pending. -/
  nodeName : Option String := none
  priority : Option Int := none
  priorityClassName : Option String := none
  runtimeClassName : Option String := none
  nodeSelector : Labels := ∅
  tolerations : List Toleration := []
  deriving DecidableEq

namespace Workload

def key (w : Workload) : WorkloadKey := ⟨w.inNamespace, w.name⟩

def isPending (w : Workload) : Bool := w.nodeName.all (·.isEmpty)

/-- Its own priority, else that of the first class of the name it gives, else zero. -/
def effectivePriority (w : Workload) (classes : List PriorityClass) : Int :=
  match w.priority with
  | some p => p
  | none =>
    match w.priorityClassName.bind fun name => classes.find? (·.name == name) with
    | some c => c.value
    | none => 0

/-- Its requests and the overhead of the first runtime class of the name it gives. -/
def effectiveRequests (w : Workload) (classes : List RuntimeClass) : Resources :=
  match w.runtimeClassName.bind fun name => classes.find? (·.name == name) with
  | some c => w.requests.add c.overhead
  | none => w.requests

/-- Every taint that forbids is tolerated; a mere preference never forbids. -/
def toleratesAll (w : Workload) (taints : List Taint) : Bool :=
  taints.all fun taint =>
    taint.effect == .preferNoSchedule || w.tolerations.any (·.tolerates taint)

/-- The node carries every label asked for. -/
def selects (w : Workload) (n : Node) : Bool :=
  w.nodeSelector.entries.all fun e => n.label? e.1 == some e.2

def bindTo (w : Workload) (node : String) : Workload := { w with nodeName := some node }

end Workload

end ScaleAdvisor
