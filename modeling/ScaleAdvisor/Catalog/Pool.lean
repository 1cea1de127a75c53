import ScaleAdvisor.Cluster.Object

/-!
Node pools: the machines that can be added to a cluster. A pool offers templates in zones; a
placement is one choice of pool, template and zone.
-/

namespace ScaleAdvisor

/-- A class of machine. -/
structure NodeTemplate where
  name : String
  instanceType : String
  architecture : String := "amd64"
  capacity : Resources
  kubeReserved : Resources := ∅
  systemReserved : Resources := ∅
  taints : List Taint := []
  deriving DecidableEq

/-- Capacity less both reservations, each floored at zero. -/
def NodeTemplate.allocatable (t : NodeTemplate) : Resources :=
  (t.capacity.minus t.kubeReserved).minus t.systemReserved

structure NodePool where
  name : String
  region : String
  /-- Pools of one priority form a group; lower values come first. -/
  priority : Int := 0
  zones : List String
  labels : Labels := ∅
  taints : List Taint := []
  templates : List NodeTemplate
  /-- How many nodes the pool may have in all. -/
  maxNodes : Option Nat := none
  deriving DecidableEq

namespace NodePool

def template? (p : NodePool) (name : String) : Option NodeTemplate :=
  p.templates.find? (·.name == name)

/-- How many of the nodes carry the pool's label. -/
def memberCount (p : NodePool) (nodes : List Node) : Nat :=
  nodes.countP fun n => n.label? Label.nodePool == some p.name

end NodePool

/-- Where an added node would be placed. -/
structure Placement where
  pool : String
  template : String
  instanceType : String
  region : String
  zone : String
  deriving DecidableEq, Repr

namespace Placement

instance : KeyOrder Placement :=
  KeyOrder.comap (fun p => (p.pool, p.template, p.instanceType, p.region, p.zone)) fun {a b} h => by
    cases a
    cases b
    simpa using h

def text (p : Placement) : String := p.pool ++ "/" ++ p.template ++ "/" ++ p.zone

/-- The node carries the labels of the placement's pool, template and zone. -/
def isOf (p : Placement) (n : Node) : Bool :=
  n.label? Label.nodePool == some p.pool && n.label? Label.nodeTemplate == some p.template &&
    n.label? Label.zone == some p.zone

end Placement

/-- Workloads bound to one node, with what each asks for. -/
structure NodeAssignment where
  nodeName : String
  workloads : List (WorkloadKey × Resources)
  deriving DecidableEq

/-- What the workloads ask for in all, added up by a given arithmetic. -/
def NodeAssignment.placed (fit : Int → Int) (a : NodeAssignment) : Amounts :=
  Amounts.sum fit (a.workloads.map (·.2.amounts))

def NodeAssignment.total (a : NodeAssignment) : Resources :=
  ⟨a.placed wrap64, Amounts.within_sum _⟩

end ScaleAdvisor
