import ScaleAdvisor.Catalog.Pool

/-!
Candidates for an added node, and the node that each would add. Candidates come in groups, one for
every priority of their pools; groups of lower value are tried first.
-/

namespace ScaleAdvisor

/-- A pool, one of its templates by name, and one of its zones. -/
structure Candidate where
  pool : NodePool
  template : String
  zone : String
  deriving DecidableEq

structure CandidateGroup where
  priority : Int
  candidates : List Candidate
  deriving DecidableEq

namespace Candidate

def name (c : Candidate) : String := c.pool.name ++ "/" ++ c.template ++ "/" ++ c.zone

/-- What a pool can add: each template in each zone. -/
def ofPool (p : NodePool) : List Candidate :=
  p.templates.flatMap fun t => p.zones.map fun zone => ⟨p, t.name, zone⟩

def placement (c : Candidate) (t : NodeTemplate) : Placement :=
  ⟨c.pool.name, t.name, t.instanceType, c.pool.region, c.zone⟩

/-- The name of the node that is tried out in a pass. -/
def nodeName (c : Candidate) (t : NodeTemplate) (pass : Nat) : String :=
  "sim-p" ++ toString pass ++ "-" ++ c.zone ++ "-" ++ t.name ++ "-" ++ c.pool.name

/-- What the labels of a node say about where it comes from. -/
def originLabels (c : Candidate) (t : NodeTemplate) (nodeName : String) : List (String × String) :=
  [(Label.nodePool, c.pool.name), (Label.nodeTemplate, t.name),
    (Label.instanceType, t.instanceType), (Label.architecture, t.architecture),
    (Label.region, c.pool.region), (Label.zone, c.zone), (Label.hostname, nodeName),
    (Label.simulated, "true")]

/-- The pool's taints and those of the template that are not among them. -/
def taints (c : Candidate) (t : NodeTemplate) : List Taint :=
  t.taints.foldl (fun all taint => if all.contains taint then all else all ++ [taint]) c.pool.taints

/-- The node that is tried out in a pass. -/
def node (c : Candidate) (t : NodeTemplate) (pass : Nat) : Node where
  name := c.nodeName t pass
  labels := (c.originLabels t (c.nodeName t pass)).foldl (fun m e => m.insert e.1 e.2) c.pool.labels
  taints := c.taints t
  capacity := t.capacity
  allocatable := t.allocatable

end Candidate

namespace CandidateGroup

/-- The candidates of the pools of one priority. -/
def ofPriority (pools : List NodePool) (priority : Int) : CandidateGroup :=
  ⟨priority, (pools.filter (·.priority == priority)).flatMap Candidate.ofPool⟩

/-- All groups that have candidates, in order of priority; within a group the order of the pools
stays. -/
def ofPools (pools : List NodePool) : List CandidateGroup :=
  ((KeySet.ofKeys (pools.map (·.priority))).keys.map (ofPriority pools)).filter
    (!·.candidates.isEmpty)

end CandidateGroup

end ScaleAdvisor
