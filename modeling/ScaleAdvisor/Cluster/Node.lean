import ScaleAdvisor.Cluster.Resources
import ScaleAdvisor.Cluster.Taint

/-!
Nodes, and the labels that tie a node to the pool, template and zone it came from.
-/

namespace ScaleAdvisor

abbrev Labels := SortedMap String String

namespace Label

def nodePool : String := "scalegrid.io/node-pool"
def nodeTemplate : String := "scalegrid.io/node-template"
def simulated : String := "scalegrid.io/simulated"
def instanceType : String := "node.kubernetes.io/instance-type"
def zone : String := "topology.kubernetes.io/zone"
def region : String := "topology.kubernetes.io/region"
def architecture : String := "kubernetes.io/arch"
def hostname : String := "kubernetes.io/hostname"

end Label

structure Node where
  name : String
  labels : Labels := ∅
  taints : List Taint := []
  capacity : Resources
  allocatable : Resources
  /-- Cordoned: takes no new workloads. -/
  unschedulable : Bool := false
  deriving DecidableEq

namespace Node

def label? (n : Node) (key : String) : Option String := n.labels.get? key

/-- Made up for a simulation. -/
def isSimulated (n : Node) : Bool := n.labels.contains Label.simulated

end Node

end ScaleAdvisor
