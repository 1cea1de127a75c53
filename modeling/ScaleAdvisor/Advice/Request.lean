import ScaleAdvisor.Catalog.Pool

/-!
What an adviser is asked, and the plan it answers with.
-/

namespace ScaleAdvisor

inductive ScoringStrategy where
  | leastCost
  | leastWaste
  deriving DecidableEq, Repr

inductive SimulationStrategy where
  | multiSimulationsPerGroup
  | singleSimulationPerGroup
  deriving DecidableEq, Repr

def SimulationStrategy.text : SimulationStrategy → String
  | .multiSimulationsPerGroup => "multi_simulations_per_group"
  | .singleSimulationPerGroup => "single_simulation_per_group"

/-- Whether every group that adds nodes is answered at once, or only the whole. -/
inductive AdviceMode where
  | incremental
  | allAtOnce
  deriving DecidableEq, Repr

structure AdviceRequest where
  id : String
  correlationId : String := ""
  labels : Labels := ∅
  pools : List NodePool
  snapshot : Snapshot
  scoring : ScoringStrategy := .leastCost
  simulation : SimulationStrategy := .multiSimulationsPerGroup
  mode : AdviceMode := .allAtOnce
  /-- Zero asks for no trace log. -/
  diagnosticVerbosity : Nat := 0
  deriving DecidableEq

/-- How many nodes to add to one placement. -/
structure ScaleItem where
  placement : Placement
  currentReplicas : Nat
  delta : Nat
  deriving DecidableEq, Repr

structure ScaleOutPlan where
  items : List ScaleItem := []
  unsatisfied : List String := []
  deriving DecidableEq, Repr

namespace ScaleOutPlan

def totalDelta (p : ScaleOutPlan) : Nat := p.items.foldl (fun n i => n + i.delta) 0

/-- Count the winners of each placement. -/
def countPlacements (winners : List Placement) : SortedMap Placement Nat :=
  winners.foldl (fun m p => m.insert p (m.getD p 0 + 1)) ∅

/-- One item per placement that won, in order of placement, and the workloads left over. -/
def build (nodes : List Node) (winners : List Placement) (leftover : KeySet WorkloadKey) :
    ScaleOutPlan where
  items := (countPlacements winners).entries.map fun (placement, delta) =>
    ⟨placement, nodes.countP placement.isOf, delta⟩
  unsatisfied := leftover.keys.map (·.text)

end ScaleOutPlan

end ScaleAdvisor
