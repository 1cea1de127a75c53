import ScaleAdvisor.Advice.Request
import ScaleAdvisor.Catalog.Price

/-!
Scores of candidates and the choice among them. Least cost values placed work by the money it takes,
least waste the capacity that stays empty. Of the scores of best value the choice keeps those that
tie on a second criterion; `finalTies` is the set of scores that can win.
-/

namespace ScaleAdvisor

open Quantity

/-- What is known of a candidate once its simulation is over. -/
structure Outcome where
  name : String
  placement : Placement
  scaledNode : Node
  /-- Workloads on the added node. -/
  scaled : NodeAssignment
  /-- Workloads on nodes that were there before. -/
  others : List NodeAssignment
  unscheduled : List WorkloadKey
  deriving DecidableEq

namespace Outcome

/-- Everything that the simulation placed, added up by a given arithmetic. -/
def placed (fit : Int → Int) (o : Outcome) : Amounts :=
  (o.others.map (·.placed fit)).foldl (Amounts.add fit) (o.scaled.placed fit)

/-- Everything that the simulation placed. -/
def aggregated (o : Outcome) : Resources :=
  ⟨o.placed wrap64, (Amounts.within_sum _).foldl_add _⟩

def boundWorkloads (o : Outcome) : Nat :=
  o.others.foldl (fun n a => n + a.workloads.length) o.scaled.workloads.length

/-- Nothing was left pending. -/
def converged (o : Outcome) : Bool := o.unscheduled.isEmpty

/-- The added node was put to use. -/
def usesScaledNode (o : Outcome) : Bool := !o.scaled.workloads.isEmpty

end Outcome

structure NodeScore (F : Type) where
  name : String
  placement : Placement
  value : Int
  /-- What the added node offers. -/
  resources : Resources
  unscheduled : List WorkloadKey
  hourlyPrice : F
  normalizedAllocatable : F

inductive Preference where
  | higher
  | lower
  deriving DecidableEq, Repr

/-- Which of two values is the better one. -/
def Preference.compare : Preference → Int → Int → Ordering
  | .higher, a, b => Ord.compare a b
  | .lower, a, b => Ord.compare b a

def ScoringStrategy.preference : ScoringStrategy → Preference
  | .leastCost => .higher
  | .leastWaste => .lower

/-- What decides among scores of one value. -/
inductive Selector where
  | minPrice
  | maxAllocatable
  deriving DecidableEq, Repr

def ScoringStrategy.selector : ScoringStrategy → Selector
  | .leastCost => .minPrice
  | .leastWaste => .maxAllocatable

section

variable {F : Type} [Quantity F]

/-- Units of placed work per unit of money, times a hundred. -/
def leastCostValue (price : F) (weights : Weights F) (placed : Amounts) : Int :=
  Quantity.round (normalizedUnits placed weights * ofInt 100 / price)

/-- Units of capacity that stay empty, times a hundred. -/
def leastWasteValue (weights : Weights F) (allocatable placed : Amounts) : Int :=
  let waste := Amounts.difference (fit F) allocatable placed
  Quantity.round (normalizedUnits waste weights * ofInt 100)

/-- The score of an outcome. Fails when its instance type has no price. -/
def score (strategy : ScoringStrategy) (prices : PriceTable F) (table : WeightTable F)
    (o : Outcome) : Except ScoreError (NodeScore F) :=
  match prices.price o.placement.region o.placement.instanceType with
  | .error e => .error (.computeNodeScore o.name e.message)
  | .ok price =>
    let weights := table.weights o.placement.instanceType
    .ok {
      name := o.name
      placement := o.placement
      value :=
        match strategy with
        | .leastCost => leastCostValue price weights (o.placed (fit F))
        | .leastWaste => leastWasteValue weights o.scaledNode.allocatable (o.placed (fit F))
      resources := o.scaledNode.allocatable
      unscheduled := o.unscheduled
      hourlyPrice := price
      normalizedAllocatable := normalizedUnits o.scaledNode.allocatable weights }

/-- The larger, the better. -/
def Selector.criterion (s : Selector) (score : NodeScore F) : F :=
  match s with
  | .minPrice => -score.hourlyPrice
  | .maxAllocatable => score.normalizedAllocatable

/-- How far two criteria may be apart and still tie. -/
def tieWidth : F := 1e-9

/-- The better of two values. -/
def Preference.better (p : Preference) (a b : Int) : Int :=
  if p.compare a b == .lt then b else a

/-- The scores of best value. -/
def bestValued (p : Preference) (scores : List (NodeScore F)) : List (NodeScore F) :=
  match scores.map (·.value) with
  | [] => []
  | v :: rest =>
    let best := rest.foldl p.better v
    scores.filter (·.value == best)

/-- The scores that can win: a lone score, or those of best value whose criterion ties with the
largest one. -/
def finalTies (s : Selector) (p : Preference) (scores : List (NodeScore F)) :
    Except ScoreError (List (NodeScore F)) :=
  match scores with
  | [] => .error .noWinningNodeScore
  | [only] => .ok [only]
  | scores =>
    let best := bestValued p scores
    match (Quantity.max? (best.map s.criterion)).filter Quantity.isFinite with
    | none =>
      .error (.selectNodeScore
        ("non-finite selection criterion among " ++ toString best.length ++ " candidates"))
    | some top => .ok (best.filter fun score => le (abs (s.criterion score - top)) tieWidth)

end

end ScaleAdvisor
