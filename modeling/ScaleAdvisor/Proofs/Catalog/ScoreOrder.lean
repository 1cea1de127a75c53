import Mathlib.Algebra.BigOperators.Group.Finset.Basic
import Mathlib.Algebra.Order.BigOperators.Group.Finset
import ScaleAdvisor.Proofs.Catalog.Fractions
import ScaleAdvisor.Proofs.Catalog.Totals
import ScaleAdvisor.Proofs.Entries

/-!
How the value of a score moves with what has been placed. With exact fractions, units are a sum over
resource names that does not ask which names are listed, so a value follows from the total of every
resource. Placing more never hurts, and a higher price never helps.

* `normalizedUnits_eq_sum`: units as a weighted sum over any names that cover the list;
* `normalizedUnits_congr`, `normalizedUnits_mono`: equal amounts and larger amounts;
* `scoreValue_follows_load`: the values of one candidate under other placements and other prices.
-/

namespace ScaleAdvisor

open Quantity

variable {weights : Weights Rat} {r r' : Amounts}

theorem wholeUnits_zero (name : String) : wholeUnits name 0 = (0 : Rat) := by
  unfold wholeUnits
  split
  · exact zero_div _
  · split
    · exact zero_div _
    · rfl

theorem wholeUnits_mono (name : String) {a b : Int} (h : a ≤ b) :
    (wholeUnits name a : Rat) ≤ wholeUnits name b := by
  have amounts : (ofInt a : Rat) ≤ ofInt b := Int.cast_le.mpr h
  unfold wholeUnits
  split
  · exact div_le_div_of_nonneg_right amounts (by decide +kernel)
  · split
    · exact div_le_div_of_nonneg_right amounts (by decide +kernel)
    · exact amounts

/-- What one resource counts for. -/
def unitsOf (weights : Weights Rat) (r : Amounts) (name : String) : Rat :=
  weights.getD name 0 * wholeUnits name (r.get name)

/-- A name that is not listed counts for nothing, so any names will do that cover the list. -/
theorem normalizedUnits_eq_sum (names : Finset String)
    (covered : ∀ name ∈ r.keys, name ∈ names) :
    normalizedUnits r weights = ∑ name ∈ names, unitsOf weights r name := by
  have entry : ∀ e ∈ r.entries,
      ((weights.get? e.1).map (· * wholeUnits e.1 e.2)).getD 0 = unitsOf weights r e.1 := by
    intro e he
    have amount : r.get e.1 = e.2 := by
      rw [Amounts.get, SortedMap.getD, (SortedMap.mem_entries_iff _).mp he, Option.getD_some]
    rw [unitsOf, amount, SortedMap.getD]
    cases weights.get? e.1 with
    | none => exact (zero_mul _).symm
    | some weight => rfl
  have listed : normalizedUnits r weights = (r.keys.map (unitsOf weights r)).sum := by
    rw [normalizedUnits, sum_rat, sum_filterMap, List.map_congr_left entry, SortedMap.keys,
      List.map_map]
    rfl
  rw [listed, ← List.sum_toFinset _ r.nodup_keys]
  refine Finset.sum_subset (fun name h => covered name (List.mem_toFinset.mp h))
    fun name _ unlisted => ?_
  have zero : r.get name = 0 := by
    rw [Amounts.get, SortedMap.getD]
    cases found : r.get? name with
    | none => rfl
    | some amount =>
      exact absurd (List.mem_toFinset.mpr (SortedMap.mem_keys_iff.mpr ⟨amount, found⟩)) unlisted
  rw [unitsOf, zero, wholeUnits_zero, mul_zero]

/-- The names that one of two lists has. -/
def bothNames (r r' : Amounts) : Finset String := (r.keys ++ r'.keys).toFinset

theorem mem_bothNames_left : ∀ name ∈ r.keys, name ∈ bothNames r r' := by
  intro name listed
  simp [bothNames, listed]

theorem mem_bothNames_right : ∀ name ∈ r'.keys, name ∈ bothNames r r' := by
  intro name listed
  simp [bothNames, listed]

theorem normalizedUnits_congr (same : ∀ name, r.get name = r'.get name) :
    normalizedUnits r weights = normalizedUnits r' weights := by
  rw [normalizedUnits_eq_sum _ mem_bothNames_left, normalizedUnits_eq_sum _ mem_bothNames_right]
  refine Finset.sum_congr rfl fun name _ => ?_
  rw [unitsOf, unitsOf, same]

theorem normalizedUnits_mono (nonneg : ∀ e ∈ weights.entries, 0 ≤ e.2)
    (more : ∀ name, r.get name ≤ r'.get name) :
    normalizedUnits r weights ≤ normalizedUnits r' weights := by
  rw [normalizedUnits_eq_sum _ mem_bothNames_left, normalizedUnits_eq_sum _ mem_bothNames_right]
  refine Finset.sum_le_sum fun name _ =>
    mul_le_mul_of_nonneg_left (wholeUnits_mono name (more name)) ?_
  rw [SortedMap.getD]
  cases found : weights.get? name with
  | none => exact le_refl _
  | some weight => exact nonneg _ ((SortedMap.mem_entries_iff _).mpr found)

section

variable {price price' : Rat} {allocatable placed placed' : Amounts}

theorem get_placed_rat (o : Outcome) (name : String) :
    Amounts.get (o.placed (fit Rat)) name = o.load name :=
  o.get_placed fitsSums_id name

theorem get_difference_rat (name : String) :
    Amounts.get (allocatable.difference (fit Rat) placed) name =
      allocatable.get name - placed.get name := by
  rw [Amounts.difference, Amounts.get_combine]
  cases h : placed.get? name <;> simp [Amounts.get, SortedMap.getD, h, fit]

theorem leastCostValue_congr (same : ∀ name, placed'.get name = placed.get name) :
    leastCostValue price weights placed' = leastCostValue price weights placed := by
  rw [leastCostValue, leastCostValue, normalizedUnits_congr same]

theorem leastWasteValue_congr (same : ∀ name, placed'.get name = placed.get name) :
    leastWasteValue weights allocatable placed' = leastWasteValue weights allocatable placed := by
  have waste (name : String) : Amounts.get (allocatable.difference (fit Rat) placed') name =
      Amounts.get (allocatable.difference (fit Rat) placed) name := by
    rw [get_difference_rat, get_difference_rat, same]
  rw [leastWasteValue, leastWasteValue, normalizedUnits_congr waste]

theorem hundred_nonneg : (0 : Rat) ≤ ofInt 100 := by decide +kernel

/-- More work for the same money. -/
theorem leastCostValue_mono (nonneg : ∀ e ∈ weights.entries, 0 ≤ e.2) (positive : 0 < price)
    (more : ∀ name, placed.get name ≤ placed'.get name) :
    leastCostValue price weights placed ≤ leastCostValue price weights placed' := by
  refine round_mono (div_le_div_of_nonneg_right ?_ positive.le)
  exact mul_le_mul_of_nonneg_right (normalizedUnits_mono nonneg more) hundred_nonneg

/-- The same work for more money. -/
theorem leastCostValue_anti (positive : 0 < price) (dearer : price ≤ price')
    (nonneg : 0 ≤ normalizedUnits placed weights) :
    leastCostValue price' weights placed ≤ leastCostValue price weights placed :=
  round_mono (div_le_div_of_nonneg_left (mul_nonneg nonneg hundred_nonneg) positive dearer)

/-- More work leaves less empty. -/
theorem leastWasteValue_anti (nonneg : ∀ e ∈ weights.entries, 0 ≤ e.2)
    (more : ∀ name, placed.get name ≤ placed'.get name) :
    leastWasteValue weights allocatable placed' ≤ leastWasteValue weights allocatable placed := by
  have waste : ∀ name, Amounts.get (allocatable.difference (fit Rat) placed') name ≤
      Amounts.get (allocatable.difference (fit Rat) placed) name := by
    intro name
    rw [get_difference_rat, get_difference_rat]
    exact sub_le_sub_left (more name) _
  exact round_mono (mul_le_mul_of_nonneg_right (normalizedUnits_mono nonneg waste) hundred_nonneg)

end

/-- The value of the score of an outcome, if it can be scored. -/
def scoreValue (strategy : ScoringStrategy) (prices : PriceTable Rat) (table : WeightTable Rat)
    (o : Outcome) : Option Int :=
  (score strategy prices table o).toOption.map (·.value)

section

variable {prices : PriceTable Rat} {table : WeightTable Rat} {o : Outcome} {price : Rat}

theorem scoreValue_leastCost
    (priced : prices.price o.placement.region o.placement.instanceType = .ok price) :
    scoreValue .leastCost prices table o =
      some (leastCostValue price (table.weights o.placement.instanceType)
        (o.placed (fit Rat))) := by
  simp only [scoreValue, score, priced]
  rfl

theorem scoreValue_leastWaste
    (priced : prices.price o.placement.region o.placement.instanceType = .ok price) :
    scoreValue .leastWaste prices table o =
      some (leastWasteValue (table.weights o.placement.instanceType) o.scaledNode.allocatable
        (o.placed (fit Rat))) := by
  simp only [scoreValue, score, priced]
  rfl

/-- Two outcomes of one candidate, whatever they have placed. -/
structure Outcome.SameCandidate (o o' : Outcome) : Prop where
  placement : o'.placement = o.placement
  scaledNode : o'.scaledNode = o.scaledNode

theorem scoreValue_congr {o' : Outcome}
    (priced : prices.price o.placement.region o.placement.instanceType = .ok price)
    (same : o.SameCandidate o') (load : ∀ name, o'.load name = o.load name)
    (strategy : ScoringStrategy) :
    scoreValue strategy prices table o' = scoreValue strategy prices table o := by
  have placed : ∀ name, (o'.placed (fit Rat)).get name = (o.placed (fit Rat)).get name := by
    intro name
    rw [get_placed_rat, get_placed_rat, load]
  have priced' : prices.price o'.placement.region o'.placement.instanceType = .ok price := by
    rw [same.placement, priced]
  cases strategy with
  | leastCost =>
    rw [scoreValue_leastCost priced', scoreValue_leastCost priced, same.placement,
      leastCostValue_congr placed]
  | leastWaste =>
    rw [scoreValue_leastWaste priced', scoreValue_leastWaste priced, same.placement,
      same.scaledNode, leastWasteValue_congr placed]

/-- A candidate that has a positive price has a value in either strategy, which follows from what
its outcome has placed of each resource: not from the nodes, nor from the order. Placing a workload
more, wherever it goes, lowers no value of placed work and raises no value of empty capacity, and a
higher price raises no value of placed work. -/
theorem scoreValue_follows_load
    (priced : prices.price o.placement.region o.placement.instanceType = .ok price)
    (positive : 0 < price)
    (weighted : ∀ e ∈ (table.weights o.placement.instanceType).entries, 0 ≤ e.2) :
    ∃ cost waste, scoreValue .leastCost prices table o = some cost ∧
      scoreValue .leastWaste prices table o = some waste ∧
      (∀ o', o.SameCandidate o' → (∀ name, o'.load name = o.load name) → ∀ strategy,
        scoreValue strategy prices table o' = scoreValue strategy prices table o) ∧
      (∀ o', o.SameCandidate o' → o'.carried.Perm o.carried → ∀ strategy,
        scoreValue strategy prices table o' = scoreValue strategy prices table o) ∧
      (∀ o' k requests, o.SameCandidate o' → (∀ name, 0 ≤ requests.get name) →
        o'.carried.Perm ((k, requests) :: o.carried) →
        ∃ cost' waste', scoreValue .leastCost prices table o' = some cost' ∧ cost ≤ cost' ∧
          scoreValue .leastWaste prices table o' = some waste' ∧ waste' ≤ waste) ∧
      ∀ (prices' : PriceTable Rat) price',
        prices'.price o.placement.region o.placement.instanceType = .ok price' → price ≤ price' →
        0 ≤ normalizedUnits (o.placed (fit Rat)) (table.weights o.placement.instanceType) →
        ∃ cost', scoreValue .leastCost prices' table o = some cost' ∧ cost' ≤ cost := by
  refine ⟨_, _, scoreValue_leastCost priced, scoreValue_leastWaste priced, ?_, ?_, ?_, ?_⟩
  · intro o' same load
    exact scoreValue_congr priced same load
  · intro o' same perm
    exact scoreValue_congr priced same (Outcome.load_perm perm)
  · intro o' k requests same nonneg perm
    have priced' : prices.price o'.placement.region o'.placement.instanceType = .ok price := by
      rw [same.placement, priced]
    have more : ∀ name, (o.placed (fit Rat)).get name ≤ (o'.placed (fit Rat)).get name := by
      intro name
      rw [get_placed_rat, get_placed_rat, Outcome.load_of_perm_cons perm]
      exact le_add_of_nonneg_left (nonneg name)
    refine ⟨_, _, scoreValue_leastCost priced', ?_, scoreValue_leastWaste priced', ?_⟩
    · rw [same.placement]
      exact leastCostValue_mono weighted positive more
    · rw [same.placement, same.scaledNode]
      exact leastWasteValue_anti weighted more
  · intro prices' price' priced' dearer nonneg
    exact ⟨_, scoreValue_leastCost priced', leastCostValue_anti positive dearer nonneg⟩

end

/-- A small node, with one workload placed on it and these placed elsewhere. -/
def oneOnSmall (others : List NodeAssignment) : Outcome where
  name := "small"
  placement := ⟨"pool", "small", "small", "here", "a"⟩
  scaledNode :=
    { name := "sim-small", capacity := .ofCoresAndGib 4 8, allocatable := .ofCoresAndGib 4 8 }
  scaled := ⟨"sim-small", [(⟨"default", "web"⟩, .ofCoresAndGib 1 1)]⟩
  others
  unscheduled := []

/-- Two units of money an hour for the small node. -/
def smallForTwo : PriceTable Rat := .ofList [(("here", "small"), 2)]

/-- Weights of the usual kind. -/
def plainWeights : WeightTable Rat where
  fallback := .ofList [(Resources.cpu, 1), (Resources.memory, 1 / 8), ("nvidia.com/gpu", 20)]

def gpuJob : WorkloadKey × Resources :=
  (⟨"default", "train"⟩, (∅ : Resources).set "nvidia.com/gpu" 1)

/-- A workload on another node that asks for a resource which nothing asked for so far. -/
theorem scoreValue_follows_load_oneOnSmall :
    smallForTwo.price "here" "small" = .ok 2 ∧ (0 : Rat) < 2 ∧
    (∀ e ∈ (plainWeights.weights "small").entries, 0 ≤ e.2) ∧
    scoreValue .leastCost smallForTwo plainWeights (oneOnSmall []) = some 56 ∧
    ∃ cost waste waste',
      scoreValue .leastCost smallForTwo plainWeights (oneOnSmall [⟨"old", [gpuJob]⟩]) = some cost ∧
      56 ≤ cost ∧
      scoreValue .leastWaste smallForTwo plainWeights (oneOnSmall []) = some waste ∧
      scoreValue .leastWaste smallForTwo plainWeights (oneOnSmall [⟨"old", [gpuJob]⟩]) =
        some waste' ∧
      waste' ≤ waste := by
  have priced : smallForTwo.price "here" "small" = .ok 2 := rfl
  have positive : (0 : Rat) < 2 := by decide +kernel
  have weighted : ∀ e ∈ (plainWeights.weights "small").entries, 0 ≤ e.2 := by decide +kernel
  have value : scoreValue .leastCost smallForTwo plainWeights (oneOnSmall []) = some 56 := by
    decide +kernel
  obtain ⟨cost, waste, before, empty, -, -, more, -⟩ :=
    scoreValue_follows_load (o := oneOnSmall []) priced positive weighted
  have asked : ∀ name, 0 ≤ gpuJob.2.get name := by
    intro name
    rw [gpuJob, Resources.get_set]
    split
    · decide
    · exact le_refl _
  obtain ⟨cost', waste', after, grown, fuller, shrunk⟩ :=
    more (oneOnSmall [⟨"old", [gpuJob]⟩]) gpuJob.1 gpuJob.2 ⟨rfl, rfl⟩ asked (.swap ..)
  obtain rfl : cost = 56 := Option.some.inj (before.symm.trans value)
  exact ⟨priced, positive, weighted, value, cost', waste, waste', after, grown, empty,
    fuller, shrunk⟩

end ScaleAdvisor
