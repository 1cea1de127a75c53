import Mathlib
import ScaleAdvisor.Proofs.Search.Sufficiency

/-!
What a plan adds. Its items count the winners, so the nodes it adds to placements of any kind are
the winners of that kind.

* `added_build`: winners of a kind are the nodes added to it;
* `placement_of_item`: an item stands for a winner.
-/

namespace ScaleAdvisor.ScaleOutPlan

/-- How many nodes the plan adds to placements of one kind. -/
def added (p : ScaleOutPlan) (kind : Placement → Bool) : Nat :=
  ((p.items.filter fun item => kind item.placement).map (·.delta)).sum

variable {nodes : List Node} {winners : List Placement} {leftover : KeySet WorkloadKey}

theorem placement_of_item {item : ScaleItem} (h : item ∈ (build nodes winners leftover).items) :
    item.placement ∈ winners := by
  obtain ⟨⟨p, delta⟩, listed, rfl⟩ := List.mem_map.mp h
  have counted := get?_countPlacements winners p
  rw [(SortedMap.mem_entries_iff _).mp listed] at counted
  by_cases there : p ∈ winners
  · exact there
  · rw [if_neg there] at counted
    simp at counted

/-- Each placement that has won has one item. -/
theorem perm_placements :
    ((build nodes winners leftover).items.map (·.placement)).Perm winners.dedup := by
  have keys : (build nodes winners leftover).items.map (·.placement) =
      (countPlacements winners).keys := by
    rw [build, List.map_map]
    rfl
  refine (List.perm_ext_iff_of_nodup ?_ (List.nodup_dedup _)).mpr ?_
  · rw [keys]
    exact SortedMap.nodup_keys _
  · intro p
    rw [List.mem_dedup]
    constructor
    · intro listed
      obtain ⟨item, h, rfl⟩ := List.mem_map.mp listed
      exact placement_of_item h
    · intro won
      have there : ∃ item ∈ (build nodes winners leftover).items, item.placement = p :=
        exists_item won
      obtain ⟨item, h, rfl⟩ := there
      exact List.mem_map_of_mem h

theorem added_build (kind : Placement → Bool) :
    (build nodes winners leftover).added kind = winners.countP kind := by
  have deltas : ((build nodes winners leftover).items.filter fun item => kind item.placement).map
      (·.delta) = (((build nodes winners leftover).items.map (·.placement)).filter kind).map
        winners.count := by
    rw [List.filter_map, List.map_map]
    refine List.map_congr_left fun item h => ?_
    exact delta_eq (List.mem_filter.mp h).1
  rw [added, deltas, ((perm_placements.filter kind).map winners.count).sum_eq,
    List.sum_map_count_dedup_filter_eq_countP]

theorem totalDelta_eq (p : ScaleOutPlan) : p.totalDelta = p.added fun _ => true := by
  rw [totalDelta, added, List.filter_true, List.sum_eq_foldl, List.foldl_map]

end ScaleAdvisor.ScaleOutPlan
