import ScaleAdvisor.Proofs.Search.Tally

/-!
How winners become a plan. Winners are counted by placement, and placements are alike only if they
have pool, template, machine, region and zone in common. What a plan has to say of winners, of the
nodes that are there and of what is left over can be told without any order of counting, and one
plan alone says it.

* `Summary.unique`: there is one such plan;
* `build_summary`: the plan that is built is it;
* `deltaOf_build`: what a placement gets is how often it has won;
* `build_adds_up`: plans for a part of the winners each add up to the plan for all.
-/

namespace ScaleAdvisor

namespace ScaleOutPlan

/-- What a plan says of the winners, the nodes that are there and the workloads left over. -/
structure Summary (nodes : List Node) (winners : List Placement) (leftover : KeySet WorkloadKey)
    (p : ScaleOutPlan) : Prop where
  ascending : p.items.Pairwise fun i j => KeyOrder.before i.placement j.placement = true
  /-- A placement gets a node for each time that it has won. -/
  delta : ∀ i ∈ p.items, i.delta = winners.count i.placement
  positive : ∀ i ∈ p.items, 1 ≤ i.delta
  /-- The nodes that are there do not depend on the winners. -/
  replicas : ∀ i ∈ p.items, i.currentReplicas = nodes.countP i.placement.isOf
  complete : ∀ w ∈ winners, ∃ i ∈ p.items, i.placement = w
  total : p.totalDelta = winners.length
  /-- Workloads left over are named in the order of namespace and name, each once. -/
  unsatisfied : ∃ keys : List WorkloadKey,
    (keys.Pairwise fun j k =>
      j.inNamespace < k.inNamespace ∨ j.inNamespace = k.inNamespace ∧ j.name < k.name) ∧
    (∀ k, k ∈ keys ↔ leftover.has k = true) ∧ p.unsatisfied = keys.map (·.text)

/-- The nodes that a plan adds to a placement. -/
def deltaOf (p : ScaleOutPlan) (place : Placement) : Nat :=
  ((p.items.find? (·.placement == place)).map (·.delta)).getD 0

variable {nodes nodes' : List Node} {winners winners' : List Placement}
  {leftover : KeySet WorkloadKey} {p q : ScaleOutPlan}

namespace Summary

/-- Items say the same of a placement. -/
theorem item_eq (h : Summary nodes winners leftover p) (h' : Summary nodes winners leftover q)
    {i j : ScaleItem} (hi : i ∈ p.items) (hj : j ∈ q.items) (same : i.placement = j.placement) :
    i = j := by
  have delta : i.delta = j.delta := by rw [h.delta i hi, h'.delta j hj, same]
  have replicas : i.currentReplicas = j.currentReplicas := by
    rw [h.replicas i hi, h'.replicas j hj, same]
  cases i
  cases j
  simp_all

/-- A placement with an item has won. -/
theorem won (h : Summary nodes winners leftover p) {i : ScaleItem} (hi : i ∈ p.items) :
    i.placement ∈ winners := by
  have positive := h.positive i hi
  rw [h.delta i hi] at positive
  exact List.one_le_count_iff.mp positive

theorem mem_of_mem (h : Summary nodes winners leftover p) (h' : Summary nodes winners leftover q)
    {i : ScaleItem} (hi : i ∈ p.items) : i ∈ q.items := by
  obtain ⟨j, hj, same⟩ := h'.complete i.placement (h.won hi)
  exact h.item_eq h' hi hj same.symm ▸ hj

theorem unique (h : Summary nodes winners leftover p) (h' : Summary nodes winners leftover q) :
    p = q := by
  have items : p.items = q.items :=
    KeyOrder.eq_of_sorted (·.placement) h.ascending h'.ascending fun _ =>
      ⟨h.mem_of_mem h', h'.mem_of_mem h⟩
  obtain ⟨keys, sorted, listed, names⟩ := h.unsatisfied
  obtain ⟨keys', sorted', listed', names'⟩ := h'.unsatisfied
  have same : keys = keys' := by
    refine KeyOrder.eq_of_sorted id (sorted.imp WorkloadKey.before_iff.mpr)
      (sorted'.imp WorkloadKey.before_iff.mpr) ?_
    intro k
    rw [listed, listed']
  have unsatisfied : p.unsatisfied = q.unsatisfied := by rw [names, names', same]
  cases p
  cases q
  simp_all

/-- Neither the order of the winners nor that of the nodes is told. -/
theorem perm (h : Summary nodes winners leftover p) (nodesPerm : nodes'.Perm nodes)
    (winnersPerm : winners'.Perm winners) : Summary nodes' winners' leftover p where
  ascending := h.ascending
  delta i hi := by rw [h.delta i hi, winnersPerm.count_eq]
  positive := h.positive
  replicas i hi := by rw [h.replicas i hi, nodesPerm.countP_eq]
  complete w hw := h.complete w (winnersPerm.mem_iff.mp hw)
  total := h.total.trans winnersPerm.length_eq.symm
  unsatisfied := h.unsatisfied

theorem deltaOf_eq (h : Summary nodes winners leftover p) (place : Placement) :
    p.deltaOf place = winners.count place := by
  rw [deltaOf]
  cases found : p.items.find? (·.placement == place) with
  | none =>
    have missing : place ∉ winners := by
      intro won
      obtain ⟨i, hi, here⟩ := h.complete place won
      simpa [here] using List.find?_eq_none.mp found i hi
    simp [List.count_eq_zero_of_not_mem missing]
  | some i =>
    have here : i.placement = place := by simpa using List.find?_some found
    simp [h.delta i (List.mem_of_find?_eq_some found), here]

end Summary

theorem build_summary (nodes : List Node) (winners : List Placement)
    (leftover : KeySet WorkloadKey) :
    Summary nodes winners leftover (build nodes winners leftover) where
  ascending := List.pairwise_map.mpr (countPlacements winners).sorted
  delta _ hi := delta_eq hi
  positive _ hi := by
    rw [delta_eq hi]
    exact List.one_le_count_iff.mpr (placement_of_item hi)
  replicas i hi := by
    obtain ⟨_, -, rfl⟩ := List.mem_map.mp hi
    rfl
  complete _ hw := exists_item hw
  total := by rw [totalDelta_eq, added_build, List.countP_true]
  unsatisfied := by
    have sorted : leftover.keys.Pairwise fun j k => KeyOrder.before j k = true :=
      List.pairwise_map.mpr leftover.sorted
    exact ⟨leftover.keys, sorted.imp WorkloadKey.before_iff.mp, fun _ => KeySet.has_iff.symm, rfl⟩

theorem deltaOf_build (nodes : List Node) (winners : List Placement) (leftover : KeySet WorkloadKey)
    (place : Placement) : (build nodes winners leftover).deltaOf place = winners.count place :=
  (build_summary nodes winners leftover).deltaOf_eq place

/-- The plan says what there is to say of the winners in whatever order they come, and plans for a
part of them each, whatever they leave over, add up to it. -/
theorem build_adds_up (nodes : List Node) (winners : List Placement)
    (leftover : KeySet WorkloadKey) :
    Summary nodes winners leftover (build nodes winners leftover) ∧
    (∀ nodes' winners', nodes'.Perm nodes → winners'.Perm winners →
      build nodes' winners' leftover = build nodes winners leftover) ∧
    (∀ part others, winners.Perm (part ++ others) → ∀ left left' place,
      (build nodes winners leftover).deltaOf place =
        (build nodes part left).deltaOf place + (build nodes others left').deltaOf place) ∧
    ∀ winners' leftover', ∀ i ∈ (build nodes winners leftover).items,
      ∀ j ∈ (build nodes winners' leftover').items, j.placement = i.placement →
        j.currentReplicas = i.currentReplicas := by
  have summary := build_summary nodes winners leftover
  refine ⟨summary, ?_, ?_, ?_⟩
  · intro nodes' winners' nodesPerm winnersPerm
    exact (build_summary nodes' winners' leftover).unique (summary.perm nodesPerm winnersPerm)
  · intro part others split left left' place
    rw [deltaOf_build, deltaOf_build, deltaOf_build, split.count_eq, List.count_append]
  · intro winners' leftover' i hi j hj same
    rw [(build_summary nodes winners' leftover').replicas j hj, summary.replicas i hi, same]

/-- Placements that differ in nothing but the machine and the region. -/
def alike (machine region : String) : Placement := ⟨"general", "small", machine, region, "a"⟩

/-- A node with the labels of all of them. -/
def alikeNode : Node where
  name := "worker"
  labels := .ofList [(Label.nodePool, "general"), (Label.nodeTemplate, "small"), (Label.zone, "a")]
  capacity := ∅
  allocatable := ∅

theorem build_adds_up_alike :
    let winners := [alike "large" "eu", alike "small" "eu", alike "large" "us", alike "large" "eu"]
    let part := [alike "large" "eu"]
    let others := [alike "large" "us", alike "large" "eu", alike "small" "eu"]
    let leftover : KeySet WorkloadKey := .ofKeys [⟨"b", "a"⟩, ⟨"a", "b"⟩, ⟨"b", "a"⟩]
    let plan := build [alikeNode] winners leftover
    winners.Perm (part ++ others) ∧
    plan.items =
      [⟨alike "large" "eu", 1, 2⟩, ⟨alike "large" "us", 1, 1⟩, ⟨alike "small" "eu", 1, 1⟩] ∧
    plan.unsatisfied = ["a/b", "b/a"] ∧
    build [alikeNode] winners.reverse leftover = plan ∧
    plan.deltaOf (alike "large" "eu") = (build [alikeNode] part ∅).deltaOf (alike "large" "eu") +
      (build [alikeNode] others leftover).deltaOf (alike "large" "eu") := by
  intro winners part others leftover plan
  have split : winners.Perm (part ++ others) := by decide
  obtain ⟨-, reordered, parts, -⟩ := build_adds_up [alikeNode] winners leftover
  exact ⟨split, by decide +kernel, by decide +kernel,
    reordered _ _ (.refl _) winners.reverse_perm, parts part others split ∅ leftover _⟩

end ScaleOutPlan

end ScaleAdvisor
