import ScaleAdvisor.Proofs.Simulation.Log
import ScaleAdvisor.Proofs.View.Reading

/-!
What a simulation comes to. Its outcome follows from what has been read of the log and from the
cluster of its view, so two views of one cluster lead to one outcome.

* `outcome_eq`: on a readable view there is always an outcome;
* `mem_scaled_iff`, `mem_others_iff`: the workloads that it lists are those that the log has placed;
* `boundWorkloads_eq`: how many these are.
-/

namespace ScaleAdvisor

/-- All workloads that an outcome lists, on the added node or elsewhere. -/
def Outcome.assigned (o : Outcome) : List WorkloadKey :=
  (o.scaled.workloads ++ o.others.flatMap (·.workloads)).map (·.1)

theorem Outcome.boundWorkloads_eq (o : Outcome) : o.boundWorkloads = o.assigned.length := by
  have count (others : List NodeAssignment) (n : Nat) :
      others.foldl (fun n a => n + a.workloads.length) n =
        n + (others.flatMap (·.workloads)).length := by
    induction others generalizing n with
    | nil => simp
    | cons a rest ih =>
      rw [List.foldl_cons, ih, List.flatMap_cons, List.length_append, Nat.add_assoc]
  rw [boundWorkloads, count, assigned, List.length_map, List.length_append]

namespace SimulationProgress

/-- What a workload of a cluster asks for; one that is not there asks for nothing. -/
def requestsOver (C : Cluster) (k : WorkloadKey) : Resources :=
  ((C.workload? k).map (·.effectiveRequests C.runtimeClasses)).getD ∅

/-- Placed workloads by their nodes. -/
def gather (C : Cluster) (placed : List (WorkloadKey × String)) : Assignments :=
  placed.foldl (fun byNode (k, node) =>
    byNode.insert node (byNode.getD node [] ++ [(k, requestsOver C k)])) ∅

/-- What a simulation comes to over a cluster. -/
def outcomeOver (p : SimulationProgress) (C : Cluster) (name : String) (placement : Placement)
    (node : Node) : Outcome where
  name
  placement
  scaledNode := node
  scaled := ⟨node.name, (gather C p.scheduled.entries).getD node.name []⟩
  others := ((gather C p.scheduled.entries).erase node.name).entries.map fun (name, workloads) =>
    ⟨name, workloads⟩
  unscheduled := p.unscheduled.keys

variable {f : Forest} {v : ViewId} {C : Cluster} {placed : List (WorkloadKey × String)}

theorem requestsIn_eq (readable : f.Readable v) (k : WorkloadKey) :
    requestsIn f v (f.cluster v).runtimeClasses k = .ok (requestsOver (f.cluster v) k) := by
  rw [requestsIn, Forest.workload_eq readable]
  rfl

theorem collect_eq (readable : f.Readable v) (placed : List (WorkloadKey × String)) :
    collect f v (f.cluster v).runtimeClasses placed = .ok (gather (f.cluster v) placed) := by
  have step (byNode : Assignments) (x : WorkloadKey × String) :
      (requestsIn f v (f.cluster v).runtimeClasses x.1).bind (fun requests =>
        .ok (byNode.insert x.2 (byNode.getD x.2 [] ++ [(x.1, requests)]))) =
      .ok (byNode.insert x.2 (byNode.getD x.2 [] ++ [(x.1, requestsOver (f.cluster v) x.1)])) := by
    rw [requestsIn_eq readable]
    rfl
  have all (byNode : Assignments) :
      placed.foldlM (fun byNode x => (requestsIn f v (f.cluster v).runtimeClasses x.1).bind
        fun requests => .ok (byNode.insert x.2 (byNode.getD x.2 [] ++ [(x.1, requests)]))) byNode =
      .ok (placed.foldl (fun byNode x => byNode.insert x.2
        (byNode.getD x.2 [] ++ [(x.1, requestsOver (f.cluster v) x.1)])) byNode) := by
    simp only [step]
    exact List.foldlM_pure
  exact all ∅

/-- There is always an outcome, and the cluster is all it takes. -/
theorem outcome_eq (valid : f.Valid) (readable : f.Readable v) (p : SimulationProgress)
    (name : String) (placement : Placement) (node : Node) :
    p.outcome f v name placement node = .ok (p.outcomeOver (f.cluster v) name placement node) := by
  rw [outcome, Forest.runtimeClasses_eq valid readable]
  change (collect f v (f.cluster v).runtimeClasses p.scheduled.entries).bind _ = _
  rw [collect_eq readable]
  rfl

theorem mem_gather {k : WorkloadKey} {node : String} :
    k ∈ ((gather C placed).getD node []).map (·.1) ↔ (k, node) ∈ placed := by
  have collected (byNode : Assignments) :
      k ∈ ((placed.foldl (fun byNode (k, node) =>
        byNode.insert node (byNode.getD node [] ++ [(k, requestsOver C k)])) byNode).getD
          node []).map (·.1) ↔ k ∈ (byNode.getD node []).map (·.1) ∨ (k, node) ∈ placed := by
    induction placed generalizing byNode with
    | nil => simp
    | cons head rest ih =>
      obtain ⟨k', node'⟩ := head
      rw [List.foldl_cons, ih]
      by_cases same : node = node'
      · subst same
        simp only [SortedMap.getD, SortedMap.get?_insert_self, Option.getD_some, List.map_append,
          List.map_cons, List.map_nil, List.mem_append, List.mem_cons, Prod.mk.injEq, and_true]
        tauto
      · have kept := SortedMap.get?_insert_of_ne byNode
          (byNode.getD node' [] ++ [(k', requestsOver C k')]) same
        simp only [SortedMap.getD, List.mem_cons, Prod.mk.injEq, same, and_false,
          false_or] at kept ⊢
        rw [kept]
  rw [gather, collected ∅]
  simp [SortedMap.getD]

variable {p : SimulationProgress} {name : String} {placement : Placement} {node : Node}
  {k : WorkloadKey}

theorem mem_scaled_iff :
    k ∈ (p.outcomeOver C name placement node).scaled.workloads.map (·.1) ↔
      p.scheduled.get? k = some node.name := by
  rw [outcomeOver, mem_gather, SortedMap.mem_entries_iff]

theorem mem_others_iff :
    k ∈ ((p.outcomeOver C name placement node).others.flatMap (·.workloads)).map (·.1) ↔
      ∃ other, other ≠ node.name ∧ p.scheduled.get? k = some other := by
  simp only [outcomeOver, List.mem_map, List.mem_flatMap]
  constructor
  · rintro ⟨⟨_, requests⟩, ⟨_, ⟨⟨other, workloads⟩, listed, rfl⟩, hk⟩, rfl⟩
    have found := (SortedMap.mem_entries_iff _).mp listed
    rw [SortedMap.get?_erase] at found
    split at found
    · simp at found
    · rename_i different
      refine ⟨other, by simpa using different, ?_⟩
      apply (SortedMap.mem_entries_iff _).mp
      apply (mem_gather (C := C)).mp
      rw [SortedMap.getD, found]
      exact List.mem_map_of_mem (f := (·.1)) hk
  · rintro ⟨other, different, placed⟩
    have held := (mem_gather (C := C)).mpr ((SortedMap.mem_entries_iff _).mpr placed)
    obtain ⟨x, hx, rfl⟩ := List.mem_map.mp held
    cases found : (gather C p.scheduled.entries).get? other with
    | none => simp [SortedMap.getD, found] at hx
    | some workloads =>
      rw [SortedMap.getD, found] at hx
      have listed :
        (other, workloads) ∈ ((gather C p.scheduled.entries).erase node.name).entries := by
        apply (SortedMap.mem_entries_iff _).mpr
        simpa [SortedMap.get?_erase, different] using found
      exact ⟨x, ⟨_, ⟨_, listed, rfl⟩, hx⟩, rfl⟩

theorem mem_assigned_iff :
    k ∈ (p.outcomeOver C name placement node).assigned ↔
      ∃ node, p.scheduled.get? k = some node := by
  rw [Outcome.assigned, List.map_append, List.mem_append, mem_scaled_iff, mem_others_iff]
  constructor
  · rintro (h | ⟨other, -, h⟩)
    · exact ⟨_, h⟩
    · exact ⟨other, h⟩
  · rintro ⟨other, h⟩
    by_cases same : other = node.name
    · exact .inl (by rw [h, same])
    · exact .inr ⟨other, same, h⟩

end SimulationProgress

end ScaleAdvisor
