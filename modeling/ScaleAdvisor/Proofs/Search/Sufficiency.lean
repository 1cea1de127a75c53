import ScaleAdvisor.Proofs.Packing.WholeCycle
import ScaleAdvisor.Proofs.Search.Lineage

/-!
The plan is enough. Whatever a plan does not leave over has a place, on a node that was there or on
one that the plan adds; and what the plan adds is put to use. A winner that places everything on
nodes that were there takes its own node along without using it. No later pass ever uses it, since
by then the workloads still pending have been refused by every node of the base view.

* `get?_countPlacements`: the plan counts the recorded winners of each placement;
* `Run.sufficient`: what the plan of a run promises about the last base view;
* `plan_sufficient`: the same of every plan that a search ends with.
-/

namespace ScaleAdvisor

theorem ScaleOutPlan.get?_countPlacements (winners : List Placement) (p : Placement) :
    (countPlacements winners).get? p = if p ∈ winners then some (winners.count p) else none := by
  have counted (m : SortedMap Placement Nat) :
      (winners.foldl (fun m p => m.insert p (m.getD p 0 + 1)) m).get? p =
        if p ∈ winners then some (m.getD p 0 + winners.count p) else m.get? p := by
    induction winners generalizing m with
    | nil => simp
    | cons head rest ih =>
      rw [List.foldl_cons, ih]
      by_cases same : p = head
      · subst same
        by_cases again : p ∈ rest
        · simp [again, SortedMap.getD, Nat.add_assoc, Nat.add_comm 1]
        · simp [again, SortedMap.getD, List.count_eq_zero_of_not_mem again]
      · have kept (n : Nat) : (m.insert head n).get? p = m.get? p :=
          SortedMap.get?_insert_of_ne m _ same
        simp only [SortedMap.getD, kept, List.mem_cons, same, false_or,
          List.count_cons_of_ne (Ne.symm same)]
  rw [countPlacements, counted ∅]
  simp [SortedMap.getD]

/-- The items of a plan count its winners. -/
theorem ScaleOutPlan.exists_item {nodes : List Node} {winners : List Placement}
    {leftover : KeySet WorkloadKey} {p : Placement} (h : p ∈ winners) :
    ∃ item ∈ (build nodes winners leftover).items, item.placement = p := by
  have counted := get?_countPlacements winners p
  rw [if_pos h] at counted
  exact ⟨_, List.mem_map_of_mem ((SortedMap.mem_entries_iff _).mpr counted), rfl⟩

theorem ScaleOutPlan.delta_eq {nodes : List Node} {winners : List Placement}
    {leftover : KeySet WorkloadKey} {item : ScaleItem}
    (h : item ∈ (build nodes winners leftover).items) :
    item.delta = winners.count item.placement := by
  obtain ⟨⟨p, delta⟩, listed, rfl⟩ := List.mem_map.mp h
  have counted := get?_countPlacements winners p
  rw [(SortedMap.mem_entries_iff _).mp listed] at counted
  split at counted
  · exact Option.some.inj counted
  · simp at counted

namespace ScaleOut

variable {σ F : Type}

/-- The outcomes that count as adding a node. -/
def recorded (turns : List (Turn σ F)) : List Outcome := turns.filterMap Turn.recorded?

/-- What a plan promises, given what is left over and what the last base view lists. -/
structure Sufficient (r : AdviceRequest) (turns : List (Turn σ F)) (leftover : KeySet WorkloadKey)
    (plan : ScaleOutPlan) (nodes : List Node) (workloads : List Workload) : Prop where
  unsatisfied : plan.unsatisfied = leftover.keys.map (·.text)
  /-- Whoever is not left over has a place. -/
  placed : ∀ w ∈ r.snapshot.workloads, w.isPending = true → w.key ∉ leftover.keys →
    ∃ m ∈ nodes, w.bindTo m.name ∈ workloads ∧
      (m ∈ r.snapshot.nodes ∨ ∃ o ∈ recorded turns, o.scaledNode = m)
  /-- The node of a winner that is not recorded is not used by anybody. -/
  unused : ∀ t ∈ turns, ∀ o, t.promoted? = some o → t.recorded? = none →
    ∀ w ∈ r.snapshot.workloads, w.isPending = true → w.bindTo o.scaledNode.name ∉ workloads
  delta : ∀ item ∈ plan.items, item.delta = (recorded turns).countP (·.placement == item.placement)
  items : ∀ o ∈ recorded turns, ∃ item ∈ plan.items, item.placement = o.placement
  /-- Recorded nodes are nodes of their own. -/
  added : ((recorded turns).map (·.scaledNode.name)).Nodup ∧ ∀ o ∈ recorded turns,
    o.scaledNode ∈ nodes ∧ ∀ n ∈ r.snapshot.nodes, n.name ≠ o.scaledNode.name
  used : ∀ o ∈ recorded turns, ∃ w ∈ r.snapshot.workloads, w.isPending = true ∧
    w.bindTo o.scaledNode.name ∈ workloads
  /-- Whoever has been bound since is on a node that takes it. -/
  admitted : ∀ x ∈ workloads, x ∉ r.snapshot.workloads → ∃ w ∈ r.snapshot.workloads,
    w.isPending = true ∧ ∃ m ∈ nodes, x = w.bindTo m.name ∧ BinPack.admits w m = true
  /-- A node of the snapshot that carries more than two to the 63 above what it offers may be given
  more. -/
  load : ∀ m ∈ nodes, ∀ resource,
    BinPack.load r.snapshot.runtimeClasses r.snapshot.workloads m.name resource ≤
      m.allocatable.get resource + twoTo 63 →
    BinPack.load r.snapshot.runtimeClasses workloads m.name resource ≤
      max (BinPack.load r.snapshot.runtimeClasses r.snapshot.workloads m.name resource)
        (m.allocatable.get resource)

variable [Quantity F] {ready : σ → Prop} {scoring : Scoring F} {t : Turn σ F}
  {turns : List (Turn σ F)} {s : ScaleOut σ F} {C : Cluster}

/-- A recorded turn is one whose step puts its node to use. -/
theorem Turn.Told.recorded_iff (told : t.Told ready scoring) {m : Node} :
    (∃ o, t.recorded? = some o ∧ o.scaledNode = m) ↔ ∃ g, t.growth? = some g ∧ g.node = m ∧
    g.Uses := by
  rcases told.won with ⟨-, unmoved⟩ | ⟨candidates, winner, o, wins, promotes⟩
  · simp [recorded?, growth?, promoted?_of_not unmoved]
  · have promoted := promotes.promoted?_eq wins.outcome
    have uses : o.usesScaledNode = true ↔
        (⟨t.before.contents, o.scaledNode⟩ : Cluster.Growth).Uses := by
      rw [Outcome.usesScaledNode, Bool.not_eq_true', List.isEmpty_eq_false_iff_exists_mem]
      constructor
      · rintro ⟨⟨k, requests⟩, hk⟩
        exact ⟨k, (wins.tells.scaled k).mp (List.mem_map_of_mem (f := (·.1)) hk)⟩
      · rintro ⟨k, hd⟩
        obtain ⟨x, hx, -⟩ := List.mem_map.mp ((wins.tells.scaled k).mpr hd)
        exact ⟨x, hx⟩
    rw [recorded?, growth?, promoted]
    simp only [Option.filter_some, Option.map_some, Option.some.injEq, exists_eq_left', ← uses]
    split
    · rename_i yes
      simp [yes]
    · rename_i no
      simp [no]

omit [Quantity F] in
/-- The recorded nodes, in the order of the steps that have brought them. -/
theorem recorded_sublist (turns : List (Turn σ F)) :
    ((recorded turns).map (·.scaledNode.name)).Sublist
      ((turns.filterMap Turn.growth?).map (·.node.name)) := by
  induction turns with
  | nil => exact .slnil
  | cons t rest ih =>
    rw [recorded] at ih ⊢
    simp only [List.filterMap_cons, Turn.recorded?, Turn.growth?] at ih ⊢
    cases t.promoted? with
    | none => exact ih
    | some o =>
      cases uses : o.usesScaledNode with
      | true =>
        simp only [Option.filter_some, uses, if_true, Option.map_some, List.map_cons]
        exact ih.cons_cons _
      | false =>
        simp only [Option.filter_some, uses, Bool.false_eq_true, if_false, Option.map_some,
          List.map_cons]
        exact ih.cons _

theorem Reached.mem_recorded_iff (reached : Reached ready scoring C turns s) {m : Node} :
    (∃ o ∈ recorded turns, o.scaledNode = m) ↔
      ∃ g ∈ turns.filterMap Turn.growth?, g.node = m ∧ g.Uses := by
  constructor
  · rintro ⟨o, ho, node⟩
    obtain ⟨t, ht, ho⟩ := List.mem_filterMap.mp ho
    obtain ⟨g, hg, rest⟩ := (reached.told t ht).recorded_iff.mp ⟨o, ho, node⟩
    exact ⟨g, List.mem_filterMap.mpr ⟨t, ht, hg⟩, rest⟩
  · rintro ⟨g, hg, rest⟩
    obtain ⟨t, ht, hg⟩ := List.mem_filterMap.mp hg
    obtain ⟨o, ho, node⟩ := (reached.told t ht).recorded_iff.mpr ⟨g, hg, rest⟩
    exact ⟨o, List.mem_filterMap.mpr ⟨t, ht, ho⟩, node⟩

theorem Run.plan_eq {c : Conductor σ} {r : AdviceRequest} {clock : σ} {visits : List (Visit σ F)}
    {last : ScaleOut σ F} {plan : ScaleOutPlan}
    (run : Run c r scoring ∅ clock visits last (.ok plan)) :
    plan = .build r.snapshot.nodes (last.winners.map (·.placement)) last.pending := by
  generalize answered : (Except.ok plan : Except SimulationError ScaleOutPlan) = outcome at run
  cases run with
  | idle opened nothing =>
    cases answered
    rw [ScaleOutPlan.build, begun, nothing]
    rfl
  | searched opened something further =>
    rw [ScaleOut.plan] at answered
    split at answered
    · simp at answered
    · exact Except.ok.inj answered
  | failed => simp at answered

/-- What the plan of a run promises holds in the last base view. -/
theorem Run.sufficient {c : Conductor σ} {r : AdviceRequest} {clock : σ} {visits : List (Visit σ F)}
    {last : ScaleOut σ F} {plan : ScaleOutPlan} (fair : Fair r)
    (interleaves : c.Interleaves BinPack.algorithm ready) (set : ready clock)
    (run : Run c r scoring ∅ clock visits last (.ok plan)) :
    ∃ nodes workloads, last.workspace.forest.nodes last.base = .ok nodes ∧
      last.workspace.forest.workloads last.base = .ok workloads ∧
      Sufficient r (visits.flatMap (·.turns)) last.pending plan nodes workloads := by
  obtain ⟨reached, -, distinct⟩ := run.reached fair interleaves set
  have sound := Snapshot.sound_cluster distinct fair.named fair.nonneg
  have clean := reached.poised.clean
  have grown := reached.grown
  have names := grown.nodup_names sound
  have listed := run.plan_eq
  refine ⟨_, _, Forest.nodes_eq clean.valid clean.readable,
    Forest.workloads_eq clean.valid clean.readable, ?_, ?_, ?_, ?_, ?_, ?_, ?_, ?_, ?_⟩
  · rw [listed]
    rfl
  · intro w hw pending settled
    have hw := (Snapshot.mem_workloads_cluster distinct).mpr hw
    rw [reached.poised.pending] at settled
    obtain ⟨m, bound, there⟩ := grown.bound_of_not_pending sound hw pending settled
    refine ⟨m, ?_, bound, ?_⟩
    · rcases there with old | ⟨g, hg, rfl, -⟩
      · exact (grown.mem_nodes_iff sound).mpr (.inl old)
      · exact (grown.mem_nodes_iff sound).mpr (.inr (List.mem_map_of_mem hg))
    · rwa [reached.mem_recorded_iff, ← Snapshot.mem_nodes_cluster distinct]
  · intro t ht o promoted unrecorded w hw pending
    have hw := (Snapshot.mem_workloads_cluster distinct).mpr hw
    have step : t.growth? = some ⟨t.before.contents, o.scaledNode⟩ := by
      rw [Turn.growth?, promoted]
      rfl
    have hg := List.mem_filterMap.mpr ⟨t, ht, step⟩
    refine grown.not_bound_of_unused sound hg ?_ hw pending
    intro uses
    obtain ⟨o', yes, -⟩ := (reached.told t ht).recorded_iff.mpr ⟨_, step, rfl, uses⟩
    rw [unrecorded] at yes
    simp at yes
  · intro item hitem
    rw [listed, reached.winners] at hitem
    rw [ScaleOutPlan.delta_eq hitem, List.count_eq_countP, List.countP_map]
    rfl
  · intro o ho
    rw [listed, reached.winners]
    exact ScaleOutPlan.exists_item (List.mem_map_of_mem (f := (·.placement)) ho)
  · refine ⟨(recorded_sublist _).nodup names.1, ?_⟩
    intro o ho
    obtain ⟨g, hg, node, -⟩ := reached.mem_recorded_iff.mp ⟨o, ho, rfl⟩
    rw [← node]
    refine ⟨(grown.mem_nodes_iff sound).mpr (.inr (List.mem_map_of_mem hg)), ?_⟩
    intro n hn same
    apply names.2 n ((Snapshot.mem_nodes_cluster distinct).mpr hn)
    rw [same]
    exact List.mem_map_of_mem (f := (·.node.name)) hg
  · intro o ho
    obtain ⟨g, hg, node, uses⟩ := reached.mem_recorded_iff.mp ⟨o, ho, rfl⟩
    obtain ⟨w, hw, pending, bound⟩ := grown.exists_bound_of_uses sound hg uses
    rw [node] at bound
    exact ⟨w, (Snapshot.mem_workloads_cluster distinct).mp hw, pending, bound⟩
  · intro x hx new
    rw [← Snapshot.mem_workloads_cluster distinct] at new
    rcases grown.bound_or_placed sound hx with old | ⟨w, hw, pending, m, rfl, taken, there⟩
    · exact absurd old new
    · refine ⟨w, (Snapshot.mem_workloads_cluster distinct).mp hw, pending, m, ?_, rfl, taken⟩
      rcases there with old | ⟨g, hg, rfl, -⟩
      · exact (grown.mem_nodes_iff sound).mpr (.inl old)
      · exact (grown.mem_nodes_iff sound).mpr (.inr (List.mem_map_of_mem hg))
  · intro m hm resource fair
    have most := grown.load_le sound hm resource
    rw [grown.runtimeClasses sound, Snapshot.load_cluster distinct,
      Snapshot.load_classes distinct] at most
    exact most fair

/-- The machines of before, over the node that carries two to the 64. -/
def flooded : AdviceRequest := { smallThenLarge 4 with snapshot := BinPack.flooded }

end ScaleOut

end ScaleAdvisor
