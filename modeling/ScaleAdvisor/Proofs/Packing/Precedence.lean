import ScaleAdvisor.Proofs.Packing.WholeCycle

/-!
Who comes first. The packer turns to pending workloads by rank: the more urgent first, and of
equally urgent ones the first by namespace and name. What becomes of one is settled before any
workload of lower rank is looked at.

* `ranked_split`: the workloads before one in the row are those that outrank it;
* `SameAbove.decided_alike`: two clusters that agree on what matters to a workload lead to one
  decision about it;
* `AtTurn.load_eq`: what nodes carry when the packer turns to a workload;
* `left_iff_no_room`: it is left where no node that takes it has room beside what comes first;
* `no_priority_inversion`: the same said of a cycle on a view, and of workloads that are deleted.
-/

namespace ScaleAdvisor

namespace Workload

variable {priorities : List PriorityClass} {a b : Workload}

/-- More urgent than another, or as urgent and before it by namespace and name. -/
def Outranks (classes : List PriorityClass) (a b : Workload) : Prop :=
  b.effectivePriority classes < a.effectivePriority classes ∨
    a.effectivePriority classes = b.effectivePriority classes ∧
      (a.inNamespace < b.inNamespace ∨ a.inNamespace = b.inNamespace ∧ a.name < b.name)

instance (classes : List PriorityClass) (a b : Workload) : Decidable (a.Outranks classes b) :=
  inferInstanceAs (Decidable (_ ∨ _ ∧ (_ ∨ _ ∧ _)))

theorem before_rank_iff :
    KeyOrder.before (BinPack.rank priorities a) (BinPack.rank priorities b) = true ↔
      a.Outranks priorities b := by
  rw [KeyOrder.before_prod_iff, BinPack.rank, BinPack.rank, WorkloadKey.before_iff, Outranks]
  simp only [KeyOrder.before, decide_eq_true_eq, Int.neg_lt_neg_iff, Int.neg_inj, key]

theorem Outranks.asymm (h : a.Outranks priorities b) : ¬ b.Outranks priorities a := by
  rw [← before_rank_iff] at h ⊢
  simp [KeyOrder.asymm h]

end Workload

namespace BinPack

variable {nodes : List Node} {classes : List RuntimeClass} {ws : List Workload} {w : Workload}

theorem sorted_ranked (priorities : List PriorityClass) (distinct : (ws.map (·.key)).Nodup) :
    (ranked priorities ws).Pairwise fun a b =>
      KeyOrder.before (rank priorities a) (rank priorities b) = true := by
  apply KeyOrder.sorted_mergeSort
  apply List.Nodup.of_map Prod.snd
  rw [List.map_map]
  exact distinct.sublist (List.filter_sublist.map _)

/-- The row of pending workloads taken apart at one of them. -/
theorem ranked_split (priorities : List PriorityClass) (distinct : (ws.map (·.key)).Nodup)
    (hw : w ∈ ws) (pending : w.isPending = true) :
    ∃ above below, ranked priorities ws = above ++ w :: below ∧
      (above.Pairwise fun a b => KeyOrder.before (rank priorities a) (rank priorities b) = true) ∧
      ∀ x, x ∈ above ↔ x ∈ ws ∧ x.isPending = true ∧ x.Outranks priorities w := by
  obtain ⟨above, below, split⟩ := List.append_of_mem (mem_ranked.mpr ⟨hw, pending⟩ :
    w ∈ ranked priorities ws)
  have sorted := sorted_ranked priorities distinct
  rw [split, List.pairwise_append, List.pairwise_cons] at sorted
  obtain ⟨ascending, ⟨after, -⟩, between⟩ := sorted
  refine ⟨above, below, split, ascending, fun x => ?_⟩
  rw [← Workload.before_rank_iff, ← and_assoc, ← mem_ranked, split]
  constructor
  · intro hx
    exact ⟨by simp [hx], between x hx w (by simp)⟩
  · rintro ⟨hx, first⟩
    obtain hx | hx := List.mem_append.mp hx
    · exact hx
    · obtain rfl | hx := List.mem_cons.mp hx
      · simp [KeyOrder.irrefl] at first
      · simp [KeyOrder.asymm (after x hx)] at first

/-- What is decided first does not depend on who comes later. -/
theorem decideAll_prefix (u : Usage) (first later : List Workload) :
    decideAll nodes classes u first <+: decideAll nodes classes u (first ++ later) := by
  induction first generalizing u with
  | nil => exact List.nil_prefix
  | cons w rest ih =>
    rw [List.cons_append, decideAll, decideAll]
    cases choose u w (w.effectiveRequests classes) nodes with
    | some n => exact (List.prefix_cons_inj _).mpr (ih _)
    | none => exact (List.prefix_cons_inj _).mpr (ih _)

/-- The workloads bound before a cycle and those bound by it that outrank one. -/
def boundAbove (classes : List PriorityClass) (w : Workload) (before after : List Workload) :
    List Workload :=
  after.filter fun x => !x.isPending && (decide (x ∈ before) || decide (x.Outranks classes w))

/-- What a node carries of a resource by the time the packer turns to a workload. -/
def carriedAbove (C : Cluster) (w : Workload) (after : List Workload) (n : Node)
    (resource : String) : Int :=
  load C.runtimeClasses (boundAbove C.priorityClasses w C.workloads after) n.name resource

/-- Pending workloads do not count in what nodes carry. -/
theorem usageOf_filter (classes : List RuntimeClass) (ws : List Workload) :
    usageOf classes (ws.filter fun w => !w.isPending) = usageOf classes ws := by
  rw [usageOf, usageOf, List.foldl_filter]
  congr
  funext u w
  cases w.nodeName <;> cases w.isPending <;> rfl

theorem load_filter (classes : List RuntimeClass) (ws : List Workload) (node resource : String) :
    load classes (ws.filter fun w => !w.isPending) node resource =
      load classes ws node resource := by
  induction ws with
  | nil => rfl
  | cons w rest ih =>
    cases pending : w.isPending with
    | true => simp [load_cons, pending, ih, Workload.isOn_of_isPending pending]
    | false => simp [load_cons, pending, ih]

end BinPack

namespace Cluster

open BinPack

variable {C D : Cluster} {w : Workload}

/-- Two clusters agree on nodes, classes and bound workloads, and on one pending workload and those
that outrank it. -/
structure SameAbove (w : Workload) (C D : Cluster) : Prop where
  nodes : ∀ n, n ∈ D.nodes ↔ n ∈ C.nodes
  priorityClasses : ∀ c, c ∈ D.priorityClasses ↔ c ∈ C.priorityClasses
  runtimeClasses : ∀ c, c ∈ D.runtimeClasses ↔ c ∈ C.runtimeClasses
  bound : ∀ x, x.isPending = false → (x ∈ D.workloads ↔ x ∈ C.workloads)
  above : ∀ x, x.isPending = true → x = w ∨ x.Outranks C.priorityClasses w →
    (x ∈ D.workloads ↔ x ∈ C.workloads)

namespace SameAbove

variable (same : SameAbove w C D) (keyed : C.Keyed) (keyed' : D.Keyed)

include same keyed keyed'

theorem nodes_eq : D.nodes = C.nodes :=
  listing_ext ClusterObject.node?_eq_some keyed' keyed same.nodes

theorem priorityClasses_eq : D.priorityClasses = C.priorityClasses :=
  listing_ext ClusterObject.priorityClass?_eq_some keyed' keyed same.priorityClasses

theorem runtimeClasses_eq : D.runtimeClasses = C.runtimeClasses :=
  listing_ext ClusterObject.runtimeClass?_eq_some keyed' keyed same.runtimeClasses

theorem usageOf_eq (classes : List RuntimeClass) :
    usageOf classes D.workloads = usageOf classes C.workloads := by
  have bound : D.workloads.filter (fun x => !x.isPending) =
      C.workloads.filter fun x => !x.isPending := by
    apply KeyOrder.eq_of_sorted fun x => (ClusterObject.workload x).key
    · exact (sorted_listing ClusterObject.workload?_eq_some keyed').filter _
    · exact (sorted_listing ClusterObject.workload?_eq_some keyed).filter _
    · intro x
      simp only [List.mem_filter, Bool.not_eq_true']
      exact and_congr_left (same.bound x)
  rw [← usageOf_filter, bound, usageOf_filter]

/-- A pending workload and all that outrank it meet with the same decisions in both. -/
theorem decided_alike (hw : w ∈ C.workloads) (pending : w.isPending = true) {u : Workload}
    (hu : u ∈ C.workloads) (waiting : u.isPending = true)
    (before : u = w ∨ u.Outranks C.priorityClasses w) :
    ∃ target, ⟨u.key, target⟩ ∈ C.decisions ∧ ⟨u.key, target⟩ ∈ D.decisions := by
  have hw' := (same.above w pending (.inl rfl)).mpr hw
  obtain ⟨above, below, split, ascending, members⟩ :=
    ranked_split C.priorityClasses (nodup_workloads keyed) hw pending
  obtain ⟨above', below', split', ascending', members'⟩ :=
    ranked_split C.priorityClasses (nodup_workloads keyed') hw' pending
  obtain rfl : above' = above := by
    apply KeyOrder.eq_of_sorted _ ascending' ascending
    intro x
    rw [members, members']
    constructor
    · rintro ⟨hx, waiting, outranks⟩
      exact ⟨(same.above x waiting (.inr outranks)).mp hx, waiting, outranks⟩
    · rintro ⟨hx, waiting, outranks⟩
      exact ⟨(same.above x waiting (.inr outranks)).mpr hx, waiting, outranks⟩
  -- Both rows of decisions begin with those on whoever is up to `w` in the order.
  let first := decideAll C.nodes C.runtimeClasses (usageOf C.runtimeClasses C.workloads)
    (above' ++ [w])
  have here : first <+: C.decisions := by
    rw [Cluster.decisions, BinPack.decisions, split, List.append_cons]
    exact decideAll_prefix _ _ _
  have there : first <+: D.decisions := by
    rw [Cluster.decisions, BinPack.decisions, same.nodes_eq keyed keyed',
      same.priorityClasses_eq keyed keyed', same.runtimeClasses_eq keyed keyed',
      same.usageOf_eq keyed keyed', split', List.append_cons]
    exact decideAll_prefix _ _ _
  have decided : u.key ∈ first.map (·.workload) := by
    rw [map_workload_decideAll]
    refine List.mem_map_of_mem ?_
    rcases before with rfl | outranks
    · simp
    · simp [members u, hu, waiting, outranks]
  obtain ⟨⟨k, target⟩, hd, rfl⟩ := List.mem_map.mp decided
  exact ⟨target, here.subset hd, there.subset hd⟩

end SameAbove

/-- The moment when the packer turns to a workload: those that outrank it have been decided on, and
some of them are bound by now. -/
structure AtTurn (C : Cluster) (w : Workload) (above : List Workload) (made : List Decision)
    (now : List Workload) : Prop where
  members : ∀ x, x ∈ above ↔ x ∈ C.workloads ∧ x.isPending = true ∧ x.Outranks C.priorityClasses w
  undecided : Undecided C.workloads above
  decisions : ∀ d ∈ made, d ∈ C.decisions
  run : Greedy C.nodes C.runtimeClasses C.workloads above made now

section Turn

variable (keyed : C.Keyed) (named : ∀ n ∈ C.nodes, n.name ≠ "") {above now : List Workload}
  {made : List Decision}

include keyed named

namespace AtTurn

variable (turn : AtTurn C w above made now)

include turn

/-- What is bound by now: what has been bound before, and what the cycle binds of those that outrank
the workload. -/
theorem mem_iff {x : Workload} (bound : x.isPending = false) :
    x ∈ now ↔ x ∈ C.packed.workloads ∧ (x ∈ C.workloads ∨ x.Outranks C.priorityClasses w) := by
  have distinct := nodup_workloads keyed
  constructor
  · intro hx
    obtain ⟨y, hy, ⟨node, hd, rfl⟩ | ⟨-, rfl⟩⟩ := (turn.run.mem_after_iff turn.undecided).mp hx
    · have about : y.key ∈ above.map (·.key) := by
        rw [← turn.run.map_workload]
        exact List.mem_map_of_mem (f := (·.workload)) hd
      obtain ⟨u, hu, key⟩ := List.mem_map.mp about
      obtain ⟨listed, -, outranks⟩ := (turn.members u).mp hu
      obtain rfl := List.inj_on_of_nodup_map distinct listed hy key
      have placed := turn.decisions _ hd
      exact ⟨(mem_workloads_packed keyed named).mpr ⟨u, hy, .inl ⟨node, placed, rfl⟩⟩,
        .inr outranks⟩
    · exact ⟨mem_packed_of_bound keyed named hy bound, .inl hy⟩
  · rintro ⟨hx, before⟩
    apply (turn.run.mem_after_iff turn.undecided).mpr
    obtain ⟨y, hy, ⟨node, hd, rfl⟩ | ⟨free, rfl⟩⟩ := (mem_workloads_packed keyed named).mp hx
    · obtain ⟨u, hu, pending, key, -⟩ := exists_of_mem_decisions keyed named hd
      obtain rfl := List.inj_on_of_nodup_map distinct hu hy key
      -- It was pending, so it is not bound from before: the cycle binds it by its rank.
      have outranks : u.Outranks C.priorityClasses w := by
        refine before.resolve_left fun old => ?_
        have same := List.inj_on_of_nodup_map distinct old hu rfl
        rw [same, pending] at bound
        exact Bool.noConfusion bound
      have about : u.key ∈ made.map (·.workload) := by
        rw [turn.run.map_workload]
        exact List.mem_map_of_mem ((turn.members u).mpr ⟨hu, pending, outranks⟩)
      obtain ⟨⟨k, target⟩, hd', rfl⟩ := List.mem_map.mp about
      rw [target_unique keyed named (turn.decisions _ hd') hd] at hd'
      exact ⟨u, hy, .inl ⟨node, hd', rfl⟩⟩
    · exact ⟨x, hy, .inr ⟨fun node hd => free node (turn.decisions _ hd), rfl⟩⟩

theorem load_eq (node resource : String) :
    load C.runtimeClasses now node resource = load C.runtimeClasses
      (boundAbove C.priorityClasses w C.workloads C.packed.workloads) node resource := by
  rw [← load_filter]
  refine load_perm ((List.perm_ext_iff_of_nodup ?_ ?_).mpr fun x => ?_) node resource
  · have distinct := nodup_workloads keyed
    rw [← turn.run.map_key] at distinct
    exact distinct.of_map.filter _
  · exact (nodup_workloads (sameButBound_packed keyed named).keyed).of_map.filter _
  · simp only [boundAbove, List.mem_filter, Bool.and_eq_true, Bool.not_eq_true', Bool.or_eq_true,
      decide_eq_true_eq]
    rw [and_comm, and_left_comm]
    exact and_congr_right fun bound => turn.mem_iff keyed named bound

end AtTurn

/-- A pending workload is left where no node has room for it beside what comes first. -/
theorem left_iff_no_room (hw : w ∈ C.workloads) (pending : w.isPending = true) :
    ⟨w.key, none⟩ ∈ C.decisions ↔ ∀ n ∈ C.nodes, ¬ Fits C.runtimeClasses
      (boundAbove C.priorityClasses w C.workloads C.packed.workloads) w n := by
  have run := greedy_packed keyed named
  have ready := undecided keyed
  obtain ⟨above, below, split, -, members⟩ :=
    ranked_split C.priorityClasses (nodup_workloads keyed) hw pending
  rw [split] at run
  rw [split] at ready
  obtain ⟨first, second, now, made, run', rest⟩ := run.append
  have turn : AtTurn C w above first now :=
    ⟨members, ready.left, fun d hd => by simp [made, hd], run'⟩
  have room (n : Node) : Fits C.runtimeClasses now w n ↔ Fits C.runtimeClasses
      (boundAbove C.priorityClasses w C.workloads C.packed.workloads) w n := by
    simp only [Fits, slack, turn.load_eq keyed named]
  simp only [← room]
  cases rest with
  | @place _ _ _ ds _ n listed fits _ =>
    constructor
    · intro left
      have placed : ⟨w.key, some n.name⟩ ∈ C.decisions := by simp [made]
      simpa using target_unique keyed named placed left
    · intro nowhere
      exact absurd fits (nowhere n listed)
  | leave nowhere _ => exact iff_of_true (by simp [made]) nowhere

end Turn

end Cluster

namespace Forest

variable {f : Forest} {v : ViewId} {w : Workload} {gone : List Workload}

theorem get?_cluster_eq_plain (f : Forest) (v : ViewId) (k : ObjectKey) :
    (f.cluster v).get? k = (f.plain v k).map (·.object) := by
  rw [cluster, SortedMap.get?_mapValues, get?_contents]

theorem plain_delete (valid : f.Valid) (readable : f.Readable v) (k : ObjectKey) :
    ((Operation.edit (.delete k)).perform f v).1.plain v = Function.update (f.plain v) k none := by
  cases taken : (f.plain v k).isSome with
  | true =>
    have allowed : (Edit.delete k).write (f.plain v) (f.version v + 1) = some (k, none) := by
      rw [Edit.write, if_pos taken]
    obtain ⟨g, done, changed⟩ := perform_of_write valid readable allowed
    rw [Operation.perform, done]
    exact changed
  | false =>
    have refused : (Edit.delete k).write (f.plain v) (f.version v + 1) = none := by
      simp [Edit.write, taken]
    obtain ⟨error, failed⟩ := perform_of_refusal readable refused
    rw [Operation.perform, failed]
    have free : f.plain v k = none := by simpa using taken
    exact (Function.update_eq_self_iff.mpr free.symm).symm

/-- Workloads are deleted from a view, one after the other. -/
def deleteWorkloads (f : Forest) (v : ViewId) (gone : List Workload) : Forest :=
  f.replay (gone.map fun w => .ask v (.edit (.delete w.key.objectKey)))

theorem deleteWorkloads_spec (valid : f.Valid) (readable : f.Readable v) (gone : List Workload) :
    (f.deleteWorkloads v gone).Valid ∧ (f.deleteWorkloads v gone).Readable v ∧
      ∀ k, (f.deleteWorkloads v gone).plain v k =
        if k ∈ gone.map (·.key.objectKey) then none else f.plain v k := by
  induction gone generalizing f with
  | nil => exact ⟨valid, readable, fun k => by simp [deleteWorkloads, replay]⟩
  | cons w rest ih =>
    let g := ((Operation.edit (.delete w.key.objectKey)).perform f v).1
    have deeds : Deeds v false f g := deeds_perform f v (.edit (.delete w.key.objectKey))
    have deleted : g.plain v = Function.update (f.plain v) w.key.objectKey none :=
      plain_delete valid readable w.key.objectKey
    obtain ⟨valid', readable', reads⟩ := ih (deeds.valid valid) (deeds.readable readable)
    refine ⟨valid', readable', fun k => (reads k).trans ?_⟩
    rw [deleted, Function.update_apply, List.map_cons]
    by_cases same : k = w.key.objectKey
    · simp [same]
    · simp [same]

/-- Deleting pending workloads of lower rank leaves what matters to a workload. -/
theorem sameAbove_deleteWorkloads (valid : f.Valid) (readable : f.Readable v)
    (lower : ∀ u ∈ gone, u ∈ (f.cluster v).workloads ∧ u.isPending = true ∧
      w.Outranks (f.cluster v).priorityClasses u) :
    Cluster.SameAbove w (f.cluster v) ((f.deleteWorkloads v gone).cluster v) := by
  obtain ⟨valid', -, reads⟩ := deleteWorkloads_spec valid readable gone
  have keyed := keyed_cluster valid (v := v)
  have keyed' := keyed_cluster valid' (v := v)
  have kept {k : ObjectKey} (other : k ∉ gone.map (·.key.objectKey)) :
      ((f.deleteWorkloads v gone).cluster v).get? k = (f.cluster v).get? k := by
    rw [get?_cluster_eq_plain, get?_cluster_eq_plain, reads, if_neg other]
  have remaining (x : Workload) : x ∈ ((f.deleteWorkloads v gone).cluster v).workloads ↔
      x ∈ (f.cluster v).workloads ∧ x ∉ gone := by
    by_cases hx : x.key.objectKey ∈ gone.map (·.key.objectKey)
    · have absent : x ∉ ((f.deleteWorkloads v gone).cluster v).workloads := by
        rw [Cluster.mem_workloads keyed', get?_cluster_eq_plain, reads, if_pos hx]
        simp
      obtain ⟨u, hu, key⟩ := List.mem_map.mp hx
      refine iff_of_false absent fun ⟨listed, present⟩ => present ?_
      have found := (Cluster.mem_workloads keyed).mp listed
      rw [← key, (Cluster.mem_workloads keyed).mp (lower u hu).1] at found
      rw [← ClusterObject.workload.inj (Option.some.inj found)]
      exact hu
    · have present : x ∉ gone := fun h => hx (List.mem_map_of_mem (f := (·.key.objectKey)) h)
      rw [Cluster.mem_workloads keyed', Cluster.mem_workloads keyed, kept hx, and_iff_left present]
  refine ⟨fun n => ?_, fun c => ?_, fun c => ?_, fun x bound => ?_, fun x _ first => ?_⟩
  · rw [Cluster.mem_nodes keyed', Cluster.mem_nodes keyed, kept (by simp [WorkloadKey.objectKey])]
  · rw [Cluster.mem_priorityClasses keyed', Cluster.mem_priorityClasses keyed,
      kept (by simp [WorkloadKey.objectKey])]
  · rw [Cluster.mem_runtimeClasses keyed', Cluster.mem_runtimeClasses keyed,
      kept (by simp [WorkloadKey.objectKey])]
  · rw [remaining, and_iff_left]
    intro hx
    rw [(lower x hx).2.1] at bound
    exact Bool.noConfusion bound
  · rw [remaining, and_iff_left]
    intro hx
    have outranked := (lower x hx).2.2
    rcases first with rfl | outranks
    · exact outranked.asymm outranked
    · exact outranked.asymm outranks

end Forest

namespace BinPack

variable {f g f' g' : Forest} {v v' : ViewId} {m m₁ m' m₁' : CycleMemory} {w u : Workload}

/-- Whoever is up to a workload in the order reads the same after a cycle on either of two views
that agree on what matters to the workload. -/
theorem Enacted.workload_alike (valid : f.Valid) (readable : f.Readable v)
    (named : ∀ n ∈ (f.cluster v).nodes, n.name ≠ "")
    (enacted : Enacted v (f.cluster v).decisions f m g m₁) (valid' : f'.Valid)
    (readable' : f'.Readable v') (same : Cluster.SameAbove w (f.cluster v) (f'.cluster v'))
    (enacted' : Enacted v' (f'.cluster v').decisions f' m' g' m₁')
    (hw : w ∈ (f.cluster v).workloads) (pending : w.isPending = true)
    (hu : u ∈ (f.cluster v).workloads) (waiting : u.isPending = true)
    (before : u = w ∨ u.Outranks (f.cluster v).priorityClasses w) :
    g'.workload v' u.key = g.workload v u.key := by
  have keyed := Forest.keyed_cluster valid (v := v)
  have keyed' := Forest.keyed_cluster valid' (v := v')
  obtain ⟨target, here, there⟩ := same.decided_alike keyed keyed' hw pending hu waiting before
  have named' : ∀ n ∈ (f'.cluster v').nodes, n.name ≠ "" :=
    fun n hn => named n ((same.nodes n).mp hn)
  have hu' := (same.above u waiting before).mpr hu
  rw [enacted.workload_eq valid readable named hu here,
    enacted'.workload_eq valid' readable' named' hu' there]

/-- A pending workload that reads as before has been left. -/
theorem Enacted.left_iff (valid : f.Valid) (readable : f.Readable v)
    (named : ∀ n ∈ (f.cluster v).nodes, n.name ≠ "")
    (enacted : Enacted v (f.cluster v).decisions f m g m₁)
    (hw : w ∈ (f.cluster v).workloads) (pending : w.isPending = true) :
    g.workload v w.key = .ok (some w) ↔ ⟨w.key, none⟩ ∈ (f.cluster v).decisions := by
  have keyed := Forest.keyed_cluster valid (v := v)
  obtain ⟨target, hd⟩ := Cluster.exists_decision keyed named hw pending
  have becomes := enacted.workload_eq valid readable named hw hd
  constructor
  · intro kept
    cases target with
    | none => exact hd
    | some node =>
      have same : w.bindTo node = w := by simpa [becomes] using kept
      have settled := w.not_isPending_bindTo (Cluster.decision_node_ne_empty keyed named hd)
      rw [same, pending] at settled
      exact Bool.noConfusion settled
  · intro left
    exact enacted.workload_eq valid readable named hw left

/-- Two workloads for which there is room for one, the second in the listing the more urgent. -/
def patient : Workload :=
  { inNamespace := "default", name := "archive", requests := .ofCoresAndGib 3 1 }

def urgent : Workload :=
  { inNamespace := "default", name := "payments", requests := .ofCoresAndGib 3 1,
    priorityClassName := some "critical" }

def rivals : Snapshot where
  nodes := [{ name := "only", capacity := .ofCoresAndGib 4 8, allocatable := .ofCoresAndGib 4 8 }]
  workloads := [patient, urgent]
  priorityClasses := [{ name := "critical", value := 1000 }]

/-- A sandbox over a base that holds the rivals. -/
def rivalsSandbox : Forest :=
  .replay ∅ [.base "base", .ask 0 (.load rivals), .sandbox "sandbox" 0]

def modest : Workload :=
  { inNamespace := "default", name := "web", requests := (∅ : Resources).set Resources.cpu 1 }

/-- A node that offers as much as a word can say, and a workload on it that asks for less than
nothing. -/
def boundless : Snapshot where
  nodes := [
    { name := "only", capacity := (∅ : Resources).set Resources.cpu (twoTo 63 - 1),
      allocatable := (∅ : Resources).set Resources.cpu (twoTo 63 - 1) }]
  workloads := [
    { inNamespace := "default", name := "refund",
      requests := (∅ : Resources).set Resources.cpu (-1), nodeName := some "only" }, modest]

/-- A sandbox over a base that holds the boundless cluster. -/
def boundlessSandbox : Forest :=
  .replay ∅ [.base "base", .ask 0 (.load boundless), .sandbox "sandbox" 0]

end BinPack

end ScaleAdvisor
