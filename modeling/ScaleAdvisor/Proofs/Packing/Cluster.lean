import ScaleAdvisor.Proofs.Entries
import ScaleAdvisor.Proofs.Packing.Greedy

/-!
The contents of a view without their versions, and what one cycle of the packer makes of them.

* `mem_listing`, `sorted_listing`: what is listed is what is found under its own key, in key order;
* `workloads_bind`: binding in the contents is binding in the listing;
* `greedy_packed`: the contents after a whole cycle are those of a greedy run;
* `packed_saturated`: after it no pending workload fits on any node.
-/

namespace ScaleAdvisor

theorem ClusterObject.node?_eq_some {o : ClusterObject} {n : Node} :
    o.node? = some n ↔ o = .node n := by
  cases o <;> simp [ClusterObject.node?]

theorem ClusterObject.workload?_eq_some {o : ClusterObject} {w : Workload} :
    o.workload? = some w ↔ o = .workload w := by
  cases o <;> simp [ClusterObject.workload?]

theorem ClusterObject.priorityClass?_eq_some {o : ClusterObject} {c : PriorityClass} :
    o.priorityClass? = some c ↔ o = .priorityClass c := by
  cases o <;> simp [ClusterObject.priorityClass?]

theorem ClusterObject.runtimeClass?_eq_some {o : ClusterObject} {c : RuntimeClass} :
    o.runtimeClass? = some c ↔ o = .runtimeClass c := by
  cases o <;> simp [ClusterObject.runtimeClass?]

/-- Objects by key. -/
abbrev Cluster := SortedMap ObjectKey ClusterObject

namespace Cluster

open BinPack

def nodes (C : Cluster) : List Node := C.entries.filterMap (·.2.node?)

def workloads (C : Cluster) : List Workload := C.entries.filterMap (·.2.workload?)

def priorityClasses (C : Cluster) : List PriorityClass := C.entries.filterMap (·.2.priorityClass?)

def runtimeClasses (C : Cluster) : List RuntimeClass := C.entries.filterMap (·.2.runtimeClass?)

/-- Every object is found under its own key. -/
def Keyed (C : Cluster) : Prop := ∀ k o, C.get? k = some o → o.key = k

def workload? (C : Cluster) (k : WorkloadKey) : Option Workload :=
  (C.get? k.objectKey).bind (·.workload?)

/-- The workload of a key bound to a node; nothing happens if there is none. -/
def bind (C : Cluster) (k : WorkloadKey) (node : String) : Cluster :=
  match C.workload? k with
  | some w => C.insert k.objectKey (.workload (w.bindTo node))
  | none => C

def addNode (C : Cluster) (n : Node) : Cluster := C.insert ⟨.node, n.name⟩ (.node n)

/-- The keys of everything pending. -/
def pendingKeys (C : Cluster) : KeySet WorkloadKey :=
  .ofKeys ((C.workloads.filter (·.isPending)).map (·.key))

/-- What a cycle decides on. -/
def decisions (C : Cluster) : List Decision :=
  BinPack.decisions C.nodes C.workloads C.priorityClasses C.runtimeClasses

/-- Carry decisions out. -/
def settle (C : Cluster) : List Decision → Cluster
  | [] => C
  | ⟨k, some node⟩ :: rest => (C.bind k node).settle rest
  | ⟨_, none⟩ :: rest => C.settle rest

/-- The contents after one whole cycle. -/
def packed (C : Cluster) : Cluster := C.settle C.decisions

/-- What the packer relies on: nodes have names, and nothing asks for less than nothing. -/
structure Sound (C : Cluster) : Prop where
  keyed : C.Keyed
  named : ∀ n ∈ C.nodes, n.name ≠ ""
  nonneg : NonNegative C.runtimeClasses C.workloads

/-- No pending workload fits on any node. -/
def Saturated (C : Cluster) : Prop :=
  ∀ w ∈ C.workloads, w.isPending = true → ∀ n ∈ C.nodes, ¬ Fits C.runtimeClasses C.workloads w n

variable {C : Cluster}

section Listing

variable {α : Type} {select : ClusterObject → Option α} {wrap : α → ClusterObject}
  (inverse : ∀ {o x}, select o = some x ↔ o = wrap x)

include inverse

/-- What is listed is what is found under its own key. -/
theorem mem_listing (keyed : C.Keyed) {x : α} :
    x ∈ C.entries.filterMap (select ·.2) ↔ C.get? (wrap x).key = some (wrap x) := by
  simp only [List.mem_filterMap, Prod.exists, inverse]
  constructor
  · rintro ⟨k, o, he, rfl⟩
    have found := (SortedMap.mem_entries_iff C).mp he
    rw [keyed k _ found]
    exact found
  · intro found
    exact ⟨_, _, (SortedMap.mem_entries_iff C).mpr found, rfl⟩

/-- A listing follows the order of the keys. -/
theorem sorted_listing (keyed : C.Keyed) : (C.entries.filterMap (select ·.2)).Pairwise fun x y =>
    KeyOrder.before (wrap x).key (wrap y).key = true := by
  apply List.pairwise_filterMap.mpr
  refine C.sorted.imp_of_mem ?_
  rintro ⟨k, o⟩ ⟨k', o'⟩ he he' before x hx y hy
  have hk := keyed k o ((SortedMap.mem_entries_iff C).mp he)
  have hk' := keyed k' o' ((SortedMap.mem_entries_iff C).mp he')
  rwa [← inverse.mp hx, ← inverse.mp hy, hk, hk']

/-- A listing tells its objects apart by their keys. -/
theorem nodup_listing (keyed : C.Keyed) :
    ((C.entries.filterMap (select ·.2)).map fun x => (wrap x).key).Nodup :=
  List.pairwise_map.mpr ((sorted_listing inverse keyed).imp KeyOrder.ne_of_before)

/-- Listings with the same members are the same. -/
theorem listing_ext {D : Cluster} (keyed : C.Keyed) (keyed' : D.Keyed)
    (same : ∀ x, x ∈ C.entries.filterMap (select ·.2) ↔ x ∈ D.entries.filterMap (select ·.2)) :
    C.entries.filterMap (select ·.2) = D.entries.filterMap (select ·.2) :=
  KeyOrder.eq_of_sorted (fun x => (wrap x).key) (sorted_listing inverse keyed)
    (sorted_listing inverse keyed') same

end Listing

theorem mem_nodes (keyed : C.Keyed) {n : Node} :
    n ∈ C.nodes ↔ C.get? ⟨.node, n.name⟩ = some (.node n) :=
  mem_listing ClusterObject.node?_eq_some keyed

theorem mem_workloads (keyed : C.Keyed) {w : Workload} :
    w ∈ C.workloads ↔ C.get? w.key.objectKey = some (.workload w) :=
  mem_listing ClusterObject.workload?_eq_some keyed

theorem mem_priorityClasses (keyed : C.Keyed) {c : PriorityClass} :
    c ∈ C.priorityClasses ↔ C.get? ⟨.priorityClass, c.name⟩ = some (.priorityClass c) :=
  mem_listing ClusterObject.priorityClass?_eq_some keyed

theorem mem_runtimeClasses (keyed : C.Keyed) {c : RuntimeClass} :
    c ∈ C.runtimeClasses ↔ C.get? ⟨.runtimeClass, c.name⟩ = some (.runtimeClass c) :=
  mem_listing ClusterObject.runtimeClass?_eq_some keyed

theorem mem_pendingKeys {k : WorkloadKey} :
    k ∈ C.pendingKeys.keys ↔ ∃ w ∈ C.workloads, w.isPending = true ∧ w.key = k := by
  simp [pendingKeys, KeySet.mem_keys_ofKeys, and_assoc]

theorem workload?_eq_some (keyed : C.Keyed) {w : Workload} (hw : w ∈ C.workloads) :
    C.workload? w.key = some w := by
  rw [workload?, (mem_workloads keyed).mp hw]
  rfl

theorem nodup_nodes (keyed : C.Keyed) : (C.nodes.map (·.name)).Nodup := by
  apply List.Nodup.of_map (fun name => (⟨.node, name⟩ : ObjectKey))
  rw [List.map_map]
  exact nodup_listing ClusterObject.node?_eq_some keyed

theorem nodup_workloads (keyed : C.Keyed) : (C.workloads.map (·.key)).Nodup := by
  apply List.Nodup.of_map (·.objectKey)
  rw [List.map_map]
  exact nodup_listing ClusterObject.workload?_eq_some keyed

theorem nodup_runtimeClasses (keyed : C.Keyed) : (C.runtimeClasses.map (·.name)).Nodup := by
  apply List.Nodup.of_map (fun name => (⟨.runtimeClass, name⟩ : ObjectKey))
  rw [List.map_map]
  exact nodup_listing ClusterObject.runtimeClass?_eq_some keyed

theorem Keyed.insert (keyed : C.Keyed) (o : ClusterObject) : Keyed (C.insert o.key o) := by
  intro k o' h
  rw [SortedMap.get?_insert] at h
  split at h
  · rename_i same
    rw [← Option.some.inj h, KeyOrder.same_iff.mp same]
  · exact keyed k o' h

section Bind

variable {w : Workload} (node : String)

theorem bind_eq (keyed : C.Keyed) (hw : w ∈ C.workloads) :
    C.bind w.key node = C.insert w.key.objectKey (.workload (w.bindTo node)) := by
  rw [bind, workload?_eq_some keyed hw]

theorem Keyed.bind (keyed : C.Keyed) (hw : w ∈ C.workloads) : (C.bind w.key node).Keyed := by
  rw [bind_eq node keyed hw]
  exact keyed.insert (.workload (w.bindTo node))

/-- Binding leaves alone every listing that passes over workloads. -/
theorem filterMap_bind {α : Type} (keyed : C.Keyed) (hw : w ∈ C.workloads)
    (select : ClusterObject → Option α) (skips : ∀ w, select (.workload w) = none) :
    (C.bind w.key node).entries.filterMap (select ·.2) = C.entries.filterMap (select ·.2) := by
  rw [bind_eq node keyed hw]
  refine SortedMap.filterMap_insert C (select ·.2) _ _ (skips _) ?_
  intro o found
  rw [(mem_workloads keyed).mp hw] at found
  rw [← Option.some.inj found]
  exact skips w

theorem nodes_bind (keyed : C.Keyed) (hw : w ∈ C.workloads) : (C.bind w.key node).nodes = C.nodes :=
  filterMap_bind node keyed hw ClusterObject.node? fun _ => rfl

theorem priorityClasses_bind (keyed : C.Keyed) (hw : w ∈ C.workloads) :
    (C.bind w.key node).priorityClasses = C.priorityClasses :=
  filterMap_bind node keyed hw ClusterObject.priorityClass? fun _ => rfl

theorem runtimeClasses_bind (keyed : C.Keyed) (hw : w ∈ C.workloads) :
    (C.bind w.key node).runtimeClasses = C.runtimeClasses :=
  filterMap_bind node keyed hw ClusterObject.runtimeClass? fun _ => rfl

theorem workloads_bind (keyed : C.Keyed) (hw : w ∈ C.workloads) :
    (C.bind w.key node).workloads = bindIn w.key node C.workloads := by
  have found := (mem_workloads keyed).mp hw
  rw [bind_eq node keyed hw, workloads, SortedMap.entries_insert_of_taken C _ found,
    workloads, bindIn, List.filterMap_map, List.map_filterMap]
  apply List.filterMap_congr
  rintro ⟨k, o⟩ he
  have ho := (SortedMap.mem_entries_iff C).mp he
  by_cases hk : k = w.key.objectKey
  · subst hk
    rw [found] at ho
    rw [← Option.some.inj ho]
    simp [ClusterObject.workload?]
  · cases ho' : o.workload? with
    | none => simp [hk, ho']
    | some u =>
      have key := keyed k o ho
      rw [ClusterObject.workload?_eq_some.mp ho'] at key
      have hu : u.key ≠ w.key := fun same => hk (by rw [← key, ← same]; rfl)
      simp [hk, ho', hu]

end Bind

/-- Contents that differ in nothing but the bindings of workloads. -/
structure SameButBound (C D : Cluster) : Prop where
  keyed : D.Keyed
  nodes : D.nodes = C.nodes
  priorityClasses : D.priorityClasses = C.priorityClasses
  runtimeClasses : D.runtimeClasses = C.runtimeClasses

theorem SameButBound.refl (keyed : C.Keyed) : SameButBound C C := ⟨keyed, rfl, rfl, rfl⟩

theorem SameButBound.trans {D E : Cluster} (first : SameButBound C D) (second : SameButBound D E) :
    SameButBound C E :=
  ⟨second.keyed, second.nodes.trans first.nodes, second.priorityClasses.trans first.priorityClasses,
    second.runtimeClasses.trans first.runtimeClasses⟩

theorem sameButBound_bind (keyed : C.Keyed) {w : Workload} (hw : w ∈ C.workloads) (node : String) :
    SameButBound C (C.bind w.key node) :=
  ⟨keyed.bind node hw, nodes_bind node keyed hw, priorityClasses_bind node keyed hw,
    runtimeClasses_bind node keyed hw⟩

theorem settle_append (C : Cluster) (first second : List Decision) :
    C.settle (first ++ second) = (C.settle first).settle second := by
  induction first generalizing C with
  | nil => rfl
  | cons d rest ih =>
    obtain ⟨k, node⟩ := d
    cases node with
    | some node => exact ih _
    | none => exact ih _

/-- With some of a greedy run's decisions carried out, the rest is a greedy run from there. -/
theorem settle_split {classes : List RuntimeClass} {ns : List Node} {todo after : List Workload}
    {first second : List Decision} (keyed : C.Keyed)
    (h : Greedy ns classes C.workloads todo (first ++ second) after)
    (ready : Undecided C.workloads todo) :
    SameButBound C (C.settle first) ∧ ∃ todo', Undecided (C.settle first).workloads todo' ∧
      Greedy ns classes (C.settle first).workloads todo' second after := by
  induction first generalizing C todo with
  | nil => exact ⟨.refl keyed, todo, ready, h⟩
  | cons d first ih =>
    rw [List.cons_append] at h
    cases h with
    | @place _ todo _ _ w n listed room rest =>
      have hw : w ∈ C.workloads := (ready.listed w (by simp)).1
      have bound := workloads_bind n.name keyed hw
      have step := sameButBound_bind keyed hw n.name
      have later := ready.bind n.name
      rw [← bound] at rest later
      obtain ⟨same, todo', ready', run⟩ := ih step.keyed rest later
      exact ⟨step.trans same, todo', ready', run⟩
    | leave nowhere rest => exact ih keyed rest ready.tail

/-- Carrying greedy decisions out leaves the workloads that the greedy run ends with. -/
theorem settle_greedy {classes : List RuntimeClass} {ns : List Node} {todo after : List Workload}
    {ds : List Decision} (keyed : C.Keyed) (h : Greedy ns classes C.workloads todo ds after)
    (ready : Undecided C.workloads todo) :
    (C.settle ds).workloads = after ∧ SameButBound C (C.settle ds) := by
  rw [← List.append_nil ds] at h
  obtain ⟨same, todo', -, rest⟩ := settle_split keyed h ready
  cases rest
  exact ⟨rfl, same⟩

theorem undecided (keyed : C.Keyed) :
    Undecided C.workloads (ranked C.priorityClasses C.workloads) :=
  undecided_ranked _ (nodup_workloads keyed)

theorem sameButBound_packed (keyed : C.Keyed) (named : ∀ n ∈ C.nodes, n.name ≠ "") :
    SameButBound C C.packed := by
  obtain ⟨after, h⟩ := greedy_decisions C.runtimeClasses named C.priorityClasses
    (nodup_workloads keyed)
  exact (settle_greedy keyed h (undecided keyed)).2

/-- A whole cycle is a greedy run over everything pending. -/
theorem greedy_packed (keyed : C.Keyed) (named : ∀ n ∈ C.nodes, n.name ≠ "") :
    Greedy C.nodes C.runtimeClasses C.workloads (ranked C.priorityClasses C.workloads) C.decisions
      C.packed.workloads := by
  obtain ⟨after, h⟩ := greedy_decisions C.runtimeClasses named C.priorityClasses
    (nodup_workloads keyed)
  have ends := (settle_greedy keyed h (undecided keyed)).1
  rw [← ends] at h
  exact h

theorem mem_decided_iff (keyed : C.Keyed) (named : ∀ n ∈ C.nodes, n.name ≠ "") {k : WorkloadKey} :
    k ∈ C.decisions.map (·.workload) ↔ k ∈ C.pendingKeys.keys := by
  rw [(greedy_packed keyed named).map_workload, mem_pendingKeys]
  simp only [List.mem_map, mem_ranked, and_assoc]

theorem exists_decision (keyed : C.Keyed) (named : ∀ n ∈ C.nodes, n.name ≠ "") {w : Workload}
    (hw : w ∈ C.workloads) (pending : w.isPending = true) :
    ∃ target, ⟨w.key, target⟩ ∈ C.decisions := by
  have decided := (mem_decided_iff keyed named).mpr (mem_pendingKeys.mpr ⟨w, hw, pending, rfl⟩)
  obtain ⟨⟨k, target⟩, hd, rfl⟩ := List.mem_map.mp decided
  exact ⟨target, hd⟩

/-- Each workload is decided on once. -/
theorem nodup_decided (keyed : C.Keyed) (named : ∀ n ∈ C.nodes, n.name ≠ "") :
    (C.decisions.map (·.workload)).Nodup :=
  (greedy_packed keyed named).nodup (undecided keyed)

theorem target_unique (keyed : C.Keyed) (named : ∀ n ∈ C.nodes, n.name ≠ "") {k : WorkloadKey}
    {a b : Option String} (ha : ⟨k, a⟩ ∈ C.decisions) (hb : ⟨k, b⟩ ∈ C.decisions) : a = b :=
  (greedy_packed keyed named).node_unique (undecided keyed) ha hb

/-- The workloads after a cycle: those with a node in their decision are bound to it, all others are
as they were. -/
theorem mem_workloads_packed (keyed : C.Keyed) (named : ∀ n ∈ C.nodes, n.name ≠ "") {x : Workload} :
    x ∈ C.packed.workloads ↔
      ∃ w ∈ C.workloads, (∃ node, ⟨w.key, some node⟩ ∈ C.decisions ∧ x = w.bindTo node) ∨
        ((∀ node, ⟨w.key, some node⟩ ∉ C.decisions) ∧ x = w) :=
  (greedy_packed keyed named).mem_after_iff (undecided keyed)

/-- A decision with a node is about a pending workload and a node that takes it. -/
theorem exists_of_mem_decisions (keyed : C.Keyed) (named : ∀ n ∈ C.nodes, n.name ≠ "")
    {k : WorkloadKey} {node : String} (hd : ⟨k, some node⟩ ∈ C.decisions) :
    ∃ w ∈ C.workloads, w.isPending = true ∧ w.key = k ∧
      ∃ n ∈ C.nodes, n.name = node ∧ admits w n = true := by
  obtain ⟨w, hw, rest⟩ := (greedy_packed keyed named).placed hd
  obtain ⟨listed, pending⟩ := mem_ranked.mp hw
  exact ⟨w, listed, pending, rest⟩

/-- The node of a decision had room for the workload before the cycle. -/
theorem fits_of_mem_decisions (sound : C.Sound) {k : WorkloadKey} {node : String}
    (hd : ⟨k, some node⟩ ∈ C.decisions) :
    ∃ w ∈ C.workloads, w.isPending = true ∧ w.key = k ∧
      ∃ n ∈ C.nodes, n.name = node ∧ Fits C.runtimeClasses C.workloads w n := by
  obtain ⟨w, hw, rest⟩ := (greedy_packed sound.keyed sound.named).placed_fits
    (undecided sound.keyed) sound.named (nodup_nodes sound.keyed) sound.nonneg hd
  obtain ⟨listed, pending⟩ := mem_ranked.mp hw
  exact ⟨w, listed, pending, rest⟩

theorem decision_node_ne_empty (keyed : C.Keyed) (named : ∀ n ∈ C.nodes, n.name ≠ "")
    {k : WorkloadKey} {node : String} (hd : ⟨k, some node⟩ ∈ C.decisions) : node ≠ "" := by
  obtain ⟨w, -, -, -, n, hn, rfl, -⟩ := exists_of_mem_decisions keyed named hd
  exact named n hn

/-- What is pending after a cycle was pending before, and left by its decision. -/
theorem mem_pending_packed (keyed : C.Keyed) (named : ∀ n ∈ C.nodes, n.name ≠ "") {w : Workload} :
    (w ∈ C.packed.workloads ∧ w.isPending = true) ↔
      w ∈ C.workloads ∧ w.isPending = true ∧ ∀ node, ⟨w.key, some node⟩ ∉ C.decisions := by
  rw [mem_workloads_packed keyed named]
  constructor
  · rintro ⟨⟨u, hu, ⟨node, hd, rfl⟩ | ⟨free, rfl⟩⟩, pending⟩
    · rw [u.not_isPending_bindTo (decision_node_ne_empty keyed named hd)] at pending
      exact Bool.noConfusion pending
    · exact ⟨hu, pending, free⟩
  · rintro ⟨hw, pending, free⟩
    exact ⟨⟨w, hw, .inr ⟨free, rfl⟩⟩, pending⟩

/-- What is pending after a cycle has been left by it. -/
theorem left_of_pending_packed (keyed : C.Keyed) (named : ∀ n ∈ C.nodes, n.name ≠ "") {w : Workload}
    (h : w ∈ C.packed.workloads ∧ w.isPending = true) : ⟨w.key, none⟩ ∈ C.decisions := by
  obtain ⟨listed, pending, free⟩ := (mem_pending_packed keyed named).mp h
  obtain ⟨target, hd⟩ := exists_decision keyed named listed pending
  cases target with
  | none => exact hd
  | some node => exact absurd hd (free node)

/-- The decision about a pending workload says what becomes of it. -/
theorem workload?_packed (keyed : C.Keyed) (named : ∀ n ∈ C.nodes, n.name ≠ "") {w : Workload}
    (hw : w ∈ C.workloads) {target : Option String} (hd : ⟨w.key, target⟩ ∈ C.decisions) :
    C.packed.workload? w.key = some (target.elim w w.bindTo) := by
  have keyed' := (sameButBound_packed keyed named).keyed
  cases target with
  | some node =>
    have bound := (mem_workloads_packed keyed named).mpr ⟨w, hw, .inl ⟨node, hd, rfl⟩⟩
    exact workload?_eq_some keyed' bound
  | none =>
    have free (node : String) : ⟨w.key, some node⟩ ∉ C.decisions := by
      intro hd'
      simpa using target_unique keyed named hd' hd
    have kept := (mem_workloads_packed keyed named).mpr ⟨w, hw, .inr ⟨free, rfl⟩⟩
    exact workload?_eq_some keyed' kept

/-- Pending after a cycle is just what it has found no node for. -/
theorem mem_pendingKeys_packed (keyed : C.Keyed) (named : ∀ n ∈ C.nodes, n.name ≠ "")
    {k : WorkloadKey} :
    k ∈ C.packed.pendingKeys.keys ↔
      k ∈ C.pendingKeys.keys ∧ ∀ node, ⟨k, some node⟩ ∉ C.decisions := by
  simp only [mem_pendingKeys, ← and_assoc, mem_pending_packed keyed named]
  constructor
  · rintro ⟨w, ⟨⟨hw, pending⟩, free⟩, rfl⟩
    exact ⟨⟨w, ⟨hw, pending⟩, rfl⟩, free⟩
  · rintro ⟨⟨w, ⟨hw, pending⟩, rfl⟩, free⟩
    exact ⟨w, ⟨⟨hw, pending⟩, free⟩, rfl⟩

/-- Whoever is bound stays where it is. -/
theorem mem_packed_of_bound (keyed : C.Keyed) (named : ∀ n ∈ C.nodes, n.name ≠ "") {w : Workload}
    (hw : w ∈ C.workloads) (bound : w.isPending = false) : w ∈ C.packed.workloads := by
  refine (mem_workloads_packed keyed named).mpr ⟨w, hw, .inr ⟨?_, rfl⟩⟩
  intro node hd
  obtain ⟨u, hu, pending, key, -⟩ := exists_of_mem_decisions keyed named hd
  obtain rfl := List.inj_on_of_nodup_map (nodup_workloads keyed) hu hw key
  rw [pending] at bound
  exact Bool.noConfusion bound

/-- No node ends with more than it carried before or offers, whichever is more. -/
theorem load_packed_le (keyed : C.Keyed) (named : ∀ n ∈ C.nodes, n.name ≠ "") {n : Node}
    (hn : n ∈ C.nodes) (resource : String)
    (fair : load C.runtimeClasses C.workloads n.name resource ≤
      n.allocatable.get resource + twoTo 63) :
    load C.packed.runtimeClasses C.packed.workloads n.name resource ≤
      max (load C.runtimeClasses C.workloads n.name resource) (n.allocatable.get resource) := by
  rw [(sameButBound_packed keyed named).runtimeClasses]
  exact (greedy_packed keyed named).load_le (undecided keyed) named (nodup_nodes keyed) hn resource
    fair

theorem load_packed_of_unlisted (sound : C.Sound) {other : String}
    (unlisted : ∀ n ∈ C.nodes, n.name ≠ other) (resource : String) :
    load C.packed.runtimeClasses C.packed.workloads other resource =
      load C.runtimeClasses C.workloads other resource := by
  rw [(sameButBound_packed sound.keyed sound.named).runtimeClasses]
  exact (greedy_packed sound.keyed sound.named).load_eq_of_unlisted
    (undecided sound.keyed) sound.named unlisted resource

theorem Sound.packed (sound : C.Sound) : C.packed.Sound := by
  have same := sameButBound_packed sound.keyed sound.named
  refine ⟨same.keyed, ?_, ?_⟩
  · rw [same.nodes]
    exact sound.named
  · rw [same.runtimeClasses]
    intro x hx resource
    obtain ⟨w, hw, ⟨node, -, rfl⟩ | ⟨-, rfl⟩⟩ :=
      (mem_workloads_packed sound.keyed sound.named).mp hx
    · exact sound.nonneg w hw resource
    · exact sound.nonneg x hw resource

/-- After a whole cycle no pending workload fits on any node. -/
theorem packed_saturated (sound : C.Sound) : C.packed.Saturated := by
  have same := sameButBound_packed sound.keyed sound.named
  intro w hw pending n hn
  rw [same.nodes] at hn
  rw [same.runtimeClasses]
  have left := left_of_pending_packed sound.keyed sound.named ⟨hw, pending⟩
  obtain ⟨listed, -, -⟩ := (mem_pending_packed sound.keyed sound.named).mp ⟨hw, pending⟩
  exact (greedy_packed sound.keyed sound.named).left_fits_nowhere
    (undecided sound.keyed) sound.named (nodup_nodes sound.keyed) sound.nonneg
    (mem_ranked.mpr ⟨listed, pending⟩) left hn

/-- A cycle that places nothing changes nothing. -/
theorem packed_of_idle (idle : ∀ k node, ⟨k, some node⟩ ∉ C.decisions) : C.packed = C := by
  have unsettled (ds : List Decision) (idle : ∀ k node, ⟨k, some node⟩ ∉ ds) : C.settle ds = C := by
    induction ds with
    | nil => rfl
    | cons d rest ih =>
      obtain ⟨k, _ | node⟩ := d
      · exact ih fun k node hd => idle k node (List.mem_cons_of_mem _ hd)
      · exact absurd List.mem_cons_self (idle k node)
  exact unsettled C.decisions idle

/-- A further cycle on saturated contents leaves everything that is pending. -/
theorem Saturated.decisions_eq (saturated : C.Saturated) (sound : C.Sound) :
    C.decisions = (ranked C.priorityClasses C.workloads).map fun w => ⟨w.key, none⟩ :=
  decisions_of_fits_nowhere sound.named _ (nodup_workloads sound.keyed) saturated

section AddNode

variable {n : Node}

theorem get?_addNode (C : Cluster) (n : Node) (k : ObjectKey) :
    (C.addNode n).get? k = if k = ⟨.node, n.name⟩ then some (.node n) else C.get? k := by
  simp only [addNode, SortedMap.get?_insert, KeyOrder.same_iff]

theorem Keyed.addNode (keyed : C.Keyed) : (C.addNode n).Keyed := keyed.insert (.node n)

theorem filterMap_addNode {α : Type} (free : C.get? ⟨.node, n.name⟩ = none)
    (select : ClusterObject → Option α) (skips : ∀ n, select (.node n) = none) :
    (C.addNode n).entries.filterMap (select ·.2) = C.entries.filterMap (select ·.2) := by
  refine SortedMap.filterMap_insert C (select ·.2) _ _ (skips n) ?_
  intro o found
  rw [free] at found
  exact absurd found (by simp)

theorem workloads_addNode (free : C.get? ⟨.node, n.name⟩ = none) :
    (C.addNode n).workloads = C.workloads :=
  filterMap_addNode free ClusterObject.workload? fun _ => rfl

theorem pendingKeys_addNode (free : C.get? ⟨.node, n.name⟩ = none) :
    (C.addNode n).pendingKeys = C.pendingKeys := by
  rw [pendingKeys, pendingKeys, workloads_addNode free]

theorem runtimeClasses_addNode (free : C.get? ⟨.node, n.name⟩ = none) :
    (C.addNode n).runtimeClasses = C.runtimeClasses :=
  filterMap_addNode free ClusterObject.runtimeClass? fun _ => rfl

theorem mem_nodes_addNode (keyed : C.Keyed) (free : C.get? ⟨.node, n.name⟩ = none) {m : Node} :
    m ∈ (C.addNode n).nodes ↔ m = n ∨ m ∈ C.nodes := by
  rw [mem_nodes keyed.addNode, mem_nodes keyed, get?_addNode]
  by_cases same : m.name = n.name
  · rw [same, if_pos rfl, free]
    simp [eq_comm]
  · have hne : (⟨.node, m.name⟩ : ObjectKey) ≠ ⟨.node, n.name⟩ :=
      fun h => same (ObjectKey.mk.inj h).2
    have other : m ≠ n := fun h => same (by rw [h])
    simp [hne, other]

/-- A free name is no node's name. -/
theorem name_ne_of_free (keyed : C.Keyed) (free : C.get? ⟨.node, n.name⟩ = none) {m : Node}
    (hm : m ∈ C.nodes) : m.name ≠ n.name := by
  intro same
  have found := (mem_nodes keyed).mp hm
  rw [same, free] at found
  exact absurd found (by simp)

theorem Sound.addNode (sound : C.Sound) (named : n.name ≠ "")
    (free : C.get? ⟨.node, n.name⟩ = none) : (C.addNode n).Sound := by
  refine ⟨sound.keyed.addNode, ?_, ?_⟩
  · intro m hm
    rcases (mem_nodes_addNode sound.keyed free).mp hm with rfl | hm
    · exact named
    · exact sound.named m hm
  · rw [runtimeClasses_addNode free, workloads_addNode free]
    exact sound.nonneg

end AddNode

end Cluster

end ScaleAdvisor
