import ScaleAdvisor.Proofs.View.Writing

/-!
Loading a snapshot into a fresh base view. Loading succeeds only if all keys differ; then the base
stands for the objects of the snapshot and nothing else, and workloads ask there for what they ask
for in the snapshot.

* `wrote_load`: what a successful loading leaves;
* `mem_nodes_cluster`, `perm_workloads`: what the loaded view lists is what the snapshot lists;
* `asks_cluster`, `load_cluster`: requests and loads are those of the snapshot.
-/

namespace ScaleAdvisor

namespace Forest

theorem valid_empty : (∅ : Forest).Valid := by
  have nothing (v : ViewId) : (∅ : Forest).view v = .missing := view_of_size_le (Nat.zero_le v)
  constructor
  · intro v u rest h
    rw [nothing] at h
    simp [View.missing] at h
  · intro v k st h
    rw [nothing] at h
    simp [View.missing] at h

theorem keeps_newBase (f : Forest) (name : String) : Keeps f.views.size f (f.newBase name).1 := by
  refine ⟨by simp [newBase], fun {u} hu => ?_⟩
  simp [newBase, view, Array.getElem?_push_lt hu, Array.getElem?_eq_getElem hu]

theorem view_newBase (f : Forest) (name : String) :
    (f.newBase name).1.view f.views.size = { name, lineage := f.issued.size } := by
  simp [newBase, view]

theorem valid_newBase {f : Forest} (valid : f.Valid) (name : String) :
    (f.newBase name).1.Valid := by
  have keeps := keeps_newBase f name
  have bare {u : ViewId} (h : ¬ u < f.views.size) :
      ((f.newBase name).1.view u).below = [] ∧ ((f.newBase name).1.view u).edits = ∅ := by
    by_cases new : u = f.views.size
    · rw [new, view_newBase]
      exact ⟨rfl, rfl⟩
    · have gone : (f.newBase name).1.views.size ≤ u := by
        simp only [newBase, Array.size_push]
        exact Nat.lt_of_le_of_ne (Nat.le_of_not_lt h) (Ne.symm new)
      rw [view_of_size_le gone]
      exact ⟨rfl, rfl⟩
  constructor
  · intro v u rest h
    by_cases old : v < f.views.size
    · rw [keeps.same old] at h
      obtain ⟨older, same⟩ := valid.below h
      rw [keeps.same (Nat.lt_trans older old)]
      exact ⟨older, same⟩
    · rw [(bare old).1] at h
      simp at h
  · intro v k st h
    by_cases old : v < f.views.size
    · rw [keeps.same old] at h
      exact valid.keyed h
    · rw [(bare old).2] at h
      simp at h

theorem readable_newBase (f : Forest) (name : String) :
    (f.newBase name).1.Readable f.views.size := by
  intro u hu
  rw [line, view_newBase] at hu
  obtain rfl := List.mem_singleton.mp hu
  rw [view_newBase]

theorem cluster_newBase (f : Forest) (name : String) :
    (f.newBase name).1.cluster f.views.size = ∅ := by
  apply SortedMap.ext_get?
  intro k
  rw [cluster, contents, stack, view_newBase]
  simp [View.contentsOf, SortedMap.get?_mapValues, SortedMap.get?_patch]

/-- An object can be added under a key that is free. -/
theorem exists_create {f : Forest} {v : ViewId} (readable : f.Readable v) {o : ClusterObject}
    (free : (f.cluster v).get? o.key = none) : ∃ g n, f.create v o = .ok (g, n) := by
  rw [create, get_eq readable, (find?_eq_none_iff readable).mpr free]
  exact ⟨_, _, rfl⟩

/-- Objects of distinct keys can all be loaded where these are free. -/
theorem exists_load {v : ViewId} {objects : List ClusterObject} {f : Forest} (valid : f.Valid)
    (readable : f.Readable v) (distinct : (objects.map (·.key)).Nodup)
    (free : ∀ o ∈ objects, (f.cluster v).get? o.key = none) :
    ∃ g, f.load v objects = (g, .ok ()) := by
  induction objects generalizing f with
  | nil => exact ⟨f, rfl⟩
  | cons o rest ih =>
    obtain ⟨first, others⟩ := List.forall_mem_cons.mp free
    obtain ⟨new, distinct⟩ := List.nodup_cons.mp distinct
    obtain ⟨next, n, created⟩ := exists_create readable first
    obtain ⟨-, wrote⟩ := wrote_create valid readable created
    rw [load, created]
    refine ih wrote.valid (wrote.touches.readable readable) distinct fun o' ho' => ?_
    rw [wrote.cluster, SortedMap.get?_insert]
    split
    · rename_i same
      exact absurd (List.mem_map.mpr ⟨o', ho', KeyOrder.same_iff.mp same⟩) new
    · exact others o' ho'

/-- What a successful loading leaves: every object under its key, all keys free before. -/
theorem wrote_load {v : ViewId} {objects : List ClusterObject} {f g : Forest} (valid : f.Valid)
    (readable : f.Readable v) (loaded : f.load v objects = (g, .ok ())) :
    Touches f g v ∧ g.Valid ∧ (g.view v).events = (f.view v).events ∧
      g.cluster v = objects.foldl (fun C o => C.insert o.key o) (f.cluster v) ∧
      (objects.map (·.key)).Nodup ∧ ∀ o ∈ objects, (f.cluster v).get? o.key = none := by
  induction objects generalizing f with
  | nil =>
    simp only [load, Prod.mk.injEq, and_true] at loaded
    subst loaded
    exact ⟨.refl f v, valid, rfl, rfl, by simp, by simp⟩
  | cons o rest ih =>
    simp only [load] at loaded
    split at loaded
    · rename_i next _ created
      obtain ⟨free, wrote⟩ := wrote_create valid readable created
      obtain ⟨touches, valid', events, contents, distinct, unused⟩ :=
        ih wrote.valid (wrote.touches.readable readable) loaded
      have apart {o' : ClusterObject} (ho' : o' ∈ rest) :
          o'.key ≠ o.key ∧ (f.cluster v).get? o'.key = none := by
        have absent := unused o' ho'
        rw [wrote.cluster, SortedMap.get?_insert] at absent
        split at absent
        · simp at absent
        · rename_i other
          exact ⟨by simpa using other, absent⟩
      refine ⟨wrote.touches.trans touches, valid', events.trans wrote.events, ?_, ?_, ?_⟩
      · rw [contents, wrote.cluster, List.foldl_cons]
      · rw [List.map_cons, List.nodup_cons]
        refine ⟨?_, distinct⟩
        intro listed
        obtain ⟨o', ho', same⟩ := List.mem_map.mp listed
        exact (apart ho').1 same
      · intro o' ho'
        obtain rfl | ho' := List.mem_cons.mp ho'
        · exact free
        · exact (apart ho').2
    · simp at loaded

end Forest

namespace Snapshot

/-- The contents of a view into which a snapshot has been loaded. -/
def cluster (s : Snapshot) : Cluster := s.objects.foldl (fun C o => C.insert o.key o) ∅

/-- No two objects share a key. -/
def Distinct (s : Snapshot) : Prop := (s.objects.map (·.key)).Nodup

instance (s : Snapshot) : Decidable s.Distinct := inferInstanceAs (Decidable (List.Nodup _))

variable {s : Snapshot}

theorem get?_cluster (distinct : s.Distinct) {k : ObjectKey} {o : ClusterObject} :
    s.cluster.get? k = some o ↔ o ∈ s.objects ∧ o.key = k := by
  have pairs : s.cluster.get? k = SortedMap.find k (s.objects.map fun o => (o.key, o)) := by
    have collected := SortedMap.get?_foldl_insert (s.objects.map fun o => (o.key, o)) ∅ k
      (by rw [List.map_map]; exact distinct)
    rw [List.foldl_map] at collected
    simpa [cluster] using collected
  rw [pairs]
  constructor
  · intro found
    obtain ⟨o', ho', same⟩ := List.mem_map.mp (SortedMap.mem_of_find found)
    obtain ⟨rfl, rfl⟩ := Prod.mk.inj same
    exact ⟨ho', rfl⟩
  · rintro ⟨ho, rfl⟩
    exact SortedMap.find_eq_some_of_mem (by rw [List.map_map]; exact distinct)
      (List.mem_map.mpr ⟨o, ho, rfl⟩)

theorem keyed_cluster (distinct : s.Distinct) : s.cluster.Keyed := fun _ _ found =>
  ((get?_cluster distinct).mp found).2

theorem mem_objects_node {n : Node} : .node n ∈ s.objects ↔ n ∈ s.nodes := by
  simp [objects]

theorem mem_objects_workload {w : Workload} : .workload w ∈ s.objects ↔ w ∈ s.workloads := by
  simp [objects]

theorem mem_objects_runtimeClass {c : RuntimeClass} :
    .runtimeClass c ∈ s.objects ↔ c ∈ s.runtimeClasses := by
  simp [objects]

theorem mem_nodes_cluster (distinct : s.Distinct) {n : Node} :
    n ∈ s.cluster.nodes ↔ n ∈ s.nodes := by
  rw [Cluster.mem_nodes (keyed_cluster distinct), get?_cluster distinct, mem_objects_node]
  exact and_iff_left rfl

theorem mem_workloads_cluster (distinct : s.Distinct) {w : Workload} :
    w ∈ s.cluster.workloads ↔ w ∈ s.workloads := by
  rw [Cluster.mem_workloads (keyed_cluster distinct), get?_cluster distinct, mem_objects_workload]
  exact and_iff_left rfl

theorem mem_pendingKeys_cluster (distinct : s.Distinct) {k : WorkloadKey} :
    k ∈ s.cluster.pendingKeys.keys ↔ ∃ w ∈ s.workloads, w.isPending = true ∧ w.key = k := by
  simp only [Cluster.mem_pendingKeys, mem_workloads_cluster distinct]

theorem mem_runtimeClasses_cluster (distinct : s.Distinct) {c : RuntimeClass} :
    c ∈ s.cluster.runtimeClasses ↔ c ∈ s.runtimeClasses := by
  rw [Cluster.mem_runtimeClasses (keyed_cluster distinct), get?_cluster distinct,
    mem_objects_runtimeClass]
  exact and_iff_left rfl

/-- Objects of one kind are told apart by what their keys say. -/
theorem nodup_kind {α β : Type} {items : List α} (distinct : s.Distinct) (wrap : α → ClusterObject)
    (part : (items.map wrap).Sublist s.objects) (name : α → β)
    (key : ∀ a b, name a = name b → (wrap a).key = (wrap b).key) : (items.map name).Nodup := by
  have keys : (items.map fun a => (wrap a).key).Nodup := by
    have sub : ((items.map wrap).map (·.key)).Nodup := List.Nodup.sublist (part.map _) distinct
    rwa [List.map_map] at sub
  apply List.pairwise_map.mpr
  exact (List.pairwise_map.mp keys).imp fun apart same => apart (key _ _ same)

theorem nodup_runtimeClasses (distinct : s.Distinct) : (s.runtimeClasses.map (·.name)).Nodup := by
  refine nodup_kind distinct .runtimeClass ?_ _ fun a b same => by
    simp [ClusterObject.key, ClusterObject.keyText, ClusterObject.kind, same]
  simp only [objects, List.append_assoc]
  exact (List.sublist_append_left _ _).trans (List.sublist_append_right _ _)

theorem nodup_workloads (distinct : s.Distinct) : (s.workloads.map (·.key)).Nodup := by
  refine nodup_kind distinct .workload (List.sublist_append_right _ _) _ fun a b same => by
    simp [ClusterObject.key, ClusterObject.keyText, ClusterObject.kind, same]

theorem perm_workloads (distinct : s.Distinct) : s.cluster.workloads.Perm s.workloads := by
  apply (List.perm_ext_iff_of_nodup _ _).mpr fun w => mem_workloads_cluster distinct
  · exact (Cluster.nodup_workloads (keyed_cluster distinct)).of_map _
  · exact (nodup_workloads distinct).of_map _

/-- A class is found by its name in either list. -/
theorem find?_runtimeClasses (distinct : s.Distinct) (name : String) :
    s.cluster.runtimeClasses.find? (·.name == name) = s.runtimeClasses.find? (·.name == name) := by
  have perm : s.cluster.runtimeClasses.Perm s.runtimeClasses := by
    apply (List.perm_ext_iff_of_nodup _ _).mpr fun c => mem_runtimeClasses_cluster distinct
    · exact (Cluster.nodup_runtimeClasses (keyed_cluster distinct)).of_map _
    · exact (nodup_runtimeClasses distinct).of_map _
  exact find?_key_perm perm (nodup_runtimeClasses distinct) name

theorem effectiveRequests_cluster (distinct : s.Distinct) (w : Workload) :
    w.effectiveRequests s.cluster.runtimeClasses = w.effectiveRequests s.runtimeClasses := by
  unfold Workload.effectiveRequests
  cases w.runtimeClassName with
  | none => rfl
  | some name =>
    simp only [Option.bind_some]
    rw [find?_runtimeClasses distinct name]

theorem asks_cluster (distinct : s.Distinct) (w : Workload) :
    w.asks s.cluster.runtimeClasses = w.asks s.runtimeClasses := by
  funext resource
  rw [Workload.asks, Workload.asks, effectiveRequests_cluster distinct]

theorem load_classes (distinct : s.Distinct) (workloads : List Workload) :
    BinPack.load s.cluster.runtimeClasses workloads = BinPack.load s.runtimeClasses workloads := by
  funext node resource
  induction workloads with
  | nil => rfl
  | cons w rest ih => rw [BinPack.load_cons, BinPack.load_cons, ih, asks_cluster distinct]

theorem load_cluster (distinct : s.Distinct) (node resource : String) :
    BinPack.load s.cluster.runtimeClasses s.cluster.workloads node resource =
      BinPack.load s.runtimeClasses s.workloads node resource := by
  rw [load_classes distinct, BinPack.load_perm (perm_workloads distinct)]

theorem sound_cluster (distinct : s.Distinct) (named : ∀ n ∈ s.nodes, n.name ≠ "")
    (nonneg : BinPack.NonNegative s.runtimeClasses s.workloads) : s.cluster.Sound := by
  refine ⟨keyed_cluster distinct, ?_, ?_⟩
  · intro n hn
    exact named n ((mem_nodes_cluster distinct).mp hn)
  · intro w hw resource
    rw [asks_cluster distinct]
    exact nonneg w ((mem_workloads_cluster distinct).mp hw) resource

end Snapshot

/-- Loading a snapshot into the first view of a forest. -/
theorem Forest.loadSnapshot_newBase {f g : Forest} {name : String} {s : Snapshot} (valid : f.Valid)
    (loaded : (f.newBase name).1.loadSnapshot f.views.size s = (g, .ok ())) :
    g.Valid ∧ g.Readable f.views.size ∧ g.cluster f.views.size = s.cluster ∧
      (g.view f.views.size).events = #[] ∧ s.Distinct := by
  obtain ⟨touches, valid', events, contents, distinct, -⟩ :=
    wrote_load (valid_newBase valid name) (readable_newBase f name) loaded
  refine ⟨valid', touches.readable (readable_newBase f name), ?_, ?_, distinct⟩
  · rw [contents, cluster_newBase]
    rfl
  · rw [events, view_newBase]

end ScaleAdvisor
