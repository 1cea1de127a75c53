import ScaleAdvisor.Proofs.Packing.Cluster
import ScaleAdvisor.View.Forest

/-!
Reading views. In a valid forest a view is laid over older ones, the same that the view right below
it is laid over. A readable view is open and laid over open views only; it answers every question
from its cluster, the objects that it stands for without their versions.

* `get_eq`, `workload_eq`: looking up one key is looking it up in the cluster;
* `nodes_eq`, `workloads_eq`, `pending_eq`: every listing is the cluster's listing.
-/

namespace ScaleAdvisor

namespace View

/-- With nothing closed, reading through a stack is reading its contents. -/
theorem readThrough_eq (k : ObjectKey) (views : List View)
    (opened : ∀ w ∈ views, w.closed = false) : readThrough k views = (contentsOf views).get? k := by
  induction views with
  | nil => rfl
  | cons top lower ih =>
    have topOpen := opened top (by simp)
    rw [readThrough, topOpen, contentsOf, SortedMap.get?_patch]
    cases found : top.edits.get? k with
    | some entry => rfl
    | none => exact ih fun w hw => opened w (by simp [hw])

/-- What a stack holds, one of its views holds. -/
theorem exists_of_contentsOf {views : List View} {k : ObjectKey} {st : Stored}
    (found : (contentsOf views).get? k = some st) :
    ∃ w ∈ views, w.edits.get? k = some (some st) := by
  induction views with
  | nil => simp [contentsOf] at found
  | cons top lower ih =>
    rw [contentsOf, SortedMap.get?_patch] at found
    cases edit : top.edits.get? k with
    | some entry =>
      rw [edit] at found
      have held : entry = some st := found
      exact ⟨top, by simp, by rw [edit, held]⟩
    | none =>
      rw [edit] at found
      obtain ⟨w, hw, held⟩ := ih found
      exact ⟨w, by simp [hw], held⟩

end View

namespace Forest

/-- Views are laid over older ones, and edits are kept under the keys of their objects. -/
structure Valid (f : Forest) : Prop where
  below : ∀ {v u : ViewId} {rest : List ViewId}, (f.view v).below = u :: rest →
    u < v ∧ rest = (f.view u).below
  keyed : ∀ {v : ViewId} {k : ObjectKey} {st : Stored}, (f.view v).edits.get? k = some (some st) →
    st.object.key = k

/-- The view and those it is laid over, nearest first. -/
def line (f : Forest) (v : ViewId) : List ViewId := v :: (f.view v).below

/-- Open, and laid over open views only. -/
def Readable (f : Forest) (v : ViewId) : Prop := ∀ u ∈ f.line v, (f.view u).closed = false

/-- The objects that a view stands for. -/
def cluster (f : Forest) (v : ViewId) : Cluster := (f.contents v).mapValues fun _ st => st.object

theorem stack_eq (f : Forest) (v : ViewId) : f.stack v = (f.line v).map f.view := rfl

theorem Valid.lt_of_mem_below {f : Forest} (valid : f.Valid) {v u : ViewId}
    (h : u ∈ (f.view v).below) : u < v := by
  induction v using Nat.strongRecOn with
  | ind v ih =>
    cases lower : (f.view v).below with
    | nil => simp [lower] at h
    | cons next rest =>
      obtain ⟨older, same⟩ := valid.below lower
      rw [lower] at h
      obtain rfl | h := List.mem_cons.mp h
      · exact older
      · rw [same] at h
        exact Nat.lt_trans (ih next older h) older

theorem Valid.le_of_mem_line {f : Forest} (valid : f.Valid) {v u : ViewId} (h : u ∈ f.line v) :
    u ≤ v := by
  obtain rfl | h := List.mem_cons.mp h
  · exact Nat.le_refl _
  · exact Nat.le_of_lt (valid.lt_of_mem_below h)

theorem view_of_size_le {f : Forest} {v : ViewId} (h : f.views.size ≤ v) : f.view v = .missing := by
  simp [view, Array.getElem?_eq_none h]

theorem lt_size_of_open {f : Forest} {v : ViewId} (opened : (f.view v).closed = false) :
    v < f.views.size := by
  apply Nat.lt_of_not_le
  intro h
  rw [view_of_size_le h] at opened
  exact Bool.noConfusion opened

variable {f : Forest} {v : ViewId}

theorem Readable.isOpen (readable : f.Readable v) : (f.view v).closed = false :=
  readable v (by simp [line])

theorem Readable.lt_size (readable : f.Readable v) : v < f.views.size :=
  lt_size_of_open readable.isOpen

theorem Readable.stack_open (readable : f.Readable v) : ∀ w ∈ f.stack v, w.closed = false := by
  intro w hw
  rw [stack_eq] at hw
  obtain ⟨u, hu, rfl⟩ := List.mem_map.mp hw
  exact readable u hu

theorem Readable.whileOpen {α : Type} (readable : f.Readable v) (a : α) :
    f.whileOpen v a = .ok a := by
  simp [Forest.whileOpen, isClosed, readable.isOpen]

theorem get?_cluster (readable : f.Readable v) (k : ObjectKey) :
    (f.cluster v).get? k = (f.find? v k).map (·.object) := by
  rw [cluster, SortedMap.get?_mapValues, contents, find?,
    View.readThrough_eq k _ readable.stack_open]

theorem get_eq (readable : f.Readable v) (k : ObjectKey) : f.get v k = .ok (f.find? v k) :=
  readable.whileOpen _

theorem find?_eq_none_iff (readable : f.Readable v) {k : ObjectKey} :
    f.find? v k = none ↔ (f.cluster v).get? k = none := by
  rw [get?_cluster readable, Option.map_eq_none_iff]

theorem contents_keyed (valid : f.Valid) {k : ObjectKey} {st : Stored}
    (found : (f.contents v).get? k = some st) : st.object.key = k := by
  obtain ⟨w, hw, held⟩ := View.exists_of_contentsOf found
  rw [stack_eq] at hw
  obtain ⟨u, -, rfl⟩ := List.mem_map.mp hw
  exact valid.keyed held

theorem keyed_cluster (valid : f.Valid) : (f.cluster v).Keyed := by
  intro k o found
  rw [cluster, SortedMap.get?_mapValues] at found
  obtain ⟨st, held, rfl⟩ := Option.map_eq_some_iff.mp found
  exact contents_keyed valid held

theorem workload_eq (readable : f.Readable v) (k : WorkloadKey) :
    f.workload v k = .ok ((f.cluster v).workload? k) := by
  rw [workload, get_eq readable, Cluster.workload?, get?_cluster readable, Option.bind_map]
  rfl

theorem list_eq (readable : f.Readable v) (kind : ObjectKind) :
    f.list v kind = .ok ((f.contents v).entries.filter fun e => e.1.kind == kind) := by
  have nothingClosed : (f.stack v).find? (·.closed) = none := by
    rw [List.find?_eq_none]
    intro w hw
    simp [readable.stack_open w hw]
  rw [list, nothingClosed]

/-- A listing of one kind passes over everything else by itself. -/
theorem objects_eq {α : Type} (valid : f.Valid) (readable : f.Readable v) {kind : ObjectKind}
    {select : ClusterObject → Option α} (selects : ∀ o x, select o = some x → o.kind = kind) :
    f.objects v kind select = .ok ((f.cluster v).entries.filterMap fun e => select e.2) := by
  rw [objects, list_eq readable]
  change Except.ok (((f.contents v).entries.filter _).filterMap _) = _
  congr 1
  rw [List.filterMap_filter, cluster, SortedMap.mapValues, List.filterMap_map]
  apply List.filterMap_congr
  rintro ⟨k, st⟩ he
  have key := contents_keyed valid ((SortedMap.mem_entries_iff _).mp he)
  by_cases ofKind : k.kind = kind
  · simp [ofKind]
  · have skipped : select st.object = none := by
      cases taken : select st.object with
      | none => rfl
      | some x =>
        apply absurd _ ofKind
        rw [← key]
        exact selects _ x taken
    simp [ofKind, skipped]

theorem nodes_eq (valid : f.Valid) (readable : f.Readable v) :
    f.nodes v = .ok (f.cluster v).nodes :=
  objects_eq valid readable fun o n h => by rw [ClusterObject.node?_eq_some.mp h]; rfl

theorem workloads_eq (valid : f.Valid) (readable : f.Readable v) :
    f.workloads v = .ok (f.cluster v).workloads :=
  objects_eq valid readable fun o w h => by rw [ClusterObject.workload?_eq_some.mp h]; rfl

theorem priorityClasses_eq (valid : f.Valid) (readable : f.Readable v) :
    f.priorityClasses v = .ok (f.cluster v).priorityClasses :=
  objects_eq valid readable fun o c h => by rw [ClusterObject.priorityClass?_eq_some.mp h]; rfl

theorem runtimeClasses_eq (valid : f.Valid) (readable : f.Readable v) :
    f.runtimeClasses v = .ok (f.cluster v).runtimeClasses :=
  objects_eq valid readable fun o c h => by rw [ClusterObject.runtimeClass?_eq_some.mp h]; rfl

theorem pending_eq (valid : f.Valid) (readable : f.Readable v) :
    f.pending v = .ok ((f.cluster v).workloads.filter (·.isPending)) := by
  rw [pending, workloads_eq valid readable]
  rfl

theorem eventsFrom_eq (readable : f.Readable v) (cursor : Nat) :
    f.eventsFrom v cursor = .ok ((f.view v).events.toList.drop cursor) :=
  readable.whileOpen _

end Forest

end ScaleAdvisor
