import ScaleAdvisor.Proofs.View.PlainMap
import ScaleAdvisor.Proofs.View.Versions

/-!
What an open view finds and writes, whatever is closed below it. A lookup goes down as far as the
first closed view; writes go by lookups, so they too take what is further down for empty.

* `find?_eq_mask`, `find?_commit`: a view's edits hide what is below, and a write changes what is
  found under one key;
* `create_of_open`, `update_of_open`, `delete_of_open`, `bind_of_missing`, `bind_of_pending`,
  `bind_of_bound`: what each edit answers;
* `Edit.Done`, `done_of_perform`: what an edit that succeeds has done.
-/

namespace ScaleAdvisor

namespace Edit

/-- What watchers are told that the edit has done. -/
def kind : Edit → ChangeKind
  | .create _ => .added
  | .update _ => .modified
  | .delete _ => .deleted
  | .bind _ _ => .modified

/-- The key that it writes to. -/
def key : Edit → ObjectKey
  | .create o => o.key
  | .update o => o.key
  | .delete k => k
  | .bind k _ => k.objectKey

/-- What an edit that succeeds has done: it has taken the next version and written to its key, which
was free if an object is added and taken otherwise. -/
structure Done (e : Edit) (f : Forest) (v : ViewId) (g : Forest) (n : Nat) : Prop where
  opened : (f.view v).closed = false
  taken : n = f.version v + 1
  found : (f.find? v e.key).isSome = (e.kind != .added)
  written : ∃ object : Option ClusterObject, object.isSome = (e.kind != .deleted) ∧
    g = (f.commit v e.kind e.key object).1

end Edit

/-- A workload that is not pending bears the name of its node. -/
theorem Workload.pending_or_bound (w : Workload) :
    w.isPending = true ∨ ∃ node, w.nodeName = some node ∧ node ≠ "" := by
  unfold Workload.isPending
  cases w.nodeName <;> simp [em]

namespace Forest

/-- What is found below a view. -/
def findBelow (f : Forest) (v : ViewId) : PlainMap :=
  fun k => View.readThrough k ((f.view v).below.map f.view)

variable {f g : Forest} {v : ViewId} {k : ObjectKey}

theorem get_of_open (opened : (f.view v).closed = false) (k : ObjectKey) :
    f.get v k = .ok (f.find? v k) := by
  rw [get, whileOpen, isClosed, opened]
  rfl

theorem find?_eq_mask (opened : (f.view v).closed = false) :
    f.find? v = (f.view v).mask (f.findBelow v) := by
  funext k
  rw [find?, stack, View.readThrough, opened]
  rfl

theorem findBelow_congr (below : (g.view v).below = (f.view v).below)
    (same : ∀ u ∈ (f.view v).below, g.view u = f.view u) : g.findBelow v = f.findBelow v := by
  unfold findBelow
  rw [below, List.map_congr_left same]

theorem Confined.findBelow_eq (confined : Confined v f g) (valid : f.Valid) :
    g.findBelow v = f.findBelow v :=
  findBelow_congr confined.below fun _ hu =>
    confined.elsewhere (Nat.ne_of_lt (valid.lt_of_mem_below hu))

/-- Only what can be read to the ground is listed. -/
theorem readable_of_list {kind : ObjectKind} {entries : List (ObjectKey × Stored)}
    (listed : f.list v kind = .ok entries) : f.Readable v := by
  rw [list] at listed
  split at listed
  · cases listed
  · rename_i allOpen
    intro u hu
    have among : f.view u ∈ f.stack v := List.mem_map_of_mem hu
    simpa using List.find?_eq_none.mp allOpen _ among

/-- A write changes what is found under one key. -/
theorem find?_commit (valid : f.Valid) (opened : (f.view v).closed = false) (kind : ChangeKind)
    (key : ObjectKey) (object : Option ClusterObject) :
    (f.commit v kind key object).1.find? v =
      Function.update (f.find? v) key (object.map fun o => ⟨o, f.version v + 1⟩) := by
  have there := lt_size_of_open opened
  have confined := confined_commit there kind key object
  have still : ((f.commit v kind key object).1.view v).closed = false := by rwa [view_commit there]
  rw [find?_eq_mask still, find?_eq_mask opened, confined.findBelow_eq valid, view_commit there]
  funext k
  simp only [View.mask, SortedMap.get?_insert, Function.update_apply]
  by_cases same : k = key <;> simp [same]

theorem keyed_find? (valid : f.Valid) {st : Stored} (found : f.find? v k = some st) :
    st.object.key = k := by
  rw [find?, stack_eq] at found
  obtain ⟨w, -, held⟩ := held_of_found found
  exact valid.keyed held

/-- What is found under the key of a workload is one, and has that key. -/
theorem workload_of_find? (valid : f.Valid) {k : WorkloadKey} {st : Stored}
    (found : f.find? v k.objectKey = some st) :
    ∃ w, st.object = .workload w ∧ w.key.objectKey = k.objectKey := by
  have key := keyed_find? valid found
  cases object : st.object with
  | workload w =>
    rw [object] at key
    exact ⟨w, rfl, key⟩
  | node | priorityClass | runtimeClass =>
    rw [object] at key
    cases congrArg ObjectKey.kind key

theorem create_of_open (opened : (f.view v).closed = false) (o : ClusterObject) :
    f.create v o = if (f.find? v o.key).isNone then .ok (f.commit v .added o.key (some o))
      else .error (.alreadyExists (f.name v) o.key) := by
  rw [create, get_of_open opened]
  cases f.find? v o.key <;> rfl

theorem update_of_open (opened : (f.view v).closed = false) (o : ClusterObject) :
    f.update v o = if (f.find? v o.key).isSome then .ok (f.commit v .modified o.key (some o))
      else .error (.notFound (f.name v) o.key) := by
  rw [update, get_of_open opened]
  cases f.find? v o.key <;> rfl

theorem delete_of_open (opened : (f.view v).closed = false) (k : ObjectKey) :
    f.delete v k = if (f.find? v k).isSome then .ok (f.commit v .deleted k none)
      else .error (.notFound (f.name v) k) := by
  rw [delete, get_of_open opened]
  cases f.find? v k <;> rfl

section Bind

variable {k : WorkloadKey} {st : Stored} {w : Workload}

theorem bind_of_missing (opened : (f.view v).closed = false) (node : String)
    (missing : f.find? v k.objectKey = none) :
    f.bind v k node = .error (.notFound (f.name v) k.objectKey) := by
  rw [bind, workload, get_of_open opened, missing]
  rfl

theorem bind_of_bound (opened : (f.view v).closed = false) (node : String)
    (found : f.find? v k.objectKey = some st) (isWorkload : st.object = .workload w)
    {bound : String} (named : w.nodeName = some bound) (nonempty : bound ≠ "") :
    f.bind v k node = .error (.alreadyBound k.text bound) := by
  rw [bind, workload, get_of_open opened, found]
  simp [Bind.bind, Except.bind, Except.map, isWorkload, ClusterObject.workload?, named, nonempty]

/-- A pending workload is bound once the node is found. -/
theorem bind_of_pending (valid : f.Valid) (opened : (f.view v).closed = false) (node : String)
    (found : f.find? v k.objectKey = some st) (isWorkload : st.object = .workload w)
    (pending : w.isPending = true) :
    f.bind v k node = if (f.find? v ⟨.node, node⟩).isSome then
        .ok (f.commit v .modified k.objectKey (some (.workload (w.bindTo node))))
      else .error (.notFound (f.name v) ⟨.node, node⟩) := by
  have key : (ClusterObject.workload (w.bindTo node)).key = k.objectKey := by
    rw [← keyed_find? valid found, isWorkload]
    rfl
  have updated : f.update v (.workload (w.bindTo node)) =
      .ok (f.commit v .modified k.objectKey (some (.workload (w.bindTo node)))) := by
    rw [update_of_open opened, key, found]
    rfl
  have bound : bind.bindPending f v node w = if (f.find? v ⟨.node, node⟩).isSome then
        .ok (f.commit v .modified k.objectKey (some (.workload (w.bindTo node))))
      else .error (.notFound (f.name v) ⟨.node, node⟩) := by
    rw [bind.bindPending, get_of_open opened, ← updated]
    cases f.find? v ⟨.node, node⟩ <;> rfl
  rw [bind, workload, get_of_open opened, found, ← bound]
  rcases Workload.isPending_iff.mp pending with unnamed | empty
  · simp [Bind.bind, Except.bind, Except.map, isWorkload, ClusterObject.workload?, unnamed]
  · simp [Bind.bind, Except.bind, Except.map, isWorkload, ClusterObject.workload?, empty]

/-- A binding succeeds just for a workload that is found pending and a node that is found. -/
theorem bind_eq_ok_iff (valid : f.Valid) (opened : (f.view v).closed = false) {node : String}
    {n : Nat} : f.bind v k node = .ok (g, n) ↔ ∃ st w, f.find? v k.objectKey = some st ∧
    st.object = .workload w ∧
      w.isPending = true ∧ (f.find? v ⟨.node, node⟩).isSome = true ∧
      f.commit v .modified k.objectKey (some (.workload (w.bindTo node))) = (g, n) := by
  constructor
  · intro done
    cases found : f.find? v k.objectKey with
    | none =>
      rw [bind_of_missing opened node found] at done
      cases done
    | some st =>
      obtain ⟨w, isWorkload, -⟩ := workload_of_find? valid found
      rcases w.pending_or_bound with pending | ⟨bound, named, nonempty⟩
      · rw [bind_of_pending valid opened node found isWorkload pending] at done
        split at done
        · exact ⟨st, w, rfl, isWorkload, pending, ‹_›, Except.ok.inj done⟩
        · cases done
      · rw [bind_of_bound opened node found isWorkload named nonempty] at done
        cases done
  · rintro ⟨st, w, found, isWorkload, pending, there, done⟩
    rw [bind_of_pending valid opened node found isWorkload pending, if_pos there, done]

end Bind

/-- Whatever succeeds has done what it is for. -/
theorem done_of_perform (valid : f.Valid) {e : Edit} {n : Nat} (done : e.perform f v = .ok (g, n)) :
    e.Done f v g n := by
  obtain ⟨opened, taken, -⟩ := edit_eq_ok done
  cases e with
  | create o =>
    rw [Edit.perform, create_of_open opened] at done
    split at done
    · rename_i free
      refine ⟨opened, taken, ?_, some o, rfl, (congrArg Prod.fst (Except.ok.inj done)).symm⟩
      rw [Edit.key, Option.isNone_iff_eq_none.mp free]
      rfl
    · cases done
  | update o =>
    rw [Edit.perform, update_of_open opened] at done
    split at done
    · rename_i there
      exact ⟨opened, taken, there, some o, rfl, (congrArg Prod.fst (Except.ok.inj done)).symm⟩
    · cases done
  | delete k =>
    rw [Edit.perform, delete_of_open opened] at done
    split at done
    · rename_i there
      exact ⟨opened, taken, there, none, rfl, (congrArg Prod.fst (Except.ok.inj done)).symm⟩
    · cases done
  | bind k node =>
    obtain ⟨st, w, found, -, -, -, written⟩ := (bind_eq_ok_iff valid opened).mp done
    refine ⟨opened, taken, ?_, some (.workload (w.bindTo node)), rfl,
      (congrArg Prod.fst written).symm⟩
    rw [Edit.key, found]
    rfl

end Forest

end ScaleAdvisor
