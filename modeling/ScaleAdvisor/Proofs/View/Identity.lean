import ScaleAdvisor.Proofs.Packing.Bindings
import ScaleAdvisor.Proofs.View.Snapshots

/-!
What a workload is known by. Its key is a namespace and a name, but a view files it under one text,
in which a slash joins the two; and there may be slashes in either. So a view tells two workloads
apart just if none of the name of the one, up to a slash, can be read as the end of the namespace of
the other.

* `WorkloadKey.text_eq_iff`: when two keys have one text;
* `find?_commit_of_ne`, `get_binding`: no view notices what is written under another key;
* `Snapshot.nodup_keys_iff_unconfused`: which snapshots can be loaded;
* `told_apart_iff`: the keys that a view tells apart, in whatever it does with workloads.
-/

namespace ScaleAdvisor

namespace WorkloadKey

/-- The name of the first goes on to a slash with what the namespace of the second ends in. -/
def Overlaps (k k' : WorkloadKey) : Prop :=
  ∃ first middle last, k = ⟨first, middle ++ "/" ++ last⟩ ∧ k' = ⟨first ++ "/" ++ middle, last⟩

/-- The two differ only in which of the slashes parts the namespace from the name. -/
def Confused (k k' : WorkloadKey) : Prop := k.Overlaps k' ∨ k'.Overlaps k

variable {k k' : WorkloadKey}

theorem Overlaps.text_eq (overlaps : k.Overlaps k') : k.text = k'.text := by
  obtain ⟨first, middle, last, rfl, rfl⟩ := overlaps
  simp [text, String.append_assoc]

theorem Overlaps.ne (overlaps : k.Overlaps k') : k ≠ k' := by
  obtain ⟨first, middle, last, rfl, rfl⟩ := overlaps
  intro same
  have longer := congrArg (fun k => k.inNamespace.length) same
  simp only [String.length_append] at longer
  have slash : "/".length = 1 := rfl
  omega

/-- A longer first part leaves a shorter second one. -/
theorem overlaps_of_parts {as : List Char}
    (namespaces : k'.inNamespace.toList = k.inNamespace.toList ++ as)
    (names : '/' :: k.name.toList = as ++ '/' :: k'.name.toList) : k = k' ∨ k.Overlaps k' := by
  cases as with
  | nil =>
    left
    have sameNamespace := String.toList_inj.mp (namespaces.trans (List.append_nil _))
    have sameName := String.toList_inj.mp (List.cons.inj names).2
    cases k
    cases k'
    simp_all
  | cons c middle =>
    obtain ⟨rfl, names⟩ := List.cons.inj names
    right
    refine ⟨k.inNamespace, String.ofList middle, k'.name, ?_, ?_⟩
    · have name : k.name = String.ofList middle ++ "/" ++ k'.name := by
        apply String.toList_inj.mp
        simpa using names
      rw [← name]
    · have inNamespace : k'.inNamespace = k.inNamespace ++ "/" ++ String.ofList middle := by
        apply String.toList_inj.mp
        simpa using namespaces
      rw [← inNamespace]

theorem text_eq_iff : k.text = k'.text ↔ k = k' ∨ k.Confused k' := by
  constructor
  · intro same
    have parts := congrArg String.toList same
    simp only [text, String.toList_append, List.append_assoc] at parts
    rcases List.append_eq_append_iff.mp parts with ⟨as, namespaces, names⟩ | ⟨as, namespaces, names⟩
    · exact (overlaps_of_parts namespaces names).imp_right .inl
    · exact (overlaps_of_parts namespaces names).imp Eq.symm .inr
  · rintro (rfl | overlaps | overlaps)
    · rfl
    · exact overlaps.text_eq
    · exact overlaps.text_eq.symm

theorem Confused.ne (confused : k.Confused k') : k ≠ k' :=
  confused.elim Overlaps.ne fun overlaps => overlaps.ne.symm

theorem confused_iff : k.Confused k' ↔ k ≠ k' ∧ k.text = k'.text :=
  ⟨fun confused => ⟨confused.ne, text_eq_iff.mpr (.inr confused)⟩,
    fun ⟨apart, same⟩ => (text_eq_iff.mp same).resolve_left apart⟩

instance : Decidable (k.Confused k') := decidable_of_iff _ confused_iff.symm

/-- Keys that differ are filed under one key just if they are confused. -/
theorem objectKey_eq_iff (apart : k ≠ k') : k.objectKey = k'.objectKey ↔ k.Confused k' := by
  have texts : k.objectKey = k'.objectKey ↔ k.text = k'.text := by simp [objectKey]
  rw [texts, text_eq_iff, or_iff_right apart]

end WorkloadKey

/-- A pending workload of this key. -/
def Workload.ofKey (k : WorkloadKey) : Workload := { inNamespace := k.inNamespace, name := k.name }

/-- A lookup goes by what each of the views says of the key. -/
theorem View.readThrough_congr {k : ObjectKey} {line : List ViewId} {views views' : ViewId → View}
    (same : ∀ u ∈ line, (views' u).closed = (views u).closed ∧
      (views' u).edits.get? k = (views u).edits.get? k) :
    readThrough k (line.map views') = readThrough k (line.map views) := by
  induction line with
  | nil => rfl
  | cons u rest ih =>
    obtain ⟨⟨closed, edit⟩, others⟩ := List.forall_mem_cons.mp same
    rw [List.map_cons, List.map_cons, readThrough, readThrough, closed, edit, ih others]

namespace Forest

/-- What every view says of a key is as it was. -/
structure SaysTheSame (k : ObjectKey) (f g : Forest) : Prop where
  name : ∀ u, g.name u = f.name u
  line : ∀ u, g.line u = f.line u
  closed : ∀ u, (g.view u).closed = (f.view u).closed
  edit : ∀ u, (g.view u).edits.get? k = (f.view u).edits.get? k

variable {f g h : Forest} {v u : ViewId}

namespace SaysTheSame

variable {k : ObjectKey}

theorem refl (k : ObjectKey) (f : Forest) : SaysTheSame k f f :=
  ⟨fun _ => rfl, fun _ => rfl, fun _ => rfl, fun _ => rfl⟩

theorem trans (first : SaysTheSame k f g) (second : SaysTheSame k g h) : SaysTheSame k f h :=
  ⟨fun u => (second.name u).trans (first.name u), fun u => (second.line u).trans (first.line u),
    fun u => (second.closed u).trans (first.closed u),
    fun u => (second.edit u).trans (first.edit u)⟩

theorem get_eq (same : SaysTheSame k f g) (u : ViewId) : g.get u k = f.get u k := by
  have found : g.find? u k = f.find? u k := by
    rw [find?, find?, stack_eq, stack_eq, same.line]
    exact View.readThrough_congr fun w _ => ⟨same.closed w, same.edit w⟩
  rw [Forest.get, Forest.get, found, whileOpen, whileOpen, isClosed, isClosed, same.name,
    same.closed]

/-- A view has changed in nothing that bears on the key. -/
theorem modify (f : Forest) (v : ViewId) (change : View → View)
    (name : ∀ view, (change view).name = view.name)
    (below : ∀ view, (change view).below = view.below)
    (closed : ∀ view, (change view).closed = view.closed)
    (edit : ∀ view, (change view).edits.get? k = view.edits.get? k) :
    SaysTheSame k f (f.modify v change) := by
  constructor
  all_goals intro u
  case name =>
    rw [Forest.name, Forest.name]
    rcases view_modify f v u change with same | changed
    · rw [same]
    · rw [changed, name]
  case line =>
    rw [Forest.line, Forest.line]
    rcases view_modify f v u change with same | changed
    · rw [same]
    · rw [changed, below]
  case closed =>
    rcases view_modify f v u change with same | changed
    · rw [same]
    · rw [changed, closed]
  case edit =>
    rcases view_modify f v u change with same | changed
    · rw [same]
    · rw [changed, edit]

theorem commit {key : ObjectKey} (other : k ≠ key) (kind : ChangeKind)
    (object : Option ClusterObject) : SaysTheSame k f (f.commit v kind key object).1 := by
  have same : SaysTheSame k f (f.modify v fun view =>
      { view with
        edits := view.edits.insert key (object.map fun o => ⟨o, f.version v + 1⟩)
        changes := view.changes.push ⟨kind, key, f.version v + 1⟩ }) :=
    modify f v _ (fun _ => rfl) (fun _ => rfl) (fun _ => rfl) fun view =>
      SortedMap.get?_insert_of_ne _ _ other
  -- A write is this and one more version, and no view says anything of versions handed out.
  exact ⟨same.name, same.line, same.closed, same.edit⟩

end SaysTheSame

/-- Binding a workload leaves alone what is filed under another key. -/
theorem saysTheSame_bind (valid : f.Valid) {k : WorkloadKey} {key : ObjectKey}
    {node : String} {n : Nat} (other : key ≠ k.objectKey) (bound : f.bind v k node = .ok (g, n)) :
    SaysTheSame key f g := by
  obtain ⟨opened, -⟩ := bind_eq_ok bound
  obtain ⟨st, w, -, -, -, -, written⟩ := (bind_eq_ok_iff valid opened).mp bound
  obtain rfl : _ = g := congrArg Prod.fst written
  exact .commit other _ _

theorem saysTheSame_binding (valid : f.Valid) {op : Operation} {k : WorkloadKey} {key : ObjectKey}
    {node : String} (asked : op.binding? = some (k, node)) (other : key ≠ k.objectKey) :
    SaysTheSame key f (op.perform f v).1 := by
  cases made : f.bind v k node with
  | error e =>
    rcases Operation.binding?_eq_some asked with rfl | rfl
    · rw [Operation.perform, Edit.perform, made]
      exact .refl key f
    · rw [Operation.perform, run_bind_of_error made]
      exact .refl key f
  | ok result =>
    obtain ⟨g, n⟩ := result
    have written := saysTheSame_bind valid other made
    rcases Operation.binding?_eq_some asked with rfl | rfl
    · rw [Operation.perform, Edit.perform, made]
      exact written
    · obtain ⟨event, run⟩ := run_bind_of_ok made
      rw [Operation.perform, run]
      exact written.trans (.modify g v _ (fun _ => rfl) (fun _ => rfl) (fun _ => rfl) fun _ => rfl)

variable {k k' : WorkloadKey}

/-- Where no workload of either key is, one of each can be created, and each is then found by its
key. -/
def CreatedTogether (f : Forest) (v : ViewId) (k k' : WorkloadKey) : Prop :=
  ∀ w w' : Workload, w.key = k → w'.key = k' →
    f.workload v k = .ok none → f.workload v k' = .ok none →
    ∃ g n h n', f.create v (.workload w) = .ok (g, n) ∧ g.create v (.workload w') = .ok (h, n') ∧
      h.workload v k = .ok (some w) ∧ h.workload v k' = .ok (some w')

/-- No workload of the second key is found by the first. -/
def NeverReturned (f : Forest) (v : ViewId) (k k' : WorkloadKey) : Prop :=
  ∀ w, f.workload v k = .ok (some w) → w.key ≠ k'

/-- Whoever binds the workload of the first key, that of the second stays as it is, seen from any
view. -/
def BoundApart (f : Forest) (v : ViewId) (k k' : WorkloadKey) : Prop :=
  ∀ (op : Operation) (node : String), op.binding? = some (k, node) →
    ∀ u, (op.perform f v).1.get u k'.objectKey = f.get u k'.objectKey

section Apart

theorem workload_of_open (opened : (f.view v).closed = false) (k : WorkloadKey) :
    f.workload v k = .ok ((f.find? v k.objectKey).bind (·.object.workload?)) := by
  rw [workload, get_of_open opened]
  rfl

theorem open_of_workload {found : Option Workload} (answered : f.workload v k = .ok found) :
    (f.view v).closed = false := by
  cases got : f.get v k.objectKey with
  | error e =>
    rw [workload, got] at answered
    cases answered
  | ok st => exact (open_of_whileOpen got).1

theorem get_commit (valid : f.Valid) (opened : (f.view v).closed = false) (kind : ChangeKind)
    (key : ObjectKey) (object : Option ClusterObject) (k : ObjectKey) :
    (f.commit v kind key object).1.get v k =
      .ok (Function.update (f.find? v) key (object.map fun o => ⟨o, f.version v + 1⟩) k) := by
  have still : ((f.commit v kind key object).1.view v).closed = false := by
    rwa [view_commit (lt_size_of_open opened)]
  rw [get_of_open still, find?_commit valid opened]

/-- If no workload is found under its key, nothing is. -/
theorem free_of_workload (valid : f.Valid) (missing : f.workload v k = .ok none) :
    f.find? v k.objectKey = none := by
  rw [workload_of_open (open_of_workload missing)] at missing
  cases found : f.find? v k.objectKey with
  | none => rfl
  | some st =>
    obtain ⟨w, isWorkload, -⟩ := workload_of_find? valid found
    rw [found, Option.bind_some, isWorkload] at missing
    cases missing

/-- A workload that is created is found by its key, and all else as before. -/
theorem exists_created (valid : f.Valid) (opened : (f.view v).closed = false) {w : Workload}
    (free : f.find? v w.key.objectKey = none) :
    ∃ g n, f.create v (.workload w) = .ok (g, n) ∧ g.Valid ∧
      (g.view v).closed = false ∧
      g.find? v = Function.update (f.find? v) w.key.objectKey (some ⟨.workload w, n⟩) := by
  have deed : Deed v false f (f.commit v .added w.key.objectKey (some (.workload w))).1 :=
    .write .added _ _ (lt_size_of_open opened) fun o same => by rw [← Option.some.inj same]; rfl
  refine ⟨(f.commit v .added w.key.objectKey (some (.workload w))).1, f.version v + 1, ?_,
    deed.valid valid, ?_, ?_⟩
  · rw [create_of_open opened]
    exact if_pos (Option.isNone_iff_eq_none.mpr free)
  · exact (Deeds.closed_eq (.single deed) v).trans opened
  · exact find?_commit valid opened .added w.key.objectKey (some (.workload w))

variable (valid : f.Valid) (other : k.objectKey ≠ k'.objectKey)
include valid other

theorem createdTogether_of_ne : f.CreatedTogether v k k' := by
  rintro w w' rfl rfl missing missing'
  obtain ⟨g, n, created, valid₁, opened₁, found⟩ := exists_created valid (open_of_workload missing)
    (free_of_workload valid missing)
  have free : g.find? v w'.key.objectKey = none := by
    rw [found, Function.update_of_ne other.symm]
    exact free_of_workload valid missing'
  obtain ⟨h, n', created', -, opened₂, found'⟩ := exists_created valid₁ opened₁ free
  refine ⟨g, n, h, n', created, created', ?_, ?_⟩
  · rw [workload_of_open opened₂, found', Function.update_of_ne other, found, Function.update_self]
    rfl
  · rw [workload_of_open opened₂, found', Function.update_self]
    rfl

theorem neverReturned_of_ne : f.NeverReturned v k k' := by
  rintro w found rfl
  have opened := open_of_workload found
  rw [workload_of_open opened, Except.ok.injEq] at found
  obtain ⟨st, held, isWorkload⟩ := Option.bind_eq_some_iff.mp found
  have key := keyed_find? valid held
  rw [ClusterObject.workload?_eq_some.mp isWorkload] at key
  exact other key.symm

theorem boundApart_of_ne : f.BoundApart v k k' :=
  fun _ _ asked u => (saysTheSame_binding valid asked other.symm).get_eq u

end Apart

/-- A base with one workload, pending, and a node for it. -/
def soleWorkload (k : WorkloadKey) : Snapshot := { nodes := [worker], workloads := [.ofKey k] }

/-- A base into which it has been loaded. -/
def withSole (k : WorkloadKey) : List Move := [.base "base", .ask 0 (.load (soleWorkload k))]

theorem loaded_withSole (k : WorkloadKey) :
    Loaded "base" 0 (soleWorkload k).objects (Forest.replay ∅ (withSole k)) := by
  have ends := (loaded_newBase valid_empty "base").load (soleWorkload k).objects
  refine ends.loaded_of_ok (ends.ok_iff.mpr ?_)
  simp [soleWorkload, Snapshot.objects, ClusterObject.key, ClusterObject.kind]

theorem plain_withSole (k : WorkloadKey) :
    (Forest.replay ∅ (withSole k)).plain 0 k.objectKey = some ⟨.workload (.ofKey k), 2⟩ ∧
      (Forest.replay ∅ (withSole k)).plain 0 ⟨.node, "worker"⟩ = some ⟨.node worker, 1⟩ := by
  have loaded := loaded_withSole k
  refine ⟨(loaded.holds _ _).mpr ⟨?_, rfl⟩, (loaded.holds _ _).mpr ⟨?_, rfl⟩⟩
  · simp [soleWorkload, Snapshot.objects, numbered]
  · simp [soleWorkload, Snapshot.objects, numbered]

section Confused

variable (confused : k.objectKey = k'.objectKey)
include confused

theorem not_createdTogether : ¬ (Forest.replay ∅ [.base "base"]).CreatedTogether 0 k k' := by
  have loaded : Loaded "base" 0 [] (Forest.replay ∅ [.base "base"]) :=
    loaded_newBase valid_empty "base"
  have missing (k : WorkloadKey) : (Forest.replay ∅ [.base "base"]).workload 0 k = .ok none := by
    have free : (Forest.replay ∅ [.base "base"]).plain 0 k.objectKey = none :=
      loaded.plain_eq_none (o := .workload (.ofKey k)) (by simp)
    rw [workload_eq_plain loaded.readable, free]
    rfl
  intro together
  obtain ⟨g, n, h, n', created, created', -⟩ :=
    together (.ofKey k) (.ofKey k') rfl rfl (missing k) (missing k')
  rw [loaded.create (by simp)] at created
  obtain rfl : _ = g := congrArg Prod.fst (Except.ok.inj created)
  -- The second bears the text of the first.
  rw [(loaded.commit (by simp)).refuse (o := .workload (.ofKey k'))] at created'
  · cases created'
  · exact List.mem_singleton.mpr confused.symm

theorem not_neverReturned : ¬ (Forest.replay ∅ (withSole k')).NeverReturned 0 k k' := by
  intro never
  refine never (.ofKey k') ?_ rfl
  rw [workload_eq_plain (loaded_withSole k').readable, confused, (plain_withSole k').1]
  rfl

theorem not_boundApart : ¬ (Forest.replay ∅ (withSole k')).BoundApart 0 k k' := by
  have loaded := loaded_withSole k'
  have opened := loaded.readable.isOpen
  have found := (find?_eq_plain loaded.readable _).trans (plain_withSole k').1
  have node := (find?_eq_plain loaded.readable _).trans (plain_withSole k').2
  have bound :=
    bind_of_pending (k := k) loaded.valid opened "worker" (by rw [confused, found]) rfl rfl
  rw [node, Option.isSome_some, if_pos rfl] at bound
  intro apart
  have same := apart (.edit (.bind k "worker")) "worker" rfl 0
  rw [Operation.perform, Edit.perform, bound, get_of_open opened, found] at same
  change (Forest.commit _ 0 _ _ _).1.get 0 k'.objectKey = _ at same
  -- The third version has been taken.
  rw [get_commit loaded.valid opened, confused, Function.update_self, loaded.version] at same
  simp [soleWorkload, Snapshot.objects] at same

end Confused

end Forest

namespace Snapshot

/-- The objects of each kind have names that differ; of workloads the namespaces may differ
instead. -/
def NamesApart (s : Snapshot) : Prop :=
  (s.priorityClasses.map (·.name)).Nodup ∧ (s.runtimeClasses.map (·.name)).Nodup ∧
    (s.nodes.map (·.name)).Nodup ∧ (s.workloads.map (·.key)).Nodup

instance (s : Snapshot) : Decidable s.NamesApart := by
  unfold NamesApart
  infer_instance

variable {s : Snapshot}

/-- Objects of different kinds are never filed under one key. -/
theorem nodup_keys_objects_iff : (s.objects.map (·.key)).Nodup ↔
    (s.priorityClasses.map (·.name)).Nodup ∧ (s.runtimeClasses.map (·.name)).Nodup ∧
      (s.nodes.map (·.name)).Nodup ∧ (s.workloads.map (·.key.objectKey)).Nodup := by
  rw [Forest.nodup_keys_iff, Snapshot.objects]
  simp [List.pairwise_append, List.pairwise_map, List.Nodup, ClusterObject.kind,
    ClusterObject.keyText, WorkloadKey.objectKey, or_imp, forall_and]

/-- Workloads whose keys differ are filed apart but for those that are confused. -/
theorem nodup_keys_iff_unconfused (apart : s.NamesApart) : (s.objects.map (·.key)).Nodup ↔
    ¬ ∃ w ∈ s.workloads, ∃ w' ∈ s.workloads, w.key.Confused w'.key := by
  obtain ⟨priorityClasses, runtimeClasses, nodes, workloads⟩ := apart
  rw [nodup_keys_objects_iff, and_iff_right priorityClasses, and_iff_right runtimeClasses,
    and_iff_right nodes]
  constructor
  · rintro distinct ⟨w, hw, w', hw', confused⟩
    have filedAlike := (WorkloadKey.objectKey_eq_iff confused.ne).mpr confused
    exact confused.ne (congrArg Workload.key (List.inj_on_of_nodup_map distinct hw hw' filedAlike))
  · intro unconfused
    apply List.pairwise_map.mpr
    refine (List.pairwise_map.mp workloads).imp_of_mem ?_
    intro w w' hw hw' apart filedAlike
    exact unconfused ⟨w, hw, w', hw', (WorkloadKey.objectKey_eq_iff apart).mp filedAlike⟩

end Snapshot

namespace Forest

/-- Whatever has been done to views, workloads of two keys that differ can be created side by side,
are not found by each other's keys and are not touched when the other is bound, each of it just if
the keys are not confused. And a snapshot in which all that have a name differ in it fails to be
loaded for a key that is taken just if the keys of two of its workloads are confused. -/
theorem told_apart_iff (k k' : WorkloadKey) (apart : k ≠ k') (past : List Move) (name : String)
    (s : Snapshot) (named : s.NamesApart) :
    ((∀ past v, (Forest.replay ∅ past).CreatedTogether v k k') ↔ ¬ k.Confused k') ∧
    ((∀ past v, (Forest.replay ∅ past).NeverReturned v k k') ↔ ¬ k.Confused k') ∧
    ((∀ past v, (Forest.replay ∅ past).BoundApart v k k') ↔ ¬ k.Confused k') ∧
    let base := (Forest.replay ∅ past).newBase name
    ((∃ view key, (base.1.loadSnapshot base.2 s).2 = .error (.alreadyExists view key)) ↔
      ∃ w ∈ s.workloads, ∃ w' ∈ s.workloads, w.key.Confused w'.key) := by
  have valid (past : List Move) : (Forest.replay ∅ past).Valid := valid_replay valid_empty past
  rw [← WorkloadKey.objectKey_eq_iff apart]
  refine ⟨⟨?_, ?_⟩, ⟨?_, ?_⟩, ⟨?_, ?_⟩, ?_⟩
  · exact fun always confused => not_createdTogether confused (always _ _)
  · exact fun other past v => createdTogether_of_ne (valid past) other
  · exact fun always confused => not_neverReturned confused (always _ _)
  · exact fun other past v => neverReturned_of_ne (valid past) other
  · exact fun always confused => not_boundApart confused (always _ _)
  · exact fun other past v => boundApart_of_ne (valid past) other
  · intro base
    have ends : LoadEnds name base.2 [] s.objects (base.1.loadSnapshot base.2 s) :=
      (loaded_newBase (valid past) name).load s.objects
    rw [ends.taken_iff, List.nil_append, Snapshot.nodup_keys_iff_unconfused named, not_not]

/-- Two workloads with slashes in their keys, which are not confused. -/
def slashes : Snapshot := { workloads := [.ofKey ⟨"a/b", "c"⟩, .ofKey ⟨"a", "b/d"⟩] }

theorem told_apart_iff_slashes :
    let k : WorkloadKey := ⟨"a/b", "c"⟩
    let k' : WorkloadKey := ⟨"a", "b/d"⟩
    (∃ g n h n', (Forest.replay ∅ [.base "base"]).create 0 (.workload (.ofKey k)) = .ok (g, n) ∧
      g.create 0 (.workload (.ofKey k')) = .ok (h, n')) ∧
    ((Operation.bindAndReport k "worker").perform (Forest.replay ∅ (withSole k')) 0).1.get 0
      k'.objectKey = (Forest.replay ∅ (withSole k')).get 0 k'.objectKey ∧
    ¬ ∃ view key, (((∅ : Forest).newBase "fresh").1.loadSnapshot 0 slashes).2 =
      .error (.alreadyExists view key) := by
  intro k k'
  have unconfused : ¬ k.Confused k' := by decide
  obtain ⟨created, -, bound, loads⟩ :=
    told_apart_iff k k' (by decide) [] "fresh" slashes (by decide)
  obtain ⟨g, n, h, n', first, second, -⟩ := created.mpr unconfused [.base "base"] 0 (.ofKey k)
    (.ofKey k') rfl rfl (by decide +kernel) (by decide +kernel)
  refine ⟨⟨g, n, h, n', first, second⟩, bound.mpr unconfused _ 0 _ _ rfl 0, ?_⟩
  exact fun failed => absurd (loads.mp failed) (by decide)

/-- The two differ in which of the slashes parts the namespace from the name. -/
theorem confused_slash :
    let k : WorkloadKey := ⟨"a", "b/c"⟩
    let k' : WorkloadKey := ⟨"a/b", "c"⟩
    let f := Forest.replay ∅ (withSole k')
    k ≠ k' ∧
    ((Operation.edit (.create (.workload (.ofKey k)))).perform f 0).2 =
      .error (.alreadyExists "base" ⟨.workload, "a/b/c"⟩) ∧
    f.workload 0 k = .ok (some (.ofKey k')) ∧
    ((Operation.edit (.bind k "worker")).perform f 0).1.workload 0 k' =
      .ok (some ((Workload.ofKey k').bindTo "worker")) ∧
    (((∅ : Forest).newBase "fresh").1.loadSnapshot 0 { workloads := [.ofKey k, .ofKey k'] }).2 =
      .error (.alreadyExists "fresh" ⟨.workload, "a/b/c"⟩) := by
  decide +kernel

end Forest

end ScaleAdvisor
