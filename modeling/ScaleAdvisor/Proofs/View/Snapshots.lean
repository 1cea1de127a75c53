import ScaleAdvisor.Proofs.View.PlainMap

/-!
A snapshot is loaded object by object. A base that has just been made gives every object the number
of its place as its version, and the first object whose key is taken ends the loading. So the base
holds the snapshot up to there, in whatever way the snapshot repeats itself, and the objects of a
kind are listed by their keys.

* `Loaded.create`, `Loaded.refuse`: what one more object does;
* `Loaded.load`: what a row of objects does, whether it comes to its end or not;
* `Loaded.lists`, `Lists.pending`: what the view answers afterwards;
* `snapshot_loads_in_order`: the whole of it, for a base that is new.
-/

namespace ScaleAdvisor.Forest

/-- The objects with the numbers of their places, from one on. -/
def numbered (objects : List ClusterObject) : List Stored :=
  (objects.zipIdx 1).map fun p => ⟨p.1, p.2⟩

/-- The view lists these objects and no others: those of a kind by their keys in ascending order,
and each with the number of its place as its version. -/
def Lists (f : Forest) (v : ViewId) (objects : List ClusterObject) : Prop :=
  ∀ kind, ∃ entries, f.list v kind = .ok entries ∧
    (entries.map (·.2)).Perm ((numbered objects).filter (·.object.kind == kind)) ∧
    (∀ e ∈ entries, e.1 = e.2.object.key) ∧ entries.Pairwise fun a b => a.1.name < b.1.name

theorem numbered_append (objects : List ClusterObject) (o : ClusterObject) :
    numbered (objects ++ [o]) = numbered objects ++ [⟨o, objects.length + 1⟩] := by
  simp [numbered, List.zipIdx_append, Nat.add_comm]

theorem map_object_numbered (objects : List ClusterObject) :
    (numbered objects).map (·.object) = objects := by
  rw [numbered, List.map_map]
  exact List.zipIdx_map_fst 1 objects

theorem mem_of_mem_numbered {objects : List ClusterObject} {st : Stored}
    (h : st ∈ numbered objects) : st.object ∈ objects := by
  rw [← map_object_numbered objects]
  exact List.mem_map_of_mem h

theorem exists_numbered {objects : List ClusterObject} {o : ClusterObject} (h : o ∈ objects) :
    ∃ st ∈ numbered objects, st.object = o := by
  rw [← map_object_numbered objects] at h
  exact List.mem_map.mp h

/-- The view holds just these objects, and has given them their versions one after another. -/
structure Loaded (name : String) (v : ViewId) (objects : List ClusterObject) (f : Forest) :
    Prop where
  valid : f.Valid
  readable : f.Readable v
  named : f.name v = name
  counted : (f.view v).lineage < f.issued.size
  version : f.version v = objects.length
  distinct : (objects.map (·.key)).Nodup
  holds : ∀ k st, f.plain v k = some st ↔ st ∈ numbered objects ∧ st.object.key = k

theorem loaded_newBase {f : Forest} (valid : f.Valid) (name : String) :
    Loaded name f.views.size [] (f.newBase name).1 where
  valid := valid_newBase valid name
  readable := readable_newBase f name
  named := by rw [Forest.name, view_newBase]
  counted := by
    rw [view_newBase]
    simp [newBase]
  version := by
    rw [version_eq, view_newBase]
    simp [counter, newBase]
  distinct := List.nodup_nil
  holds k st := by
    rw [plain, stack, view_newBase]
    simp [View.mask, numbered]

namespace Loaded

variable {name : String} {v : ViewId} {objects : List ClusterObject} {f : Forest}
  {o : ClusterObject}

theorem plain_eq_none (loaded : Loaded name v objects f) (free : o.key ∉ objects.map (·.key)) :
    f.plain v o.key = none := by
  rw [Option.eq_none_iff_forall_ne_some]
  intro st found
  obtain ⟨listed, key⟩ := (loaded.holds _ _).mp found
  exact free (key ▸ List.mem_map_of_mem (mem_of_mem_numbered listed))

theorem exists_plain (loaded : Loaded name v objects f) (taken : o.key ∈ objects.map (·.key)) :
    ∃ st, f.plain v o.key = some st := by
  obtain ⟨o', listed, key⟩ := List.mem_map.mp taken
  obtain ⟨st, numbered, rfl⟩ := exists_numbered listed
  exact ⟨st, (loaded.holds _ _).mpr ⟨numbered, key⟩⟩

/-- An object is written under a key that is free. -/
theorem commit (loaded : Loaded name v objects f) (free : o.key ∉ objects.map (·.key)) :
    Loaded name v (objects ++ [o]) (f.commit v .added o.key (some o)).1 := by
  have there := loaded.readable.lt_size
  have keyed : ∀ o', some o = some o' → o'.key = o.key :=
    fun o' same => by rw [Option.some.inj same]
  have deed : Deed v false f (f.commit v .added o.key (some o)).1 :=
    .write .added o.key (some o) there keyed
  constructor
  case valid => exact deed.valid loaded.valid
  case readable => exact Deeds.readable (.single deed) loaded.readable
  case named => rw [Forest.name, view_commit there, ← loaded.named, Forest.name]
  case counted =>
    rw [deed.confined.lineage, deed.confined.issued]
    exact loaded.counted
  case version =>
    rw [version_commit _ _ _ there loaded.counted, loaded.version, List.length_append,
      List.length_singleton]
  case distinct =>
    rw [List.map_append, List.map_singleton, List.nodup_append]
    refine ⟨loaded.distinct, List.nodup_singleton _, ?_⟩
    intro k listed k' here same
    rw [List.mem_singleton.mp here] at same
    exact free (same ▸ listed)
  case holds =>
    intro k st
    rw [plain_commit loaded.valid there _ _ _ keyed, numbered_append, List.mem_append,
      List.mem_singleton, Function.update_apply, loaded.version]
    split
    · rename_i here
      subst here
      constructor
      · intro written
        obtain rfl := Option.some.inj written
        exact ⟨.inr rfl, rfl⟩
      · rintro ⟨before | rfl, key⟩
        · exact absurd (key ▸ List.mem_map_of_mem (mem_of_mem_numbered before)) free
        · rfl
    · rename_i other
      rw [loaded.holds]
      constructor
      · exact fun ⟨before, key⟩ => ⟨.inl before, key⟩
      · rintro ⟨before | rfl, key⟩
        · exact ⟨before, key⟩
        · exact absurd key.symm other

/-- An object whose key is free is added. -/
theorem create (loaded : Loaded name v objects f) (free : o.key ∉ objects.map (·.key)) :
    f.create v o = .ok (f.commit v .added o.key (some o)) := by
  rw [create_eq loaded.readable, loaded.plain_eq_none free]
  rfl

/-- An object whose key is taken is refused. -/
theorem refuse (loaded : Loaded name v objects f) (taken : o.key ∈ objects.map (·.key)) :
    f.create v o = .error (.alreadyExists name o.key) := by
  obtain ⟨st, found⟩ := loaded.exists_plain taken
  rw [create_eq loaded.readable, found, loaded.named]
  rfl

end Loaded

/-- How the loading of a row of objects ends, given those that have been loaded before. -/
inductive LoadEnds (name : String) (v : ViewId) (before : List ClusterObject) :
    List ClusterObject → Forest × Except ViewError Unit → Prop
  | complete {objects : List ClusterObject} {g : Forest}
      (loaded : Loaded name v (before ++ objects) g) : LoadEnds name v before objects (g, .ok ())
  | cutShort {middle after : List ClusterObject} {o : ClusterObject} {g : Forest}
      (loaded : Loaded name v (before ++ middle) g)
      (taken : o.key ∈ (before ++ middle).map (·.key)) :
      LoadEnds name v before (middle ++ o :: after) (g, .error (.alreadyExists name o.key))

variable {name : String} {v : ViewId} {before objects : List ClusterObject} {f : Forest}

/-- One object more has been loaded before. -/
theorem LoadEnds.cons {o : ClusterObject} {r : Forest × Except ViewError Unit}
    (ends : LoadEnds name v (before ++ [o]) objects r) :
    LoadEnds name v before (o :: objects) r := by
  cases ends with
  | complete loaded =>
    rw [List.append_assoc, List.singleton_append] at loaded
    exact .complete loaded
  | cutShort loaded taken =>
    rw [List.append_assoc, List.singleton_append] at loaded taken
    rw [← List.cons_append]
    exact .cutShort loaded taken

theorem Loaded.load (loaded : Loaded name v before f) (objects : List ClusterObject) :
    LoadEnds name v before objects (f.load v objects) := by
  induction objects generalizing before f with
  | nil => exact .complete (by rwa [List.append_nil])
  | cons o rest ih =>
    rw [Forest.load]
    by_cases taken : o.key ∈ before.map (·.key)
    · rw [loaded.refuse taken]
      rw [← List.append_nil before] at loaded taken
      exact .cutShort loaded taken
    · rw [loaded.create taken]
      exact (ih (loaded.commit taken)).cons

namespace Loaded

variable (loaded : Loaded name v objects f)
include loaded

theorem nodup_numbered : (numbered objects).Nodup := by
  refine List.Nodup.of_map (·.object.key) ?_
  have keys : (numbered objects).map (·.object.key) = objects.map (·.key) := by
    rw [← map_object_numbered objects, List.map_map, map_object_numbered]
    rfl
  rw [keys]
  exact loaded.distinct

theorem lists : f.Lists v objects := by
  intro kind
  obtain ⟨entries, listed, members, ascending⟩ := list_eq_plain loaded.readable kind
  have holds : ∀ e ∈ entries, e.2 ∈ numbered objects ∧ e.2.object.key = e.1 ∧ e.1.kind = kind := by
    intro e he
    obtain ⟨ofKind, found⟩ := (members e.1 e.2).mp he
    obtain ⟨there, key⟩ := (loaded.holds _ _).mp found
    exact ⟨there, key, ofKind⟩
  refine ⟨entries, listed, ?_, fun e he => (holds e he).2.1.symm, ascending⟩
  refine (List.perm_ext_iff_of_nodup ?_ (loaded.nodup_numbered.filter _)).mpr ?_
  · -- Entries with different keys hold different objects.
    refine List.pairwise_map.mpr (List.Pairwise.imp_of_mem ?_ ascending)
    intro a b ha hb before same
    rw [← (holds a ha).2.1, ← (holds b hb).2.1, same] at before
    exact absurd before (String.lt_irrefl _)
  · intro st
    rw [List.mem_filter, beq_iff_eq, List.mem_map]
    constructor
    · rintro ⟨e, he, rfl⟩
      obtain ⟨there, key, ofKind⟩ := holds e he
      refine ⟨there, ?_⟩
      rw [← ofKind, ← key]
      rfl
    · rintro ⟨there, ofKind⟩
      have member := (members st.object.key st).mpr ⟨ofKind, (loaded.holds _ _).mpr ⟨there, rfl⟩⟩
      exact ⟨(st.object.key, st), member, rfl⟩

end Loaded

/-- The pending workloads of a view that lists these objects are theirs. -/
theorem Lists.pending (lists : f.Lists v objects) : ∃ ws, f.pending v = .ok ws ∧
    ws.Perm ((objects.filterMap (·.workload?)).filter (·.isPending)) ∧
    ws.Pairwise fun a b => a.key.text < b.key.text := by
  obtain ⟨entries, listed, perm, keyed, ascending⟩ := lists .workload
  refine ⟨(entries.filterMap (·.2.object.workload?)).filter (·.isPending), ?_, ?_, ?_⟩
  · rw [Forest.pending, workloads, Forest.objects, listed]
    rfl
  · have among :
      ((numbered objects).filter (·.object.kind == .workload)).filterMap (·.object.workload?) =
        objects.filterMap (·.workload?) := by
      conv_rhs => rw [← map_object_numbered objects, List.filterMap_map]
      rw [List.filterMap_filter]
      refine List.filterMap_congr fun st _ => ?_
      cases object : st.object <;> simp [ClusterObject.kind, ClusterObject.workload?, object]
    have inside := (perm.filterMap (·.object.workload?)).filter (·.isPending)
    rwa [List.filterMap_map, among] at inside
  · refine List.Pairwise.filter _
      (List.pairwise_filterMap.mpr (List.Pairwise.imp_of_mem ?_ ascending))
    intro a b ha hb before w isWorkload w' isWorkload'
    have text {e : ObjectKey × Stored} (he : e ∈ entries) {x : Workload}
        (same : e.2.object.workload? = some x) : e.1.name = x.key.text := by
      rw [keyed e he, ClusterObject.workload?_eq_some.mp same]
      rfl
    rwa [text ha isWorkload, text hb isWorkload'] at before

/-- All keys differ just if no two objects of one kind bear the same text. -/
theorem nodup_keys_iff : (objects.map (·.key)).Nodup ↔
    objects.Pairwise fun a b => a.kind = b.kind → a.keyText ≠ b.keyText := by
  rw [List.Nodup, List.pairwise_map]
  apply List.Pairwise.iff
  intro a b
  simp [ClusterObject.key]

namespace LoadEnds

variable {r : Forest × Except ViewError Unit} (ends : LoadEnds name v before objects r)
include ends

theorem ok_iff : r.2 = .ok () ↔ ((before ++ objects).map (·.key)).Nodup := by
  cases ends with
  | complete loaded => exact iff_of_true rfl loaded.distinct
  | @cutShort middle after o g loaded taken =>
    refine iff_of_false nofun ?_
    intro distinct
    rw [← List.append_assoc, List.map_append, List.map_cons] at distinct
    exact (List.nodup_append.mp distinct).2.2 _ taken _ List.mem_cons_self rfl

theorem loaded_of_ok (done : r.2 = .ok ()) : Loaded name v (before ++ objects) r.1 := by
  cases ends with
  | complete loaded => exact loaded
  | cutShort loaded taken => cases done

theorem loaded_of_error {e : ViewError} (failed : r.2 = .error e) : ∃ middle o after,
    objects = middle ++ o :: after ∧ Loaded name v (before ++ middle) r.1 ∧
    o.key ∈ (before ++ middle).map (·.key) ∧ e = .alreadyExists name o.key := by
  cases ends with
  | complete loaded => cases failed
  | cutShort loaded taken => exact ⟨_, _, _, rfl, loaded, taken, (Except.error.inj failed).symm⟩

/-- Nothing else than a key that is taken keeps a row from being loaded. -/
theorem taken_iff : (∃ view key, r.2 = .error (.alreadyExists view key)) ↔
    ¬ ((before ++ objects).map (·.key)).Nodup := by
  rw [← ends.ok_iff]
  cases ends with
  | complete loaded => simp
  | cutShort loaded taken => exact iff_of_true ⟨_, _, rfl⟩ nofun

end LoadEnds

/-- A snapshot is loaded into a base that has just been made, in any forest that operations can lead
to. Loading succeeds just if no two objects of one kind bear the same text as their key; then the
base lists the objects of each kind by their keys, with the numbers of their places in the order of
loading as their versions, and what is pending there is pending in the snapshot. Otherwise loading
fails on the first object whose key is taken by one before it, and the base lists the objects before
that one in the same way. -/
theorem snapshot_loads_in_order (past : List Move) (name : String) (s : Snapshot) :
    let base := (Forest.replay ∅ past).newBase name
    let done := base.1.loadSnapshot base.2 s
    (done.2 = .ok () ↔ s.objects.Pairwise fun a b => a.kind = b.kind → a.keyText ≠ b.keyText) ∧
    (done.2 = .ok () → done.1.Lists base.2 s.objects ∧
      ∃ ws, done.1.pending base.2 = .ok ws ∧ ws.Perm s.pending ∧
        ws.Pairwise fun a b => a.key.text < b.key.text) ∧
    (∀ e, done.2 = .error e → ∃ before o after, s.objects = before ++ o :: after ∧
      (before.map (·.key)).Nodup ∧ o.key ∈ before.map (·.key) ∧ e = .alreadyExists name o.key ∧
      done.1.Lists base.2 before) := by
  intro base done
  have ends : LoadEnds name base.2 [] s.objects done :=
    (loaded_newBase (valid_replay valid_empty past) name).load s.objects
  refine ⟨ends.ok_iff.trans nodup_keys_iff, ?_, ?_⟩
  · intro ok
    have lists := (ends.loaded_of_ok ok).lists
    obtain ⟨ws, pending, perm, ascending⟩ := lists.pending
    have listed : s.objects.filterMap (·.workload?) = s.workloads := by
      simp [Snapshot.objects, List.filterMap_append, List.filterMap_map, ClusterObject.workload?]
    rw [List.nil_append, listed] at perm
    exact ⟨lists, ws, pending, perm, ascending⟩
  · intro e failed
    obtain ⟨before, o, after, split, loaded, taken, rfl⟩ := ends.loaded_of_error failed
    exact ⟨before, o, after, split, loaded.distinct, taken, rfl, loaded.lists⟩

/-- A class, two nodes and a workload, all but one of them of one name. -/
def namesake : Snapshot where
  priorityClasses := [{ name := "same", value := 1 }]
  nodes := [{ worker with name := "same" }, worker]
  workloads := [{ inNamespace := "same", name := "same" }]

/-- The first node comes once more. -/
def nodeRepeated : Snapshot :=
  { namesake with nodes :=
    namesake.nodes ++ [{ worker with name := "same", unschedulable := true }] }

theorem snapshot_loads_in_order_namesake :
    let base := (Forest.replay ∅ takenAway).newBase "fresh"
    let done := base.1.loadSnapshot base.2 namesake
    let cut := base.1.loadSnapshot base.2 nodeRepeated
    done.2 = .ok () ∧ (∃ ws, done.1.pending base.2 = .ok ws ∧ ws.Perm namesake.pending) ∧
    cut.2 = .error (.alreadyExists "fresh" ⟨.node, "same"⟩) ∧
    ∃ before o after, nodeRepeated.objects = before ++ o :: after ∧ o.key ∈ before.map (·.key) ∧
      cut.1.Lists base.2 before := by
  intro base done cut
  obtain ⟨ok_iff, listed, -⟩ := snapshot_loads_in_order takenAway "fresh" namesake
  have ok : done.2 = .ok () := ok_iff.mpr (by decide)
  obtain ⟨-, ws, pending, perm, -⟩ := listed ok
  have failed : cut.2 = .error (.alreadyExists "fresh" ⟨.node, "same"⟩) := by decide +kernel
  obtain ⟨-, -, cutShort⟩ := snapshot_loads_in_order takenAway "fresh" nodeRepeated
  obtain ⟨before, o, after, split, -, taken, -, lists⟩ := cutShort _ failed
  exact ⟨ok, ⟨ws, pending, perm⟩, failed, before, o, after, split, taken, lists⟩

end ScaleAdvisor.Forest
