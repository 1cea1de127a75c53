import Mathlib.Logic.Function.Basic
import ScaleAdvisor.Proofs.View.Operations

/-!
A view is a plain map. The map of a view is what the view has edited laid over the map of the view
below; nothing of how views are stored is left in it. As long as nothing is closed, lookups and
listings read this map off, and every write is one change to it or a refusal.

* `perform_of_write`, `perform_of_refusal`: an edit succeeds exactly where the map lets it;
* `refines_plain_map`: the whole of it, in any forest that operations can lead to.
-/

namespace ScaleAdvisor

/-- What is found under each key. -/
abbrev PlainMap := ObjectKey → Option Stored

/-- What a view has edited hides what is below. -/
def View.mask (view : View) (lower : PlainMap) : PlainMap := fun k =>
  match view.edits.get? k with
  | some entry => entry
  | none => lower k

namespace Edit

/-- The key that an edit writes to and what stands there afterwards; nothing if it is refused. -/
def write (m : PlainMap) (version : Nat) : Edit → Option (ObjectKey × Option Stored)
  | .create o => if (m o.key).isNone then some (o.key, some ⟨o, version⟩) else none
  | .update o => if (m o.key).isSome then some (o.key, some ⟨o, version⟩) else none
  | .delete k => if (m k).isSome then some (k, none) else none
  | .bind k node =>
    match (m k.objectKey).bind (·.object.workload?) with
    | some w =>
      if w.isPending && (m ⟨.node, node⟩).isSome then
        some (k.objectKey, some ⟨.workload (w.bindTo node), version⟩)
      else none
    | none => none

end Edit

namespace Forest

/-- The map of a view. -/
def plain (f : Forest) (v : ViewId) : PlainMap := (f.stack v).foldr View.mask fun _ => none

/-- The map of the view right below; below a base there is nothing. -/
def plainBelow (f : Forest) (v : ViewId) : PlainMap :=
  match f.delegate? v with
  | some u => f.plain u
  | none => fun _ => none

variable {f g : Forest} {v : ViewId}

theorem plain_eq (valid : f.Valid) (v : ViewId) : f.plain v = (f.view v).mask (f.plainBelow v) := by
  rw [plainBelow, delegate?, plain, stack, List.foldr_cons]
  cases lower : (f.view v).below with
  | nil => rfl
  | cons u rest =>
    obtain ⟨-, same⟩ := valid.below lower
    rw [List.head?_cons, same]
    rfl

theorem Confined.plainBelow_eq (confined : Confined v f g) (valid : f.Valid) :
    g.plainBelow v = f.plainBelow v := by
  rw [plainBelow, plainBelow, delegate?, delegate?, confined.below]
  cases lower : (f.view v).below with
  | nil => rfl
  | cons u rest =>
    have same : ∀ w ∈ f.line u, g.view w = f.view w := fun w hw => confined.elsewhere
      (Nat.ne_of_lt (Nat.lt_of_le_of_lt (valid.le_of_mem_line hw) (valid.below lower).1))
    change g.plain u = f.plain u
    rw [plain, plain, stack_congr same]

theorem get?_contents (f : Forest) (v : ViewId) (k : ObjectKey) :
    (f.contents v).get? k = f.plain v k := by
  rw [contents, plain]
  induction f.stack v with
  | nil => rfl
  | cons top lower ih =>
    rw [View.contentsOf, SortedMap.get?_patch, List.foldr_cons, View.mask]
    cases top.edits.get? k with
    | some entry => rfl
    | none => exact ih

theorem find?_eq_plain (readable : f.Readable v) (k : ObjectKey) : f.find? v k = f.plain v k := by
  rw [find?, View.readThrough_eq k _ readable.stack_open, ← get?_contents, contents]

theorem get_eq_plain (readable : f.Readable v) (k : ObjectKey) : f.get v k = .ok (f.plain v k) := by
  rw [get_eq readable, find?_eq_plain readable]

theorem workload_eq_plain (readable : f.Readable v) (k : WorkloadKey) :
    f.workload v k = .ok ((f.plain v k.objectKey).bind (·.object.workload?)) := by
  rw [workload, get_eq_plain readable]
  rfl

theorem plain_keyed (valid : f.Valid) {k : ObjectKey} {st : Stored}
    (found : f.plain v k = some st) : st.object.key = k := by
  rw [← get?_contents] at found
  exact contents_keyed valid found

/-- A write changes the map at one key. -/
theorem plain_commit (valid : f.Valid) (there : v < f.views.size) (kind : ChangeKind)
    (key : ObjectKey) (object : Option ClusterObject)
    (keyed : ∀ o, object = some o → o.key = key) :
    (f.commit v kind key object).1.plain v =
      Function.update (f.plain v) key (object.map fun o => ⟨o, f.version v + 1⟩) := by
  have deed : Deed v false f (f.commit v kind key object).1 := .write kind key object there keyed
  rw [plain_eq (deed.valid valid), plain_eq valid, deed.confined.plainBelow_eq valid,
    view_commit there]
  funext k
  simp only [View.mask, SortedMap.get?_insert, Function.update_apply]
  by_cases same : k = key <;> simp [same]

section Edits

variable {e : Edit}

theorem create_eq (readable : f.Readable v) (o : ClusterObject) :
    f.create v o = if (f.plain v o.key).isNone then .ok (f.commit v .added o.key (some o))
      else .error (.alreadyExists (f.name v) o.key) := by
  rw [create, get_eq_plain readable]
  cases f.plain v o.key <;> rfl

theorem update_eq (readable : f.Readable v) (o : ClusterObject) :
    f.update v o = if (f.plain v o.key).isSome then .ok (f.commit v .modified o.key (some o))
      else .error (.notFound (f.name v) o.key) := by
  rw [update, get_eq_plain readable]
  cases f.plain v o.key <;> rfl

theorem delete_eq (readable : f.Readable v) (k : ObjectKey) :
    f.delete v k = if (f.plain v k).isSome then .ok (f.commit v .deleted k none)
      else .error (.notFound (f.name v) k) := by
  rw [delete, get_eq_plain readable]
  cases f.plain v k <;> rfl

/-- Binding a pending workload is updating it, once the node is there. -/
theorem bind_eq_of_pending (readable : f.Readable v) {k : WorkloadKey} {w : Workload}
    (node : String) (found : (f.plain v k.objectKey).bind (·.object.workload?) = some w)
    (pending : w.isPending = true) :
    f.bind v k node = if (f.plain v ⟨.node, node⟩).isSome then f.update v
      (.workload (w.bindTo node)) else .error (.notFound (f.name v) ⟨.node, node⟩) := by
  have bound : bind.bindPending f v node w = if (f.plain v ⟨.node, node⟩).isSome then
      f.update v (.workload (w.bindTo node)) else .error (.notFound (f.name v) ⟨.node, node⟩) := by
    rw [bind.bindPending, get_eq_plain readable]
    cases f.plain v ⟨.node, node⟩ <;> rfl
  rw [bind, workload_eq_plain readable, found, ← bound]
  rcases Workload.isPending_iff.mp pending with unnamed | empty
  · simp [Bind.bind, Except.bind, unnamed]
  · simp [Bind.bind, Except.bind, empty]

/-- A workload that is not found or not pending is not bound. -/
theorem bind_eq_error (readable : f.Readable v) {k : WorkloadKey} (node : String)
    (unfit : ∀ w, (f.plain v k.objectKey).bind (·.object.workload?) = some w →
      w.isPending = false) :
    ∃ error, f.bind v k node = .error error := by
  rw [bind, workload_eq_plain readable]
  cases found : (f.plain v k.objectKey).bind (·.object.workload?) with
  | none => exact ⟨_, rfl⟩
  | some w =>
    have bound := unfit w found
    unfold Workload.isPending at bound
    cases named : w.nodeName with
    | none => simp [named] at bound
    | some other =>
      have nonempty : other.isEmpty = false := by simpa [named] using bound
      exact ⟨.alreadyBound k.text other, by simp [Bind.bind, Except.bind, named, nonempty]⟩

/-- What the map allows is done, under the key and with the entry that it gives. -/
theorem perform_of_write (valid : f.Valid) (readable : f.Readable v) {key : ObjectKey}
    {entry : Option Stored} (allowed : e.write (f.plain v) (f.version v + 1) = some (key, entry)) :
    ∃ g, e.perform f v = .ok (g, f.version v + 1) ∧
      g.plain v = Function.update (f.plain v) key entry := by
  have there := readable.lt_size
  cases e with
  | create o =>
    simp only [Edit.write, Option.ite_none_right_eq_some, Option.some.injEq,
      Prod.mk.injEq] at allowed
    obtain ⟨free, rfl, rfl⟩ := allowed
    refine ⟨_, (create_eq readable o).trans (if_pos free), ?_⟩
    exact plain_commit valid there .added o.key (some o) fun _ h => by rw [Option.some.inj h]
  | update o =>
    simp only [Edit.write, Option.ite_none_right_eq_some, Option.some.injEq,
      Prod.mk.injEq] at allowed
    obtain ⟨taken, rfl, rfl⟩ := allowed
    refine ⟨_, (update_eq readable o).trans (if_pos taken), ?_⟩
    exact plain_commit valid there .modified o.key (some o) fun _ h => by rw [Option.some.inj h]
  | delete k =>
    simp only [Edit.write, Option.ite_none_right_eq_some, Option.some.injEq,
      Prod.mk.injEq] at allowed
    obtain ⟨taken, rfl, rfl⟩ := allowed
    refine ⟨_, (delete_eq readable k).trans (if_pos taken), ?_⟩
    exact plain_commit valid there .deleted k none fun _ h => by simp at h
  | bind k node =>
    simp only [Edit.write] at allowed
    split at allowed
    · rename_i w found
      simp only [Bool.and_eq_true, Option.ite_none_right_eq_some, Option.some.injEq,
        Prod.mk.injEq] at allowed
      obtain ⟨⟨pending, node_there⟩, rfl, rfl⟩ := allowed
      obtain ⟨st, held, isWorkload⟩ := Option.bind_eq_some_iff.mp found
      have key : (ClusterObject.workload (w.bindTo node)).key = k.objectKey := by
        rw [← plain_keyed valid held, ClusterObject.workload?_eq_some.mp isWorkload]
        rfl
      have taken : (f.plain v (ClusterObject.workload (w.bindTo node)).key).isSome := by
        rw [key, held]
        rfl
      refine ⟨_, (bind_eq_of_pending readable node found pending).trans
        ((if_pos node_there).trans ((update_eq readable _).trans (if_pos taken))), ?_⟩
      have written :=
        plain_commit valid there .modified k.objectKey
          (some (.workload (w.bindTo node))) fun _ h => by rw [← Option.some.inj h, key]
      rw [← key] at written ⊢
      exact written
    · simp at allowed

/-- What the map does not allow fails. -/
theorem perform_of_refusal (readable : f.Readable v)
    (refused : e.write (f.plain v) (f.version v + 1) = none) :
    ∃ error, e.perform f v = .error error := by
  cases e with
  | create o =>
    simp only [Edit.write, ite_eq_right_iff, reduceCtorEq, imp_false] at refused
    exact ⟨_, (create_eq readable o).trans (if_neg refused)⟩
  | update o =>
    simp only [Edit.write, ite_eq_right_iff, reduceCtorEq, imp_false] at refused
    exact ⟨_, (update_eq readable o).trans (if_neg refused)⟩
  | delete k =>
    simp only [Edit.write, ite_eq_right_iff, reduceCtorEq, imp_false] at refused
    exact ⟨_, (delete_eq readable k).trans (if_neg refused)⟩
  | bind k node =>
    by_cases fit : ∃ w, (f.plain v k.objectKey).bind (·.object.workload?) = some w ∧
        w.isPending = true
    · obtain ⟨w, found, pending⟩ := fit
      have absent : ¬ (f.plain v ⟨.node, node⟩).isSome := by
        simpa [Edit.write, found, pending] using refused
      exact ⟨_, (bind_eq_of_pending readable node found pending).trans (if_neg absent)⟩
    · refine bind_eq_error readable node fun w found => ?_
      simpa using fun pending => fit ⟨w, found, pending⟩

end Edits

/-- Resetting a view leaves the map of what is below. -/
theorem plain_reset (valid : f.Valid) (readable : f.Readable v) :
    ∃ g, Operation.reset.perform f v = (g, .ok none) ∧ g.plain v = g.plainBelow v ∧
      g.plainBelow v = f.plainBelow v := by
  have deed := Deed.clear readable.lt_size
  have done : f.reset v = .ok (f.modify v fun view => { view with edits := ∅, events := #[] }) :=
    readable.whileOpen _
  refine ⟨_, by rw [Operation.perform, done], ?_, deed.confined.plainBelow_eq valid⟩
  rw [plain_eq (deed.valid valid), view_modify_self readable.lt_size]
  funext k
  simp [View.mask]

/-- No view is closed. -/
def AllOpen (f : Forest) : Prop := ∀ u < f.views.size, (f.view u).closed = false

theorem AllOpen.readable (opened : f.AllOpen) (valid : f.Valid) (there : v < f.views.size) :
    f.Readable v :=
  fun u hu => opened u (Nat.lt_of_le_of_lt (valid.le_of_mem_line hu) there)

/-- Only a closing closes. -/
theorem AllOpen.perform (opened : f.AllOpen) {op : Operation} (keeps : op ≠ .close) :
    (op.perform f v).1.AllOpen := by
  have kept (u : ViewId) : ((op.perform f v).1.view u).closed = (f.view u).closed := by
    by_cases clearing : op.clears = false
    · have deeds := deeds_perform f v op
      rw [clearing] at deeds
      exact deeds.closed_eq u
    · cases op with
      | close => exact absurd rfl keeps
      | reset =>
        simp only [Operation.perform]
        split
        · rename_i g done
          obtain ⟨stillOpen, rfl⟩ := open_of_whileOpen done
          by_cases same : u = v
          · rw [same, view_modify_self (lt_size_of_open stillOpen)]
          · rw [view_modify_of_ne f same]
        · rfl
      | edit | bindAndReport | record | reportUnschedulable | load => exact absurd rfl clearing
  intro u hu
  rw [kept]
  exact opened u (by rwa [(confined_perform f v op).size] at hu)

theorem AllOpen.grow (opened : f.AllOpen) {view : View} (grown : Grown f g view)
    (new : view.closed = false) : g.AllOpen := by
  intro u hu
  obtain old | rfl := grown.old_or_new hu
  · rw [grown.same old]
    exact opened u old
  · rw [grown.new, new]

theorem AllOpen.move (opened : f.AllOpen) {m : Move} (keeps : ∀ u, m ≠ .ask u .close) :
    (f.move m).AllOpen := by
  cases m with
  | base name => exact opened.grow (grown_newBase f name) rfl
  | sandbox name below =>
    rw [Forest.move]
    split
    · exact opened.grow (grown_sandbox f name below) rfl
    · exact opened
  | ask v op => exact opened.perform (by rintro rfl; exact keeps v rfl)

theorem allOpen_replay {history : List Move} (opened : f.AllOpen)
    (keeps : ∀ u, Move.ask u .close ∉ history) : (f.replay history).AllOpen := by
  induction history generalizing f with
  | nil => exact opened
  | cons m rest ih =>
    refine ih (opened.move fun u same => keeps u (by simp [same])) fun u later => keeps u ?_
    exact List.mem_cons_of_mem _ later

/-- The listing of one kind is that part of the map, each key once and in ascending order. -/
theorem list_eq_plain (readable : f.Readable v) (kind : ObjectKind) :
    ∃ entries, f.list v kind = .ok entries ∧
      (∀ k st, (k, st) ∈ entries ↔ k.kind = kind ∧ f.plain v k = some st) ∧
      entries.Pairwise fun a b => a.1.name < b.1.name := by
  refine ⟨_, list_eq readable kind, ?_, ?_⟩
  · intro k st
    rw [List.mem_filter, SortedMap.mem_entries_iff, get?_contents, beq_iff_eq]
    exact And.comm
  · refine List.Pairwise.imp_of_mem ?_ ((f.contents v).sorted.filter _)
    intro a b ha hb before
    have ofKind : a.1.kind = b.1.kind := by
      rw [beq_iff_eq.mp (List.mem_filter.mp ha).2, beq_iff_eq.mp (List.mem_filter.mp hb).2]
    have ordered : (KeyOrder.before a.1.kind b.1.kind ||
        (!KeyOrder.before b.1.kind a.1.kind && KeyOrder.before a.1.name b.1.name)) = true := before
    rw [ofKind, KeyOrder.irrefl] at ordered
    simpa [KeyOrder.before] using ordered

/-- In every forest that operations lead to without closing a view: a view's map is its own edits
over the map of the view below; lookups and listings read the map; an edit that the map allows takes
the next version and changes the map at one key, and any other edit changes nothing at all; a reset
brings back the map of the view below. -/
theorem refines_plain_map (history : List Move) (keeps : ∀ u, Move.ask u .close ∉ history)
    (v : ViewId) (there : v < (Forest.replay ∅ history).views.size) :
    let f := Forest.replay ∅ history
    f.plain v = (f.view v).mask (f.plainBelow v) ∧
    (∀ k, f.get v k = .ok (f.plain v k)) ∧
    (∀ kind, ∃ entries, f.list v kind = .ok entries ∧
      (∀ k st, (k, st) ∈ entries ↔ k.kind = kind ∧ f.plain v k = some st) ∧
      entries.Pairwise fun a b => a.1.name < b.1.name) ∧
    (∀ e key entry, Edit.write (f.plain v) (f.version v + 1) e = some (key, entry) →
      ∃ g, (Operation.edit e).perform f v = (g, .ok (some (f.version v + 1))) ∧
        g.plain v = Function.update (f.plain v) key entry) ∧
    (∀ e, Edit.write (f.plain v) (f.version v + 1) e = none →
      ∃ error, (Operation.edit e).perform f v = (f, .error error)) ∧
    (∃ g, Operation.reset.perform f v = (g, .ok none) ∧ g.plain v = g.plainBelow v ∧
      g.plainBelow v = f.plainBelow v) := by
  intro f
  have valid : f.Valid := valid_replay valid_empty history
  have opened : f.AllOpen := allOpen_replay (fun u none => absurd none (Nat.not_lt_zero u)) keeps
  have readable : f.Readable v := opened.readable valid there
  refine ⟨plain_eq valid v, get_eq_plain readable, list_eq_plain readable, ?_, ?_,
    plain_reset valid readable⟩
  · intro e key entry allowed
    obtain ⟨g, done, changed⟩ := perform_of_write valid readable allowed
    exact ⟨g, by rw [Operation.perform, done]; rfl, changed⟩
  · intro e refused
    obtain ⟨error, failed⟩ := perform_of_refusal readable refused
    exact ⟨error, by rw [Operation.perform, failed]; rfl⟩

/-- A node of a base. -/
def worker : Node := { name := "worker", capacity := ∅, allocatable := ∅ }

/-- A sandbox takes a node away, and its base writes the node once more. -/
def takenAway : List Move :=
  [.base "base", .ask 0 (.edit (.create (.node worker))), .sandbox "sandbox" 0,
    .ask 1 (.edit (.delete ⟨.node, "worker"⟩)),
    .ask 0 (.edit (.update (.node { worker with unschedulable := true })))]

theorem refines_plain_map_takenAway :
    (∀ u, Move.ask u .close ∉ takenAway) ∧ 1 < (Forest.replay ∅ takenAway).views.size ∧
    (Forest.replay ∅ takenAway).get 1 ⟨.node, "worker"⟩ = .ok none ∧
    ∃ g, (Operation.edit (.create (.node worker))).perform (Forest.replay ∅ takenAway) 1 =
      (g, .ok (some 4)) ∧ g.plain 1 ⟨.node, "worker"⟩ = some ⟨.node worker, 4⟩ := by
  have keeps : ∀ u, Move.ask u .close ∉ takenAway := by simp [takenAway]
  have there : 1 < (Forest.replay ∅ takenAway).views.size := by decide +kernel
  obtain ⟨-, reads, -, allowed, -, -⟩ := refines_plain_map takenAway keeps 1 there
  have hidden : (Forest.replay ∅ takenAway).plain 1 ⟨.node, "worker"⟩ = none := by decide +kernel
  have latest : (Forest.replay ∅ takenAway).version 1 = 3 := by decide +kernel
  refine ⟨keeps, there, by rw [reads, hidden], ?_⟩
  obtain ⟨g, done, changed⟩ := allowed (.create (.node worker)) ⟨.node, "worker"⟩
    (some ⟨.node worker, 4⟩) (by decide +kernel)
  rw [latest] at done
  exact ⟨g, done, by rw [changed, Function.update_self]⟩

end Forest

end ScaleAdvisor
