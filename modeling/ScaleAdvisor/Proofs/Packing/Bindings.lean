import ScaleAdvisor.Proofs.Packing.Reports
import ScaleAdvisor.Proofs.View.Lookups

/-!
A binding lasts. A view that is not asked to update, to delete, to reset or to close creates free
keys, binds pending workloads and records events, and none of that touches a workload that is bound.
But a node may have an empty name, and a workload that bears an empty name is pending still.

* `gently_perform`, `gently_run`: what such an operation does, and what a scheduler does;
* `Bound.gently`, `Bound.replay`: a workload that is bound to a name stays as it is;
* `binding_lasts_iff`: a binding lasts just if the node has a name.
-/

namespace ScaleAdvisor

namespace Operation

/-- The workload that it binds, and the node. -/
def binding? : Operation → Option (WorkloadKey × String)
  | .edit (.bind k node) => some (k, node)
  | .bindAndReport k node => some (k, node)
  | _ => none

theorem binding?_eq_some {op : Operation} {k : WorkloadKey} {node : String}
    (asked : op.binding? = some (k, node)) :
    op = .edit (.bind k node) ∨ op = .bindAndReport k node := by
  unfold binding? at asked
  split at asked
  · cases asked
    exact .inl rfl
  · cases asked
    exact .inr rfl
  · cases asked

/-- It overwrites nothing and drops nothing. -/
def spares : Operation → Bool
  | .edit (.update _) => false
  | .edit (.delete _) => false
  | .reset => false
  | .close => false
  | _ => true

end Operation

/-- This view is asked for nothing that overwrites or drops what it holds. -/
def Move.Spares (v : ViewId) (m : Move) : Prop := ∀ op, m = .ask v op → op.spares = true

namespace Forest

/-- What a view does that neither overwrites nor drops. -/
inductive Gentle (v : ViewId) : Forest → Forest → Prop
  | create {f g : Forest} {o : ClusterObject} {n : Nat} (done : f.create v o = .ok (g, n)) :
      Gentle v f g
  | bind {f g : Forest} {k : WorkloadKey} {node : String} {n : Nat}
      (done : f.bind v k node = .ok (g, n)) : Gentle v f g
  | record {f g : Forest} {reason : EventReason} {k : WorkloadKey} {node : Option String}
      {message : String} {n : Nat} (done : f.recordEvent v reason k node message = .ok (g, n)) :
      Gentle v f g

/-- One such thing after another. -/
def Gently (v : ViewId) : Forest → Forest → Prop := Relation.ReflTransGen (Gentle v)

variable {f g : Forest} {v : ViewId}

theorem gently_settle {r : Except ViewError (Forest × Nat)}
    (gentle : ∀ g n, r = .ok (g, n) → Gentle v f g) : Gently v f (Call.settle f r).1 := by
  cases r with
  | error e => exact .refl
  | ok done => exact .single (gentle done.1 done.2 rfl)

/-- A scheduler can only bind and record. -/
theorem gently_run {α : Type} (p : Program α) (f : Forest) (v : ViewId) :
    Gently v f (p.run f v).1 := by
  induction p generalizing f with
  | done a => exact .refl
  | call c next ih =>
    have first : Gently v f (c.perform f v).1 := by
      cases c with
      | nodes | workloads | priorityClasses | runtimeClasses => exact .refl
      | bind k node => exact gently_settle fun g n done => .bind done
      | record reason k node message => exact gently_settle fun g n done => .record done
    exact first.trans (ih _ _)

theorem gently_load (objects : List ClusterObject) (f : Forest) (v : ViewId) :
    Gently v f (f.load v objects).1 := by
  induction objects generalizing f with
  | nil => exact .refl
  | cons o rest ih =>
    simp only [load]
    split
    · exact (ih _).head (.create ‹_›)
    · exact .refl

theorem gently_perform {op : Operation} (spares : op.spares = true) (f : Forest) (v : ViewId) :
    Gently v f (op.perform f v).1 := by
  cases op with
  | edit e =>
    cases e with
    | create o => exact gently_settle fun g n done => .create done
    | bind k node => exact gently_settle fun g n done => .bind done
    | update | delete => cases spares
  | bindAndReport k node => exact gently_run (Client.bind k node) f v
  | record reason k node message => exact gently_settle fun g n done => .record done
  | reportUnschedulable k message => exact gently_run (Client.reportUnschedulable k message) f v
  | load s => exact gently_load _ f v
  | reset | close => cases spares

theorem Gentle.deed (gentle : Gentle v f g) : Deed v false f g := by
  cases gentle with
  | create done => exact deed_edit (e := .create _) done
  | bind done => exact deed_edit (e := .bind _ _) done
  | record done => exact deed_recordEvent done

/-- An open view has this entry of its own under the key of a workload, and it says that the
workload is bound to the node. -/
structure Bound (f : Forest) (v : ViewId) (k : WorkloadKey) (node : String) (st : Stored) :
    Prop where
  opened : (f.view v).closed = false
  held : f.Holds v k.objectKey st
  workload : ∃ w, st.object = .workload w ∧ w.nodeName = some node

namespace Bound

variable {k : WorkloadKey} {node : String} {st : Stored}

theorem found (bound : f.Bound v k node st) : f.find? v k.objectKey = some st := by
  have held : (f.view v).edits.get? k.objectKey = some (some st) := bound.held
  rw [find?_eq_mask bound.opened, View.mask, held]

/-- Bound to a name, it is not pending. -/
theorem not_pending (bound : f.Bound v k node st) (named : node ≠ "") {w : Workload}
    (isWorkload : st.object = .workload w) : ¬ w.isPending = true := by
  obtain ⟨x, isWorkload', bears⟩ := bound.workload
  obtain rfl := ClusterObject.workload.inj (isWorkload.symm.trans isWorkload')
  rw [Workload.isPending_iff, bears]
  simpa using named

theorem of_view (bound : f.Bound v k node st) (same : g.view v = f.view v) :
    g.Bound v k node st where
  opened := by rw [same, bound.opened]
  held := by
    rw [Holds, same]
    exact bound.held
  workload := bound.workload

/-- A write under another key leaves it alone. -/
theorem commit_of_ne (bound : f.Bound v k node st) {key : ObjectKey} (other : k.objectKey ≠ key)
    (kind : ChangeKind) (object : Option ClusterObject) :
    (f.commit v kind key object).1.Bound v k node st where
  opened := by rw [view_commit (lt_size_of_open bound.opened), bound.opened]
  held := by
    rw [Holds, view_commit (lt_size_of_open bound.opened), SortedMap.get?_insert_of_ne _ _ other]
    exact bound.held
  workload := bound.workload

/-- An event leaves every entry alone. -/
theorem note (bound : f.Bound v k node st) (e : ViewEvent) :
    (f.modify v fun view => { view with events := view.events.push e }).Bound v k node st where
  opened := by rw [view_modify_self (lt_size_of_open bound.opened), bound.opened]
  held := by
    rw [Holds, view_modify_self (lt_size_of_open bound.opened)]
    exact bound.held
  workload := bound.workload

theorem gentle (bound : f.Bound v k node st) (valid : f.Valid) (named : node ≠ "")
    (gentle : Gentle v f g) : g.Bound v k node st := by
  cases gentle with
  | create done =>
    rw [create_of_open bound.opened] at done
    split at done
    · rename_i free
      obtain rfl : _ = g := congrArg Prod.fst (Except.ok.inj done)
      -- The key is taken, so it is not the one under which something has been added.
      refine bound.commit_of_ne ?_ _ _
      intro same
      rw [← same, bound.found] at free
      cases free
    · cases done
  | bind done =>
    obtain ⟨st', w', found, isWorkload, pending, -, written⟩ :=
      (bind_eq_ok_iff valid bound.opened).mp done
    obtain rfl : _ = g := congrArg Prod.fst written
    -- Who has been bound was pending, as this one is not.
    refine bound.commit_of_ne ?_ _ _
    intro same
    rw [← same, bound.found] at found
    obtain rfl := Option.some.inj found
    exact bound.not_pending named isWorkload pending
  | record done =>
    obtain ⟨-, e, rfl⟩ := recordEvent_eq_ok done
    exact bound.note e

theorem gently (bound : f.Bound v k node st) (valid : f.Valid) (named : node ≠ "")
    (gently : Gently v f g) : g.Bound v k node st := by
  have kept : g.Valid ∧ g.Bound v k node st := by
    induction gently with
    | refl => exact ⟨valid, bound⟩
    | tail _ step ih => exact ⟨step.deed.valid ih.1, ih.2.gentle ih.1 named step⟩
  exact kept.2

theorem move (bound : f.Bound v k node st) (valid : f.Valid) (named : node ≠ "") {m : Move}
    (spares : m.Spares v) : (f.move m).Bound v k node st := by
  have there := lt_size_of_open bound.opened
  cases m with
  | base name => exact bound.of_view ((grown_newBase f name).same there)
  | sandbox name below =>
    rw [Forest.move]
    split
    · exact bound.of_view ((grown_sandbox f name below).same there)
    · exact bound
  | ask u op =>
    by_cases same : u = v
    · subst same
      exact bound.gently valid named (gently_perform (spares op rfl) f u)
    · exact bound.of_view ((confined_perform f u op).elsewhere (Ne.symm same))

theorem replay (bound : f.Bound v k node st) (valid : f.Valid) (named : node ≠ "")
    {later : List Move} (spares : ∀ m ∈ later, m.Spares v) :
    (f.replay later).Bound v k node st := by
  induction later generalizing f with
  | nil => exact bound
  | cons m rest ih =>
    obtain ⟨first, rest⟩ := List.forall_mem_cons.mp spares
    exact ih (bound.move valid named first) (valid_move valid m) rest

/-- Binding it once more is refused, with the node that it is bound to. -/
theorem refused (bound : f.Bound v k node st) (named : node ≠ "") {op : Operation}
    {k' : WorkloadKey} {other : String} (asked : op.binding? = some (k', other))
    (same : k'.objectKey = k.objectKey) :
    op.perform f v = (f, .error (.alreadyBound k'.text node)) := by
  obtain ⟨w, isWorkload, bears⟩ := bound.workload
  have refused : f.bind v k' other = .error (.alreadyBound k'.text node) :=
    bind_of_bound bound.opened other (by rw [same, bound.found]) isWorkload bears named
  rcases Operation.binding?_eq_some asked with rfl | rfl
  · rw [Operation.perform, Edit.perform, refused]
    rfl
  · rw [Operation.perform, run_bind_of_error refused]
    rfl

/-- No pending workload of the view has its key. -/
theorem key_ne (bound : f.Bound v k node st) (valid : f.Valid) (readable : f.Readable v)
    (named : node ≠ "") {w : Workload} (listed : w ∈ (f.cluster v).workloads)
    (pending : w.isPending = true) : w.key.objectKey ≠ k.objectKey := by
  intro same
  have there := (Cluster.mem_workloads (keyed_cluster valid)).mp listed
  change (f.cluster v).get? w.key.objectKey = some (.workload w) at there
  rw [same, get?_cluster readable, bound.found, Option.map_some] at there
  exact bound.not_pending named (Option.some.inj there) pending

/-- Pending workloads can be listed only where everything can be read, and it is not among them. -/
theorem unlisted (bound : f.Bound v k node st) (valid : f.Valid) (named : node ≠ "")
    {pending : List Workload} (listed : f.pending v = .ok pending) :
    ∀ w ∈ pending, w.key.objectKey ≠ k.objectKey := by
  have readable : f.Readable v := by
    cases entries : f.list v .workload with
    | ok entries' => exact readable_of_list entries
    | error e =>
      rw [Forest.pending, workloads, objects, entries] at listed
      cases listed
  rw [pending_eq valid readable] at listed
  obtain rfl := Except.ok.inj listed
  intro w hw
  obtain ⟨hw, waiting⟩ := List.mem_filter.mp hw
  exact bound.key_ne valid readable named hw waiting

end Bound

/-- A binding that succeeds leaves the workload bound. -/
theorem bound_of_bind (valid : f.Valid) {k : WorkloadKey} {node : String} {n : Nat}
    (done : f.bind v k node = .ok (g, n)) : ∃ st, g.Bound v k node st := by
  obtain ⟨opened, -⟩ := bind_eq_ok done
  obtain ⟨st, w, found, isWorkload, -, -, written⟩ := (bind_eq_ok_iff valid opened).mp done
  obtain rfl : _ = g := congrArg Prod.fst written
  have there := lt_size_of_open opened
  exact ⟨⟨.workload (w.bindTo node), f.version v + 1⟩, by rw [view_commit there, opened],
    by rw [Holds, view_commit there, SortedMap.get?_insert_self]; rfl, _, rfl, rfl⟩

theorem bound_of_binding (valid : f.Valid) {op : Operation} {k : WorkloadKey}
    {node : String} {n : Nat} (asked : op.binding? = some (k, node))
    (done : op.perform f v = (g, .ok (some n))) : ∃ st, g.Bound v k node st := by
  cases made : f.bind v k node with
  | error e =>
    rcases Operation.binding?_eq_some asked with rfl | rfl
    · simp [Operation.perform, Edit.perform, made, Call.settle, Operation.taking,
        Except.map] at done
    · simp [Operation.perform, run_bind_of_error made, Operation.taking, Except.map] at done
  | ok result =>
    obtain ⟨h, m⟩ := result
    obtain ⟨st, bound⟩ := bound_of_bind valid made
    rcases Operation.binding?_eq_some asked with rfl | rfl
    · simp only [Operation.perform, Edit.perform, made, Call.settle, Operation.taking] at done
      obtain rfl : h = g := congrArg Prod.fst done
      exact ⟨st, bound⟩
    · obtain ⟨event, run⟩ := run_bind_of_ok made
      simp only [Operation.perform, run, Operation.taking] at done
      obtain rfl : _ = g := congrArg Prod.fst done
      exact ⟨st, bound.note event⟩

end Forest

namespace BinPack

open Forest

variable {f g : Forest} {v : ViewId} {k : WorkloadKey} {node : String}

/-- Only bindings that have been decided are reported. -/
theorem Tells.decided_of_binds {s s' : KeySet WorkloadKey} {ds : List Decision}
    {es : List ViewEvent} {e : ViewEvent} (tells : Tells s ds es s') (he : e ∈ es)
    (binds : e.binds k = true) : ∃ d ∈ ds, d.workload = k := by
  have fromRest {rest : List Decision} {d : Decision} (later : ∃ d' ∈ rest, d'.workload = k) :
      ∃ d' ∈ d :: rest, d'.workload = k :=
    later.imp fun _ found => found.imp_left (List.mem_cons_of_mem _)
  induction tells with
  | done s => cases he
  | place about rest ih =>
    rcases List.mem_cons.mp he with rfl | he
    · exact ⟨_, List.mem_cons_self, ((binds_of_report_scheduled about k).1.mp binds).symm⟩
    · exact fromRest (ih he)
  | leave unknown about rest ih =>
    rcases List.mem_cons.mp he with rfl | he
    · rw [(givesUpOn_of_report_failed about k).2] at binds
      cases binds
    · exact fromRest (ih he)
  | known known rest ih => exact fromRest (ih he)

theorem emitted_eq {es : List ViewEvent} (ended : CycleEnd)
    (log : (g.view v).events.toList = (f.view v).events.toList ++ es) :
    Round.emitted ⟨f, g, ended⟩ v = es := by
  rw [Round.emitted, log, ← Array.length_toList, List.drop_left]

/-- Where not everything can be read a cycle ends before it has done anything. -/
theorem runCycle_of_unreadable (unreadable : ¬ f.Readable v) (m : CycleMemory) :
    (algorithm.runCycle f v m).1 = f := by
  cases listed : f.list v .node with
  | ok entries => exact absurd (readable_of_list listed) unreadable
  | error e =>
    have nodes : f.nodes v = .error e := by
      rw [Forest.nodes, objects, listed]
      rfl
    simp [Algorithm.runCycle, algorithm, cycle, Program.run, Call.perform, nodes]

/-- The binding of a workload holds: whoever binds it again is refused and changes nothing, it is
not listed as pending, and a cycle of the scheduler passes it over. -/
structure HoldsFast (f : Forest) (v : ViewId) (k : WorkloadKey) (node : String) : Prop where
  refused : ∀ (op : Operation) (k' : WorkloadKey) (other : String), op.binding? = some (k', other) →
    k'.objectKey = k.objectKey → op.perform f v = (f, .error (.alreadyBound k'.text node))
  unlisted : ∀ pending, f.pending v = .ok pending → ∀ w ∈ pending, w.key.objectKey ≠ k.objectKey
  passed : ∀ m g m' ended, algorithm.runCycle f v m = (g, m', ended) →
    g.get v k.objectKey = f.get v k.objectKey ∧
    ∀ e ∈ Round.emitted ⟨f, g, ended⟩ v, ∀ k', e.binds k' = true → k'.objectKey ≠ k.objectKey

/-- A workload that is bound to a name is bound for good. -/
theorem holdsFast_of_bound {st : Stored} (valid : f.Valid) (named : node ≠ "")
    (bound : f.Bound v k node st) : HoldsFast f v k node where
  refused op k' other asked same := bound.refused named asked same
  unlisted pending listed := bound.unlisted valid named listed
  passed m g m' ended ran := by
    have after : g.Bound v k node st := by
      have gently := gently_run (algorithm.cycle m) f v
      rw [← Algorithm.runCycle, ran] at gently
      exact bound.gently valid named gently
    refine ⟨by rw [get_of_open after.opened, get_of_open bound.opened, after.found, bound.found],
      ?_⟩
    by_cases readable : f.Readable v
    · obtain ⟨g', memory, es, run, performed⟩ := runCycle_performs valid readable m
      rw [ran] at run
      simp only [Prod.mk.injEq] at run
      obtain ⟨rfl, -, -⟩ := run
      rw [emitted_eq ended performed.log]
      intro e he k' binds
      obtain ⟨d, hd, rfl⟩ := performed.tells.decided_of_binds he binds
      obtain ⟨w, listed, pending, key⟩ := (ready_decisions (keyed_cluster valid)).pending d hd
      rw [← key]
      exact bound.key_ne valid readable named listed pending
    · have same := runCycle_of_unreadable readable m
      rw [ran] at same
      obtain rfl : g = f := same
      have none : Round.emitted ⟨g, g, ended⟩ v = [] := emitted_eq ended (List.append_nil _).symm
      simp [none]

/-- In any forest that operations can lead to, a binding that succeeds lasts, whatever else is done
to views as long as this one is not asked to update, delete, reset or close, just if the node has a
name. -/
theorem binding_lasts_iff (past : List Move) (v : ViewId) {op : Operation} {k : WorkloadKey}
    {node : String} {g : Forest} {n : Nat} (asked : op.binding? = some (k, node))
    (done : op.perform (Forest.replay ∅ past) v = (g, .ok (some n))) :
    (∀ later : List Move, (∀ m ∈ later, m.Spares v) → HoldsFast (g.replay later) v k node) ↔
      node ≠ "" := by
  have valid : (Forest.replay ∅ past).Valid := valid_replay valid_empty past
  obtain ⟨st, bound⟩ := bound_of_binding valid asked done
  have valid' : g.Valid := by
    have deeds := deeds_perform (Forest.replay ∅ past) v op
    rw [done] at deeds
    exact deeds.valid valid
  constructor
  · rintro lasts rfl
    -- The workload is pending still, so binding it again fails for want of the node at most.
    have refused := (lasts [] (by simp)).refused (.edit (.bind k "")) k "" rfl rfl
    obtain ⟨w, isWorkload, bears⟩ := bound.workload
    have pending : w.isPending = true := Workload.isPending_iff.mpr (.inr bears)
    have again := bind_of_pending valid' bound.opened "" bound.found isWorkload pending
    change (Operation.edit (.bind k "")).perform g v = _ at refused
    rw [Operation.perform, Edit.perform, again] at refused
    split at refused <;> cases congrArg Prod.snd refused
  · intro named later spares
    exact holdsFast_of_bound (valid_replay valid' later) named (bound.replay valid' named spares)

def webToSmall : Operation := .bindAndReport ⟨"default", "web"⟩ "small"

/-- The other workload goes to the node as well, and a sandbox is laid over the view. -/
def bindLarge : List Move :=
  [.ask 0 (.edit (.bind ⟨"default", "large"⟩ "small")), .sandbox "sandbox" 0]

theorem binding_lasts_iff_webToSmall :
    (webToSmall.perform oneCore 0).2 = .ok (some 4) ∧
    (webToSmall.perform ((webToSmall.perform oneCore 0).1.replay bindLarge) 0).2 =
      .error (.alreadyBound "default/web" "small") := by
  have bound : (webToSmall.perform oneCore 0).2 = .ok (some 4) := by decide +kernel
  have spares : ∀ m ∈ bindLarge, m.Spares 0 := by simp [bindLarge, Move.Spares, Operation.spares]
  have done : webToSmall.perform oneCore 0 = ((webToSmall.perform oneCore 0).1, .ok (some 4)) :=
    Prod.ext rfl bound
  have lasts := (binding_lasts_iff [.base "base", .ask 0 (.load oneTooLarge)] 0 (by rfl) done).mpr
    (by decide) bindLarge spares
  refine ⟨bound, ?_⟩
  exact congrArg Prod.snd (lasts.refused webToSmall ⟨"default", "web"⟩ "small" rfl rfl)

/-- One node without a name, and a workload. -/
def namelessNode : Forest := .replay ∅
  [.base "base", .ask 0 (.edit (.create (.node { name := "", capacity := ∅, allocatable := ∅ }))),
    .ask 0 (.edit (.create (.workload { inNamespace := "default", name := "web" })))]

def webToNameless : Operation := .edit (.bind ⟨"default", "web"⟩ "")

/-- The workload is bound, is pending still, and is bound again. -/
theorem bound_twice_namelessNode :
    (webToNameless.perform namelessNode 0).2 = .ok (some 3) ∧
    ((webToNameless.perform namelessNode 0).1.pending 0).map (·.map (·.key)) =
      .ok [⟨"default", "web"⟩] ∧
    (webToNameless.perform (webToNameless.perform namelessNode 0).1 0).2 = .ok (some 4) := by
  decide +kernel

end BinPack

end ScaleAdvisor
