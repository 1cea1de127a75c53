import Mathlib.Logic.Relation
import ScaleAdvisor.Proofs.View.Loading
import ScaleAdvisor.View.Watch

/-!
Everything that can be done with views. A history adds views and asks views to do things; what a
program can meet is a forest that some history leaves behind.

An operation is a row of deeds on the view that is asked: writes, events, clearings, closings. What
no deed changes, no operation changes and no history.

* `deeds_perform`: an operation is a row of deeds;
* `confined_perform`: only the view that is asked changes, and its lineage hands out versions;
* `valid_replay`: the forest after a history is a valid one.
-/

namespace ScaleAdvisor

/-- A write of one object. -/
inductive Edit where
  | create (o : ClusterObject)
  | update (o : ClusterObject)
  | delete (k : ObjectKey)
  | bind (k : WorkloadKey) (node : String)

/-- The forest afterwards and the version that the write took. -/
def Edit.perform (f : Forest) (v : ViewId) : Edit → Except ViewError (Forest × Nat)
  | .create o => f.create v o
  | .update o => f.update v o
  | .delete k => f.delete v k
  | .bind k node => f.bind v k node

/-- Whatever a view can be asked that may change something. -/
inductive Operation where
  | edit (e : Edit)
  | bindAndReport (k : WorkloadKey) (node : String)
  | record (reason : EventReason) (k : WorkloadKey) (node : Option String) (message : String)
  | reportUnschedulable (k : WorkloadKey) (message : String)
  | load (s : Snapshot)
  | reset
  | close

namespace Operation

/-- The answer is the version that was taken. -/
def taking (r : Forest × Except ViewError Nat) : Forest × Except ViewError (Option Nat) :=
  (r.1, r.2.map some)

/-- The answer is no version. -/
def silently {α : Type} (r : Forest × Except ViewError α) :
    Forest × Except ViewError (Option Nat) :=
  (r.1, r.2.map fun _ => none)

/-- The forest afterwards and, of a write, the version that it took. -/
def perform (f : Forest) (v : ViewId) : Operation → Forest × Except ViewError (Option Nat)
  | .edit e => taking (Call.settle f (e.perform f v))
  | .bindAndReport k node => taking ((Client.bind k node).run f v)
  | .record reason k node message =>
    silently (Call.settle f (f.recordEvent v reason k node message))
  | .reportUnschedulable k message => silently ((Client.reportUnschedulable k message).run f v)
  | .load s => silently (f.loadSnapshot v s)
  | .reset =>
    match f.reset v with
    | .ok g => (g, .ok none)
    | .error e => (f, .error e)
  | .close => (f.close v, .ok none)

/-- It drops what the view holds. -/
def clears : Operation → Bool
  | .reset | .close => true
  | _ => false

end Operation

/-- One step of a history. -/
inductive Move where
  | base (name : String)
  | sandbox (name : String) (below : ViewId)
  | ask (v : ViewId) (op : Operation)

namespace Forest

/-- A view is laid over another one only where there is one. -/
def move (f : Forest) : Move → Forest
  | .base name => (f.newBase name).1
  | .sandbox name below => if below < f.views.size then (f.sandbox name below).1 else f
  | .ask v op => (op.perform f v).1

/-- What a history leaves behind. -/
def replay (f : Forest) (history : List Move) : Forest := history.foldl move f

/-- The base that a view is laid over in the end; a base is its own. -/
def root (f : Forest) (v : ViewId) : ViewId := ((f.view v).below.getLast?).getD v

/-- The last version that a lineage has handed out. -/
def counter (f : Forest) (lineage : Nat) : Nat := (f.issued[lineage]?).getD 0

theorem version_eq (f : Forest) (v : ViewId) : f.version v = f.counter (f.view v).lineage := rfl

/-- The smallest things that happen to a view, and whether they drop what it holds. -/
inductive Deed (v : ViewId) : (clearing : Bool) → Forest → Forest → Prop
  | write {f : Forest} (kind : ChangeKind) (key : ObjectKey) (object : Option ClusterObject)
      (there : v < f.views.size) (keyed : ∀ o, object = some o → o.key = key) :
      Deed v false f (f.commit v kind key object).1
  | note {f : Forest} (event : ViewEvent) (there : v < f.views.size) :
      Deed v false f (f.modify v fun view => { view with events := view.events.push event })
  | clear {f : Forest} (there : v < f.views.size) :
      Deed v true f (f.modify v fun view => { view with edits := ∅, events := #[] })
  | close {f : Forest} : Deed v true f (f.close v)

/-- One deed after another. -/
def Deeds (v : ViewId) (clearing : Bool) : Forest → Forest → Prop :=
  Relation.ReflTransGen (Deed v clearing)

section Inversion

variable {f g : Forest} {v : ViewId} {n : Nat}

theorem delete_eq_ok {k : ObjectKey} (h : f.delete v k = .ok (g, n)) :
    (f.view v).closed = false ∧ g = (f.commit v .deleted k none).1 ∧ n = f.version v + 1 := by
  cases found : f.get v k with
  | error e => simp [delete, found, Bind.bind, Except.bind] at h
  | ok held =>
    have opened := (open_of_whileOpen found).1
    cases held with
    | none => simp [delete, found, Bind.bind, Except.bind] at h
    | some st =>
      simp only [delete, found, Bind.bind, Except.bind, Except.ok.injEq] at h
      exact ⟨opened, by rw [h], (congrArg Prod.snd h).symm⟩

/-- An edit that succeeds has written one key and taken the next version. -/
theorem edit_eq_ok {e : Edit} (done : e.perform f v = .ok (g, n)) :
    (f.view v).closed = false ∧ n = f.version v + 1 ∧ ∃ kind key object,
      (∀ o, object = some o → o.key = key) ∧ g = (f.commit v kind key object).1 := by
  cases e with
  | create o =>
    obtain ⟨opened, written, taken⟩ := create_eq_ok done
    exact ⟨opened, taken, _, _, _, fun o h => by rw [Option.some.inj h], written⟩
  | update o =>
    obtain ⟨opened, written, taken⟩ := update_eq_ok done
    exact ⟨opened, taken, _, _, _, fun o h => by rw [Option.some.inj h], written⟩
  | delete k =>
    obtain ⟨opened, written, taken⟩ := delete_eq_ok done
    exact ⟨opened, taken, _, _, none, fun o h => by simp at h, written⟩
  | bind k node =>
    obtain ⟨opened, w, written, taken⟩ := bind_eq_ok done
    exact ⟨opened, taken, _, _, _, fun o h => by rw [Option.some.inj h], written⟩

theorem deed_edit {e : Edit} (done : e.perform f v = .ok (g, n)) : Deed v false f g := by
  obtain ⟨opened, -, kind, key, object, keyed, rfl⟩ := edit_eq_ok done
  exact .write kind key object (lt_size_of_open opened) keyed

theorem deed_recordEvent {reason : EventReason} {k : WorkloadKey} {node : Option String}
    {message : String} (done : f.recordEvent v reason k node message = .ok (g, n)) :
    Deed v false f g := by
  obtain ⟨opened, e, rfl⟩ := recordEvent_eq_ok done
  exact .note e (lt_size_of_open opened)

theorem deeds_settle {r : Except ViewError (Forest × Nat)}
    (deed : ∀ g n, r = .ok (g, n) → Deed v false f g) : Deeds v false f (Call.settle f r).1 := by
  cases r with
  | error e => exact .refl
  | ok done => exact .single (deed done.1 done.2 rfl)

/-- A program of calls is a row of deeds, one for each call that changes something. -/
theorem deeds_run {α : Type} (p : Program α) (f : Forest) (v : ViewId) :
    Deeds v false f (p.run f v).1 := by
  induction p generalizing f with
  | done a => exact .refl
  | call c next ih =>
    have first : Deeds v false f (c.perform f v).1 := by
      cases c with
      | nodes | workloads | priorityClasses | runtimeClasses => exact .refl
      | bind k node => exact deeds_settle fun g n done => deed_edit (e := .bind k node) done
      | record reason k node message => exact deeds_settle fun g n done => deed_recordEvent done
    exact first.trans (ih _ _)

theorem deeds_load (objects : List ClusterObject) (f : Forest) (v : ViewId) :
    Deeds v false f (f.load v objects).1 := by
  induction objects generalizing f with
  | nil => exact .refl
  | cons o rest ih =>
    simp only [load]
    split
    · rename_i next n created
      exact (ih next).head (deed_edit (e := .create o) created)
    · exact .refl

/-- An operation is a row of deeds. -/
theorem deeds_perform (f : Forest) (v : ViewId) (op : Operation) :
    Deeds v op.clears f (op.perform f v).1 := by
  cases op with
  | edit e => exact deeds_settle fun g n done => deed_edit done
  | bindAndReport k node => exact deeds_run (Client.bind k node) f v
  | record reason k node message => exact deeds_settle fun g n done => deed_recordEvent done
  | reportUnschedulable k message => exact deeds_run (Client.reportUnschedulable k message) f v
  | load s => exact deeds_load _ f v
  | reset =>
    simp only [Operation.perform]
    split
    · rename_i g done
      obtain ⟨opened, rfl⟩ := open_of_whileOpen done
      exact .single (.clear (lt_size_of_open opened))
    · exact .refl
  | close => exact .single .close

end Inversion

/-- Only one view has changed; it is laid over what it was laid over, and no lineage but its own has
handed out versions. -/
structure Confined (v : ViewId) (f g : Forest) : Prop where
  size : g.views.size = f.views.size
  elsewhere : ∀ {u : ViewId}, u ≠ v → g.view u = f.view u
  below : (g.view v).below = (f.view v).below
  lineage : (g.view v).lineage = (f.view v).lineage
  issued : g.issued.size = f.issued.size
  counters : ∀ {l : Nat}, l ≠ (f.view v).lineage → g.counter l = f.counter l
  counts : f.version v ≤ g.version v

namespace Confined

variable {f g h : Forest} {v : ViewId}

theorem refl (v : ViewId) (f : Forest) : Confined v f f :=
  ⟨rfl, fun _ => rfl, rfl, rfl, rfl, fun _ => rfl, Nat.le_refl _⟩

theorem trans (first : Confined v f g) (second : Confined v g h) : Confined v f h where
  size := second.size.trans first.size
  elsewhere other := (second.elsewhere other).trans (first.elsewhere other)
  below := second.below.trans first.below
  lineage := second.lineage.trans first.lineage
  issued := second.issued.trans first.issued
  counters other := (second.counters (by rwa [first.lineage])).trans (first.counters other)
  counts := Nat.le_trans first.counts second.counts

theorem below_eq (confined : Confined v f g) (u : ViewId) :
    (g.view u).below = (f.view u).below := by
  by_cases same : u = v
  · rw [same, confined.below]
  · rw [confined.elsewhere same]

theorem lineage_eq (confined : Confined v f g) (u : ViewId) :
    (g.view u).lineage = (f.view u).lineage := by
  by_cases same : u = v
  · rw [same, confined.lineage]
  · rw [confined.elsewhere same]

theorem counter_le (confined : Confined v f g) (l : Nat) : f.counter l ≤ g.counter l := by
  by_cases same : l = (f.view v).lineage
  · have counts := confined.counts
    rwa [version_eq, version_eq, confined.lineage, ← same] at counts
  · exact Nat.le_of_eq (confined.counters same).symm

theorem version_le (confined : Confined v f g) (u : ViewId) : f.version u ≤ g.version u := by
  rw [version_eq, version_eq, confined.lineage_eq]
  exact confined.counter_le _

theorem valid (confined : Confined v f g) (valid : f.Valid)
    (keyed : ∀ {k st}, (g.view v).edits.get? k = some (some st) → st.object.key = k) : g.Valid := by
  constructor
  · intro w u rest h
    rw [confined.below_eq] at h
    rw [confined.below_eq]
    exact valid.below h
  · intro w k st h
    by_cases same : w = v
    · rw [same] at h
      exact keyed h
    · rw [confined.elsewhere same] at h
      exact valid.keyed h

end Confined

section Deeds

variable {f g : Forest} {v : ViewId} {clearing : Bool}

theorem view_commit (there : v < f.views.size) (kind : ChangeKind) (key : ObjectKey)
    (object : Option ClusterObject) :
    (f.commit v kind key object).1.view v = { f.view v with
      edits := (f.view v).edits.insert key (object.map fun o => ⟨o, f.version v + 1⟩)
      changes := (f.view v).changes.push ⟨kind, key, f.version v + 1⟩ } :=
  view_modify_self there _

/-- Where there is no view nothing is changed. -/
theorem view_modify (f : Forest) (v u : ViewId) (change : View → View) :
    (f.modify v change).view u = f.view u ∨ (f.modify v change).view u = change (f.view u) := by
  by_cases same : u = v
  · subst same
    by_cases there : u < f.views.size
    · exact .inr (view_modify_self there change)
    · have gone : (f.modify u change).views.size ≤ u := by simpa [modify] using there
      rw [view_of_size_le gone, view_of_size_le (Nat.le_of_not_lt there)]
      exact .inl rfl
  · exact .inl (view_modify_of_ne f same change)

theorem confined_modify (f : Forest) (v : ViewId) (change : View → View)
    (below : ∀ view, (change view).below = view.below)
    (lineage : ∀ view, (change view).lineage = view.lineage) :
    Confined v f (f.modify v change) := by
  have top := view_modify f v v change
  have lineage_eq : ((f.modify v change).view v).lineage = (f.view v).lineage := by
    rcases top with same | changed
    · rw [same]
    · rw [changed, lineage]
  refine ⟨by simp [modify], fun other => view_modify_of_ne f other change, ?_, lineage_eq, rfl,
    fun _ => rfl, ?_⟩
  · rcases top with same | changed
    · rw [same]
    · rw [changed, below]
  · rw [version_eq, version_eq, lineage_eq]
    exact Nat.le_refl _

theorem counter_commit (f : Forest) (v : ViewId) (kind : ChangeKind) (key : ObjectKey)
    (object : Option ClusterObject) {l : Nat} (other : l ≠ (f.view v).lineage) :
    (f.commit v kind key object).1.counter l = f.counter l := by
  simp [counter, commit, modify, other.symm]

/-- A write takes the next version. -/
theorem version_commit (kind : ChangeKind) (key : ObjectKey) (object : Option ClusterObject)
    (there : v < f.views.size) (counted : (f.view v).lineage < f.issued.size) :
    (f.commit v kind key object).1.version v = f.version v + 1 := by
  rw [version_eq, view_commit there]
  simp [counter, commit, modify, counted]

theorem confined_commit (there : v < f.views.size) (kind : ChangeKind) (key : ObjectKey)
    (object : Option ClusterObject) : Confined v f (f.commit v kind key object).1 where
  size := by simp [commit, modify]
  elsewhere other := view_modify_of_ne f other _
  below := by rw [view_commit there]
  lineage := by rw [view_commit there]
  issued := by simp [commit, modify]
  counters other := counter_commit f v kind key object other
  counts := by
    by_cases counted : (f.view v).lineage < f.issued.size
    · rw [version_commit kind key object there counted]
      exact Nat.le_succ _
    · rw [version_eq, counter, Array.getElem?_eq_none (Nat.le_of_not_lt counted)]
      exact Nat.zero_le _

theorem Deed.confined (deed : Deed v clearing f g) : Confined v f g := by
  cases deed with
  | write kind key object there keyed => exact confined_commit there kind key object
  | note event there => exact confined_modify f v _ (fun _ => rfl) fun _ => rfl
  | clear there => exact confined_modify f v _ (fun _ => rfl) fun _ => rfl
  | close => exact confined_modify f v _ (fun _ => rfl) fun _ => rfl

theorem Deed.valid (deed : Deed v clearing f g) (valid : f.Valid) : g.Valid := by
  cases deed with
  | write kind key object there keyed =>
    refine (confined_commit there kind key object).valid valid fun {k st} held => ?_
    rw [view_commit there] at held
    simp only [SortedMap.get?_insert] at held
    split at held
    · rename_i same
      obtain ⟨o, written, rfl⟩ := Option.map_eq_some_iff.mp (Option.some.inj held)
      rw [keyed o written, KeyOrder.same_iff.mp same]
    · exact valid.keyed held
  | note event there => exact (touches_push valid there event).2
  | clear there =>
    refine (Deed.clear there).confined.valid valid fun held => ?_
    rw [view_modify_self there] at held
    simp at held
  | close => exact valid_close valid v

theorem Deeds.confined (deeds : Deeds v clearing f g) : Confined v f g := by
  induction deeds with
  | refl => exact .refl v f
  | tail _ deed ih => exact ih.trans deed.confined

theorem Deeds.closed_eq (deeds : Deeds v false f g) (u : ViewId) :
    (g.view u).closed = (f.view u).closed := by
  induction deeds with
  | refl => rfl
  | tail _ deed ih =>
    rw [← ih]
    by_cases same : u = v
    · rw [same]
      cases deed with
      | write kind key object there keyed => rw [view_commit there]
      | note event there => rw [view_modify_self there]
    · rw [deed.confined.elsewhere same]

theorem Deeds.readable (deeds : Deeds v false f g) {u : ViewId} (readable : f.Readable u) :
    g.Readable u := by
  intro w hw
  rw [line, deeds.confined.below_eq] at hw
  rw [deeds.closed_eq]
  exact readable w hw

theorem Deeds.valid (deeds : Deeds v clearing f g) (valid : f.Valid) : g.Valid := by
  induction deeds with
  | refl => exact valid
  | tail _ deed ih => exact deed.valid ih

theorem confined_perform (f : Forest) (v : ViewId) (op : Operation) :
    Confined v f (op.perform f v).1 :=
  (deeds_perform f v op).confined

end Deeds

/-- One view has been added. -/
structure Grown (f g : Forest) (view : View) : Prop where
  size : g.views.size = f.views.size + 1
  same : ∀ {u : ViewId}, u < f.views.size → g.view u = f.view u
  new : g.view f.views.size = view

theorem grown_newBase (f : Forest) (name : String) :
    Grown f (f.newBase name).1 { name, lineage := f.issued.size } :=
  ⟨by simp [newBase], (keeps_newBase f name).same, view_newBase f name⟩

theorem grown_sandbox (f : Forest) (name : String) (base : ViewId) :
    Grown f (f.sandbox name base).1
      { name, below := f.line base, lineage := (f.view base).lineage } :=
  ⟨by simp [sandbox], (keeps_sandbox f name base).same, view_sandbox f name base⟩

theorem Grown.old_or_new {f g : Forest} {view : View} (grown : Grown f g view) {u : ViewId}
    (there : u < g.views.size) : u < f.views.size ∨ u = f.views.size := by
  rw [grown.size] at there
  exact Nat.lt_succ_iff_lt_or_eq.mp there

theorem valid_move {f : Forest} (valid : f.Valid) (m : Move) : (f.move m).Valid := by
  cases m with
  | base name => exact valid_newBase valid name
  | sandbox name below =>
    rw [move]
    split
    · rename_i there
      exact valid_sandbox name valid there
    · exact valid
  | ask v op => exact (deeds_perform f v op).valid valid

/-- The forest after a history is a valid one. -/
theorem valid_replay {f : Forest} (valid : f.Valid) (history : List Move) :
    (f.replay history).Valid := by
  induction history generalizing f with
  | nil => exact valid
  | cons m rest ih => exact ih (valid_move valid m)

end Forest

end ScaleAdvisor
