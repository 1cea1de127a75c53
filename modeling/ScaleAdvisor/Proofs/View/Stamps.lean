import ScaleAdvisor.Proofs.View.Isolation

/-!
Which operations take a version, and where versions end up. Only writes draw from the counter of a
lineage, and what a write stores or sends bears a version that nothing else in the lineage bears.

* `taken_of_perform`, `silent_perform`: which operations take a version;
* `Deeds.stamped`: what is held in a lineage is stamped with different versions handed out by it;
* `Blank.stamped`: a new view changes nothing about that;
* `Orderly.move`, `Orderly.replay`: so it is in any forest that operations lead to.
-/

namespace ScaleAdvisor.Forest

variable {f g h : Forest} {u v : ViewId}

/-- The object that a view has of its own under a key. -/
def Holds (f : Forest) (v : ViewId) (k : ObjectKey) (st : Stored) : Prop :=
  (f.view v).edits.get? k = some (some st)

theorem Holds.lt_size {k : ObjectKey} {st : Stored} (held : f.Holds v k st) : v < f.views.size := by
  apply Nat.lt_of_not_le
  intro gone
  rw [Holds, view_of_size_le gone] at held
  simp [View.missing] at held

/-- No version has been taken: the counters and what watchers were sent are as before, and nothing
new is held. -/
structure Silent (f g : Forest) : Prop where
  issued : g.issued = f.issued
  changes : ∀ u, (g.view u).changes = (f.view u).changes
  holds : ∀ {u k st}, g.Holds u k st → f.Holds u k st

theorem Silent.refl (f : Forest) : Silent f f := ⟨rfl, fun _ => rfl, id⟩

theorem silent_modify (f : Forest) (v : ViewId) (change : View → View)
    (changes : ∀ view, (change view).changes = view.changes)
    (edits : ∀ view, (change view).edits = view.edits ∨ (change view).edits = ∅) :
    Silent f (f.modify v change) := by
  refine ⟨rfl, fun u => ?_, fun {u k st} held => ?_⟩
  · rcases view_modify f v u change with same | changed
    · rw [same]
    · rw [changed, changes]
  · rw [Holds] at held ⊢
    rcases view_modify f v u change with same | changed
    · rwa [same] at held
    · rw [changed] at held
      rcases edits (f.view u) with kept | dropped
      · rwa [kept] at held
      · rw [dropped] at held
        simp at held

/-- A deed is a write or takes no version. -/
theorem Deed.write_or_silent {clearing : Bool} (deed : Deed v clearing f g) :
    (∃ kind key object, v < f.views.size ∧ g = (f.commit v kind key object).1) ∨ Silent f g := by
  cases deed with
  | write kind key object there keyed => exact .inl ⟨kind, key, object, there, rfl⟩
  | note event there => exact .inr (silent_modify f v _ (fun _ => rfl) fun _ => .inl rfl)
  | clear there => exact .inr (silent_modify f v _ (fun _ => rfl) fun _ => .inr rfl)
  | close => exact .inr (silent_modify f v _ (fun _ => rfl) fun _ => .inr rfl)

section Answers

variable {k : WorkloadKey} {node : String} {n : Nat}

theorem run_bind_of_error {e : ViewError} (refused : f.bind v k node = .error e) :
    (Client.bind k node).run f v = (f, .error e) := by
  simp [Client.bind, Program.run, Call.perform, refused, Call.settle]

/-- The event follows whenever the binding has been written. -/
theorem run_bind_of_ok (bound : f.bind v k node = .ok (g, n)) :
    ∃ event, (Client.bind k node).run f v =
      (g.modify v fun view => { view with events := view.events.push event }, .ok n) := by
  obtain ⟨opened, -⟩ := bind_eq_ok bound
  have deed : Deed v false f g := deed_edit (e := .bind k node) bound
  have still : g.isClosed v = false := by
    rw [isClosed, Deeds.closed_eq (.single deed), opened]
  refine ⟨⟨(g.view v).events.size, .scheduled, k, some node, Client.assignedMessage k node,
    g.version v⟩, ?_⟩
  simp [Client.bind, Program.run, Call.perform, bound, Call.settle, recordEvent, whileOpen, still]

theorem silently_ne {α : Type} (r : Forest × Except ViewError α) :
    (Operation.silently r).2 ≠ .ok (some n) := by
  obtain ⟨g, answer⟩ := r
  cases answer <;> simp [Operation.silently, Except.map]

/-- Whatever answers with a version has written one key with it. -/
theorem taken_of_perform {op : Operation} (done : op.perform f v = (h, .ok (some n))) :
    v < f.views.size ∧ n = f.version v + 1 ∧
      ∃ kind key object, Silent (f.commit v kind key object).1 h ∧
        Confined v (f.commit v kind key object).1 h := by
  cases op with
  | edit e =>
    cases made : e.perform f v with
    | error e => simp [Operation.perform, Operation.taking, made, Call.settle, Except.map] at done
    | ok result =>
      obtain ⟨g, m⟩ := result
      simp only [Operation.perform, Operation.taking, made, Call.settle, Except.map, Prod.mk.injEq,
        Except.ok.injEq, Option.some.injEq] at done
      obtain ⟨rfl, rfl⟩ := done
      obtain ⟨opened, taken, kind, key, object, -, rfl⟩ := edit_eq_ok made
      exact ⟨lt_size_of_open opened, taken, kind, key, object, .refl _, .refl v _⟩
  | bindAndReport k node =>
    cases made : f.bind v k node with
    | error e =>
      simp [Operation.perform, Operation.taking, run_bind_of_error made, Except.map] at done
    | ok result =>
      obtain ⟨g, m⟩ := result
      obtain ⟨event, run⟩ := run_bind_of_ok made
      simp only [Operation.perform, Operation.taking, run, Except.map, Prod.mk.injEq,
        Except.ok.injEq, Option.some.injEq] at done
      obtain ⟨rfl, rfl⟩ := done
      obtain ⟨opened, taken, kind, key, object, -, rfl⟩ := edit_eq_ok (e := .bind k node) made
      exact ⟨lt_size_of_open opened, taken, kind, key, object,
        silent_modify _ v _ (fun _ => rfl) fun _ => .inl rfl,
        confined_modify _ v _ (fun _ => rfl) fun _ => rfl⟩
  | record | reportUnschedulable | load =>
    exact absurd (congrArg Prod.snd done) (silently_ne _)
  | reset =>
    simp only [Operation.perform] at done
    split at done <;> simp at done
  | close => simp [Operation.perform] at done

/-- Whatever answers without a version has taken none; loading takes one for each object. -/
theorem silent_perform {op : Operation} (single : ∀ s, op ≠ .load s)
    (untaken : ∀ n, (op.perform f v).2 ≠ .ok (some n)) : Silent f (op.perform f v).1 := by
  have settled {reason : EventReason} {k : WorkloadKey} {node : Option String} {message : String} :
      Silent f (Call.settle f (f.recordEvent v reason k node message)).1 := by
    cases made : f.recordEvent v reason k node message with
    | error e => exact .refl f
    | ok result =>
      obtain ⟨opened, event, written⟩ := recordEvent_eq_ok (n := result.2) made
      rw [Call.settle, written]
      exact silent_modify f v _ (fun _ => rfl) fun _ => .inl rfl
  cases op with
  | edit e =>
    cases made : e.perform f v with
    | error error =>
      simp only [Operation.perform, made]
      exact .refl f
    | ok result => exact absurd (by simp [Operation.perform, made, Call.settle, Operation.taking,
        Except.map]) (untaken result.2)
  | bindAndReport k node =>
    cases made : f.bind v k node with
    | error error =>
      simp only [Operation.perform, run_bind_of_error made]
      exact .refl f
    | ok result =>
      obtain ⟨event, run⟩ := run_bind_of_ok (g := result.1) (n := result.2) made
      exact absurd (by simp [Operation.perform, run, Operation.taking, Except.map])
        (untaken result.2)
  | record | reportUnschedulable => exact settled
  | load s => exact absurd rfl (single s)
  | reset =>
    simp only [Operation.perform]
    split
    · rename_i g done
      obtain ⟨-, rfl⟩ := open_of_whileOpen done
      exact silent_modify f v _ (fun _ => rfl) fun _ => .inr rfl
    · exact .refl f
  | close => exact silent_modify f v _ (fun _ => rfl) fun _ => .inr rfl

end Answers

/-- What is held or was sent in a lineage is stamped with versions that the lineage has handed out,
and nothing else is stamped alike. -/
structure Stamped (f : Forest) : Prop where
  sent : ∀ {v c}, c ∈ (f.view v).changes → c.version ≤ f.version v
  held : ∀ {v k st}, f.Holds v k st → st.version ≤ f.version v
  unique : ∀ {u v k k' st st'}, f.Holds u k st → f.Holds v k' st' →
    (f.view u).lineage = (f.view v).lineage → st.version = st'.version → k = k' ∧ st = st'

theorem stamped_empty : (∅ : Forest).Stamped where
  sent {v c} told := by
    rw [view_of_size_le (Nat.zero_le v)] at told
    simp [View.missing] at told
  held holds := absurd holds.lt_size (Nat.not_lt_zero _)
  unique holds := absurd holds.lt_size (Nat.not_lt_zero _)

theorem Silent.stamped (silent : Silent f g) (confined : Confined v f g) (stamped : f.Stamped) :
    g.Stamped where
  sent {u c} told := by
    rw [silent.changes] at told
    exact Nat.le_trans (stamped.sent told) (confined.version_le u)
  held {u k st} holds :=
    Nat.le_trans (stamped.held (silent.holds holds)) (confined.version_le u)
  unique {u w k k' st st'} first second lineage := by
    rw [confined.lineage_eq, confined.lineage_eq] at lineage
    exact stamped.unique (silent.holds first) (silent.holds second) lineage

theorem holds_commit {kind : ChangeKind} {key k : ObjectKey} {object : Option ClusterObject}
    {st : Stored} (there : v < f.views.size)
    (held : (f.commit v kind key object).1.Holds u k st) :
    f.Holds u k st ∨ u = v ∧ k = key ∧ ∃ o, object = some o ∧ st = ⟨o, f.version v + 1⟩ := by
  by_cases same : u = v
  · subst same
    rw [Holds, view_commit there, SortedMap.get?_insert] at held
    split at held
    · rename_i sameKey
      obtain ⟨o, written, rfl⟩ := Option.map_eq_some_iff.mp (Option.some.inj held)
      exact .inr ⟨rfl, KeyOrder.same_iff.mp sameKey, o, written, rfl⟩
    · exact .inl held
  · rw [Holds, (confined_commit there kind key object).elsewhere same] at held
    exact .inl held

/-- The version of a write is a new one, so the object that is written is the only one with it. -/
theorem stamped_commit (stamped : f.Stamped) (lineages : f.Lineages) (there : v < f.views.size)
    (kind : ChangeKind) (key : ObjectKey) (object : Option ClusterObject) :
    (f.commit v kind key object).1.Stamped := by
  have confined := confined_commit there kind key object
  have next := version_commit kind key object there (lineages.counted there)
  have older {u : ViewId} {k : ObjectKey} {st : Stored} (holds : f.Holds u k st)
      (same : (f.view u).lineage = (f.view v).lineage) : st.version ≠ f.version v + 1 := by
    have bound := stamped.held holds
    rw [version_eq, same, ← version_eq] at bound
    exact Nat.ne_of_lt (Nat.lt_succ_of_le bound)
  constructor
  · intro u c told
    by_cases same : u = v
    · subst same
      rw [view_commit there, Array.mem_push] at told
      rw [next]
      obtain told | rfl := told
      · exact Nat.le_succ_of_le (stamped.sent told)
      · exact Nat.le_refl _
    · rw [confined.elsewhere same] at told
      exact Nat.le_trans (stamped.sent told) (confined.version_le u)
  · intro u k st held
    obtain held | ⟨rfl, -, o, -, rfl⟩ := holds_commit there held
    · exact Nat.le_trans (stamped.held held) (confined.version_le u)
    · exact Nat.le_of_eq next.symm
  · intro u w k k' st st' first second lineage version
    rw [confined.lineage_eq, confined.lineage_eq] at lineage
    obtain held | ⟨rfl, rfl, o, written, rfl⟩ := holds_commit there first <;>
      obtain held' | ⟨rfl, rfl, o', written', rfl⟩ := holds_commit there second
    · exact stamped.unique held held' lineage version
    · exact absurd version (older held lineage)
    · exact absurd version.symm (older held' lineage.symm)
    · rw [Option.some.inj (written.symm.trans written')]
      exact ⟨rfl, rfl⟩

theorem Deeds.stamped {clearing : Bool} (deeds : Deeds v clearing f g) (stamped : f.Stamped)
    (lineages : f.Lineages) : g.Stamped := by
  induction deeds with
  | refl => exact stamped
  | tail before deed ih =>
    obtain ⟨kind, key, object, there, rfl⟩ | silent := deed.write_or_silent
    · exact stamped_commit ih ((Deeds.confined before).lineages lineages) there kind key object
    · exact silent.stamped deed.confined ih

/-- A view has been added that holds nothing and has sent nothing. -/
structure Blank (f g : Forest) (view : View) : Prop extends Grown f g view where
  edits : view.edits = ∅
  changes : view.changes = #[]
  counter : ∀ l, g.counter l = f.counter l

namespace Blank

variable {view : View}

theorem newBase (f : Forest) (name : String) :
    Blank f (f.newBase name).1 { name, lineage := f.issued.size } := by
  refine { grown_newBase f name with edits := rfl, changes := rfl, counter := fun l => ?_ }
  simp only [Forest.counter, Forest.newBase, Array.getElem?_push]
  split
  · rename_i last
    simp [last]
  · rfl

theorem sandbox (f : Forest) (name : String) (base : ViewId) : Blank f (f.sandbox name base).1
    { name, below := f.line base, lineage := (f.view base).lineage } :=
  { grown_sandbox f name base with edits := rfl, changes := rfl, counter := fun _ => rfl }

theorem holds (blank : Blank f g view) {k : ObjectKey} {st : Stored} (held : g.Holds u k st) :
    u < f.views.size ∧ f.Holds u k st := by
  obtain old | rfl := blank.old_or_new held.lt_size
  · rw [Holds, blank.same old] at held
    exact ⟨old, held⟩
  · rw [Holds, blank.new, blank.edits] at held
    simp at held

theorem version_eq (blank : Blank f g view) (old : u < f.views.size) :
    g.version u = f.version u := by
  rw [Forest.version_eq, Forest.version_eq, blank.same old, blank.counter]

theorem stamped (blank : Blank f g view) (stamped : f.Stamped) : g.Stamped where
  sent {u c} told := by
    by_cases there : u < g.views.size
    · obtain old | rfl := blank.old_or_new there
      · rw [blank.same old] at told
        rw [blank.version_eq old]
        exact stamped.sent told
      · rw [blank.new, blank.changes] at told
        simp at told
    · rw [view_of_size_le (Nat.le_of_not_lt there)] at told
      simp [View.missing] at told
  held holds := by
    obtain ⟨old, held⟩ := blank.holds holds
    rw [blank.version_eq old]
    exact stamped.held held
  unique first second lineage := by
    obtain ⟨old, held⟩ := blank.holds first
    obtain ⟨old', held'⟩ := blank.holds second
    rw [blank.same old, blank.same old'] at lineage
    exact stamped.unique held held' lineage

end Blank

/-- What can be said of every forest that operations lead to. -/
structure Orderly (f : Forest) : Prop where
  valid : f.Valid
  lineages : f.Lineages
  stamped : f.Stamped

theorem orderly_empty : (∅ : Forest).Orderly := ⟨valid_empty, lineages_empty, stamped_empty⟩

theorem Orderly.move (orderly : f.Orderly) (m : Move) : (f.move m).Orderly where
  valid := valid_move orderly.valid m
  lineages := lineages_move orderly.valid orderly.lineages m
  stamped := by
    cases m with
    | base name => exact (Blank.newBase f name).stamped orderly.stamped
    | sandbox name below =>
      rw [Forest.move]
      split
      · exact (Blank.sandbox f name below).stamped orderly.stamped
      · exact orderly.stamped
    | ask v op => exact (deeds_perform f v op).stamped orderly.stamped orderly.lineages

theorem Orderly.replay (orderly : f.Orderly) (history : List Move) :
    (f.replay history).Orderly := by
  induction history generalizing f with
  | nil => exact orderly
  | cons m rest ih => exact ih (orderly.move m)

end ScaleAdvisor.Forest
