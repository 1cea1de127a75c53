import ScaleAdvisor.Proofs.View.Reading
import ScaleAdvisor.View.Client

/-!
Writing to views. Each write touches one view, whichever of them it is: what the other views hold,
which views are laid over which, and what is closed stay as they are. A view that is laid over
others and not over the one written to stands for the same objects as before.

* `wrote_create`: an object is added only under a free key, and then nothing else happens;
* `touches_perform`: no call on a view is noticed by another view;
* `bind_pending`: a pending workload can be bound to any node of the view;
* `recordEvent_eq`: a report adds one event, and the objects stay;
* `cluster_sandbox`, `keeps_sandbox`, `keeps_close`: adding and closing sandboxes.
-/

namespace ScaleAdvisor.Forest

/-- The two differ at most in what one view holds and in what has happened to it. -/
structure Touches (f g : Forest) (v : ViewId) : Prop where
  size : g.views.size = f.views.size
  elsewhere : ∀ {u : ViewId}, u ≠ v → g.view u = f.view u
  below : (g.view v).below = (f.view v).below
  closed : (g.view v).closed = (f.view v).closed

namespace Touches

variable {f g : Forest} {v : ViewId}

theorem refl (f : Forest) (v : ViewId) : Touches f f v := ⟨rfl, fun _ => rfl, rfl, rfl⟩

theorem trans {h : Forest} (first : Touches f g v) (second : Touches g h v) : Touches f h v :=
  ⟨second.size.trans first.size,
    fun other => (second.elsewhere other).trans (first.elsewhere other),
    second.below.trans first.below, second.closed.trans first.closed⟩

theorem below_eq (touches : Touches f g v) (u : ViewId) : (g.view u).below = (f.view u).below := by
  by_cases same : u = v
  · rw [same]
    exact touches.below
  · rw [touches.elsewhere same]

theorem closed_eq (touches : Touches f g v) (u : ViewId) :
    (g.view u).closed = (f.view u).closed := by
  by_cases same : u = v
  · rw [same]
    exact touches.closed
  · rw [touches.elsewhere same]

theorem line_eq (touches : Touches f g v) (u : ViewId) : g.line u = f.line u := by
  rw [line, line, touches.below_eq]

theorem readable (touches : Touches f g v) {u : ViewId} (h : f.Readable u) : g.Readable u := by
  intro w hw
  rw [touches.line_eq] at hw
  rw [touches.closed_eq]
  exact h w hw

theorem valid (touches : Touches f g v) (valid : f.Valid)
    (keyed : ∀ {k st}, (g.view v).edits.get? k = some (some st) → st.object.key = k) : g.Valid := by
  constructor
  · intro w u rest h
    rw [touches.below_eq] at h
    rw [touches.below_eq]
    exact valid.below h
  · intro w k st h
    by_cases same : w = v
    · rw [same] at h
      exact keyed h
    · rw [touches.elsewhere same] at h
      exact valid.keyed h

end Touches

theorem line_congr {f g : Forest} {u : ViewId} (same : ∀ w ∈ f.line u, g.view w = f.view w) :
    g.line u = f.line u := by
  rw [line, same u (by simp [line]), ← line]

theorem stack_congr {f g : Forest} {u : ViewId} (same : ∀ w ∈ f.line u, g.view w = f.view w) :
    g.stack u = f.stack u := by
  rw [stack_eq, stack_eq, line_congr same]
  exact List.map_congr_left same

/-- A stack of views that are all the same holds the same. -/
theorem cluster_congr {f g : Forest} {u : ViewId} (same : ∀ w ∈ f.line u, g.view w = f.view w) :
    g.cluster u = f.cluster u := by
  rw [cluster, cluster, contents, contents, stack_congr same]

theorem readable_congr {f g : Forest} {u : ViewId} (same : ∀ w ∈ f.line u, g.view w = f.view w)
    (readable : f.Readable u) : g.Readable u := by
  intro w hw
  rw [line_congr same] at hw
  rw [same w hw]
  exact readable w hw

theorem Touches.cluster_eq {f g : Forest} {v u : ViewId} (touches : Touches f g v)
    (apart : v ∉ f.line u) :
    g.cluster u = f.cluster u := by
  apply cluster_congr
  intro w hw
  apply touches.elsewhere
  rintro rfl
  exact apart hw

theorem view_modify_self {f : Forest} {v : ViewId} (h : v < f.views.size) (change : View → View) :
    (f.modify v change).view v = change (f.view v) := by
  simp [view, modify, Array.getElem?_modify, Array.getElem?_eq_getElem h]

theorem view_modify_of_ne (f : Forest) {v u : ViewId} (h : u ≠ v) (change : View → View) :
    (f.modify v change).view u = f.view u := by
  simp [view, modify, Array.getElem?_modify, h.symm]

/-- One object has been written to one view. -/
structure Wrote (f g : Forest) (v : ViewId) (o : ClusterObject) : Prop where
  touches : Touches f g v
  valid : g.Valid
  cluster : g.cluster v = (f.cluster v).insert o.key o
  events : (g.view v).events = (f.view v).events

variable {f : Forest} {v : ViewId}

theorem wrote_commit (valid : f.Valid) (h : v < f.views.size) (kind : ChangeKind)
    (o : ClusterObject) : Wrote f (f.commit v kind o.key (some o)).1 v o := by
  have top : (f.commit v kind o.key (some o)).1.view v = { f.view v with
      edits := (f.view v).edits.insert o.key (some ⟨o, f.version v + 1⟩)
      changes := (f.view v).changes.push ⟨kind, o.key, f.version v + 1⟩ } := view_modify_self h _
  have touches : Touches f (f.commit v kind o.key (some o)).1 v := by
    refine ⟨?_, fun other => view_modify_of_ne f other _, by rw [top], by rw [top]⟩
    simp [commit, modify]
  refine ⟨touches, touches.valid valid fun {k st} held => ?_, ?_, by rw [top]⟩
  · rw [top] at held
    simp only [SortedMap.get?_insert] at held
    split at held
    · rename_i same
      rw [← Option.some.inj (Option.some.inj held), KeyOrder.same_iff.mp same]
    · exact valid.keyed held
  · have lower : (f.view v).below.map (f.commit v kind o.key (some o)).1.view =
        (f.view v).below.map f.view := by
      apply List.map_congr_left
      intro u hu
      exact touches.elsewhere (Nat.ne_of_lt (valid.lt_of_mem_below hu))
    apply SortedMap.ext_get?
    intro k
    rw [Forest.cluster, Forest.cluster, contents, contents, stack, stack, touches.below, lower, top]
    simp only [View.contentsOf, SortedMap.get?_mapValues, SortedMap.get?_patch,
      SortedMap.get?_insert]
    by_cases same : KeyOrder.same k o.key = true <;> simp [same]

theorem touches_push (valid : f.Valid) (h : v < f.views.size) (e : ViewEvent) :
    let g := f.modify v fun view => { view with events := view.events.push e }
    Touches f g v ∧ g.Valid := by
  intro g
  have top : g.view v = { f.view v with events := (f.view v).events.push e } := view_modify_self h _
  have touches : Touches f g v :=
    ⟨by simp [g, modify], fun other => view_modify_of_ne f other _, by rw [top], by rw [top]⟩
  refine ⟨touches, touches.valid valid fun held => ?_⟩
  rw [top] at held
  exact valid.keyed held

/-- Only an open view answers. -/
theorem open_of_whileOpen {α : Type} {a b : α} (h : f.whileOpen v a = .ok b) :
    (f.view v).closed = false ∧ a = b := by
  unfold whileOpen isClosed at h
  split at h
  · simp at h
  · rename_i opened
    exact ⟨by simpa using opened, Except.ok.inj h⟩

theorem update_eq_ok {o : ClusterObject} {g : Forest} {n : Nat} (h : f.update v o = .ok (g, n)) :
    (f.view v).closed = false ∧ g = (f.commit v .modified o.key (some o)).1 ∧
    n = f.version v + 1 := by
  cases found : f.get v o.key with
  | error e => simp [update, found, Bind.bind, Except.bind] at h
  | ok held =>
    have opened := (open_of_whileOpen found).1
    cases held with
    | none => simp [update, found, Bind.bind, Except.bind] at h
    | some st =>
      simp only [update, found, Bind.bind, Except.bind, Except.ok.injEq] at h
      exact ⟨opened, by rw [h], (congrArg Prod.snd h).symm⟩

/-- A binding that succeeds has replaced one workload. -/
theorem bind_eq_ok {k : WorkloadKey} {node : String} {g : Forest} {n : Nat}
    (h : f.bind v k node = .ok (g, n)) :
    (f.view v).closed = false ∧ ∃ w : Workload, g = (f.commit v .modified
      (ClusterObject.workload (w.bindTo node)).key (some (.workload (w.bindTo node)))).1 ∧
        n = f.version v + 1 := by
  have pending (w : Workload) (h : bind.bindPending f v node w = .ok (g, n)) :
      (f.view v).closed = false ∧ ∃ w : Workload, g = (f.commit v .modified
        (ClusterObject.workload (w.bindTo node)).key (some (.workload (w.bindTo node)))).1 ∧
          n = f.version v + 1 := by
    cases found : f.get v ⟨.node, node⟩ with
    | error e => simp [bind.bindPending, found, Bind.bind, Except.bind] at h
    | ok held =>
      cases held with
      | none => simp [bind.bindPending, found, Bind.bind, Except.bind] at h
      | some st =>
        simp only [bind.bindPending, found, Bind.bind, Except.bind] at h
        obtain ⟨opened, written⟩ := update_eq_ok h
        exact ⟨opened, w, written⟩
  cases found : f.workload v k with
  | error e => simp [bind, found, Bind.bind, Except.bind] at h
  | ok held =>
    cases held with
    | none => simp [bind, found, Bind.bind, Except.bind] at h
    | some w =>
      simp only [bind, found, Bind.bind, Except.bind] at h
      split at h
      · split at h
        · simp at h
        · exact pending w h
      · exact pending w h

theorem recordEvent_eq_ok {reason : EventReason} {k : WorkloadKey} {node : Option String}
    {message : String} {g : Forest} {n : Nat}
    (h : f.recordEvent v reason k node message = .ok (g, n)) : (f.view v).closed = false ∧
      ∃ e, g = f.modify v fun view => { view with events := view.events.push e } := by
  obtain ⟨opened, same⟩ := open_of_whileOpen h
  exact ⟨opened, _, (Prod.mk.inj same).1.symm⟩

/-- An object that is added has been written. -/
theorem create_eq_ok {o : ClusterObject} {g : Forest} {n : Nat} (h : f.create v o = .ok (g, n)) :
    (f.view v).closed = false ∧ g = (f.commit v .added o.key (some o)).1 ∧ n = f.version v + 1 := by
  cases found : f.get v o.key with
  | error e => simp [create, found, Bind.bind, Except.bind] at h
  | ok held =>
    have opened := (open_of_whileOpen found).1
    cases held with
    | some st => simp [create, found, Bind.bind, Except.bind] at h
    | none =>
      simp only [create, found, Bind.bind, Except.bind, Except.ok.injEq] at h
      exact ⟨opened, by rw [h], (congrArg Prod.snd h).symm⟩

/-- An object can be added only under a key that is free. -/
theorem wrote_create (valid : f.Valid) (readable : f.Readable v) {o : ClusterObject} {g : Forest}
    {n : Nat}
    (created : f.create v o = .ok (g, n)) : (f.cluster v).get? o.key = none ∧ Wrote f g v o := by
  obtain ⟨opened, rfl, -⟩ := create_eq_ok created
  refine ⟨?_, wrote_commit valid (lt_size_of_open opened) .added o⟩
  rw [create, get_eq readable] at created
  rw [← find?_eq_none_iff readable]
  cases held : f.find? v o.key with
  | none => rfl
  | some st => simp [held, Bind.bind, Except.bind] at created

theorem wrote_update (valid : f.Valid) (readable : f.Readable v) {o old : ClusterObject}
    (taken : (f.cluster v).get? o.key = some old) :
    ∃ g n, f.update v o = .ok (g, n) ∧ Wrote f g v o := by
  rw [get?_cluster readable] at taken
  obtain ⟨st, found, -⟩ := Option.map_eq_some_iff.mp taken
  have updated : f.update v o = .ok (f.commit v .modified o.key (some o)) := by
    rw [update, get_eq readable, found]
    rfl
  exact ⟨_, _, updated, wrote_commit valid readable.lt_size .modified o⟩

/-- Whatever a view is asked to do, no other view notices. -/
theorem touches_perform (valid : f.Valid) (v : ViewId) (c : Call) :
    Touches f (c.perform f v).1 v ∧ (c.perform f v).1.Valid := by
  have settled (r : Except ViewError (Forest × Nat))
      (ok : ∀ g n, r = .ok (g, n) → Touches f g v ∧ g.Valid) :
      Touches f (Call.settle f r).1 v ∧ (Call.settle f r).1.Valid := by
    cases r with
    | error e => exact ⟨.refl f v, valid⟩
    | ok done => exact ok done.1 done.2 rfl
  cases c with
  | nodes | workloads | priorityClasses | runtimeClasses => exact ⟨.refl f v, valid⟩
  | bind k node =>
    refine settled _ ?_
    intro g n bound
    obtain ⟨opened, w, rfl, -⟩ := bind_eq_ok bound
    have wrote := wrote_commit valid (lt_size_of_open opened) .modified (.workload (w.bindTo node))
    exact ⟨wrote.touches, wrote.valid⟩
  | record reason k node message =>
    refine settled _ ?_
    intro g n recorded
    obtain ⟨opened, e, rfl⟩ := recordEvent_eq_ok recorded
    exact touches_push valid (lt_size_of_open opened) e

/-- A pending workload of the view goes to any node of the view. -/
theorem bind_pending (valid : f.Valid) (readable : f.Readable v) {w : Workload}
    (listed : w ∈ (f.cluster v).workloads) (pending : w.isPending = true) {m : Node}
    (there : m ∈ (f.cluster v).nodes) :
    ∃ g n, f.bind v w.key m.name = .ok (g, n) ∧ Wrote f g v (.workload (w.bindTo m.name)) ∧
      g.cluster v = (f.cluster v).bind w.key m.name := by
  have keyed := keyed_cluster valid (v := v)
  have found := Cluster.workload?_eq_some keyed listed
  have node : f.get v ⟨.node, m.name⟩ = .ok (f.find? v ⟨.node, m.name⟩) := get_eq readable _
  have taken := (Cluster.mem_nodes keyed).mp there
  rw [get?_cluster readable] at taken
  obtain ⟨st, foundNode, -⟩ := Option.map_eq_some_iff.mp taken
  have old :
    (f.cluster v).get? (ClusterObject.workload (w.bindTo m.name)).key = some (.workload w) :=
    (Cluster.mem_workloads keyed).mp listed
  obtain ⟨g, n, updated, wrote⟩ := wrote_update valid readable old
  refine ⟨g, n, ?_, wrote, ?_⟩
  · have bound : bind.bindPending f v m.name w = .ok (g, n) := by
      rw [bind.bindPending, node, foundNode]
      exact updated
    rw [bind, workload_eq readable, found]
    rcases Workload.isPending_iff.mp pending with unnamed | empty
    · simpa [unnamed, Bind.bind, Except.bind] using bound
    · simpa [empty, Bind.bind, Except.bind] using bound
  · rw [wrote.cluster, Cluster.bind_eq m.name keyed listed]
    rfl

/-- A report adds one event, and the objects stay. -/
theorem recordEvent_eq (valid : f.Valid) (readable : f.Readable v) (reason : EventReason)
    (k : WorkloadKey) (node : Option String) (message : String) :
    ∃ g n e, f.recordEvent v reason k node message = .ok (g, n) ∧ Touches f g v ∧ g.Valid ∧
      g.cluster v = f.cluster v ∧ (g.view v).events.toList = (f.view v).events.toList ++ [e] ∧
      e.reason = reason ∧ e.workload = k ∧ e.nodeName = node := by
  let e : ViewEvent := ⟨(f.view v).events.size, reason, k, node, message, f.version v⟩
  let g := f.modify v fun view => { view with events := view.events.push e }
  have top : g.view v = { f.view v with events := (f.view v).events.push e } :=
    view_modify_self readable.lt_size _
  obtain ⟨touches, valid'⟩ := touches_push valid readable.lt_size e
  refine ⟨g, _, e, readable.whileOpen _, touches, valid', ?_, ?_, rfl, rfl, rfl⟩
  · have lower : (f.view v).below.map g.view = (f.view v).below.map f.view := by
      apply List.map_congr_left
      intro u hu
      exact touches.elsewhere (Nat.ne_of_lt (valid.lt_of_mem_below hu))
    rw [cluster, cluster, contents, contents, stack, stack, touches.below, lower, top]
    rfl
  · rw [top]
    simp

/-- The views before a place are as they were, and none has gone. -/
structure Keeps (n : Nat) (f g : Forest) : Prop where
  size : f.views.size ≤ g.views.size
  same : ∀ {u : ViewId}, u < n → g.view u = f.view u

namespace Keeps

variable {n : Nat} {g : Forest}

theorem refl (n : Nat) (f : Forest) : Keeps n f f := ⟨Nat.le_refl _, fun _ => rfl⟩

theorem trans {h : Forest} (first : Keeps n f g) (second : Keeps n g h) : Keeps n f h :=
  ⟨Nat.le_trans first.size second.size, fun hu => (second.same hu).trans (first.same hu)⟩

theorem line_eq (keeps : Keeps n f g) {u : ViewId} (h : u < n) : g.line u = f.line u := by
  rw [line, line, keeps.same h]

theorem cluster_eq (keeps : Keeps n f g) (valid : f.Valid) {u : ViewId} (h : u < n) :
    g.cluster u = f.cluster u :=
  cluster_congr fun _ hw => keeps.same (Nat.lt_of_le_of_lt (valid.le_of_mem_line hw) h)

theorem readable (keeps : Keeps n f g) (valid : f.Valid) {u : ViewId} (h : u < n)
    (readable : f.Readable u) : g.Readable u :=
  readable_congr (fun _ hw => keeps.same (Nat.lt_of_le_of_lt (valid.le_of_mem_line hw) h)) readable

end Keeps

section Sandbox

variable (name : String) {base : ViewId}

theorem keeps_sandbox (f : Forest) (name : String) (base : ViewId) :
    Keeps f.views.size f (f.sandbox name base).1 := by
  refine ⟨by simp [sandbox], fun {u} hu => ?_⟩
  simp [sandbox, view, Array.getElem?_push_lt hu, Array.getElem?_eq_getElem hu]

theorem view_sandbox (f : Forest) (name : String) (base : ViewId) :
    (f.sandbox name base).1.view f.views.size =
      { name, below := f.line base, lineage := (f.view base).lineage } := by
  simp [sandbox, view, line]

theorem valid_sandbox (valid : f.Valid) (there : base < f.views.size) :
    (f.sandbox name base).1.Valid := by
  have keeps := keeps_sandbox f name base
  have last {u : ViewId} (h : ¬ u < f.views.size) (h' : u ≠ f.views.size) :
      (f.sandbox name base).1.view u = .missing := by
    apply view_of_size_le
    simp only [sandbox, Array.size_push]
    exact Nat.lt_of_le_of_ne (Nat.le_of_not_lt h) h'.symm
  constructor
  · intro w u rest h
    by_cases old : w < f.views.size
    · rw [keeps.same old] at h
      obtain ⟨older, same⟩ := valid.below h
      rw [keeps.same (Nat.lt_trans older old)]
      exact ⟨older, same⟩
    · by_cases new : w = f.views.size
      · subst new
        rw [view_sandbox] at h
        obtain ⟨rfl, rfl⟩ := List.cons.inj h
        rw [keeps.same there]
        exact ⟨there, rfl⟩
      · rw [last old new] at h
        exact absurd h (by simp [View.missing])
  · intro w k st h
    by_cases old : w < f.views.size
    · rw [keeps.same old] at h
      exact valid.keyed h
    · by_cases new : w = f.views.size
      · subst new
        rw [view_sandbox] at h
        exact absurd h (by simp)
      · rw [last old new] at h
        exact absurd h (by simp [View.missing])

theorem line_sandbox (f : Forest) (name : String) (base : ViewId) :
    (f.sandbox name base).1.line f.views.size = f.views.size :: f.line base := by
  rw [line, view_sandbox]

/-- A fresh sandbox stands for what is below it. -/
theorem cluster_sandbox (valid : f.Valid) (there : base < f.views.size) :
    (f.sandbox name base).1.cluster f.views.size = f.cluster base := by
  have keeps := keeps_sandbox f name base
  have lower : (f.line base).map (f.sandbox name base).1.view = (f.line base).map f.view := by
    apply List.map_congr_left
    intro u hu
    exact keeps.same (Nat.lt_of_le_of_lt (valid.le_of_mem_line hu) there)
  apply SortedMap.ext_get?
  intro k
  rw [cluster, cluster, contents, contents, stack, view_sandbox, stack_eq]
  simp only [lower, View.contentsOf, SortedMap.get?_mapValues, SortedMap.get?_patch,
    SortedMap.get?_empty, Option.getD_none]

theorem readable_sandbox (valid : f.Valid) (readable : f.Readable base) :
    (f.sandbox name base).1.Readable f.views.size := by
  intro u hu
  rw [line_sandbox] at hu
  obtain rfl | hu := List.mem_cons.mp hu
  · rw [view_sandbox]
  · rw [(keeps_sandbox f name base).same
      (Nat.lt_of_le_of_lt (valid.le_of_mem_line hu) readable.lt_size)]
    exact readable u hu

end Sandbox

section Close

theorem view_close_of_ne (f : Forest) {u : ViewId} (h : u ≠ v) : (f.close v).view u = f.view u :=
  view_modify_of_ne f h _

theorem keeps_close {n : Nat} (f : Forest) (h : n ≤ v) : Keeps n f (f.close v) :=
  ⟨by simp [close, modify], fun hu => view_close_of_ne f (Nat.ne_of_lt (Nat.lt_of_lt_of_le hu h))⟩

theorem valid_close (valid : f.Valid) (v : ViewId) : (f.close v).Valid := by
  have lower (u : ViewId) : ((f.close v).view u).below = (f.view u).below := by
    by_cases same : u = v
    · subst same
      by_cases there : u < f.views.size
      · rw [close, view_modify_self there]
      · have gone : (f.close u).views.size ≤ u := by simpa [close, modify] using there
        rw [view_of_size_le gone, view_of_size_le (Nat.le_of_not_lt there)]
    · rw [view_close_of_ne f same]
  constructor
  · intro w u rest h
    rw [lower] at h
    rw [lower]
    exact valid.below h
  · intro w k st h
    by_cases same : w = v
    · subst same
      by_cases there : w < f.views.size
      · rw [close, view_modify_self there] at h
        exact absurd h (by simp)
      · have gone : (f.close w).views.size ≤ w := by simpa [close, modify] using there
        rw [view_of_size_le gone] at h
        exact absurd h (by simp [View.missing])
    · rw [view_close_of_ne f same] at h
      exact valid.keyed h

end Close

end ScaleAdvisor.Forest
