import ScaleAdvisor.Proofs.View.Operations

/-!
Copy on write. Views over one base share a counter and read through each other, and that is all:
what a view is asked to do is seen by that view and by what is laid over it, and what is laid over
it sees no more than the objects that it and the views in between have left alone.

* `lineage_eq_iff`: views share a counter when they go down to the same base;
* `readThrough_append`: an edit higher up hides what is below;
* `copy_on_write`: what one view is asked, and what the others notice of it.
-/

namespace ScaleAdvisor

namespace View

/-- An edit of a key somewhere in the upper views hides the lower ones. -/
theorem readThrough_append {k : ObjectKey} {upper : List View} (lower lower' : List View)
    (edited : ∃ w ∈ upper, w.edits.get? k ≠ none) :
    readThrough k (upper ++ lower) = readThrough k (upper ++ lower') := by
  induction upper with
  | nil => simp at edited
  | cons top rest ih =>
    rw [List.cons_append, List.cons_append, readThrough, readThrough]
    split
    · rfl
    · cases entry : top.edits.get? k with
      | some _ => rfl
      | none =>
        obtain ⟨w, hw, held⟩ := edited
        obtain rfl | hw := List.mem_cons.mp hw
        · exact absurd entry held
        · exact ih ⟨w, hw, held⟩

end View

namespace Forest

/-- Which views share a counter. -/
structure Lineages (f : Forest) : Prop where
  counted : ∀ {v : ViewId}, v < f.views.size → (f.view v).lineage < f.issued.size
  along : ∀ {v u : ViewId} {rest : List ViewId}, (f.view v).below = u :: rest →
    (f.view u).lineage = (f.view v).lineage
  bases : ∀ {u v : ViewId}, u < f.views.size → v < f.views.size → (f.view u).below = [] →
    (f.view v).below = [] → (f.view u).lineage = (f.view v).lineage → u = v

variable {f g : Forest} {u v : ViewId}

theorem lineages_empty : (∅ : Forest).Lineages where
  counted there := absurd there (Nat.not_lt_zero _)
  along {v u rest} h := by
    rw [view_of_size_le (Nat.zero_le v)] at h
    simp [View.missing] at h
  bases there := absurd there (Nat.not_lt_zero _)

theorem Confined.lineages (confined : Confined v f g) (lineages : f.Lineages) : g.Lineages where
  counted {u} hu := by
    rw [confined.size] at hu
    rw [confined.lineage_eq, confined.issued]
    exact lineages.counted hu
  along {u w rest} h := by
    rw [confined.below_eq] at h
    rw [confined.lineage_eq, confined.lineage_eq]
    exact lineages.along h
  bases {u w} hu hw := by
    rw [confined.size] at hu hw
    rw [confined.below_eq, confined.below_eq, confined.lineage_eq, confined.lineage_eq]
    exact lineages.bases hu hw

theorem lt_size_of_below {rest : List ViewId} (h : (f.view v).below = u :: rest) :
    v < f.views.size := by
  apply Nat.lt_of_not_le
  intro gone
  rw [view_of_size_le gone] at h
  simp [View.missing] at h

theorem lineages_newBase (valid : f.Valid) (lineages : f.Lineages) (name : String) :
    (f.newBase name).1.Lineages := by
  have grown := grown_newBase f name
  have issued : (f.newBase name).1.issued.size = f.issued.size + 1 := by simp [newBase]
  have apart {u : ViewId} (hu : u < f.views.size) : (f.view u).lineage ≠ f.issued.size :=
    Nat.ne_of_lt (lineages.counted hu)
  constructor
  · intro u hu
    rw [issued]
    obtain old | rfl := grown.old_or_new hu
    · rw [grown.same old]
      exact Nat.lt_succ_of_lt (lineages.counted old)
    · rw [grown.new]
      exact Nat.lt_succ_self _
  · intro u w rest h
    obtain old | rfl := grown.old_or_new (lt_size_of_below h)
    · rw [grown.same old] at h ⊢
      rw [grown.same (Nat.lt_trans (valid.below h).1 old)]
      exact lineages.along h
    · rw [grown.new] at h
      simp at h
  · intro u w hu hw
    obtain old | rfl := grown.old_or_new hu <;> obtain old' | rfl := grown.old_or_new hw
    · rw [grown.same old, grown.same old']
      exact lineages.bases old old'
    · rw [grown.same old, grown.new]
      exact fun _ _ same => absurd same (apart old)
    · rw [grown.same old', grown.new]
      exact fun _ _ same => absurd same.symm (apart old')
    · exact fun _ _ _ => rfl

theorem lineages_sandbox (valid : f.Valid) (lineages : f.Lineages) (name : String) {base : ViewId}
    (there : base < f.views.size) : (f.sandbox name base).1.Lineages := by
  have grown := grown_sandbox f name base
  constructor
  · intro u hu
    change _ < f.issued.size
    obtain old | rfl := grown.old_or_new hu
    · rw [grown.same old]
      exact lineages.counted old
    · rw [grown.new]
      exact lineages.counted there
  · intro u w rest h
    obtain old | rfl := grown.old_or_new (lt_size_of_below h)
    · rw [grown.same old] at h ⊢
      rw [grown.same (Nat.lt_trans (valid.below h).1 old)]
      exact lineages.along h
    · rw [grown.new] at h ⊢
      obtain ⟨rfl, -⟩ := List.cons.inj h
      rw [grown.same there]
  · intro u w hu hw
    obtain old | rfl := grown.old_or_new hu <;> obtain old' | rfl := grown.old_or_new hw
    · rw [grown.same old, grown.same old']
      exact lineages.bases old old'
    · rw [grown.new]
      exact fun _ none => absurd none (by simp [line])
    · rw [grown.new]
      exact fun none => absurd none (by simp [line])
    · exact fun _ _ _ => rfl

theorem lineages_move (valid : f.Valid) (lineages : f.Lineages) (m : Move) :
    (f.move m).Lineages := by
  cases m with
  | base name => exact lineages_newBase valid lineages name
  | sandbox name below =>
    rw [move]
    split
    · rename_i there
      exact lineages_sandbox valid lineages name there
    · exact lineages
  | ask v op => exact (confined_perform f v op).lineages lineages

theorem lineages_replay (valid : f.Valid) (lineages : f.Lineages) (history : List Move) :
    (f.replay history).Lineages := by
  induction history generalizing f with
  | nil => exact lineages
  | cons m rest ih => exact ih (valid_move valid m) (lineages_move valid lineages m)

theorem lineage_of_mem_below (valid : f.Valid) (lineages : f.Lineages)
    (h : u ∈ (f.view v).below) : (f.view u).lineage = (f.view v).lineage := by
  induction v using Nat.strongRecOn with
  | ind v ih =>
    cases lower : (f.view v).below with
    | nil => simp [lower] at h
    | cons next rest =>
      obtain ⟨older, same⟩ := valid.below lower
      rw [lower] at h
      obtain rfl | h := List.mem_cons.mp h
      · exact lineages.along lower
      · rw [same] at h
        exact (ih next older h).trans (lineages.along lower)

theorem lineage_of_mem_line (valid : f.Valid) (lineages : f.Lineages) (h : u ∈ f.line v) :
    (f.view u).lineage = (f.view v).lineage := by
  obtain rfl | h := List.mem_cons.mp h
  · rfl
  · exact lineage_of_mem_below valid lineages h

/-- The root is a base of the same lineage. -/
theorem root_spec (valid : f.Valid) (lineages : f.Lineages) (there : v < f.views.size) :
    f.root v < f.views.size ∧ (f.view (f.root v)).below = [] ∧
      (f.view (f.root v)).lineage = (f.view v).lineage := by
  induction v using Nat.strongRecOn with
  | ind v ih =>
    cases lower : (f.view v).below with
    | nil =>
      have itself : f.root v = v := by simp [root, lower]
      rw [itself]
      exact ⟨there, lower, rfl⟩
    | cons next rest =>
      obtain ⟨older, same⟩ := valid.below lower
      have further : f.root v = f.root next := by
        rw [root, root, lower, ← same, List.getLast?_cons]
        rfl
      obtain ⟨rootThere, base, lineage⟩ := ih next older (Nat.lt_trans older there)
      rw [further]
      exact ⟨rootThere, base, lineage.trans (lineages.along lower)⟩

/-- Two views share a counter when they go down to the same base, and only then. -/
theorem lineage_eq_iff (valid : f.Valid) (lineages : f.Lineages) (hu : u < f.views.size)
    (hv : v < f.views.size) :
    (f.view u).lineage = (f.view v).lineage ↔ f.root u = f.root v := by
  obtain ⟨thereU, baseU, lineageU⟩ := root_spec valid lineages hu
  obtain ⟨thereV, baseV, lineageV⟩ := root_spec valid lineages hv
  constructor
  · intro same
    exact lineages.bases thereU thereV baseU baseV (by rw [lineageU, lineageV, same])
  · intro same
    rw [← lineageU, ← lineageV, same]

/-- What a view has of its own looks as it did: its events, its end, and what its watchers are
sent. -/
structure SameOwn (f g : Forest) (u : ViewId) : Prop where
  events : ∀ cursor, g.eventsFrom u cursor = f.eventsFrom u cursor
  closed : g.isClosed u = f.isClosed u
  watched : ∀ w : Watcher, w.view = u → w.unread g = w.unread f ∧ w.drain g = w.drain f

/-- Whatever a view is asked, it answers as it did. -/
structure SameObserved (f g : Forest) (u : ViewId) : Prop extends SameOwn f g u where
  get : ∀ k, g.get u k = f.get u k
  list : ∀ kind, g.list u kind = f.list u kind
  pending : g.pending u = f.pending u

theorem sameOwn_of_view (same : g.view u = f.view u) : SameOwn f g u where
  events cursor := by
    rw [eventsFrom, eventsFrom, whileOpen, whileOpen, isClosed, isClosed, name, name, same]
  closed := by rw [isClosed, isClosed, same]
  watched w watches := by
    rw [Watcher.unread, Watcher.unread, Watcher.drain, Watcher.drain, watches, same]
    exact ⟨rfl, rfl⟩

theorem sameObserved_of_line (same : ∀ w ∈ f.line u, g.view w = f.view w) : SameObserved f g u := by
  have own : g.view u = f.view u := same u (by simp [line])
  have list (kind : ObjectKind) : g.list u kind = f.list u kind := by
    rw [Forest.list, Forest.list, contents, contents, stack_congr same]
  refine { sameOwn_of_view own with get := ?_, list := list, pending := ?_ }
  · intro k
    rw [Forest.get, Forest.get, find?, find?, stack_congr same, whileOpen, whileOpen, isClosed,
      isClosed, name, name, own]
  · rw [Forest.pending, Forest.pending, workloads, workloads, objects, objects, list]

/-- The views between a view and one that it is laid over are newer than that one. -/
theorem lt_of_between (valid : f.Valid) {between lower : List ViewId}
    (laidOver : (f.view u).below = between ++ v :: lower) : ∀ w ∈ u :: between, v < w := by
  induction between generalizing u with
  | nil =>
    intro w hw
    obtain rfl := List.mem_singleton.mp hw
    exact (valid.below laidOver).1
  | cons next rest ih =>
    obtain ⟨older, same⟩ := valid.below laidOver
    have later := ih same.symm
    intro w hw
    obtain rfl | hw := List.mem_cons.mp hw
    · exact Nat.lt_trans (later next (by simp)) older
    · exact later w hw

/-- Where a view, or one between it and the view that has changed, has edited a key, the key reads
as it did. -/
theorem Confined.get_eq (confined : Confined v f g) (valid : f.Valid) {between lower : List ViewId}
    (laidOver : (f.view u).below = between ++ v :: lower) {k : ObjectKey}
    (edited : ∃ w ∈ u :: between, (f.view w).edits.get? k ≠ none) : g.get u k = f.get u k := by
  have newer := lt_of_between valid laidOver
  have upper : ∀ w ∈ u :: between, g.view w = f.view w :=
    fun w hw => confined.elsewhere (Nat.ne_of_gt (newer w hw))
  have line : f.line u = (u :: between) ++ v :: lower := by
    rw [Forest.line, laidOver, List.cons_append]
  have line' : g.line u = (u :: between) ++ v :: lower := by
    rw [Forest.line, confined.below_eq, laidOver, List.cons_append]
  obtain ⟨w, hw, held⟩ := edited
  have found : g.find? u k = f.find? u k := by
    rw [find?, find?, stack_eq, stack_eq, line, line', List.map_append, List.map_append,
      List.map_congr_left upper]
    exact View.readThrough_append _ _ ⟨f.view w, List.mem_map_of_mem hw, held⟩
  rw [Forest.get, Forest.get, found, whileOpen, whileOpen, isClosed, isClosed, name, name,
    upper u (by simp)]

theorem confined_asks (f : Forest) (v : ViewId) (ops : List Operation) :
    Confined v f (f.replay (ops.map (.ask v))) := by
  induction ops generalizing f with
  | nil => exact .refl v f
  | cons op rest ih => exact (confined_perform f v op).trans (ih _)

/-- Whatever one view is asked, in any forest that operations lead to. A view that is not laid over
it answers as before, only that its lineage may have handed out versions. A view that is laid over
it keeps its events, its end and what its watchers are sent, and reads a key differently only where
neither it nor a view in between has edited the key. -/
theorem copy_on_write (history : List Move) (v : ViewId) (ops : List Operation) (u : ViewId)
    (asked : v < (Forest.replay ∅ history).views.size)
    (there : u < (Forest.replay ∅ history).views.size) :
    let f := Forest.replay ∅ history
    let g := f.replay (ops.map (.ask v))
    (v ∉ f.line u → SameObserved f g u ∧ f.version u ≤ g.version u ∧
      (f.root u ≠ f.root v → g.version u = f.version u)) ∧
    ∀ between lower, (f.view u).below = between ++ v :: lower → SameOwn f g u ∧
      ∀ k, g.get u k ≠ f.get u k → ∀ w ∈ u :: between, (f.view w).edits.get? k = none := by
  intro f g
  have valid : f.Valid := valid_replay valid_empty history
  have lineages : f.Lineages := lineages_replay valid_empty lineages_empty history
  have confined : Confined v f g := confined_asks f v ops
  refine ⟨fun apart => ⟨?_, confined.version_le u, ?_⟩, fun between lower laidOver => ⟨?_, ?_⟩⟩
  · refine sameObserved_of_line fun w hw => confined.elsewhere ?_
    rintro rfl
    exact apart hw
  · intro otherRoot
    rw [version_eq, version_eq, confined.lineage_eq]
    exact confined.counters fun same =>
      otherRoot ((lineage_eq_iff valid lineages there asked).mp same)
  · have newer := lt_of_between valid laidOver u (by simp)
    exact sameOwn_of_view (confined.elsewhere (Nat.ne_of_gt newer))
  · intro k changed w hw
    apply Classical.byContradiction
    intro edited
    exact changed (confined.get_eq valid laidOver ⟨w, hw, edited⟩)

/-- Two sandboxes over one base, and one more over the first. -/
def threeSandboxes : List Move :=
  [.base "base",
    .ask 0 (.edit (.create (.node { name := "shared", capacity := ∅, allocatable := ∅ }))),
    .sandbox "left" 0, .sandbox "right" 0, .sandbox "top" 1]

def deleteAndClose : List Operation := [.edit (.delete ⟨.node, "shared"⟩), .close]

theorem copy_on_write_threeSandboxes :
    let f := Forest.replay ∅ threeSandboxes
    let g := f.replay (deleteAndClose.map (.ask 1))
    1 < f.views.size ∧ 2 < f.views.size ∧ 3 < f.views.size ∧ 1 ∉ f.line 2 ∧
      (∀ k, g.get 2 k = f.get 2 k) ∧ f.version 2 < g.version 2 ∧
      (f.view 3).below = [] ++ 1 :: [0] ∧ g.get 3 ⟨.node, "shared"⟩ ≠ f.get 3 ⟨.node, "shared"⟩ ∧
      (f.view 3).edits.get? ⟨.node, "shared"⟩ = none := by
  intro f g
  have asked : 1 < f.views.size := by decide +kernel
  have right : 2 < f.views.size := by decide +kernel
  have top : 3 < f.views.size := by decide +kernel
  have apart : 1 ∉ f.line 2 := by decide +kernel
  have laidOver : (f.view 3).below = [] ++ 1 :: [0] := by decide +kernel
  have changed : g.get 3 ⟨.node, "shared"⟩ ≠ f.get 3 ⟨.node, "shared"⟩ := by decide +kernel
  have beside := (copy_on_write threeSandboxes 1 deleteAndClose 2 asked right).1 apart
  have above := (copy_on_write threeSandboxes 1 deleteAndClose 3 asked top).2 [] [0] laidOver
  exact ⟨asked, right, top, apart, beside.1.get, by decide +kernel, laidOver, changed,
    above.2 _ changed 3 (by simp)⟩

end Forest

end ScaleAdvisor
