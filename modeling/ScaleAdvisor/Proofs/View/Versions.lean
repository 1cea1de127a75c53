import ScaleAdvisor.Proofs.View.Stamps

/-!
Versions over time. A version stands for one write, wherever in the lineage and whenever it is read,
and what a view shows under a key never falls back to an older one.

* `Since.old`: an entry no newer than the past was there in the past;
* `kept_replay`: a view that is neither reset nor closed keeps its edits;
* `Reads.same_of_version`: what is read with one version is one object;
* `version_le_of_found`, `Reads.version_mono`: what is read under a key does not get older;
* `versions_identify_writes`: versions grow, tell objects apart and never fall back.
-/

namespace ScaleAdvisor.Forest

variable {f g h : Forest} {u v : ViewId}

/-- The second forest comes later: views stay where they are, counters only grow, and an object that
is no newer than the first forest was held there already. -/
structure Since (f g : Forest) : Prop where
  size : f.views.size ≤ g.views.size
  lineage : ∀ {v : ViewId}, v < f.views.size → (g.view v).lineage = (f.view v).lineage
  below : ∀ {v : ViewId}, v < f.views.size → (g.view v).below = (f.view v).below
  counter : ∀ l, f.counter l ≤ g.counter l
  old : ∀ {v k st}, g.Holds v k st → st.version ≤ f.counter (g.view v).lineage → f.Holds v k st

namespace Since

theorem refl (f : Forest) : Since f f :=
  ⟨Nat.le_refl _, fun _ => rfl, fun _ => rfl, fun _ => Nat.le_refl _, fun held _ => held⟩

theorem trans (first : Since f g) (second : Since g h) : Since f h where
  size := Nat.le_trans first.size second.size
  lineage there :=
    (second.lineage (Nat.lt_of_lt_of_le there first.size)).trans (first.lineage there)
  below there := (second.below (Nat.lt_of_lt_of_le there first.size)).trans (first.below there)
  counter l := Nat.le_trans (first.counter l) (second.counter l)
  old held bound := by
    have middle := second.old held (Nat.le_trans bound (first.counter _))
    rw [second.lineage middle.lt_size] at bound
    exact first.old middle bound

end Since

theorem Deed.since {clearing : Bool} (deed : Deed v clearing f g) : Since f g where
  size := Nat.le_of_eq deed.confined.size.symm
  lineage _ := deed.confined.lineage_eq _
  below _ := deed.confined.below_eq _
  counter := deed.confined.counter_le
  old {u k st} held bound := by
    rw [deed.confined.lineage_eq] at bound
    obtain ⟨kind, key, object, there, rfl⟩ | silent := deed.write_or_silent
    · obtain held | ⟨rfl, -, o, -, rfl⟩ := holds_commit there held
      · exact held
      · exact absurd bound (Nat.not_succ_le_self _)
    · exact silent.holds held

theorem Deeds.since {clearing : Bool} (deeds : Deeds v clearing f g) : Since f g := by
  induction deeds with
  | refl => exact .refl f
  | tail _ deed ih => exact ih.trans deed.since

theorem Blank.since {view : View} (blank : Blank f g view) : Since f g where
  size := by
    rw [blank.size]
    exact Nat.le_succ _
  lineage there := by rw [blank.same there]
  below there := by rw [blank.same there]
  counter l := Nat.le_of_eq (blank.counter l).symm
  old held _ := (blank.holds held).2

theorem since_replay (f : Forest) (history : List Move) : Since f (f.replay history) := by
  induction history generalizing f with
  | nil => exact .refl f
  | cons m rest ih =>
    refine Since.trans ?_ (ih (f.move m))
    cases m with
    | base name => exact (Blank.newBase f name).since
    | sandbox name below =>
      rw [move]
      split
      · exact (Blank.sandbox f name below).since
      · exact .refl f
    | ask v op => exact (deeds_perform f v op).since

/-- The view has not lost an edit and has not been closed. -/
structure Kept (f g : Forest) (v : ViewId) : Prop where
  closed : (g.view v).closed = (f.view v).closed
  edits : ∀ k, (f.view v).edits.get? k ≠ none → (g.view v).edits.get? k ≠ none

namespace Kept

theorem of_view (same : g.view v = f.view v) : Kept f g v :=
  ⟨by rw [same], fun k edited => by rwa [same]⟩

theorem trans (first : Kept f g v) (second : Kept g h v) : Kept f h v :=
  ⟨second.closed.trans first.closed, fun k edited => second.edits k (first.edits k edited)⟩

theorem of_deed (deed : Deed v false f g) (u : ViewId) : Kept f g u := by
  by_cases same : u = v
  · subst same
    cases deed with
    | write kind key object there keyed =>
      refine ⟨by rw [view_commit there], fun k edited => ?_⟩
      rw [view_commit there, SortedMap.get?_insert]
      split
      · simp
      · exact edited
    | note event there =>
      exact ⟨by rw [view_modify_self there], fun k edited => by rwa [view_modify_self there]⟩
  · exact of_view (deed.confined.elsewhere same)

theorem of_deeds (deeds : Deeds v false f g) (u : ViewId) : Kept f g u := by
  induction deeds with
  | refl => exact of_view rfl
  | tail _ deed ih => exact ih.trans (of_deed deed u)

theorem of_move {m : Move} (there : u < f.views.size) (noReset : m ≠ .ask u .reset)
    (noClose : m ≠ .ask u .close) : Kept f (f.move m) u := by
  cases m with
  | base name => exact of_view ((grown_newBase f name).same there)
  | sandbox name below =>
    rw [move]
    split
    · exact of_view ((grown_sandbox f name below).same there)
    · exact of_view rfl
  | ask v op =>
    have deeds := deeds_perform f v op
    cases op with
    | reset =>
      refine of_view (deeds.confined.elsewhere ?_)
      rintro rfl
      exact noReset rfl
    | close =>
      refine of_view (deeds.confined.elsewhere ?_)
      rintro rfl
      exact noClose rfl
    | edit | bindAndReport | record | reportUnschedulable | load => exact of_deeds deeds u

end Kept

theorem kept_replay {history : List Move} (there : u < f.views.size)
    (noReset : Move.ask u .reset ∉ history) (noClose : Move.ask u .close ∉ history) :
    Kept f (f.replay history) u := by
  induction history generalizing f with
  | nil => exact .of_view rfl
  | cons m rest ih =>
    rw [List.mem_cons, not_or] at noReset noClose
    have first : Kept f (f.move m) u := .of_move there (Ne.symm noReset.1) (Ne.symm noClose.1)
    exact first.trans (ih (Nat.lt_of_lt_of_le there (since_replay f [m]).size) noReset.2 noClose.2)

/-- An object that a view shows under a key, looked up or listed. -/
def Reads (f : Forest) (v : ViewId) (k : ObjectKey) (st : Stored) : Prop :=
  f.get v k = .ok (some st) ∨ ∃ kind entries, f.list v kind = .ok entries ∧ (k, st) ∈ entries

section Reading

variable {k : ObjectKey} {st : Stored}

/-- However it is read, it is what a lookup finds. -/
theorem Reads.found (reads : f.Reads v k st) :
    View.readThrough k ((f.line v).map f.view) = some st := by
  rw [← stack_eq]
  obtain found | ⟨kind, entries, listed, entry⟩ := reads
  · exact (open_of_whileOpen found).2
  · simp only [list] at listed
    split at listed
    · simp at listed
    · rename_i nothingClosed
      obtain rfl := Except.ok.inj listed
      have opened : ∀ w ∈ f.stack v, w.closed = false := fun w hw => by
        simpa using List.find?_eq_none.mp nothingClosed w hw
      rw [View.readThrough_eq k _ opened]
      exact (SortedMap.mem_entries_iff _).mp (List.mem_filter.mp entry).1

theorem Reads.lt_size (reads : f.Reads v k st) : v < f.views.size := by
  apply Nat.lt_of_not_le
  intro gone
  have found := reads.found
  rw [line, List.map_cons, view_of_size_le gone] at found
  simp [View.missing, View.readThrough] at found

/-- What is found going down a line, a view of the line holds. -/
theorem held_of_found {line : List ViewId}
    (found : View.readThrough k (line.map f.view) = some st) : ∃ w ∈ line, f.Holds w k st := by
  induction line with
  | nil => simp [View.readThrough] at found
  | cons top rest ih =>
    rw [List.map_cons, View.readThrough] at found
    split at found
    · simp at found
    · cases edit : (f.view top).edits.get? k with
      | some entry =>
        rw [edit] at found
        exact ⟨top, by simp, by rw [Holds, edit]; exact congrArg some found⟩
      | none =>
        rw [edit] at found
        obtain ⟨w, hw, held⟩ := ih found
        exact ⟨w, by simp [hw], held⟩

theorem Reads.held (orderly : f.Orderly) (reads : f.Reads v k st) :
    ∃ w, f.Holds w k st ∧ (f.view w).lineage = (f.view v).lineage := by
  obtain ⟨w, hw, held⟩ := held_of_found reads.found
  exact ⟨w, held, lineage_of_mem_line orderly.valid orderly.lineages hw⟩

theorem Reads.version_le (orderly : f.Orderly) (reads : f.Reads v k st) :
    st.version ≤ f.version v := by
  obtain ⟨w, held, lineage⟩ := reads.held orderly
  rw [version_eq, ← lineage, ← version_eq]
  exact orderly.stamped.held held

/-- Objects that are read with one version in one lineage are one object, whenever they are read. -/
theorem Reads.same_of_version (orderly : f.Orderly) (later : List Move) {k' : ObjectKey}
    {st' : Stored} (reads : f.Reads u k st) (reads' : (f.replay later).Reads v k' st')
    (sameRoot : (f.replay later).root u = (f.replay later).root v)
    (sameVersion : st.version = st'.version) : k = k' ∧ st = st' := by
  have orderly' : (f.replay later).Orderly := orderly.replay later
  have since : Since f (f.replay later) := since_replay f later
  have there := reads.lt_size
  obtain ⟨w, held, lineage⟩ := reads.held orderly
  obtain ⟨w', held', lineage'⟩ := reads'.held orderly'
  have shared : ((f.replay later).view w').lineage = (f.view u).lineage := by
    rw [lineage', ← since.lineage there]
    exact ((lineage_eq_iff orderly'.valid orderly'.lineages (Nat.lt_of_lt_of_le there since.size)
      reads'.lt_size).mpr sameRoot).symm
  -- A version this old was handed out before the time in between, so the object was there then.
  have bound : st'.version ≤ f.counter ((f.replay later).view w').lineage := by
    rw [shared, ← sameVersion]
    exact reads.version_le orderly
  have before : f.Holds w' k' st' := since.old held' bound
  rw [since.lineage before.lt_size, ← lineage] at shared
  exact orderly.stamped.unique held before shared.symm sameVersion

/-- Down a line that loses no edits, what is found is not older than what was found: where the view
that had the object has not written the key again, a nearer view would have had to. -/
theorem version_le_of_found {line : List ViewId} {n : Nat} {st' : Stored}
    (kept : ∀ w ∈ line, Kept f g w)
    (old : ∀ w ∈ line, ∀ st, g.Holds w k st → st.version ≤ n → f.Holds w k st)
    (bound : st.version ≤ n) (found : View.readThrough k (line.map f.view) = some st)
    (found' : View.readThrough k (line.map g.view) = some st') : st.version ≤ st'.version := by
  induction line with
  | nil => simp [View.readThrough] at found
  | cons top rest ih =>
    rw [List.map_cons, View.readThrough] at found found'
    split at found
    · simp at found
    split at found'
    · simp at found'
    by_cases newer : st'.version ≤ n
    · cases edit' : (g.view top).edits.get? k with
      | some entry' =>
        rw [edit'] at found'
        have held : f.Holds top k st' :=
          old top (by simp) st' (by rw [Holds, edit']; exact congrArg some found') newer
        rw [Holds] at held
        rw [held] at found
        exact Nat.le_of_eq (congrArg Stored.version (Option.some.inj found)).symm
      | none =>
        have unedited : (f.view top).edits.get? k = none := by
          apply Classical.byContradiction
          intro edited
          exact (kept top (by simp)).edits k edited edit'
        rw [edit'] at found'
        rw [unedited] at found
        exact ih (fun w hw => kept w (by simp [hw])) (fun w hw => old w (by simp [hw])) found found'
    · exact Nat.le_trans bound (Nat.le_of_lt (Nat.lt_of_not_le newer))

/-- What a view shows under a key does not get older, as long as nothing that it reads through is
reset or closed. -/
theorem Reads.version_mono (orderly : f.Orderly) {later : List Move} {st' : Stored}
    (spared : ∀ u ∈ f.line v, Move.ask u .reset ∉ later ∧ Move.ask u .close ∉ later)
    (reads : f.Reads v k st) (reads' : (f.replay later).Reads v k st') :
    st.version ≤ st'.version := by
  have since : Since f (f.replay later) := since_replay f later
  have there := reads.lt_size
  have line : (f.replay later).line v = f.line v := by
    rw [Forest.line, Forest.line, since.below there]
  have found' := reads'.found
  rw [line] at found'
  have inside {w : ViewId} (hw : w ∈ f.line v) : w < f.views.size :=
    Nat.lt_of_le_of_lt (orderly.valid.le_of_mem_line hw) there
  refine version_le_of_found (fun w hw => ?_) (fun w hw st held bound => ?_)
    (reads.version_le orderly) reads.found found'
  · exact kept_replay (inside hw) (spared w hw).1 (spared w hw).2
  · refine since.old held ?_
    rw [since.lineage (inside hw), lineage_of_mem_line orderly.valid orderly.lineages hw]
    exact bound

end Reading

/-- A version that a lineage has handed out: the watchers of one of its views have been told. -/
def HandedOut (f : Forest) (root : ViewId) (n : Nat) : Prop :=
  ∃ u < f.views.size, f.root u = root ∧ ∃ c ∈ (f.view u).changes, c.version = n

/-- A write takes a version beyond all that its lineage has handed out. -/
theorem takes_next (orderly : f.Orderly) {op : Operation} {n : Nat}
    (done : op.perform f v = (h, .ok (some n))) :
    (∀ m, f.HandedOut (f.root v) m → m < n) ∧ f.version v < n ∧ h.version v = n ∧
      h.HandedOut (h.root v) n := by
  obtain ⟨there, rfl, kind, key, object, silent, confined⟩ := taken_of_perform done
  have written := confined_commit there kind key object
  refine ⟨?_, Nat.lt_succ_self _, ?_, ?_⟩
  · rintro m ⟨u, hu, sameRoot, c, told, rfl⟩
    have lineage := (lineage_eq_iff orderly.valid orderly.lineages hu there).mpr sameRoot
    have bound := orderly.stamped.sent told
    rw [version_eq, lineage, ← version_eq] at bound
    exact Nat.lt_succ_of_le bound
  · rw [← version_commit kind key object there (orderly.lineages.counted there), version_eq,
      version_eq, confined.lineage, counter, counter, silent.issued]
  · refine ⟨v, ?_, rfl, ⟨kind, key, f.version v + 1⟩, ?_, rfl⟩
    · rwa [confined.size, written.size]
    · rw [silent.changes, view_commit there]
      simp

/-- Versions stand for writes, in any forest that operations lead to. A write takes a version beyond
all that its lineage has handed out, and whatever answers without a version has taken none. Nothing
that can be read is newer than the last version of its lineage. Two objects that are read with one
version in one lineage, from whatever views and at whatever times, are one object under one key. And
as long as nothing that a view reads through is reset or closed, a key that it shows never falls
back to an older version. -/
theorem versions_identify_writes (past later : List Move) :
    let f := Forest.replay ∅ past
    let g := f.replay later
    (∀ v op h n, Operation.perform f v op = (h, .ok (some n)) →
      (∀ m, f.HandedOut (f.root v) m → m < n) ∧ f.version v < n ∧ h.version v = n ∧
        h.HandedOut (h.root v) n) ∧
    (∀ v op h answer, Operation.perform f v op = (h, answer) → (∀ s, op ≠ .load s) →
      (∀ n, answer ≠ .ok (some n)) →
      h.issued = f.issued ∧ ∀ u, (h.view u).changes = (f.view u).changes) ∧
    (∀ v k st, f.Reads v k st → st.version ≤ f.version v) ∧
    (∀ u v k k' st st', f.Reads u k st → g.Reads v k' st' → g.root u = g.root v →
      st.version = st'.version → k = k' ∧ st.object = st'.object) ∧
    (∀ v k st st', (∀ u ∈ f.line v, Move.ask u .reset ∉ later ∧ Move.ask u .close ∉ later) →
      f.Reads v k st → g.Reads v k st' → st.version ≤ st'.version) := by
  intro f g
  have orderly : f.Orderly := orderly_empty.replay past
  refine ⟨?_, ?_, ?_, ?_, ?_⟩
  · intro v op h n done
    exact takes_next orderly done
  · rintro v op h answer done single untaken
    have silent : Silent f (op.perform f v).1 := silent_perform single (by rwa [done])
    rw [done] at silent
    exact ⟨silent.issued, silent.changes⟩
  · intro v k st reads
    exact reads.version_le orderly
  · intro u v k k' st st' reads reads' sameRoot sameVersion
    obtain ⟨sameKey, same⟩ := reads.same_of_version orderly later reads' sameRoot sameVersion
    exact ⟨sameKey, by rw [same]⟩
  · intro v k st st' spared reads reads'
    exact reads.version_mono orderly spared reads'

def plainNode : ClusterObject := .node { name := "node", capacity := ∅, allocatable := ∅ }

def cordonedNode : ClusterObject :=
  .node { name := "node", capacity := ∅, allocatable := ∅, unschedulable := true }

/-- A sandbox over a base that has one node. -/
def nodeBelow : List Move :=
  [.base "base", .sandbox "sandbox" 0, .ask 0 (.edit (.create plainNode))]

/-- The base writes the node again, then the sandbox does. -/
def writtenTwice : List Move :=
  [.ask 0 (.edit (.update cordonedNode)), .ask 1 (.edit (.update plainNode))]

theorem versions_identify_writes_writtenTwice :
    let f := Forest.replay ∅ nodeBelow
    let g := f.replay writtenTwice
    f.Reads 1 ⟨.node, "node"⟩ ⟨plainNode, 1⟩ ∧ g.Reads 1 ⟨.node, "node"⟩ ⟨plainNode, 3⟩ ∧
      g.Reads 0 ⟨.node, "node"⟩ ⟨cordonedNode, 2⟩ ∧ g.version 1 = 3 ∧
      (⟨plainNode, 1⟩ : Stored).version ≤ (⟨plainNode, 3⟩ : Stored).version := by
  intro f g
  have before : f.Reads 1 ⟨.node, "node"⟩ ⟨plainNode, 1⟩ := .inl (by decide +kernel)
  have after : g.Reads 1 ⟨.node, "node"⟩ ⟨plainNode, 3⟩ := .inl (by decide +kernel)
  have below : g.Reads 0 ⟨.node, "node"⟩ ⟨cordonedNode, 2⟩ := .inl (by decide +kernel)
  obtain ⟨-, -, -, -, grows⟩ := versions_identify_writes nodeBelow writtenTwice
  refine ⟨before, after, below, by decide +kernel, grows 1 _ _ _ ?_ before after⟩
  intro u hu
  simp [writtenTwice]

end ScaleAdvisor.Forest
