import ScaleAdvisor.Proofs.View.Lookups

/-!
Watching a view is enough to know it. Every write is told once, with the version that it takes, and
nothing else is told; so whoever knew which versions a view showed, and hears of all its changes,
knows which ones it shows now. That takes for granted that nothing happens to what is below, and
that the view is not reset or closed, since watchers are told of neither.

* `learn?_change`: a change that is told makes of what was shown what is shown;
* `Announced`: what has been told from one moment to a later one, put together by `Announced.trans`;
* `announced_move`, `announced_replay`: one step, and any number of them;
* `watching_reproduces`: what a watcher receives, and what it can make of it.
-/

namespace ScaleAdvisor

/-- Which version is shown under each key. -/
abbrev VersionMap := ObjectKey → Option Nat

/-- What a watcher makes of a change: an added key has to be new to it, any other has to be
known. -/
def Change.learn? (m : VersionMap) (c : Change) : Option VersionMap :=
  match c.kind, m c.key with
  | .added, none => some (Function.update m c.key (some c.version))
  | .modified, some _ => some (Function.update m c.key (some c.version))
  | .deleted, some _ => some (Function.update m c.key none)
  | _, _ => none

/-- What a watcher makes of one change after another. -/
def Change.replay? (m : VersionMap) (cs : List Change) : Option VersionMap := cs.foldlM learn? m

theorem Change.replay?_append {m m' : VersionMap} {cs : List Change}
    (first : replay? m cs = some m') (later : List Change) :
    replay? m (cs ++ later) = replay? m' later := by
  rw [replay?, List.foldlM_append, ← replay?, first]
  rfl

/-- How a watcher is told of an edit that has taken a version. -/
def Edit.change (e : Edit) (version : Nat) : Change := ⟨e.kind, e.key, version⟩

/-- The edits that an operation tries in turn. -/
def Operation.edits : Operation → List Edit
  | .edit e => [e]
  | .bindAndReport k node => [.bind k node]
  | .load s => s.objects.map .create
  | _ => []

namespace Forest

/-- Which versions a view shows. -/
def versions (f : Forest) (v : ViewId) : VersionMap := fun k => (f.find? v k).map (·.version)

/-- One change for each edit that succeeds; the first failure ends them. -/
def changesOf (f : Forest) (v : ViewId) : List Edit → List Change
  | [] => []
  | e :: rest =>
    match e.perform f v with
    | .ok (g, n) => e.change n :: g.changesOf v rest
    | .error _ => []

/-- The changes that watchers of a view are to hear of in one step. -/
def changesBy (f : Forest) (v : ViewId) : Move → List Change
  | .ask u op => if u = v then f.changesOf v op.edits else []
  | _ => []

/-- The changes that they are to hear of in a row of steps. -/
def changesIn (f : Forest) (v : ViewId) : List Move → List Change
  | [] => []
  | m :: rest => f.changesBy v m ++ (f.move m).changesIn v rest

/-- The same for one row of steps after another. -/
def changesInEach (f : Forest) (v : ViewId) : List (List Move) → List (List Change)
  | [] => []
  | span :: rest => f.changesIn v span :: (f.replay span).changesInEach v rest

/-- In none of the steps anything happens to what is found below a view. -/
def SteadyBelow (f : Forest) (v : ViewId) (moves : List Move) : Prop :=
  ∀ before, before <+: moves → (f.replay before).findBelow v = f.findBelow v

variable {f g h : Forest} {v : ViewId}

/-- What watchers of a view have been told from one moment to a later one. -/
structure Announced (v : ViewId) (f g : Forest) (cs : List Change) : Prop where
  log : (g.view v).changes.toList = (f.view v).changes.toList ++ cs
  reproduces : Change.replay? (f.versions v) cs = some (g.versions v)
  ascending : (cs.map (·.version)).Pairwise (· < ·)
  bounds : ∀ c ∈ cs, f.version v < c.version ∧ c.version ≤ g.version v
  counts : f.version v ≤ g.version v

namespace Announced

/-- Nothing to tell of. -/
theorem silent (log : (g.view v).changes = (f.view v).changes) (shown : g.find? v = f.find? v)
    (counts : f.version v ≤ g.version v) : Announced v f g [] where
  log := by rw [log, List.append_nil]
  reproduces := by
    unfold versions
    rw [shown]
    rfl
  ascending := .nil
  bounds := by simp
  counts := counts

theorem refl (v : ViewId) (f : Forest) : Announced v f f [] := silent rfl rfl (Nat.le_refl _)

theorem trans {cs ds : List Change} (first : Announced v f g cs) (second : Announced v g h ds) :
    Announced v f h (cs ++ ds) where
  log := by rw [second.log, first.log, List.append_assoc]
  reproduces := by rw [Change.replay?_append first.reproduces, second.reproduces]
  ascending := by
    rw [List.map_append, List.pairwise_append]
    refine ⟨first.ascending, second.ascending, ?_⟩
    intro m hm n hn
    obtain ⟨c, hc, rfl⟩ := List.mem_map.mp hm
    obtain ⟨d, hd, rfl⟩ := List.mem_map.mp hn
    exact Nat.lt_of_le_of_lt (first.bounds c hc).2 (second.bounds d hd).1
  bounds := by
    rw [List.forall_mem_append]
    exact ⟨fun c hc => (first.bounds c hc).imp_right fun le => Nat.le_trans le second.counts,
      fun d hd => (second.bounds d hd).imp_left fun lt => Nat.lt_of_le_of_lt first.counts lt⟩
  counts := Nat.le_trans first.counts second.counts

end Announced

/-- The change that tells of an edit makes of what was shown what is shown. -/
theorem learn?_change (valid : f.Valid) {e : Edit} {n : Nat} (done : e.Done f v g n) :
    (e.change n).learn? (f.versions v) = some (g.versions v) := by
  obtain ⟨opened, taken, found, object, kept, rfl⟩ := done
  have shown : (f.commit v e.kind e.key object).1.versions v =
      Function.update (f.versions v) e.key (object.map fun _ => n) := by
    unfold versions
    rw [find?_commit valid opened]
    funext k
    by_cases same : k = e.key
    · subst same
      simp [taken, Function.comp_def]
    · simp [Function.update_of_ne same]
  have known : (f.versions v e.key).isSome = (e.kind != .added) := by
    rw [← found, versions, Option.isSome_map]
  rw [shown, Change.learn?, Edit.change]
  cases kind : e.kind with
  | added =>
    rw [kind] at known kept
    have absent : f.versions v e.key = none := Option.not_isSome_iff_eq_none.mp (by simp [known])
    obtain ⟨o, rfl⟩ := Option.isSome_iff_exists.mp kept
    simp [absent]
  | modified =>
    rw [kind] at known kept
    obtain ⟨old, present⟩ := Option.isSome_iff_exists.mp known
    obtain ⟨o, rfl⟩ := Option.isSome_iff_exists.mp kept
    simp [present]
  | deleted =>
    rw [kind] at known kept
    obtain ⟨old, present⟩ := Option.isSome_iff_exists.mp known
    obtain rfl : object = none := Option.not_isSome_iff_eq_none.mp (by simp [kept])
    simp [present]

/-- A write sends the one change that tells of it. -/
theorem announced_edit (orderly : f.Orderly) {e : Edit} {n : Nat}
    (done : e.perform f v = .ok (g, n)) : Announced v f g [e.change n] := by
  have wrote := done_of_perform orderly.valid done
  have learnt := learn?_change orderly.valid wrote
  obtain ⟨opened, taken, -, object, -, rfl⟩ := wrote
  have there := lt_size_of_open opened
  have next := version_commit e.kind e.key object there (orderly.lineages.counted there)
  constructor
  case log =>
    rw [view_commit there, taken]
    simp [Edit.change]
  case reproduces =>
    change (Change.learn? _ _).bind pure = _
    rw [learnt]
    rfl
  case ascending => simp
  case bounds => simp [Edit.change, next, taken]
  case counts => rw [next]; exact Nat.le_succ _

/-- Events are not told. -/
theorem announced_note (valid : f.Valid) (opened : (f.view v).closed = false) (e : ViewEvent) :
    Announced v f (f.modify v fun view => { view with events := view.events.push e }) [] := by
  have there := lt_size_of_open opened
  have deed : Deed v false f _ := .note e there
  have top := view_modify_self there fun view => { view with events := view.events.push e }
  refine .silent (by rw [top]) ?_ (deed.confined.version_le v)
  rw [find?_eq_mask opened, find?_eq_mask (by rw [top, opened]),
    deed.confined.findBelow_eq valid, top]
  rfl

theorem announced_record (valid : f.Valid) {reason : EventReason} {k : WorkloadKey}
    {node : Option String} {message : String} :
    Announced v f (Call.settle f (f.recordEvent v reason k node message)).1 [] := by
  cases made : f.recordEvent v reason k node message with
  | error e => exact .refl v f
  | ok result =>
    obtain ⟨opened, event, written⟩ := recordEvent_eq_ok (n := result.2) made
    rw [Call.settle, written]
    exact announced_note valid opened event

/-- A single edit is told if it succeeds. -/
theorem announced_settle (orderly : f.Orderly) (e : Edit) :
    Announced v f (Call.settle f (e.perform f v)).1 (f.changesOf v [e]) := by
  rw [changesOf]
  cases made : e.perform f v with
  | error error => exact .refl v f
  | ok result => exact announced_edit orderly made

theorem Orderly.deed {clearing : Bool} (orderly : f.Orderly) (deed : Deed v clearing f g) :
    g.Orderly where
  valid := deed.valid orderly.valid
  lineages := deed.confined.lineages orderly.lineages
  stamped := Deeds.stamped (.single deed) orderly.stamped orderly.lineages

theorem announced_load (orderly : f.Orderly) (objects : List ClusterObject) :
    Announced v f (f.load v objects).1 (f.changesOf v (objects.map .create)) := by
  induction objects generalizing f with
  | nil => exact .refl v f
  | cons o rest ih =>
    rw [load, List.map_cons, changesOf, Edit.perform]
    cases made : f.create v o with
    | error error => exact .refl v f
    | ok result =>
      obtain ⟨g, n⟩ := result
      have first := announced_edit orderly (e := .create o) made
      exact first.trans (ih (orderly.deed (deed_edit (e := .create o) made)))

/-- What a view is asked short of a reset or a closing is told as it has to be. -/
theorem announced_perform (orderly : f.Orderly) {op : Operation} (keeps : op.clears = false) :
    Announced v f (op.perform f v).1 (f.changesOf v op.edits) := by
  cases op with
  | edit e => exact announced_settle orderly e
  | bindAndReport k node =>
    rw [Operation.edits, changesOf, Edit.perform, Operation.perform]
    cases made : f.bind v k node with
    | error e =>
      rw [run_bind_of_error made]
      exact .refl v f
    | ok result =>
      obtain ⟨g, n⟩ := result
      obtain ⟨event, run⟩ := run_bind_of_ok made
      have deed : Deed v false f g := deed_edit (e := .bind k node) made
      have opened : (g.view v).closed = false := by
        rw [Deeds.closed_eq (.single deed)]
        exact (bind_eq_ok made).1
      -- The event that follows the binding is not told.
      rw [run]
      exact (announced_edit orderly (e := .bind k node) made).trans
        (announced_note (deed.valid orderly.valid) opened event)
  | record => exact announced_record orderly.valid
  | reportUnschedulable => exact announced_record orderly.valid
  | load s => exact announced_load orderly s.objects
  | reset | close => cases keeps

/-- Nor is anything told where neither the view nor what is found below it changes. -/
theorem announced_of_view (same : g.view v = f.view v) (steady : g.findBelow v = f.findBelow v)
    (counts : f.version v ≤ g.version v) : Announced v f g [] := by
  refine .silent (by rw [same]) ?_ counts
  funext k
  have below : View.readThrough k ((g.view v).below.map g.view) =
      View.readThrough k ((f.view v).below.map f.view) := congrFun steady k
  rw [find?, find?, stack, stack, View.readThrough, View.readThrough, below, same]

/-- One step. -/
theorem announced_move (orderly : f.Orderly) (there : v < f.views.size) {m : Move}
    (noReset : m ≠ .ask v .reset) (noClose : m ≠ .ask v .close)
    (steady : (f.move m).findBelow v = f.findBelow v) :
    Announced v f (f.move m) (f.changesBy v m) := by
  have since : Since f (f.move m) := since_replay f [m]
  have counts : f.version v ≤ (f.move m).version v := by
    rw [version_eq, version_eq, since.lineage there]
    exact since.counter _
  cases m with
  | base name => exact announced_of_view ((grown_newBase f name).same there) steady counts
  | sandbox name below =>
    refine announced_of_view ?_ steady counts
    rw [move]
    split
    · exact (grown_sandbox f name below).same there
    · rfl
  | ask u op =>
    rw [changesBy]
    split
    · rename_i same
      subst same
      refine announced_perform orderly ?_
      cases op with
      | reset => exact absurd rfl noReset
      | close => exact absurd rfl noClose
      | edit | bindAndReport | record | reportUnschedulable | load => rfl
    · rename_i other
      exact announced_of_view ((confined_perform f u op).elsewhere (Ne.symm other)) steady counts

theorem replay_append (f : Forest) (first second : List Move) :
    f.replay (first ++ second) = (f.replay first).replay second := List.foldl_append

theorem SteadyBelow.first {first second : List Move} (steady : f.SteadyBelow v (first ++ second)) :
    f.SteadyBelow v first :=
  fun before within => steady before (within.trans (List.prefix_append first second))

theorem SteadyBelow.second {first second : List Move} (steady : f.SteadyBelow v (first ++ second)) :
    (f.replay first).SteadyBelow v second := by
  intro before within
  rw [← replay_append, steady _ ((List.prefix_append_right_inj first).mpr within),
    steady first (List.prefix_append first second)]

/-- Nothing happens to what is below if none of it is asked for anything. -/
theorem steadyBelow_of_unasked (valid : f.Valid) (there : v < f.views.size) {moves : List Move}
    (unasked : ∀ u op, Move.ask u op ∈ moves → u ∉ (f.view v).below) : f.SteadyBelow v moves := by
  rintro before ⟨after, rfl⟩
  induction before generalizing f with
  | nil => rfl
  | cons m rest ih =>
    have since : Since f (f.move m) := since_replay f [m]
    have below := since.below there
    have same : ∀ u ∈ (f.view v).below, (f.move m).view u = f.view u := by
      intro u hu
      have older : u < f.views.size := Nat.lt_trans (valid.lt_of_mem_below hu) there
      cases m with
      | base name => exact (grown_newBase f name).same older
      | sandbox name base =>
        rw [move]
        split
        · exact (grown_sandbox f name base).same older
        · rfl
      | ask w op =>
        refine (confined_perform f w op).elsewhere ?_
        rintro rfl
        exact unasked u op (by simp) hu
    have later : ∀ u op, Move.ask u op ∈ rest ++ after → u ∉ ((f.move m).view v).below := by
      intro u op asked
      rw [below]
      exact unasked u op (List.mem_cons_of_mem _ asked)
    exact (ih (valid_move valid m) (Nat.lt_of_lt_of_le there since.size) later).trans
      (findBelow_congr below same)

/-- Any number of steps. -/
theorem announced_replay {moves : List Move} (orderly : f.Orderly) (there : v < f.views.size)
    (noReset : Move.ask v .reset ∉ moves) (noClose : Move.ask v .close ∉ moves)
    (steady : f.SteadyBelow v moves) : Announced v f (f.replay moves) (f.changesIn v moves) := by
  induction moves generalizing f with
  | nil => exact .refl v f
  | cons m rest ih =>
    rw [List.mem_cons, not_or] at noReset noClose
    have steady' : f.SteadyBelow v ([m] ++ rest) := steady
    have first := announced_move orderly there (Ne.symm noReset.1) (Ne.symm noClose.1)
      (steady'.first [m] (List.prefix_refl _))
    exact first.trans (ih (orderly.move m) (Nat.lt_of_lt_of_le there (since_replay f [m]).size)
      noReset.2 noClose.2 steady'.second)

end Forest

namespace Watcher

open Forest

/-- What a watcher receives that lets some steps happen and then reads all there is to read, and so
on: each time the number of changes that it has missed, and the changes. -/
def follow (w : Watcher) (f : Forest) : List (List Move) → List (Nat × List Change)
  | [] => []
  | span :: rest =>
    let (w', missed, changes) := w.drain (f.replay span)
    (missed, changes) :: w'.follow (f.replay span) rest

/-- Of too many changes at once only the last are kept. -/
def lagging (cs : List Change) : Nat × List Change := (cs.length - kept, cs.drop (cs.length - kept))

variable {f g : Forest} {v : ViewId}

/-- Whoever has read everything reads next what has been told since. -/
theorem drain_of_announced {cs : List Change} (told : Announced v f g cs) :
    (subscribe f v).drain g = (subscribe g v, lagging cs) := by
  have size : (g.view v).changes.size = (f.view v).changes.size + cs.length := by
    rw [← Array.length_toList, told.log, List.length_append, Array.length_toList]
  have start : max (f.view v).changes.size ((g.view v).changes.size - kept) =
      (f.view v).changes.size + (cs.length - kept) := by
    rw [size]
    omega
  have unread (n : Nat) : ((f.view v).changes.toList ++ cs).drop ((f.view v).changes.size + n) =
      cs.drop n := by
    rw [← Array.length_toList, List.drop_length_add_append]
  simp only [drain, subscribe, start, told.log, lagging, unread, Nat.add_sub_cancel_left]

theorem follow_eq {spans : List (List Move)} (orderly : f.Orderly) (there : v < f.views.size)
    (noReset : Move.ask v .reset ∉ spans.flatten) (noClose : Move.ask v .close ∉ spans.flatten)
    (steady : f.SteadyBelow v spans.flatten) :
    (subscribe f v).follow f spans = (f.changesInEach v spans).map lagging ∧
      Announced v f (f.replay spans.flatten) (f.changesInEach v spans).flatten := by
  induction spans generalizing f with
  | nil => exact ⟨rfl, .refl v f⟩
  | cons span rest ih =>
    rw [List.flatten_cons] at noReset noClose steady ⊢
    rw [List.mem_append, not_or] at noReset noClose
    have first := announced_replay orderly there noReset.1 noClose.1 steady.first
    obtain ⟨received, later⟩ := ih (orderly.replay span)
      (Nat.lt_of_lt_of_le there (since_replay f span).size) noReset.2 noClose.2 steady.second
    rw [replay_append, changesInEach, List.flatten_cons]
    refine ⟨?_, first.trans later⟩
    rw [follow, drain_of_announced first, List.map_cons, ← received]

/-- Nothing is received out of order or twice. -/
theorem received_sublist (told : List (List Change)) :
    ((told.map lagging).flatMap (·.2)).Sublist told.flatten := by
  induction told with
  | nil => exact .slnil
  | cons cs rest ih =>
    rw [List.map_cons, List.flatMap_cons, List.flatten_cons]
    have last : (lagging cs).2.Sublist cs := by simp only [lagging, List.drop_sublist]
    exact last.append ih

/-- Whoever keeps up receives everything. -/
theorem map_lagging_eq {told : List (List Change)} (kept : ∀ cs ∈ told, cs.length ≤ kept) :
    told.map lagging = told.map fun cs => (0, cs) := by
  apply List.map_congr_left
  intro cs hcs
  rw [lagging, Nat.sub_eq_zero_of_le (kept cs hcs), List.drop_zero]

/-- A watcher of a view in any forest that operations can lead to. While anything is done to views
short of resetting and closing this one, and nothing happens to what is found below it, the watcher
receives a change for each edit that succeeds, in ascending order of versions. All the changes
together make of the versions that were shown at first those that are shown in the end: each added
key was new, and any other was there. Whoever lets no more than 256 changes come up receives all of
them; otherwise the watcher learns how many it has missed and receives the last 256. -/
theorem watching_reproduces (past : List Move) (v : ViewId)
    (there : v < (Forest.replay ∅ past).views.size) (spans : List (List Move))
    (noReset : Move.ask v .reset ∉ spans.flatten) (noClose : Move.ask v .close ∉ spans.flatten)
    (steady : (Forest.replay ∅ past).SteadyBelow v spans.flatten) :
    let f := Forest.replay ∅ past
    let g := f.replay spans.flatten
    let told := f.changesInEach v spans
    let received := (subscribe f v).follow f spans
    received = told.map (fun cs => (cs.length - 256, cs.drop (cs.length - 256))) ∧
    ((received.flatMap (·.2)).map (·.version)).Pairwise (· < ·) ∧
    Change.replay? (f.versions v) told.flatten = some (g.versions v) ∧
    ((∀ cs ∈ told, cs.length ≤ 256) →
      (∀ r ∈ received, r.1 = 0) ∧ received.flatMap (·.2) = told.flatten) := by
  intro f g told received
  obtain ⟨follows, announced⟩ :=
    follow_eq (orderly_empty.replay past) there noReset noClose steady
  have follows : received = told.map lagging := follows
  refine ⟨follows, ?_, announced.reproduces, ?_⟩
  · rw [follows]
    exact announced.ascending.sublist ((received_sublist told).map _)
  · intro inTime
    rw [follows, map_lagging_eq inTime]
    exact ⟨by simp, by simp [List.flatMap_map]⟩

/-- A sandbox over a node. -/
def nodeSandboxed : List Move :=
  [.base "base", .ask 0 (.edit (.create (.node worker))), .sandbox "sandbox" 0]

/-- The node can not be created, and is taken away; an event is recorded, and the node is created
after all. -/
def createdAnew : List (List Move) :=
  [[.ask 1 (.edit (.create (.node worker))), .ask 1 (.edit (.delete ⟨.node, "worker"⟩))],
    [.ask 1 (.reportUnschedulable ⟨"default", "web"⟩ "no node"),
      .ask 1 (.edit (.create (.node worker)))]]

theorem watching_reproduces_createdAnew :
    (subscribe (Forest.replay ∅ nodeSandboxed) 1).follow
    (Forest.replay ∅ nodeSandboxed) createdAnew =
      [(0, [⟨.deleted, ⟨.node, "worker"⟩, 2⟩]), (0, [⟨.added, ⟨.node, "worker"⟩, 3⟩])] ∧
    Change.replay? ((Forest.replay ∅ nodeSandboxed).versions 1)
        [⟨.deleted, ⟨.node, "worker"⟩, 2⟩, ⟨.added, ⟨.node, "worker"⟩, 3⟩] =
      some (((Forest.replay ∅ nodeSandboxed).replay createdAnew.flatten).versions 1) := by
  have there : 1 < (Forest.replay ∅ nodeSandboxed).views.size := by decide +kernel
  have below : ((Forest.replay ∅ nodeSandboxed).view 1).below = [0] := by decide +kernel
  have steady : (Forest.replay ∅ nodeSandboxed).SteadyBelow 1 createdAnew.flatten := by
    have asks : ∀ m ∈ createdAnew.flatten, ∃ op, m = .ask 1 op := by simp [createdAnew]
    apply steadyBelow_of_unasked (valid_replay valid_empty _) there
    intro u op asked
    obtain ⟨_, same⟩ := asks _ asked
    cases same
    simp [below]
  obtain ⟨-, -, reproduces, -⟩ := watching_reproduces nodeSandboxed 1 there createdAnew
    (by simp [createdAnew]) (by simp [createdAnew]) steady
  have told : ((Forest.replay ∅ nodeSandboxed).changesInEach 1 createdAnew).flatten =
      [⟨.deleted, ⟨.node, "worker"⟩, 2⟩, ⟨.added, ⟨.node, "worker"⟩, 3⟩] := by decide +kernel
  rw [told] at reproduces
  exact ⟨by decide +kernel, reproduces⟩

end Watcher

end ScaleAdvisor
