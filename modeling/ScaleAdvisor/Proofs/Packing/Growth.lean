import ScaleAdvisor.Proofs.Packing.Cluster

/-!
Contents that grow step by step. In each step a node goes in under a free name, and one cycle packs
whatever is pending. After the first step the contents are saturated, so a later step can only ever
use the node that it brings itself, and a node that was not used at once stays empty for good.

* `Grown.mem_pendingKeys_iff`, `Grown.disjoint`: what is pending is what no step has placed, and no
  workload is placed twice;
* `Grown.mem_of_bound`: whoever is bound stays where it is;
* `Grown.bound_or_placed`: every new binding is to an old node, or to the node of a step that has
  put it to use;
* `Grown.load_le`: no node carries more than it did or offers.
-/

namespace ScaleAdvisor.Cluster

open BinPack

/-- One step: the contents before it, and the node that it brings. -/
structure Growth where
  before : Cluster
  node : Node

namespace Growth

/-- The contents that the cycle of the step begins with. -/
def opened (g : Growth) : Cluster := g.before.addNode g.node

/-- The step places this workload somewhere. -/
def Places (g : Growth) (k : WorkloadKey) : Prop := ∃ node, ⟨k, some node⟩ ∈ g.opened.decisions

/-- The step puts its node to use. -/
def Uses (g : Growth) : Prop := ∃ k, ⟨k, some g.node.name⟩ ∈ g.opened.decisions

end Growth

/-- Contents that come from others by some steps. -/
inductive Grown (C : Cluster) : List Growth → Cluster → Prop where
  | start : Grown C [] C
  | add {steps : List Growth} {D : Cluster} {n : Node} (grown : Grown C steps D)
      (free : D.get? ⟨.node, n.name⟩ = none) (named : n.name ≠ "") :
      Grown C (steps ++ [⟨D, n⟩]) (D.addNode n).packed

namespace Grown

variable {C D : Cluster} {steps : List Growth}

theorem sound (grown : Grown C steps D) (start : C.Sound) : D.Sound := by
  induction grown with
  | start => exact start
  | add _ free named ih => exact (ih.addNode named free).packed

theorem runtimeClasses (grown : Grown C steps D) (start : C.Sound) :
    D.runtimeClasses = C.runtimeClasses := by
  induction grown with
  | start => rfl
  | add grown free named ih =>
    have opened := (grown.sound start).addNode named free
    rw [(sameButBound_packed opened.keyed opened.named).runtimeClasses,
      runtimeClasses_addNode free, ih]

theorem mem_nodes_iff (grown : Grown C steps D) (start : C.Sound) {m : Node} :
    m ∈ D.nodes ↔ m ∈ C.nodes ∨ m ∈ steps.map (·.node) := by
  induction grown with
  | start => simp
  | @add steps D n grown free named ih =>
    have before := grown.sound start
    have opened := before.addNode named free
    rw [(sameButBound_packed opened.keyed opened.named).nodes,
      mem_nodes_addNode before.keyed free, ih]
    simp only [List.map_append, List.map_cons, List.map_nil, List.mem_append, List.mem_singleton]
    tauto

/-- A step's node has a name of its own. -/
theorem nodup_names (grown : Grown C steps D) (start : C.Sound) :
    (steps.map (·.node.name)).Nodup ∧ ∀ n ∈ C.nodes, n.name ∉ steps.map (·.node.name) := by
  induction grown with
  | start => simp
  | @add steps D n grown free named ih =>
    have taken {m : Node} (hm : m ∈ D.nodes) : m.name ≠ n.name :=
      name_ne_of_free (grown.sound start).keyed free hm
    obtain ⟨once, apart⟩ := ih
    simp only [List.map_append, List.map_cons, List.map_nil]
    refine ⟨?_, ?_⟩
    · apply List.nodup_append.mpr
      refine ⟨once, by simp, ?_⟩
      rintro name hname _ hn rfl
      obtain ⟨g, hg, rfl⟩ := List.mem_map.mp hname
      have there := (grown.mem_nodes_iff start).mpr (.inr (List.mem_map_of_mem hg))
      exact taken there (List.mem_singleton.mp hn)
    · intro m hm
      rw [List.mem_append, List.mem_singleton, not_or]
      exact ⟨apart m hm, taken ((grown.mem_nodes_iff start).mpr (.inl hm))⟩

/-- Nothing that is pending fits anywhere once a cycle has run. -/
theorem saturated (grown : Grown C steps D) (start : C.Sound) (some : steps ≠ []) :
    D.Saturated := by
  cases grown with
  | start => exact absurd rfl some
  | add grown free named => exact packed_saturated ((grown.sound start).addNode named free)

theorem eq_of_nil (grown : Grown C steps D) (none : steps = []) : D = C := by
  cases grown with
  | start => rfl
  | add => simp at none

section Step

variable {n : Node} (before : D.Sound) (free : D.get? ⟨.node, n.name⟩ = none) (named : n.name ≠ "")

include before free named

/-- What a step does to what is pending. -/
theorem mem_pendingKeys_step {k : WorkloadKey} :
    k ∈ (D.addNode n).packed.pendingKeys.keys ↔
      k ∈ D.pendingKeys.keys ∧ ¬ (⟨D, n⟩ : Growth).Places k := by
  have opened := before.addNode named free
  rw [mem_pendingKeys_packed opened.keyed opened.named, pendingKeys_addNode free]
  simp [Growth.Places, Growth.opened]

theorem pending_of_places {k : WorkloadKey} (placed : (⟨D, n⟩ : Growth).Places k) :
    k ∈ D.pendingKeys.keys := by
  have opened := before.addNode named free
  obtain ⟨node, hd⟩ := placed
  rw [← pendingKeys_addNode free, ← mem_decided_iff opened.keyed opened.named]
  exact List.mem_map_of_mem (f := (·.workload)) hd

/-- Every workload after a step was there before, or was pending and has been bound to a node that
takes it. -/
theorem bound_or_placed_step {x : Workload} (hx : x ∈ (D.addNode n).packed.workloads) :
    x ∈ D.workloads ∨ ∃ w ∈ D.workloads, w.isPending = true ∧ ∃ m, (m = n ∨ m ∈ D.nodes) ∧
      x = w.bindTo m.name ∧ admits w m = true ∧ ⟨w.key, some m.name⟩ ∈ (D.addNode n).decisions := by
  have opened := before.addNode named free
  obtain ⟨w, hw, ⟨node, hd, rfl⟩ | ⟨-, rfl⟩⟩ :=
    (mem_workloads_packed opened.keyed opened.named).mp hx
  · rw [workloads_addNode free] at hw
    obtain ⟨u, hu, pending, key, m, hm, rfl, taken⟩ :=
      exists_of_mem_decisions opened.keyed opened.named hd
    rw [workloads_addNode free] at hu
    obtain rfl := List.inj_on_of_nodup_map (nodup_workloads before.keyed) hu hw key
    exact .inr ⟨u, hw, pending, m, (mem_nodes_addNode before.keyed free).mp hm, rfl, taken, hd⟩
  · rw [workloads_addNode free] at hw
    exact .inl hw

theorem mem_step_of_bound {w : Workload} (hw : w ∈ D.workloads) (bound : w.isPending = false) :
    w ∈ (D.addNode n).packed.workloads := by
  have opened := before.addNode named free
  apply mem_packed_of_bound opened.keyed opened.named _ bound
  rwa [workloads_addNode free]

/-- Over saturated contents a step can use its own node only. -/
theorem only_own_node (saturated : D.Saturated) {k : WorkloadKey} {node : String}
    (hd : ⟨k, some node⟩ ∈ (D.addNode n).decisions) : node = n.name := by
  obtain ⟨w, hw, pending, -, m, hm, rfl, room⟩ :=
    fits_of_mem_decisions (before.addNode named free) hd
  rw [workloads_addNode free] at hw room
  rw [runtimeClasses_addNode free] at room
  rcases (mem_nodes_addNode before.keyed free).mp hm with rfl | hm
  · rfl
  · exact absurd room (saturated w hw pending m hm)

end Step

/-- Pending is just what no step has placed. -/
theorem mem_pendingKeys_iff (grown : Grown C steps D) (start : C.Sound) {k : WorkloadKey} :
    k ∈ D.pendingKeys.keys ↔ k ∈ C.pendingKeys.keys ∧ ∀ g ∈ steps, ¬ g.Places k := by
  induction grown with
  | start => simp
  | add grown free named ih =>
    rw [mem_pendingKeys_step (grown.sound start) free named, ih]
    simp only [List.mem_append, List.mem_singleton]
    constructor
    · rintro ⟨⟨hk, earlier⟩, last⟩
      refine ⟨hk, ?_⟩
      rintro g (hg | rfl)
      · exact earlier g hg
      · exact last
    · rintro ⟨hk, all⟩
      exact ⟨⟨hk, fun g hg => all g (.inl hg)⟩, all _ (.inr rfl)⟩

/-- Whoever is placed was pending at the start. -/
theorem pending_of_mem (grown : Grown C steps D) (start : C.Sound) {g : Growth} (hg : g ∈ steps)
    {k : WorkloadKey} (placed : g.Places k) : k ∈ C.pendingKeys.keys := by
  induction grown with
  | start => simp at hg
  | add grown free named ih =>
    obtain hg | hg := List.mem_append.mp hg
    · exact ih hg
    · obtain rfl := List.mem_singleton.mp hg
      have before := pending_of_places (grown.sound start) free named placed
      exact ((grown.mem_pendingKeys_iff start).mp before).1

/-- No workload is placed by two steps. -/
theorem disjoint (grown : Grown C steps D) (start : C.Sound) :
    steps.Pairwise fun g h => ∀ k, g.Places k → ¬ h.Places k := by
  induction grown with
  | start => exact .nil
  | add grown free named ih =>
    apply List.pairwise_append.mpr
    refine ⟨ih, List.pairwise_singleton _ _, ?_⟩
    intro g hg h hh k placed again
    obtain rfl := List.mem_singleton.mp hh
    have before := pending_of_places (grown.sound start) free named again
    exact ((grown.mem_pendingKeys_iff start).mp before).2 g hg placed

/-- Whoever is bound stays where it is. -/
theorem mem_of_bound (grown : Grown C steps D) (start : C.Sound) {w : Workload}
    (hw : w ∈ C.workloads) (bound : w.isPending = false) : w ∈ D.workloads := by
  induction grown with
  | start => exact hw
  | add grown free named ih => exact mem_step_of_bound (grown.sound start) free named ih bound

/-- What is still pending has never been touched. -/
theorem mem_of_pending (grown : Grown C steps D) (start : C.Sound) {w : Workload}
    (hw : w ∈ D.workloads) (pending : w.isPending = true) : w ∈ C.workloads := by
  induction grown with
  | start => exact hw
  | add grown free named ih =>
    have opened := (grown.sound start).addNode named free
    have before := ((mem_pending_packed opened.keyed opened.named).mp ⟨hw, pending⟩).1
    rw [workloads_addNode free] at before
    exact ih before

/-- Every workload was there at the start, or was pending then and has been bound to a node that
takes it: one that was there at the start too, or one that a step has brought and put to use. -/
theorem bound_or_placed (grown : Grown C steps D) (start : C.Sound) {x : Workload}
    (hx : x ∈ D.workloads) :
    x ∈ C.workloads ∨ ∃ w ∈ C.workloads, w.isPending = true ∧ ∃ m, x = w.bindTo m.name ∧
      admits w m = true ∧ (m ∈ C.nodes ∨ ∃ g ∈ steps, g.node = m ∧ g.Uses) := by
  induction grown generalizing x with
  | start => exact .inl hx
  | @add steps D n grown free named ih =>
    have before := grown.sound start
    rcases bound_or_placed_step before free named hx with hx |
      ⟨w, hw, pending, m, there, rfl, taken, hd⟩
    · rcases ih hx with old | ⟨w, hw, pending, m, rfl, taken, old | ⟨g, hg, own, used⟩⟩
      · exact .inl old
      · exact .inr ⟨w, hw, pending, m, rfl, taken, .inl old⟩
      · exact .inr ⟨w, hw, pending, m, rfl, taken, .inr ⟨g, by simp [hg], own, used⟩⟩
    · refine .inr ⟨w, grown.mem_of_pending start hw pending, pending, m, rfl, taken, ?_⟩
      rcases there with rfl | old
      · exact .inr ⟨⟨D, m⟩, by simp, rfl, w.key, hd⟩
      · -- An old node can be used in the first step only.
        by_cases first : steps = []
        · rw [grown.eq_of_nil first] at old
          exact .inl old
        · have own := only_own_node before free named (grown.saturated start first) hd
          exact absurd own (name_ne_of_free before.keyed free old)

/-- No workload ever goes away. -/
theorem exists_of_key (grown : Grown C steps D) (start : C.Sound) {w : Workload}
    (hw : w ∈ C.workloads) :
    ∃ x ∈ D.workloads, x.key = w.key := by
  induction grown with
  | start => exact ⟨w, hw, rfl⟩
  | @add _ D n grown free named ih =>
    have opened := (grown.sound start).addNode named free
    obtain ⟨x, hx, key⟩ := ih
    rw [← workloads_addNode free] at hx
    by_cases placed : ∃ node, ⟨x.key, some node⟩ ∈ (D.addNode n).decisions
    · obtain ⟨node, hd⟩ := placed
      exact ⟨x.bindTo node, (mem_workloads_packed opened.keyed opened.named).mpr
        ⟨x, hx, .inl ⟨node, hd, rfl⟩⟩, key⟩
    · exact ⟨x, (mem_workloads_packed opened.keyed opened.named).mpr
        ⟨x, hx, .inr ⟨fun node hd => placed ⟨node, hd⟩, rfl⟩⟩, key⟩

/-- Whoever is pending no more is bound to a node of the start, or to one that a step has brought
and put to use. -/
theorem bound_of_not_pending (grown : Grown C steps D) (start : C.Sound) {w : Workload}
    (hw : w ∈ C.workloads) (pending : w.isPending = true) (settled : w.key ∉ D.pendingKeys.keys) :
    ∃ m, w.bindTo m.name ∈ D.workloads ∧ (m ∈ C.nodes ∨ ∃ g ∈ steps, g.node = m ∧ g.Uses) := by
  obtain ⟨x, hx, key⟩ := grown.exists_of_key start hw
  rcases grown.bound_or_placed start hx with old | ⟨u, hu, -, m, rfl, -, there⟩
  · obtain rfl := List.inj_on_of_nodup_map (nodup_workloads start.keyed) old hw key
    exact absurd (mem_pendingKeys.mpr ⟨x, hx, pending, rfl⟩) settled
  · obtain rfl := List.inj_on_of_nodup_map (nodup_workloads start.keyed) hu hw key
    exact ⟨m, hx, there⟩

/-- A node that its step has not put to use is never used. -/
theorem not_bound_of_unused (grown : Grown C steps D) (start : C.Sound) {g : Growth}
    (hg : g ∈ steps) (unused : ¬ g.Uses) {w : Workload} (hw : w ∈ C.workloads)
    (pending : w.isPending = true) : w.bindTo g.node.name ∉ D.workloads := by
  intro bound
  have there := (grown.mem_nodes_iff start).mpr (.inr (List.mem_map_of_mem hg))
  have named := (grown.sound start).named _ there
  obtain ⟨once, apart⟩ := grown.nodup_names start
  rcases grown.bound_or_placed start bound with
    old | ⟨u, hu, -, m, same, -, old | ⟨h, hh, rfl, used⟩⟩
  · obtain same := List.inj_on_of_nodup_map (nodup_workloads start.keyed) old hw rfl
    have settled := w.not_isPending_bindTo named
    rw [same, pending] at settled
    simp at settled
  · have name : g.node.name = m.name := Option.some.inj (congrArg Workload.nodeName same)
    apply apart m old
    rw [← name]
    exact List.mem_map_of_mem (f := (·.node.name)) hg
  · have name : g.node.name = h.node.name := Option.some.inj (congrArg Workload.nodeName same)
    have one := List.inj_on_of_nodup_map once hg hh name
    rw [one] at unused
    exact unused used

/-- A node that is put to use carries a workload that was pending at the start. -/
theorem exists_bound_of_uses (grown : Grown C steps D) (start : C.Sound) {g : Growth}
    (hg : g ∈ steps) (used : g.Uses) : ∃ w ∈ C.workloads, w.isPending = true ∧
    w.bindTo g.node.name ∈ D.workloads := by
  induction grown with
  | start => simp at hg
  | @add steps D n grown free named ih =>
    have before := grown.sound start
    have opened := before.addNode named free
    obtain hg | hg := List.mem_append.mp hg
    · obtain ⟨w, hw, pending, bound⟩ := ih hg
      have there := (grown.mem_nodes_iff start).mpr (.inr (List.mem_map_of_mem hg))
      exact ⟨w, hw, pending, mem_step_of_bound before free named bound
        (w.not_isPending_bindTo (before.named _ there))⟩
    · obtain rfl := List.mem_singleton.mp hg
      obtain ⟨k, hd⟩ := used
      have hk := pending_of_places before free named (k := k) ⟨n.name, hd⟩
      obtain ⟨w, hw, pending, rfl⟩ := mem_pendingKeys.mp hk
      refine ⟨w, grown.mem_of_pending start hw pending, pending, ?_⟩
      refine (mem_workloads_packed opened.keyed opened.named).mpr ⟨w, ?_, .inl ⟨n.name, hd, rfl⟩⟩
      rwa [workloads_addNode free]

/-- A name that no node has is bound to no more than at the start. -/
theorem load_eq_of_unlisted (grown : Grown C steps D) (start : C.Sound) {name : String}
    (unlisted : ∀ m ∈ D.nodes, m.name ≠ name) (resource : String) :
    load D.runtimeClasses D.workloads name resource =
      load C.runtimeClasses C.workloads name resource := by
  induction grown with
  | start => rfl
  | @add steps D n grown free named ih =>
    have before := grown.sound start
    have opened := before.addNode named free
    rw [(sameButBound_packed opened.keyed opened.named).nodes] at unlisted
    rw [load_packed_of_unlisted opened unlisted, workloads_addNode free,
      runtimeClasses_addNode free]
    exact ih fun m hm => unlisted m ((mem_nodes_addNode before.keyed free).mpr (.inr hm))

/-- No node carries more than it did at the start or offers, whichever is more. -/
theorem load_le (grown : Grown C steps D) (start : C.Sound) {m : Node} (hm : m ∈ D.nodes)
    (resource : String)
    (fair : load C.runtimeClasses C.workloads m.name resource ≤
      m.allocatable.get resource + twoTo 63) :
    load D.runtimeClasses D.workloads m.name resource ≤
      max (load C.runtimeClasses C.workloads m.name resource) (m.allocatable.get resource) := by
  have large : (twoTo 63 : Int) = 9223372036854775808 := rfl
  induction grown with
  | start => omega
  | @add steps D n grown free named ih =>
    have before := grown.sound start
    have opened := before.addNode named free
    rw [(sameButBound_packed opened.keyed opened.named).nodes] at hm
    have step := load_packed_le opened.keyed opened.named hm resource
    rw [workloads_addNode free, runtimeClasses_addNode free] at step
    rcases (mem_nodes_addNode before.keyed free).mp hm with rfl | old
    · rw [grown.load_eq_of_unlisted start fun _ h => name_ne_of_free before.keyed free h] at step
      exact step fair
    · have earlier := ih old
      have step := step (by omega)
      omega

end Grown

end ScaleAdvisor.Cluster
