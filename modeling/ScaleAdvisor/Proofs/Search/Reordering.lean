import Mathlib.Data.List.Perm.Basic
import ScaleAdvisor.Proofs.Search.Replays

/-!
The order in which a request declares things. Two requests that list the same, in whatever order,
have base views of the same contents, and groups of the same candidates; so the same picks lead both
to the same outcome, as long as nothing disturbs them.

* `Snapshot.Reordered.cluster_eq`: a base view does not tell in which order it was loaded;
* `CandidateGroup.rearranged_ofPools`: groups do not depend on the order of pools, templates and
  zones;
* `declaration_order_irrelevant`: nor do plans and errors.
-/

namespace ScaleAdvisor

/-- The same objects, those of each kind in any order. -/
structure Snapshot.Reordered (s s' : Snapshot) : Prop where
  nodes : s'.nodes.Perm s.nodes
  workloads : s'.workloads.Perm s.workloads
  priorityClasses : s'.priorityClasses.Perm s.priorityClasses
  runtimeClasses : s'.runtimeClasses.Perm s.runtimeClasses

/-- The same pool, its templates and its zones in any order. -/
structure NodePool.Reordered (p q : NodePool) : Prop where
  bare : q.bare = p.bare
  templates : q.templates.Perm p.templates
  zones : q.zones.Perm p.zones

/-- The same request, all that it lists in any order. -/
structure AdviceRequest.Reordered (r r' : AdviceRequest) : Prop where
  rest : { r' with snapshot := r.snapshot, pools := r.pools } = r
  snapshot : r.snapshot.Reordered r'.snapshot
  pools : ∃ pools, pools.Perm r.pools ∧ List.Forall₂ NodePool.Reordered pools r'.pools

/-- The same pool, declared the other way round. -/
def NodePool.reversed (p : NodePool) : NodePool :=
  { p with templates := p.templates.reverse, zones := p.zones.reverse }

/-- The same request, declared the other way round. -/
def AdviceRequest.reversed (r : AdviceRequest) : AdviceRequest where
  __ := r
  snapshot := {
    nodes := r.snapshot.nodes.reverse
    workloads := r.snapshot.workloads.reverse
    priorityClasses := r.snapshot.priorityClasses.reverse
    runtimeClasses := r.snapshot.runtimeClasses.reverse }
  pools := (r.pools.map NodePool.reversed).reverse

theorem AdviceRequest.reordered_reversed (r : AdviceRequest) : r.Reordered r.reversed := by
  have pool (p : NodePool) : p.Reordered p.reversed :=
    ⟨rfl, List.reverse_perm _, List.reverse_perm _⟩
  refine ⟨rfl, ⟨List.reverse_perm _, List.reverse_perm _, List.reverse_perm _, List.reverse_perm _⟩,
    r.pools.reverse, List.reverse_perm _, ?_⟩
  rw [reversed, ← List.map_reverse]
  exact List.forall₂_map_right_iff.mpr (List.forall₂_same.mpr fun p _ => pool p)

namespace Snapshot.Reordered

variable {s s' : Snapshot}

theorem objects (same : s.Reordered s') : s'.objects.Perm s.objects :=
  (((same.priorityClasses.map _).append (same.runtimeClasses.map _)).append
    (same.nodes.map _)).append (same.workloads.map _)

theorem distinct (same : s.Reordered s') (distinct : s.Distinct) : s'.Distinct :=
  (same.objects.map _).nodup_iff.mpr distinct

/-- A base view does not tell in which order it was loaded. -/
theorem cluster_eq (same : s.Reordered s') (distinct : s.Distinct) : s'.cluster = s.cluster := by
  apply SortedMap.ext_get?
  intro k
  apply Option.ext
  intro o
  rw [get?_cluster distinct, get?_cluster (same.distinct distinct), same.objects.mem_iff]

end Snapshot.Reordered

/-- The names of a pool's templates are distinct if those of its candidates are, and it has any. -/
theorem NodePool.nodup_templates {p : NodePool}
    (distinct : ((Candidate.ofPool p).map Candidate.name).Nodup) {zone : String}
    (hz : zone ∈ p.zones) : (p.templates.map (·.name)).Nodup := by
  have part : (p.templates.map fun t => (⟨p, t.name, zone⟩ : Candidate)).Sublist
      (Candidate.ofPool p) := by
    rw [List.map_eq_flatMap]
    apply List.Sublist.flatMap_right
    intro t _
    exact List.singleton_sublist.mpr (List.mem_map_of_mem hz)
  have names := (part.map Candidate.name).nodup distinct
  rw [List.map_map] at names
  apply List.Nodup.of_map (fun name => Candidate.name ⟨p, name, zone⟩)
  rw [List.map_map]
  exact names

/-- A pool offers the same, whatever the order of its templates and zones. -/
theorem NodePool.Reordered.offers {p q : NodePool} (same : p.Reordered q)
    (distinct : ((Candidate.ofPool p).map Candidate.name).Nodup) :
    Candidate.Rearranged (Candidate.ofPool p) (Candidate.ofPool q) := by
  have listed (p : NodePool) :
    (Candidate.ofPool p).map Candidate.essence = p.templates.flatMap fun t =>
      p.zones.map fun zone => (⟨p.bare, t.name, zone⟩, p.template? t.name) := by
    rw [Candidate.ofPool, List.map_flatMap]
    simp only [List.map_map]
    rfl
  rw [Candidate.Rearranged, listed, listed]
  refine same.templates.flatMap fun t _ => ?_
  rw [same.bare]
  refine List.Perm.trans (same.zones.map _)
    (List.Perm.of_eq (List.map_congr_left fun zone hz => ?_))
  have found : q.template? t.name = p.template? t.name :=
    find?_key_perm same.templates (p.nodup_templates distinct hz) t.name
  rw [found]

/-- So do several pools together. -/
theorem rearranged_flatMap {pools pools' : List NodePool}
    (same : List.Forall₂ NodePool.Reordered pools pools')
    (distinct : ((pools.flatMap Candidate.ofPool).map Candidate.name).Nodup) :
    Candidate.Rearranged (pools.flatMap Candidate.ofPool) (pools'.flatMap Candidate.ofPool) := by
  induction same with
  | nil => exact .refl _
  | cons head _ ih =>
    rw [List.flatMap_cons, List.map_append, List.nodup_append] at distinct
    rw [List.flatMap_cons, List.flatMap_cons, Candidate.Rearranged, List.map_append,
      List.map_append]
    exact (head.offers distinct.1).append (ih distinct.2.1)

namespace CandidateGroup

variable {pools pools' : List NodePool}

/-- The candidates of one priority. -/
theorem rearranged_ofPriority {middle : List NodePool} (perm : middle.Perm pools)
    (same : List.Forall₂ NodePool.Reordered middle pools') (priority : Int)
    (distinct : ((ofPriority pools priority).candidates.map Candidate.name).Nodup) :
    Candidate.Rearranged (ofPriority pools priority).candidates
      (ofPriority pools' priority).candidates := by
  have first : ((middle.filter (·.priority == priority)).flatMap Candidate.ofPool).Perm
      (ofPriority pools priority).candidates :=
    (perm.filter _).flatMap_right _
  have chosen : List.Forall₂ NodePool.Reordered (middle.filter (·.priority == priority))
      (pools'.filter (·.priority == priority)) := by
    refine List.rel_filter ?_ same
    intro p q same
    have level : q.priority = p.priority := congrArg (·.priority) same.bare
    dsimp only
    rw [level]
  have second := rearranged_flatMap chosen ((first.map _).nodup_iff.mpr distinct)
  exact second.trans (first.map _)

/-- Groups do not depend on the order of pools, templates and zones. -/
theorem rearranged_ofPools {middle : List NodePool} (perm : middle.Perm pools)
    (same : List.Forall₂ NodePool.Reordered middle pools')
    (distinct : ∀ g ∈ ofPools pools, (g.candidates.map Candidate.name).Nodup) :
    List.Forall₂ (fun g g' => Candidate.Rearranged g.candidates g'.candidates) (ofPools pools)
      (ofPools pools') := by
  have priorities :
    KeySet.ofKeys (pools'.map (·.priority)) = KeySet.ofKeys (pools.map (·.priority)) := by
    have listed : pools'.map (·.priority) = middle.map (·.priority) :=
      Simulation.SideBySide.map_eq_of_matched same fun _ _ same => congrArg (·.priority) same.bare
    apply KeySet.ext_mem
    intro priority
    rw [KeySet.mem_keys_ofKeys, KeySet.mem_keys_ofKeys, listed, (perm.map _).mem_iff]
  have nodup (priority : Int) (listed : priority ∈ (KeySet.ofKeys (pools.map (·.priority))).keys) :
      ((ofPriority pools priority).candidates.map Candidate.name).Nodup := by
    cases empty : (ofPriority pools priority).candidates.isEmpty with
    | true => simp [List.isEmpty_iff.mp empty]
    | false =>
      exact distinct _ (List.mem_filter.mpr ⟨List.mem_map_of_mem listed, by simp [empty]⟩)
  rw [ofPools, ofPools, priorities]
  refine List.rel_filter
    (R := fun (g g' : CandidateGroup) => Candidate.Rearranged g.candidates g'.candidates) ?_ ?_
  · intro g g' same
    dsimp only
    rw [same.isEmpty]
  · refine List.forall₂_map_left_iff.mpr (List.forall₂_map_right_iff.mpr (List.forall₂_same.mpr ?_))
    exact fun priority listed => rearranged_ofPriority perm same priority (nodup priority listed)

end CandidateGroup

namespace ScaleOut

variable {σ τ F : Type} [Quantity F]

/-- A snapshot whose keys are distinct can be loaded. -/
theorem exists_opening {r : AdviceRequest} (distinct : r.snapshot.Distinct) (clock : σ) :
    ∃ w pending, opening r ∅ clock = (w, .ok pending) := by
  have valid := Forest.valid_newBase Forest.valid_empty ("base-" ++ r.id)
  have readable := Forest.readable_newBase ∅ ("base-" ++ r.id)
  obtain ⟨f, loaded⟩ := Forest.exists_load valid readable distinct fun o _ => by
    rw [Forest.cluster_newBase]
    rfl
  obtain ⟨valid', readable', -⟩ := Forest.loadSnapshot_newBase Forest.valid_empty loaded
  have loaded : (Forest.newBase ∅ ("base-" ++ r.id)).1.loadSnapshot
      (Forest.newBase ∅ ("base-" ++ r.id)).2 r.snapshot = (f, .ok ()) := loaded
  rw [opening]
  dsimp only
  rw [loaded]
  dsimp only
  rw [show (Forest.newBase ∅ ("base-" ++ r.id)).2 = (∅ : Forest).views.size from rfl,
    Forest.pending_eq valid' readable']
  exact ⟨_, _, rfl⟩

/-- What is asked of a request here. Candidates of different groups may share a name. -/
structure Proper (r : AdviceRequest) : Prop where
  distinct : r.snapshot.Distinct
  named : ∀ n ∈ r.snapshot.nodes, n.name ≠ ""
  nonneg : BinPack.NonNegative r.snapshot.runtimeClasses r.snapshot.workloads
  names : ∀ g ∈ CandidateGroup.ofPools r.pools, (g.candidates.map Candidate.name).Nodup

instance (r : AdviceRequest) : Decidable (Proper r) :=
  decidable_of_iff (r.snapshot.Distinct ∧ (∀ n ∈ r.snapshot.nodes, n.name ≠ "") ∧
      BinPack.NonNegative r.snapshot.runtimeClasses r.snapshot.workloads ∧
        ∀ g ∈ CandidateGroup.ofPools r.pools, (g.candidates.map Candidate.name).Nodup)
    ⟨fun ⟨distinct, named, nonneg, names⟩ => ⟨distinct, named, nonneg, names⟩,
      fun proper => ⟨proper.distinct, proper.named, proper.nonneg, proper.names⟩⟩

omit [Quantity F] in
/-- A search whose base view has just been loaded. -/
theorem poised_begun {ready : σ → Prop} {r : AdviceRequest} {clock : σ} {w : Workspace σ}
    {pending : KeySet WorkloadKey} (set : ready clock) (sound : r.snapshot.cluster.Sound)
    (opened : opening r ∅ clock = (w, .ok pending)) :
    (begun w pending : ScaleOut σ F).Poised ready ∧
      (begun w pending : ScaleOut σ F).contents = r.snapshot.cluster := by
  obtain ⟨clean, contents, rfl, -⟩ := opening_eq_ok set opened
  rw [← contents] at sound
  exact ⟨⟨clean, sound, congrArg Cluster.pendingKeys contents.symm⟩, contents⟩

/-- The order in which a request declares things does not matter. A pick is a place in the list of
the scores that tie, which come in order of their names; and the runs need not take their
simulations' steps in the same order, nor in the same time. -/
theorem declaration_order_irrelevant {c : Conductor σ} {d : Conductor τ} {ready : σ → Prop}
    {ready' : τ → Prop} {r r' : AdviceRequest} {clock : σ} {clock' : τ} {scoring : Scoring F}
    {picks : List Nat} (candid : c.Candid BinPack.algorithm ready) (set : ready clock)
    (candid' : d.Candid BinPack.algorithm ready') (set' : ready' clock')
    (same : r.Reordered r') (proper : Proper r)
    (smooth : ∀ t ∈ turns c r scoring ∅ clock picks, t.isSmooth = true)
    (smooth' : ∀ t ∈ turns d r' scoring ∅ clock' picks, t.isSmooth = true) :
    ((simulate d r' scoring ∅ clock').follow picks).outcome =
        ((simulate c r scoring ∅ clock).follow picks).outcome ∧
      ((simulate d r' scoring ∅ clock').follow picks).partials =
        ((simulate c r scoring ∅ clock).follow picks).partials := by
  have sound := Snapshot.sound_cluster proper.distinct proper.named proper.nonneg
  have equal := same.snapshot.cluster_eq proper.distinct
  obtain ⟨w, pending, opened⟩ := exists_opening proper.distinct clock
  obtain ⟨w', pending', opened'⟩ := exists_opening (same.snapshot.distinct proper.distinct) clock'
  obtain ⟨poised, contents⟩ := poised_begun (F := F) set sound opened
  obtain ⟨poised', contents'⟩ := poised_begun (F := F) set' (equal ▸ sound) opened'
  have twins : Twins ready ready' (begun w pending : ScaleOut σ F) (begun w' pending') :=
    ⟨poised, poised', by rw [contents', contents, equal], rfl, rfl, rfl, rfl⟩
  obtain ⟨pools, perm, each⟩ := same.pools
  have groups := CandidateGroup.rearranged_ofPools perm each proper.names
  obtain rfl : pending' = pending := twins.pending
  rw [turns, opened] at smooth
  rw [turns, opened'] at smooth'
  rw [simulate_eq, simulate_eq, opened, opened']
  dsimp only at smooth smooth' ⊢
  by_cases nothing : pending'.isEmpty
  · rw [if_pos nothing, if_pos nothing]
    exact ⟨rfl, rfl⟩
  · have something : pending'.keys ≠ [] := fun none => nothing (SortedMap.isEmpty_iff.mpr none)
    rw [if_neg nothing] at smooth smooth'
    obtain ⟨last, ended⟩ :=
      Twins.follow_groups candid candid' same.snapshot.nodes groups proper.names twins something
        [] picks smooth smooth'
    have notes := congrArg (·.1) ended
    have answer := congrArg (·.2) ended
    rw [if_neg nothing, if_neg nothing, Choice.follow_bind_done, Choice.follow_bind_done]
    dsimp only at notes answer ⊢
    rw [notes, answer, last.plan same.snapshot.nodes]
    exact ⟨rfl, rfl⟩

/-- Five cores are asked for, an overhead of one of them. The pool declared first has all the nodes
that it may have. -/
def firstPoolFull : AdviceRequest where
  id := "request"
  pools := {
    name := "full"
    region := "here"
    zones := ["a", "b"]
    maxNodes := some 2
    templates := ["small", "large"].map fun name =>
      { name, instanceType := name, capacity := .ofCoresAndGib 8 16 } } :: (smallThenLarge 4).pools
  snapshot := {
    nodes := ["one", "two"].map fun name => {
      name
      labels := .ofList [(Label.nodePool, "full")]
      capacity := .ofCoresAndGib 8 16
      allocatable := .ofCoresAndGib 2 16 }
    workloads := [
      { inNamespace := "default", name := "web", requests := .ofCoresAndGib 4 1,
        priorityClassName := some "urgent", runtimeClassName := some "boxed" },
      { inNamespace := "default", name := "log", requests := .ofCoresAndGib 1 1,
        nodeName := some "one" }]
    priorityClasses := [⟨"idle", -10⟩, ⟨"urgent", 10⟩]
    runtimeClasses := [⟨"plain", ∅⟩, ⟨"boxed", .ofCoresAndGib 1 1⟩] }

theorem declaration_order_irrelevant_firstPoolFull : ∃ plan : ScaleOutPlan,
    plan.items.map (fun item => (item.placement.pool, item.delta)) = [("large", 1)] ∧
    ((simulate standardRules.conductor firstPoolFull (priced Float) ∅ freshClock).follow
      []).outcome = .ok plan ∧
    ((simulate standardRules.conductor firstPoolFull.reversed (priced Float) ∅ freshClock).follow
      []).outcome = .ok plan := by
  obtain ⟨smooth, planned⟩ :=
    smooth_of_first standardRules.conductor firstPoolFull (priced Float) 1 ∅ freshClock
      (fun outcome => outcome.toOption.any fun plan : ScaleOutPlan =>
        decide (plan.items.map (fun item => (item.placement.pool, item.delta)) = [("large", 1)]))
    (by decide +kernel)
  obtain ⟨smooth', -⟩ :=
    smooth_of_first standardRules.conductor firstPoolFull.reversed (priced Float) 1 ∅ freshClock
      (fun _ => true) (by decide +kernel)
  have candid := candid_conductor standardRules BinPack.algorithm
  have set := Timeline.ready_opened BinPack.algorithm 1 none
  have same := declaration_order_irrelevant candid set candid set firstPoolFull.reordered_reversed
    (by decide +kernel) smooth smooth'
  obtain ⟨plan, answered, items⟩ := (Option.any_eq_true _ _).mp planned
  have answered := toOption_eq_some_iff.mp answered
  exact ⟨plan, of_decide_eq_true items, answered, same.1.trans answered⟩

end ScaleOut

end ScaleAdvisor
