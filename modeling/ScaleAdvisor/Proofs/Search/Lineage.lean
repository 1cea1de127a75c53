import Mathlib.Data.List.Flatten
import ScaleAdvisor.Proofs.Search.Promotion
import ScaleAdvisor.Proofs.Simulation.Clock
import ScaleAdvisor.Proofs.View.Loading

/-!
What is known of a search after any number of turns. The base view has grown out of the snapshot,
one promoted winner at a time; the recorded winners are those whose node was put to use.

* `Reached.turn`: one more turn keeps it up;
* `GroupRun.reached`, `Visits.reached`, `Run.reached`: so do whole groups and whole runs.
-/

namespace ScaleAdvisor.ScaleOut

variable {σ F : Type} [Quantity F]

open Cluster

/-- How a promotion makes the base view grow. -/
def Turn.growth? (t : Turn σ F) : Option Growth :=
  t.promoted?.map fun o => ⟨t.before.contents, o.scaledNode⟩

/-- A turn of a search that has been right so far. -/
structure Turn.Told (ready : σ → Prop) (scoring : Scoring F) (t : Turn σ F) : Prop where
  poised : t.before.Poised ready
  won : (t.winner? = none ∧ t.promoted = false) ∨
    ∃ candidates winner o, Wins scoring candidates t winner o ∧ Promotes ready t winner o

/-- What is known after some turns. -/
structure Reached (ready : σ → Prop) (scoring : Scoring F) (C : Cluster) (turns : List (Turn σ F))
    (s : ScaleOut σ F) : Prop where
  poised : s.Poised ready
  told : ∀ t ∈ turns, t.Told ready scoring
  grown : Grown C (turns.filterMap Turn.growth?) s.contents
  upTo : ∀ t ∈ turns, ∃ steps, Grown C steps t.before.contents ∧
    steps <+: turns.filterMap Turn.growth?
  since : ∀ t ∈ turns, ∃ steps, Grown t.before.contents steps s.contents
  between : turns.Pairwise fun t u => ∃ steps, Grown t.before.contents steps u.before.contents
  winners : s.winners.map (·.placement) = (turns.filterMap Turn.recorded?).map (·.placement)
  perPool : ∀ pool, s.perPool.getD pool 0 = s.winners.countP (·.placement.pool == pool)
  quota : ∀ t ∈ turns, ∀ pool, t.before.perPool.getD pool 0 ≤ s.perPool.getD pool 0
  placedInPlace : s.placedInPlace = turns.any fun t => t.promoted?.any fun o => !o.usesScaledNode

variable {ready : σ → Prop} {scoring : Scoring F} {C : Cluster} {turns : List (Turn σ F)}
  {s : ScaleOut σ F} {t : Turn σ F}

omit [Quantity F] in
theorem Turn.promoted?_of_not (unmoved : t.promoted = false) : t.promoted? = none := by
  rw [promoted?, unmoved]
  rfl

omit [Quantity F] in
theorem Promotes.promoted?_eq {winner : NodeScore F} {o : Outcome}
    (promotes : Promotes ready t winner o)
    (outcome : t.outcome? = some o) : t.promoted? = some o := by
  rw [Turn.promoted?, promotes.promoted, outcome]
  rfl

theorem Reached.upTo_snoc (reached : Reached ready scoring C turns s) (before : t.before = s) :
    ∀ u ∈ turns ++ [t], ∃ steps, Grown C steps u.before.contents ∧
      steps <+: (turns ++ [t]).filterMap Turn.growth? := by
  rw [List.filterMap_append, List.forall_mem_append, List.forall_mem_singleton, before]
  refine ⟨?_, _, reached.grown, List.prefix_append _ _⟩
  intro u hu
  obtain ⟨steps, grown, first⟩ := reached.upTo u hu
  exact ⟨steps, grown, first.trans (List.prefix_append _ _)⟩

theorem Reached.between_snoc (reached : Reached ready scoring C turns s) (before : t.before = s) :
    (turns ++ [t]).Pairwise fun t u =>
    ∃ steps, Grown t.before.contents steps u.before.contents := by
  refine List.pairwise_append.mpr ⟨reached.between, List.pairwise_singleton _ _, ?_⟩
  intro u hu v hv
  rw [List.mem_singleton.mp hv, before]
  exact reached.since u hu

/-- A turn without a winner adds nothing. -/
theorem Reached.still (reached : Reached ready scoring C turns s) (before : t.before = s)
    (still : Still ready s t.after) (nobody : t.winner? = none) (unmoved : t.promoted = false) :
    Reached ready scoring C (turns ++ [t]) t.after := by
  have none := Turn.promoted?_of_not unmoved
  have told : t.Told ready scoring := ⟨by rw [before]; exact reached.poised, .inl ⟨nobody, unmoved⟩⟩
  refine ⟨still.poised, ?_, ?_, reached.upTo_snoc before, ?_, reached.between_snoc before,
    ?_, ?_, ?_, ?_⟩
  · exact List.forall_mem_append.mpr ⟨reached.told, List.forall_mem_singleton.mpr told⟩
  · rw [still.contents, List.filterMap_append]
    simpa [Turn.growth?, none] using reached.grown
  · rw [still.contents, List.forall_mem_append, List.forall_mem_singleton, before]
    exact ⟨reached.since, [], .start⟩
  · rw [still.winners, reached.winners, List.filterMap_append]
    simp [Turn.recorded?, none]
  · rw [still.winners, still.perPool]
    exact reached.perPool
  · rw [still.perPool, List.forall_mem_append, List.forall_mem_singleton, before]
    exact ⟨reached.quota, fun _ => Nat.le_refl _⟩
  · rw [still.placedInPlace, reached.placedInPlace, List.any_append]
    simp [none]

/-- A promotion adds one step, and one winner if its node is put to use. -/
theorem Reached.promote (reached : Reached ready scoring C turns s) (before : t.before = s)
    {candidates : List Candidate} {winner : NodeScore F} {o : Outcome}
    (wins : Wins scoring candidates t winner o) (promotes : Promotes ready t winner o) :
    Reached ready scoring C (turns ++ [t]) t.after := by
  have promoted := promotes.promoted?_eq wins.outcome
  have told : t.Told ready scoring :=
    ⟨by rw [before]; exact reached.poised, .inr ⟨candidates, winner, o, wins, promotes⟩⟩
  have named : o.scaledNode.name ≠ "" := by
    obtain ⟨c, -, template, -, node, -⟩ := wins.candidate
    rw [node]
    simp [Candidate.node, Candidate.nodeName]
  have free := wins.free
  have contents := promotes.contents
  rw [before] at free contents
  have pool (name : String) : t.after.perPool.getD name 0 =
      s.perPool.getD name 0 + if o.usesScaledNode && winner.placement.pool == name then 1
        else 0 := by
    rw [promotes.perPool, before]
    cases o.usesScaledNode with
    | false => simp
    | true =>
      simp only [if_true, Bool.true_and, SortedMap.getD, SortedMap.get?_insert, KeyOrder.same_iff,
        beq_iff_eq]
      by_cases same : winner.placement.pool = name
      · simp [same]
      · simp [same, Ne.symm same]
  refine ⟨promotes.poised, ?_, ?_, reached.upTo_snoc before, ?_, reached.between_snoc before,
    ?_, ?_, ?_, ?_⟩
  · exact List.forall_mem_append.mpr ⟨reached.told, List.forall_mem_singleton.mpr told⟩
  · have grown := reached.grown.add free named
    rw [contents, List.filterMap_append]
    simpa [Turn.growth?, promoted, before] using grown
  · rw [contents, List.forall_mem_append, List.forall_mem_singleton, before]
    refine ⟨?_, _, Grown.start.add free named⟩
    intro u hu
    obtain ⟨steps, grown⟩ := reached.since u hu
    exact ⟨_, grown.add free named⟩
  · have placement := (score_eq_ok wins.scored).2.1
    have recorded : t.recorded? = if o.usesScaledNode then some o else none := by
      rw [Turn.recorded?, promoted]
      rfl
    rw [promotes.winners, before, List.filterMap_append, List.map_append, ← reached.winners,
      List.filterMap_cons, recorded]
    cases o.usesScaledNode with
    | false => simp
    | true => simp [placement]
  · intro name
    rw [pool, promotes.winners, reached.perPool, before]
    cases o.usesScaledNode with
    | false => simp
    | true => simp [List.countP_append, List.countP_cons]
  · simp only [pool]
    rw [List.forall_mem_append, List.forall_mem_singleton, before]
    exact ⟨fun u hu name => Nat.le_add_right_of_le (reached.quota u hu name),
      fun name => Nat.le_add_right _ _⟩
  · rw [promotes.placedInPlace, before, reached.placedInPlace, List.any_append]
    simp [promoted]

/-- One more turn. -/
theorem Reached.turn (reached : Reached ready scoring C turns s) (before : t.before = s)
    {r : AdviceRequest} {g : CandidateGroup} (fate : Fate ready r scoring g t) :
    Reached ready scoring C (turns ++ [t]) t.after := by
  cases fate with
  | stopped e still _ _ nobody unmoved => exact reached.still before (before ▸ still) nobody unmoved
  | nothing still _ _ nobody unmoved => exact reached.still before (before ▸ still) nobody unmoved
  | exhausted still _ _ _ _ nobody unmoved =>
    exact reached.still before (before ▸ still) nobody unmoved
  | promoted wins promotes _ => exact reached.promote before wins promotes

variable {c : Conductor σ} {r : AdviceRequest}

/-- All turns of a group. -/
theorem GroupRun.reached {g : CandidateGroup} {stalled : Nat} {ts : List (Turn σ F)}
    {last : ScaleOut σ F}
    {answer : Except SimulationError Bool} (run : GroupRun c r scoring g s stalled ts last answer)
    (interleaves : c.Interleaves BinPack.algorithm ready)
    (distinct : (g.candidates.map Candidate.name).Nodup)
    (reached : Reached ready scoring C turns s) : Reached ready scoring C (turns ++ ts) last ∧
    ∃ t, ts.getLast? = some t ∧ t.after = last ∧
      t.next = .finished answer ∧ Fate ready r scoring g t := by
  induction run generalizing turns with
  | @last s _ t _ taken next =>
    obtain ⟨before, fate⟩ := turn_fate reached.poised distinct interleaves taken
    exact ⟨reached.turn before fate, t, rfl, rfl, next, fate⟩
  | @more _ _ _ _ t rest _ taken _ run ih =>
    obtain ⟨before, fate⟩ := turn_fate reached.poised distinct interleaves taken
    obtain ⟨reached', t', final, rest'⟩ := ih (reached.turn before fate)
    rw [List.append_assoc, List.singleton_append] at reached'
    refine ⟨reached', t', ?_, rest'⟩
    rw [List.getLast?_cons, final]
    rfl

/-- What is known of a visit: how its last turn ends. -/
def Visit.Ends (ready : σ → Prop) (r : AdviceRequest) (scoring : Scoring F)
    (v : Visit σ F) : Prop :=
  ∃ t, v.turns.getLast? = some t ∧ t.after = v.after ∧ t.next = .finished v.answer ∧
    Fate ready r scoring v.group t

/-- All turns of all groups. -/
theorem Visits.reached {groups : List CandidateGroup} {visits : List (Visit σ F)}
    {last : ScaleOut σ F} {answer : Except SimulationError Unit}
    (run : Visits c r scoring s groups visits last answer)
    (interleaves : c.Interleaves BinPack.algorithm ready)
    (distinct : ∀ g ∈ groups, (g.candidates.map Candidate.name).Nodup)
    (reached : Reached ready scoring C turns s) :
    Reached ready scoring C (turns ++ visits.flatMap (·.turns)) last ∧
      ∀ v ∈ visits, v.Ends ready r scoring := by
  induction run generalizing turns with
  | done => simpa using reached
  | failed group =>
    obtain ⟨reached', ends⟩ := group.reached interleaves (distinct _ (by simp)) reached
    exact ⟨by simpa using reached', List.forall_mem_singleton.mpr ends⟩
  | complete group =>
    obtain ⟨reached', ends⟩ := group.reached interleaves (distinct _ (by simp)) reached
    exact ⟨by simpa using reached', List.forall_mem_singleton.mpr ends⟩
  | next group _ ih =>
    obtain ⟨middle, ends⟩ := group.reached interleaves (distinct _ (by simp)) reached
    obtain ⟨reached', others⟩ := ih (fun g hg => distinct g (by simp [hg])) middle
    rw [List.append_assoc] at reached'
    exact ⟨by simpa using reached', List.forall_mem_cons.mpr ⟨ends, others⟩⟩

/-- The base view of a request holds its snapshot. -/
theorem opening_eq_ok {r : AdviceRequest} {clock : σ} {w : Workspace σ}
    {pending : KeySet WorkloadKey} (set : ready clock)
    (opened : opening r ∅ clock = (w, .ok pending)) : w.Clean ready w.registry.base ∧
    w.forest.cluster w.registry.base = r.snapshot.cluster ∧
      pending = r.snapshot.cluster.pendingKeys ∧ r.snapshot.Distinct := by
  rw [opening] at opened
  dsimp only at opened
  rcases loaded : Forest.loadSnapshot (Forest.newBase ∅ ("base-" ++ r.id)).1
    (Forest.newBase ∅ ("base-" ++ r.id)).2 r.snapshot with ⟨f, e | ⟨⟩⟩
  · rw [loaded] at opened
    simp at opened
  · rw [loaded] at opened
    obtain ⟨valid, readable, contents, -, distinct⟩ :=
      Forest.loadSnapshot_newBase Forest.valid_empty loaded
    have listed := Forest.pending_eq valid readable
    rw [contents] at listed
    dsimp only at opened
    rw [show (Forest.newBase ∅ ("base-" ++ r.id)).2 = (∅ : Forest).views.size from rfl,
      listed] at opened
    cases opened
    exact ⟨⟨valid, readable, rfl, set⟩, contents, rfl, distinct⟩

/-- What is asked of a request. The program rejects none of these by itself. -/
structure Fair (r : AdviceRequest) : Prop where
  nonneg : BinPack.NonNegative r.snapshot.runtimeClasses r.snapshot.workloads
  named : ∀ n ∈ r.snapshot.nodes, n.name ≠ ""
  distinct : ((r.pools.flatMap Candidate.ofPool).map Candidate.name).Nodup

instance (r : AdviceRequest) : Decidable (Fair r) :=
  decidable_of_iff (BinPack.NonNegative r.snapshot.runtimeClasses r.snapshot.workloads ∧
      (∀ n ∈ r.snapshot.nodes, n.name ≠ "") ∧
        ((r.pools.flatMap Candidate.ofPool).map Candidate.name).Nodup)
    ⟨fun ⟨nonneg, named, distinct⟩ => ⟨nonneg, named, distinct⟩,
      fun fair => ⟨fair.nonneg, fair.named, fair.distinct⟩⟩

theorem nodup_candidates {pools : List NodePool}
    (distinct : ((pools.flatMap Candidate.ofPool).map Candidate.name).Nodup) :
    ∀ g ∈ CandidateGroup.ofPools pools, (g.candidates.map Candidate.name).Nodup := by
  intro g hg
  obtain ⟨priority, -, rfl⟩ := List.mem_map.mp (List.mem_filter.mp hg).1
  have part : ((pools.filter (·.priority == priority)).flatMap Candidate.ofPool).Sublist
      (pools.flatMap Candidate.ofPool) := List.Sublist.flatMap List.filter_sublist _
  exact (part.map Candidate.name).nodup distinct

/-- All turns of a run. -/
theorem Run.reached {clock : σ} {visits : List (Visit σ F)} {last : ScaleOut σ F}
    {outcome : Except SimulationError ScaleOutPlan}
    (run : Run c r scoring ∅ clock visits last outcome) (fair : Fair r)
    (interleaves : c.Interleaves BinPack.algorithm ready) (set : ready clock) :
    Reached ready scoring r.snapshot.cluster (visits.flatMap (·.turns)) last ∧
      (∀ v ∈ visits, v.Ends ready r scoring) ∧ r.snapshot.Distinct := by
  have start {w : Workspace σ} {pending : KeySet WorkloadKey}
      (opened : opening r ∅ clock = (w, .ok pending)) :
      Reached ready scoring r.snapshot.cluster [] (begun w pending) ∧ r.snapshot.Distinct := by
    obtain ⟨clean, contents, rfl, distinct⟩ := opening_eq_ok set opened
    have sound := Snapshot.sound_cluster distinct fair.named fair.nonneg
    refine ⟨⟨⟨clean, ?_, ?_⟩, by simp, ?_, by simp, by simp, .nil, rfl, fun _ => rfl, by simp, rfl⟩,
      distinct⟩
    · exact contents ▸ sound
    · exact congrArg pendingKeys contents.symm
    · exact contents ▸ Grown.start
  have groups := nodup_candidates fair.distinct
  cases run with
  | idle opened nothing =>
    obtain ⟨begun, distinct⟩ := start opened
    exact ⟨begun, by simp, distinct⟩
  | searched opened something further =>
    obtain ⟨begun, distinct⟩ := start opened
    obtain ⟨reached, ends⟩ := further.reached interleaves groups begun
    exact ⟨reached, ends, distinct⟩
  | failed opened something further =>
    obtain ⟨begun, distinct⟩ := start opened
    obtain ⟨reached, ends⟩ := further.reached interleaves groups begun
    exact ⟨reached, ends, distinct⟩

/-- One workload asks for so many cores. Machines of two cores are tried first, then machines of
eight. -/
def smallThenLarge (cores : Int) : AdviceRequest :=
  let pool (name : String) (priority cores : Int) : NodePool := {
    name, priority
    region := "here"
    zones := ["a"]
    templates := [{ name, instanceType := name, capacity := .ofCoresAndGib cores 16 }] }
  { id := "request"
    pools := [pool "small" 0 2, pool "large" 1 8]
    snapshot.workloads :=
      [{ inNamespace := "default", name := "web", requests := .ofCoresAndGib cores 1 }] }

/-- A price for every machine. -/
def priced (F : Type) [Quantity F] : Scoring F where
  strategy := .leastCost
  prices := .ofList [(("here", "small"), Quantity.ofInt 1), (("here", "large"), Quantity.ofInt 4)]
  weights := { fallback := ∅ }

/-- Simulations of a whole run that is never cancelled, one at a time. -/
abbrev standardRules : SimulationRules := Planner.rules {} (TokenForest.root {}).2

abbrev freshClock : Timeline := .opened BinPack.algorithm 1 none

end ScaleAdvisor.ScaleOut
