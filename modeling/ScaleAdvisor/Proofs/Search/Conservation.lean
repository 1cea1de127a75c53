import ScaleAdvisor.Proofs.Search.Lineage

/-!
No workload is lost, placed twice or moved. What is pending is written down twice, in the state of
the search and in its base view, and the two agree between any two turns.

* `Turn.Told.mem_assigned_iff`: the workloads that a turn has placed are those of its step;
* `Run.conserved`: over all turns of a run, the workloads placed and those left over are just those
  that were pending in the snapshot;
* `workloads_conserved`: the same of whatever a search ends with.
-/

namespace ScaleAdvisor.ScaleOut

variable {σ F : Type}

/-- The pending set has just the workloads that the base view lists as pending. -/
def Consistent (s : ScaleOut σ F) : Prop :=
  ∃ unscheduled, s.workspace.forest.pending s.base = .ok unscheduled ∧
    s.pending = .ofKeys (unscheduled.map (·.key))

/-- The workloads that a promoted winner has placed, on its node or elsewhere. -/
def Turn.assigned (t : Turn σ F) : List WorkloadKey :=
  match t.promoted? with
  | none => []
  | some o => o.assigned

/-- The turns of a run lose no workload, place none twice and move none. -/
structure Conserved (r : AdviceRequest) (turns : List (Turn σ F)) (last : ScaleOut σ F) : Prop where
  before : ∀ t ∈ turns, t.before.Consistent
  after : last.Consistent
  disjoint : turns.Pairwise fun t u => t.assigned.Disjoint u.assigned
  union : ∀ k, (∃ w ∈ r.snapshot.workloads, w.isPending = true ∧ w.key = k) ↔
    k ∈ last.pending.keys ∨ ∃ t ∈ turns, k ∈ t.assigned
  /-- Whoever wins is promoted, and leaves a strict subset of what was pending. -/
  won : ∀ t ∈ turns, ∀ winner, t.winner? = some winner → t.promoted = true ∧
    t.after.pending = .ofKeys winner.unscheduled ∧
    (∀ k ∈ winner.unscheduled, k ∈ t.before.pending.keys) ∧
    ∃ k ∈ t.before.pending.keys, k ∉ winner.unscheduled
  /-- Whoever is bound stays where it is, in all later turns and at the end. -/
  snapshot : ∀ w ∈ r.snapshot.workloads, w.isPending = false →
    (∀ t ∈ turns, t.before.Shows w) ∧ last.Shows w
  later : turns.Pairwise fun t u => ∀ w, t.before.Shows w → w.isPending = false → u.before.Shows w
  atEnd : ∀ t ∈ turns, ∀ w, t.before.Shows w → w.isPending = false → last.Shows w

variable {ready : σ → Prop} {s : ScaleOut σ F}

theorem Poised.consistent (poised : s.Poised ready) : s.Consistent := by
  refine ⟨_, Forest.pending_eq poised.clean.valid poised.clean.readable, ?_⟩
  rw [poised.pending]
  rfl

variable [Quantity F] {scoring : Scoring F} {t : Turn σ F} {turns : List (Turn σ F)} {C : Cluster}

/-- The workloads that a turn has placed are those that its step places. -/
theorem Turn.Told.mem_assigned_iff (told : t.Told ready scoring) {k : WorkloadKey} :
    k ∈ t.assigned ↔ ∃ g, t.growth? = some g ∧ g.Places k := by
  rcases told.won with ⟨-, unmoved⟩ | ⟨candidates, winner, o, wins, promotes⟩
  · simp [assigned, growth?, promoted?_of_not unmoved]
  · have promoted := promotes.promoted?_eq wins.outcome
    rw [assigned, growth?, promoted]
    simp only [Option.map_some, Option.some.injEq, exists_eq_left']
    exact wins.tells.assigned k

theorem Reached.disjoint (reached : Reached ready scoring C turns s) (start : C.Sound) :
    turns.Pairwise fun t u => t.assigned.Disjoint u.assigned := by
  have apart := List.pairwise_filterMap.mp (reached.grown.disjoint start)
  refine apart.imp_of_mem fun {t u} ht hu apart k placed again => ?_
  obtain ⟨g, hg, first⟩ := (reached.told t ht).mem_assigned_iff.mp placed
  obtain ⟨h, hh, second⟩ := (reached.told u hu).mem_assigned_iff.mp again
  exact apart g hg h hh k first second

theorem Reached.mem_pending_iff (reached : Reached ready scoring C turns s) (start : C.Sound)
    {k : WorkloadKey} :
    k ∈ C.pendingKeys.keys ↔ k ∈ s.pending.keys ∨ ∃ t ∈ turns, k ∈ t.assigned := by
  have placed : (∃ t ∈ turns, k ∈ t.assigned) ↔ ∃ g ∈ turns.filterMap Turn.growth?, g.Places k := by
    constructor
    · rintro ⟨t, ht, hk⟩
      obtain ⟨g, hg, places⟩ := (reached.told t ht).mem_assigned_iff.mp hk
      exact ⟨g, List.mem_filterMap.mpr ⟨t, ht, hg⟩, places⟩
    · rintro ⟨g, hg, places⟩
      obtain ⟨t, ht, hg⟩ := List.mem_filterMap.mp hg
      exact ⟨t, ht, (reached.told t ht).mem_assigned_iff.mpr ⟨g, hg, places⟩⟩
  rw [placed, reached.poised.pending, reached.grown.mem_pendingKeys_iff start]
  constructor
  · intro hk
    by_cases some : ∃ g ∈ turns.filterMap Turn.growth?, g.Places k
    · exact .inr some
    · exact .inl ⟨hk, fun g hg places => some ⟨g, hg, places⟩⟩
  · rintro (⟨hk, -⟩ | ⟨g, hg, places⟩)
    · exact hk
    · exact reached.grown.pending_of_mem start hg places

/-- Whoever wins is promoted, and places something that was pending. -/
theorem Turn.Told.won_of_winner (told : t.Told ready scoring) {winner : NodeScore F}
    (picked : t.winner? = some winner) : t.promoted = true ∧
      t.after.pending = .ofKeys winner.unscheduled ∧
      (∀ k ∈ winner.unscheduled, k ∈ t.before.pending.keys) ∧
      ∃ k ∈ t.before.pending.keys, k ∉ winner.unscheduled := by
  rcases told.won with ⟨nobody, -⟩ | ⟨candidates, winner', o, wins, promotes⟩
  · rw [nobody] at picked
    simp at picked
  · obtain rfl := Option.some.inj (picked.symm.trans wins.picked)
    have named : o.scaledNode.name ≠ "" := by
      obtain ⟨c, -, template, -, node, -⟩ := wins.candidate
      rw [node]
      simp [Candidate.node, Candidate.nodeName]
    have left := (score_eq_ok wins.scored).2.2.trans wins.tells.left
    have step (k : WorkloadKey) : k ∈ winner.unscheduled ↔
        k ∈ t.before.pending.keys ∧
          ¬ (⟨t.before.contents, o.scaledNode⟩ : Cluster.Growth).Places k := by
      rw [left, Cluster.Grown.mem_pendingKeys_step told.poised.sound wins.free named,
        told.poised.pending]
    obtain ⟨k, hk⟩ := wins.places
    have places := (wins.tells.assigned k).mp hk
    have was := Cluster.Grown.pending_of_places told.poised.sound wins.free named places
    refine ⟨promotes.promoted, ?_, fun k hk => ((step k).mp hk).1, k, ?_,
      fun h => ((step k).mp h).2 places⟩
    · rw [promotes.poised.pending, promotes.contents, left, KeySet.ofKeys_keys]
    · rw [told.poised.pending]
      exact was

variable {c : Conductor σ} {r : AdviceRequest} {clock : σ}

/-- Over all turns of a run no workload is lost, placed twice or moved. -/
theorem Run.conserved {visits : List (Visit σ F)} {last : ScaleOut σ F}
    {outcome : Except SimulationError ScaleOutPlan} (fair : Fair r)
    (interleaves : c.Interleaves BinPack.algorithm ready) (set : ready clock)
    (run : Run c r scoring ∅ clock visits last outcome) :
    Conserved r (visits.flatMap (·.turns)) last := by
  obtain ⟨reached, -, distinct⟩ := run.reached fair interleaves set
  have sound := Snapshot.sound_cluster distinct fair.named fair.nonneg
  have kept {t : Turn σ F} {x : ScaleOut σ F} {steps : List Cluster.Growth} {w : Workload}
      (before : t.before.Poised ready) (after : x.Poised ready)
      (grown : Cluster.Grown t.before.contents steps x.contents) (shown : t.before.Shows w)
      (bound : w.isPending = false) : x.Shows w :=
    after.shows_iff.mpr (grown.mem_of_bound before.sound (before.shows_iff.mp shown) bound)
  refine ⟨fun t ht => (reached.told t ht).poised.consistent, reached.poised.consistent,
    reached.disjoint sound, ?_, fun t ht winner => (reached.told t ht).won_of_winner,
    fun w hw bound => ⟨?_, ?_⟩, ?_, ?_⟩
  · intro k
    rw [← Snapshot.mem_pendingKeys_cluster distinct]
    exact reached.mem_pending_iff sound
  · intro t ht
    obtain ⟨steps, grown, -⟩ := reached.upTo t ht
    rw [(reached.told t ht).poised.shows_iff]
    exact grown.mem_of_bound sound ((Snapshot.mem_workloads_cluster distinct).mpr hw) bound
  · rw [reached.poised.shows_iff]
    exact reached.grown.mem_of_bound sound ((Snapshot.mem_workloads_cluster distinct).mpr hw) bound
  · refine reached.between.imp_of_mem fun {t u} ht hu ⟨steps, grown⟩ w shown bound => ?_
    exact kept (reached.told t ht).poised (reached.told u hu).poised grown shown bound
  · intro t ht w shown bound
    obtain ⟨steps, grown⟩ := reached.since t ht
    exact kept (reached.told t ht).poised reached.poised grown shown bound

/-- No search loses a workload, places one twice or moves one. However it ends, runs have led there
unless the snapshot could not be loaded, and over all turns of each of them the workloads add up. -/
theorem workloads_conserved {result : Result σ} (fair : Fair r)
    (interleaves : c.Interleaves BinPack.algorithm ready) (set : ready clock)
    (reached : (simulate c r scoring ∅ clock).Reaches result) :
    (Unopened r ∅ clock result ∨ ∃ visits last, Leads c r scoring ∅ clock visits last result) ∧
    ∀ visits last, Leads c r scoring ∅ clock visits last result →
      Conserved r (visits.flatMap (·.turns)) last :=
  ⟨reaches_simulate_iff.mp reached, fun _ _ leads => leads.run.conserved fair interleaves set⟩

/-- Four cores are too many for the first machines; one of the second takes the workload. -/
theorem workloads_conserved_smallThenLarge : ∃ result visits last,
    (simulate standardRules.conductor (smallThenLarge 4) (priced Float) ∅ freshClock).Reaches
      result ∧
    Leads standardRules.conductor (smallThenLarge 4) (priced Float) ∅ freshClock visits last
      result ∧
    (visits.flatMap (·.turns)).map (·.promoted) = [false, true] ∧
    Conserved (smallThenLarge 4) (visits.flatMap (·.turns)) last := by
  have first :
    (firstRun standardRules.conductor (smallThenLarge 4) (priced Float) 1 ∅ freshClock).any
      (fun run => decide ((run.1.flatMap (·.turns)).map (·.promoted) = [false, true])) = true := by
    decide +kernel
  obtain ⟨visits, last, outcome, run, promoted⟩ := exists_run first
  have conserved := workloads_conserved (by decide +kernel)
    (interleaves_conductor standardRules BinPack.algorithm)
    (Timeline.ready_opened BinPack.algorithm 1 none) run.leads.reaches
  exact ⟨_, visits, last, run.leads.reaches, run.leads, of_decide_eq_true promoted,
    conserved.2 visits last run.leads⟩

end ScaleAdvisor.ScaleOut
