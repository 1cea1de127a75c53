import ScaleAdvisor.Proofs.Packing.Growth
import ScaleAdvisor.Proofs.Search.Passes
import ScaleAdvisor.Proofs.Search.Turns

/-!
What a turn makes of a search. Between two turns the pending set tells what is pending in the base
view. A turn either leaves both alone, or promotes a winner: then the base view stands for the old
contents packed with the winner's node, and less is pending.

* `turn_fate`: how a turn may end;
* `pending_lt_of_tells`: a promotion leaves less pending, so no winner ever stalls.
-/

namespace ScaleAdvisor

namespace ScaleOut

variable {σ F : Type}

/-- What the base view holds. -/
def contents (s : ScaleOut σ F) : Cluster := s.workspace.forest.cluster s.base

/-- The state of a search between two turns. -/
structure Poised (ready : σ → Prop) (s : ScaleOut σ F) : Prop where
  clean : s.workspace.Clean ready s.base
  sound : s.contents.Sound
  pending : s.pending = s.contents.pendingKeys

/-- The base view lists this workload. -/
def Shows (s : ScaleOut σ F) (w : Workload) : Prop :=
  ∃ workloads, s.workspace.forest.workloads s.base = .ok workloads ∧ w ∈ workloads

theorem Poised.shows_iff {ready : σ → Prop} {s : ScaleOut σ F} (poised : s.Poised ready)
    {w : Workload} :
    s.Shows w ↔ w ∈ s.contents.workloads := by
  have listed := Forest.workloads_eq poised.clean.valid poised.clean.readable
  constructor
  · rintro ⟨workloads, read, hw⟩
    rw [listed] at read
    rw [contents, Except.ok.inj read]
    exact hw
  · intro hw
    exact ⟨_, listed, hw⟩

/-- The search is none the wiser. -/
structure Still (ready : σ → Prop) (s s' : ScaleOut σ F) : Prop where
  poised : s'.Poised ready
  contents : s'.contents = s.contents
  winners : s'.winners = s.winners
  perPool : s'.perPool = s.perPool
  placedInPlace : s'.placedInPlace = s.placedInPlace

variable [Quantity F]

/-- What is known of the winner of a pass over some candidates: it is the outcome of one of them,
and it has placed something on its node or elsewhere. -/
structure Wins (scoring : Scoring F) (candidates : List Candidate) (t : Turn σ F)
    (winner : NodeScore F) (o : Outcome) : Prop where
  picked : t.winner? = some winner
  outcome : t.outcome? = some o
  scored : score scoring.strategy scoring.prices scoring.weights o = .ok winner
  candidate : ∃ c ∈ candidates, ∃ template, c.pool.template? c.template = some template ∧
    o.scaledNode = c.node template t.number ∧ o.placement = c.placement template
  free : t.before.contents.get? ⟨.node, o.scaledNode.name⟩ = none
  tells : o.Tells (t.before.contents.addNode o.scaledNode)
  places : ∃ k, k ∈ o.assigned

/-- The search goes on from the winner. -/
structure Promotes (ready : σ → Prop) (t : Turn σ F) (winner : NodeScore F) (o : Outcome) :
    Prop where
  promoted : t.promoted = true
  poised : t.after.Poised ready
  contents : t.after.contents = (t.before.contents.addNode o.scaledNode).packed
  winners : t.after.winners =
    if o.usesScaledNode then t.before.winners ++ [winner] else t.before.winners
  perPool : t.after.perPool =
    if o.usesScaledNode then
      t.before.perPool.insert winner.placement.pool
        (t.before.perPool.getD winner.placement.pool 0 + 1)
    else t.before.perPool
  placedInPlace : t.after.placedInPlace = (t.before.placedInPlace || !o.usesScaledNode)

/-- How a turn may end. -/
inductive Fate (ready : σ → Prop) (r : AdviceRequest) (scoring : Scoring F) (g : CandidateGroup)
    (t : Turn σ F) : Prop where
  /-- It has failed. -/
  | stopped (e : SimulationError) (still : Still ready t.before t.after)
      (finished : t.next = .finished (.error e))
      (why : e ≠ .noScalingAdvice) (nobody : t.winner? = none) (unmoved : t.promoted = false)
  /-- There was nothing to place. -/
  | nothing (still : Still ready t.before t.after) (none : t.after.pending.keys = [])
      (finished : t.next = .finished (.ok true)) (nobody : t.winner? = Option.none)
      (unmoved : t.promoted = false)
  /-- No candidate gets anywhere. -/
  | exhausted {w : Workspace σ} {p : Pass} (still : Still ready t.before t.after)
      (ran : Pass.Ran ready t.number t.before.base (t.before.eligible r g) t.before.workspace w p)
      (pass : t.pass? = some p) (ties : p.ties scoring = .ok [])
      (finished : t.next = .finished (.ok false)) (nobody : t.winner? = none)
      (unmoved : t.promoted = false)
  /-- A winner is promoted. -/
  | promoted {winner : NodeScore F} {o : Outcome}
      (wins : Wins scoring (t.before.eligible r g) t winner o)
      (promotes : Promotes ready t winner o)
      (next : t.next = if t.after.pending.isEmpty then .finished (.ok true) else .again 0)

section Promotion

variable {ready : σ → Prop} {number : Nat} {base : ViewId} {candidates : List Candidate}
  {w₀ w : Workspace σ} {p : Pass} {scoring : Scoring F}

/-- What can be said of any score of a pass. -/
theorem exists_of_mem_scores (ran : Pass.Ran ready number base candidates w₀ w p)
    (sound : (w₀.forest.cluster base).Sound) {winner : NodeScore F}
    (listed : winner ∈ p.scores scoring) :
    ∃ s ∈ p.simulations, ∃ o, s.outcome? = some o ∧ p.simulation? winner.name = some s ∧
      score scoring.strategy scoring.prices scoring.weights o = .ok winner ∧
      ∃ k, k ∈ o.assigned := by
  obtain ⟨s, hs, o, succeeded, counts, scored⟩ := Pass.mem_scores_iff.mp listed
  have played := ran.played s hs
  have success := played.success o succeeded
  refine ⟨s, hs, o, succeeded, ?_, scored, ?_⟩
  · rw [(score_eq_ok scored).1, success.name]
    exact Pass.simulation?_eq ran.names hs
  · rcases counts with nothing | some
    · -- Nothing is left of what was pending, and something was.
      obtain ⟨k, hk⟩ := List.exists_mem_of_ne_nil _ played.something
      have left : k ∉ ((w₀.forest.cluster base).addNode o.scaledNode).packed.pendingKeys.keys := by
        rw [← success.tells.left, List.isEmpty_iff.mp nothing]
        exact List.not_mem_nil
      have named : o.scaledNode.name ≠ "" := by
        rw [success.node]
        exact Simulation.node_name_ne_empty _ _
      rw [Cluster.Grown.mem_pendingKeys_step sound success.free named, not_and, not_not] at left
      exact ⟨k, (success.tells.assigned k).mpr (left hk)⟩
    · rw [Outcome.boundWorkloads_eq] at some
      exact List.exists_mem_of_length_pos (Nat.pos_of_ne_zero some)

end Promotion

section Turn

variable {ready : σ → Prop} {c : Conductor σ} {r : AdviceRequest} {scoring : Scoring F}
  {g : CandidateGroup} {s : ScaleOut σ F} {stalled : Nat} {t : Turn σ F}

omit [Quantity F] in
/-- A pass that leaves its base alone does nothing to the search. -/
theorem still_of_extends (poised : s.Poised ready) {w : Workspace σ} (clean : w.Clean ready s.base)
    (keeps : s.workspace.Extends w) (passes : Nat) :
    Still ready s { s with workspace := w, passes } := by
  have same : w.forest.cluster s.base = s.contents :=
    keeps.cluster_eq poised.clean.valid poised.clean.base_lt
  refine ⟨⟨clean, ?_, ?_⟩, same, rfl, rfl, rfl⟩
  · rw [contents, same]
    exact poised.sound
  · rw [contents, same]
    exact poised.pending

/-- A winner that can be promoted leaves less pending. -/
theorem pending_lt_of_tells {D : Cluster} {n : Node} {o : Outcome} (before : D.Sound)
    (free : D.get? ⟨.node, n.name⟩ = none) (named : n.name ≠ "") (tells : o.Tells (D.addNode n))
    (places : ∃ k, k ∈ o.assigned) :
    (∀ k ∈ (KeySet.ofKeys o.unscheduled).keys, k ∈ D.pendingKeys.keys) ∧
      (KeySet.ofKeys o.unscheduled).size < D.pendingKeys.size := by
  have left (k : WorkloadKey) : k ∈ (KeySet.ofKeys o.unscheduled).keys ↔
      k ∈ D.pendingKeys.keys ∧ ¬ k ∈ o.assigned := by
    rw [KeySet.mem_keys_ofKeys, tells.left, Cluster.Grown.mem_pendingKeys_step before free named,
      tells.assigned]
    rfl
  obtain ⟨k, hk⟩ := places
  have was := Cluster.Grown.pending_of_places before free named ((tells.assigned k).mp hk)
  refine ⟨fun k h => ((left k).mp h).1, KeySet.size_lt_size (fun k h => ((left k).mp h).1) was ?_⟩
  exact fun h => ((left k).mp h).2 hk

/-- Every score of a pass is good for a promotion. -/
theorem promotes_of_score (poised : s.Poised ready) {w : Workspace σ} {p : Pass}
    (ran : Pass.Ran ready (s.passes + 1) s.base (s.eligible r g) s.workspace w p)
    {winner : NodeScore F} (listed : winner ∈ p.scores scoring) :
    ∃ view, p.view? winner.name = some view ∧
      (KeySet.ofKeys winner.unscheduled).size < s.pending.size ∧
      ∀ t : Turn σ F, t.before = s → t.pass? = some p → t.winner? = some winner →
      t.promoted = true →
        t.after = ({ s with workspace := w, passes := s.passes + 1 } :
          ScaleOut σ F).promote p winner view
          (KeySet.ofKeys winner.unscheduled) →
        ∃ o, Wins scoring (s.eligible r g) t winner o ∧ Promotes ready t winner o := by
  obtain ⟨sim, hs, o, succeeded, found, scored, places⟩ :=
    exists_of_mem_scores ran poised.sound listed
  have played := ran.played sim hs
  obtain ⟨name, placement, node, free, packed, tells⟩ := played.success o succeeded
  have named : o.scaledNode.name ≠ "" := by
    rw [node]
    exact Simulation.node_name_ne_empty _ _
  have left := (score_eq_ok scored).2.2
  refine ⟨sim.view, by rw [Pass.view?, found]; rfl, ?_, ?_⟩
  · rw [left, poised.pending]
    exact (pending_lt_of_tells poised.sound free named tells places).2
  · rintro t rfl pass picked promoted after
    obtain ⟨-, -, kept⟩ := ran.release poised.clean (some sim.name)
    obtain ⟨clean, same⟩ := kept sim hs rfl
    have winnerName : winner.name = sim.name := (score_eq_ok scored).1.trans name
    rw [← winnerName] at clean same
    have contents : t.after.contents = (t.before.contents.addNode o.scaledNode).packed := by
      rw [after]
      exact same.trans packed
    have sound := (poised.sound.addNode named free).packed
    have uses : p.usedScaledNode winner.name = o.usesScaledNode := by
      rw [Pass.usedScaledNode, found, Option.bind_some, succeeded]
      rfl
    have outcome : t.outcome? = some o := by
      rw [Turn.outcome?, pass, picked]
      dsimp only
      rw [found, Option.bind_some, succeeded]
    refine ⟨o, ⟨picked, outcome, scored, ?_, free, tells, places⟩, promoted, ⟨?_, ?_, ?_⟩, contents,
      ?_, ?_, ?_⟩
    · exact ⟨sim.candidate, ran.eligible sim hs, sim.template, played.template, node, placement⟩
    · rw [after]
      exact clean
    · rw [contents]
      exact sound
    · rw [contents, after]
      change KeySet.ofKeys winner.unscheduled = _
      rw [left, tells.left, KeySet.ofKeys_keys]
      rfl
    · rw [after, ← uses]
      rfl
    · rw [after, ← uses]
      rfl
    · rw [after, ← uses]
      rfl

theorem turn_fate (poised : s.Poised ready) (distinct : (g.candidates.map Candidate.name).Nodup)
    (interleaves : c.Interleaves BinPack.algorithm ready)
    (taken : (turn c r scoring g s stalled).Reaches t) :
    t.before = s ∧ Fate ready r scoring g t := by
  have eligible : ((s.eligible r g).map Candidate.name).Nodup :=
    (List.filter_sublist.map Candidate.name).nodup distinct
  have ending := Pass.run_spec (s.passes + 1) poised.clean poised.sound eligible interleaves
  have passed {w : Workspace σ} {p : Pass} (something : p.nothingPending = false)
      (ran : Pass.run c (s.passes + 1) s.base (s.eligible r g) s.workspace = (w, .ok p)) :
      Pass.Ran ready (s.passes + 1) s.base (s.eligible r g) s.workspace w p ∧
        Still ready s ((s.passed w).discard p) := by
    rw [ran] at ending
    cases ending with
    | nothing said => simp [something] at said
    | ran ran =>
      obtain ⟨clean, keeps, -⟩ := ran.release poised.clean none
      exact ⟨ran, still_of_extends poised clean keeps (s.passes + 1)⟩
  cases turn_course taken with
  | cancelled =>
    exact ⟨rfl, .stopped _ (still_of_extends poised poised.clean (.refl _ _) _) rfl
      (by simp) rfl rfl⟩
  | broken _ ran =>
    rw [ran] at ending
    cases ending with
    | cancelled e clean keeps =>
      exact ⟨rfl, .stopped _ (still_of_extends poised clean keeps _) rfl (by simp) rfl rfl⟩
  | nothing _ ran said =>
    rw [ran] at ending
    cases ending with
    | ran ran => simp [ran.pending] at said
    | nothing _ none clean keeps =>
      have pending : s.pending = ∅ := by
        rw [poised.pending]
        exact KeySet.eq_empty_of_keys none
      have still := still_of_extends poised clean keeps (s.passes + 1)
      rw [pending] at still
      exact ⟨rfl, .nothing still rfl rfl rfl rfl⟩
  | untold _ ran something failed =>
    obtain ⟨-, still⟩ := passed something ran
    exact ⟨rfl, .stopped _ still rfl (Pass.error_of_ties failed) rfl rfl⟩
  | exhausted _ ran something ties =>
    obtain ⟨ran, still⟩ := passed something ran
    exact ⟨rfl, .exhausted still ran rfl ties rfl rfl rfl⟩
  | homeless _ ran something scored missing =>
    obtain ⟨view, found, -⟩ := promotes_of_score poised (passed something ran).1 scored
    rw [missing] at found
    cases found
  | useless _ ran something scored enough =>
    obtain ⟨-, -, less, -⟩ := promotes_of_score poised (passed something ran).1 scored
    exact absurd less enough
  | @promoted _ _ winner _ _ ran something scored found =>
    obtain ⟨view, there, -, promotes⟩ := promotes_of_score poised (passed something ran).1 scored
    obtain rfl := Option.some.inj (found.symm.trans there)
    let next :=
      if (KeySet.ofKeys winner.unscheduled).isEmpty then .finished (.ok true) else Next.again 0
    obtain ⟨o, wins, promotes⟩ := promotes ⟨s, _, next, _, _, true⟩ rfl rfl rfl rfl rfl
    exact ⟨rfl, .promoted wins promotes rfl⟩

end Turn

end ScaleOut

end ScaleAdvisor
