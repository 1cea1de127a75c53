import ScaleAdvisor.Proofs.Simulation.Clock

/-!
Who a result belongs to. A simulation keeps its candidate and its template whatever it goes through,
and if it succeeds its outcome goes by its name and tells of its own node. So a pass over some
candidates hands back simulations of these candidates alone, for every scheduler and on every clock.

* `back_advance`: what a moment does to a simulation;
* `faithful_conductor`: simulations on the clock come back as what they were;
* `Pass.mem_simulations`: the simulations of a pass are those of its candidates.
-/

namespace ScaleAdvisor

namespace Simulation

/-- A simulation as it was set up, and as it comes back. -/
structure Back (pass : Nat) (s s' : Simulation) : Prop where
  candidate : s'.candidate = s.candidate
  template : s'.template = s.template
  outcome : ∀ o, s'.outcome? = some o →
    o.name = s.name ∧ o.placement = s.placement ∧ o.scaledNode = s.node pass

variable {pass : Nat} {s s' : Simulation}

theorem back_of_pending (pending : s.stage = .pending) : Back pass s s :=
  ⟨rfl, rfl, by simp [outcome?, pending]⟩

theorem Back.name (back : Back pass s s') : s'.name = s.name :=
  congrArg Candidate.name back.candidate

theorem Back.placement (back : Back pass s s') : s'.placement = s.placement := by
  rw [Simulation.placement, back.candidate, back.template]
  rfl

theorem Back.node (back : Back pass s s') : s'.node pass = s.node pass := by
  rw [Simulation.node, back.candidate, back.template]
  rfl

/-- A simulation that has not succeeded owes no outcome. -/
theorem Back.restage (back : Back pass s s') {stage : SimulationStage}
    (none : ({ s' with stage } : Simulation).outcome? = none) :
    Back pass s { s' with stage } :=
  ⟨back.candidate, back.template, by simp [none]⟩

theorem Back.fail (back : Back pass s s') (e : SimulationError) : Back pass s (s'.fail e) :=
  back.restage rfl

variable {rules : SimulationRules} {f : Forest} {t : Timeline}

theorem back_begin (back : Back pass s s') : Back pass s (s'.begin rules pass f t).2.2 := by
  rw [begin]
  split
  · exact back.fail _
  · exact back.restage rfl

theorem back_enter (back : Back pass s s') (token : TokenId) :
    Back pass s (s'.enter rules token f t).2.2 := by
  rw [enter]
  split
  · exact back.fail _
  · exact back.fail _
  · split
    · exact back
    · split
      · exact back.fail _
      · exact back.restage rfl

theorem outcome_fields {p : SimulationProgress} {v : ViewId} {name : String} {placement : Placement}
    {node : Node} {o : Outcome} (h : p.outcome f v name placement node = .ok o) :
    o.name = name ∧ o.placement = placement ∧ o.scaledNode = node := by
  rw [SimulationProgress.outcome] at h
  cases classes : f.runtimeClasses v with
  | error e =>
    rw [classes] at h
    cases h
  | ok classes' =>
    rw [classes] at h
    cases byNode : SimulationProgress.collect f v classes' p.scheduled.entries with
    | error e =>
      simp only [bind, Except.bind, byNode] at h
      cases h
    | ok byNode' =>
      simp only [bind, Except.bind, byNode, pure, Except.pure] at h
      cases h
      exact ⟨rfl, rfl, rfl⟩

theorem back_conclude (back : Back pass s s') (p : SimulationProgress) (verdict : Verdict) :
    Back pass s (s'.conclude pass f p verdict) := by
  cases verdict with
  | waiting => exact back
  | cancelled cause => exact back.fail _
  | timedOut => exact back.fail _
  | settled =>
    rw [conclude]
    split
    · rename_i o reached
      obtain ⟨name, placement, node⟩ := outcome_fields reached
      refine ⟨back.candidate, back.template, ?_⟩
      intro o' succeeded
      obtain rfl : o = o' := Option.some.inj succeeded
      exact ⟨name.trans back.name, placement.trans back.placement, node.trans back.node⟩
    · exact back.fail _

theorem back_look (back : Back pass s s') (token : TokenId) (loop : LoopId) (p : SimulationProgress)
    (nextPoll : Nat) : Back pass s (s'.look rules pass token loop p nextPoll f t).2 := by
  rw [look]
  dsimp only
  split
  · exact back.fail _
  · split
    · exact back.restage rfl
    · exact back_conclude back _ _

theorem back_watch (back : Back pass s s') : Back pass s (s'.watch rules pass f t).2 := by
  rw [watch]
  split
  · split
    · exact back_look back _ _ _ _
    · split
      · exact back_look back _ _ _ _
      · exact back
  · exact back

theorem back_advance (back : Back pass s s') : Back pass s (s'.advance rules pass f t).2.2 := by
  rw [advance]
  refine back_watch ?_
  split
  · exact back_enter back _
  · exact back

theorem back_beginEach {sims : List Simulation} (pending : ∀ s ∈ sims, s.stage = .pending) :
    List.Forall₂ (Back pass) sims (beginEach rules pass f t sims).2.2 := by
  induction sims generalizing f t with
  | nil => exact .nil
  | cons s rest ih =>
    obtain ⟨first, others⟩ := List.forall_mem_cons.mp pending
    rw [beginEach, first]
    exact .cons (back_begin (back_of_pending first)) (ih others)

theorem back_advanceEach {sims sims' : List Simulation}
    (back : List.Forall₂ (Back pass) sims sims') :
    List.Forall₂ (Back pass) sims (advanceEach rules pass f t sims').2.2 := by
  induction back generalizing f t with
  | nil => exact .nil
  | cons head _ ih => exact .cons (back_advance head) ih

theorem back_runUntil {sims sims' : List Simulation} (limit now : Nat) (f : Forest) (t : Timeline)
    (back : List.Forall₂ (Back pass) sims sims') :
    List.Forall₂ (Back pass) sims (runUntil rules pass limit now f t sims').2.2 := by
  -- On the time that is left: the next moment is a later one, at the limit or earlier.
  induction left : limit - now using Nat.strongRecOn generalizing now f t sims' with
  | ind left ih =>
    have back' : List.Forall₂ (Back pass) sims (moment rules pass now f t sims').2.2 :=
      back_advanceEach back
    rw [runUntil_eq]
    generalize moment rules pass now f t sims' = x at back'
    obtain ⟨f', t', middle⟩ := x
    dsimp only at back' ⊢
    split
    · exact back'
    · split
      · split
        · rename_i within
          exact ih (limit - _) (by omega) _ f' t' back' rfl
        · exact back'
      · exact back'

end Simulation

/-- What is asked of a conductor: simulations that it hands back have been handed to it, and are
still those of their candidates. It may lose some on the way. -/
def Conductor.Faithful {σ : Type} (c : Conductor σ) : Prop :=
  ∀ pass f clock sims, (∀ s ∈ sims, s.stage = .pending) →
    ∀ s' ∈ (c.runAll pass f clock sims).2.2, ∃ s ∈ sims, s.Back pass s'

theorem faithful_conductor (rules : SimulationRules) : rules.conductor.Faithful := by
  intro pass f t sims pending s' hs'
  exact Simulation.SideBySide.exists_left
    (Simulation.back_runUntil _ _ _ _ (Simulation.back_beginEach pending)) hs'

namespace Pass

variable {σ : Type}

/-- A simulation of one of these candidates; if it has succeeded its outcome tells of it. -/
structure Simulates (number : Nat) (candidates : List Candidate) (s : Simulation) : Prop where
  candidate : s.candidate ∈ candidates
  template : s.candidate.pool.template? s.candidate.template = some s.template
  outcome : ∀ o, s.outcome? = some o →
    o.name = s.name ∧ o.placement = s.placement ∧ o.scaledNode = s.node number

/-- Simulations that are set up are those of the candidates, and have not begun. -/
theorem mem_prepare {base : ViewId} {w : Workspace σ} {p : Pass} {candidates all : List Candidate}
    (within : ∀ c ∈ candidates, c ∈ all)
    (sofar : ∀ s ∈ p.simulations, Simulates p.number all s ∧ s.stage = .pending) :
    ∀ s ∈ (prepare base w p candidates).2.simulations,
      Simulates p.number all s ∧ s.stage = .pending := by
  induction candidates generalizing w p with
  | nil => exact sofar
  | cons c rest ih =>
    obtain ⟨listed, within⟩ := List.forall_mem_cons.mp within
    rw [prepare]
    dsimp only
    split
    · rename_i s created
      refine ih within ?_
      refine List.forall_mem_append.mpr ⟨sofar, List.forall_mem_singleton.mpr ?_⟩
      rw [Simulation.create] at created
      dsimp only at created
      split at created
      · cases created
      · rename_i template found
        split at created
        · cases created
        · cases created
        · cases created
          exact ⟨⟨listed, found, by simp [Simulation.outcome?]⟩, rfl⟩
    · split
      · simp
      · exact ih within sofar

/-- The simulations of a pass are those of its candidates. -/
theorem mem_simulations {c : Conductor σ} {number : Nat} {base : ViewId}
    {candidates : List Candidate} {w w' : Workspace σ} {p : Pass} (faithful : c.Faithful)
    (ran : run c number base candidates w = (w', .ok p)) :
    ∀ s ∈ p.simulations, Simulates number candidates s := by
  have prepared : ∀ s ∈ (prepare base w { number } candidates).2.simulations,
      Simulates number candidates s ∧ s.stage = .pending := mem_prepare (fun _ h => h) (by simp)
  rw [run] at ran
  generalize prepare base w { number } candidates = x at ran prepared
  obtain ⟨w₁, p₁⟩ := x
  dsimp only at ran prepared
  split at ran
  · cases ran
    exact fun s hs => (prepared s hs).1
  · split at ran
    · cases ran
    · cases ran
      intro s' hs'
      obtain ⟨s, hs, back⟩ := faithful number w₁.forest w₁.clock p₁.simulations
        (fun s hs => (prepared s hs).2) s' ((List.mergeSort_perm _ _).mem_iff.mp hs')
      have known := (prepared s hs).1
      refine ⟨back.candidate ▸ known.candidate, ?_, ?_⟩
      · rw [back.candidate, back.template]
        exact known.template
      · intro o succeeded
        rw [back.name, back.placement, back.node]
        exact back.outcome o succeeded

end Pass

end ScaleAdvisor
