import ScaleAdvisor.Proofs.Search.Turns
import ScaleAdvisor.Proofs.Simulation.Excuses

/-!
The run that a list of picks leads to. Each pass that has scores to choose among takes the next
pick, and the search goes on from there; so picks determine all turns of a run.

* `Choice.follow_bind`: a computation takes the first picks, and what follows it the others;
* `Choice.Alike.follow`: two computations that offer the same choices, followed side by side;
* `exists_run_turns`: the turns that picks lead to are those of a run, with the same outcome.
-/

namespace ScaleAdvisor

namespace Choice

variable {α β γ δ : Type}

/-- The picks that are left over. -/
def unused : Choice α → List Nat → List Nat
  | .done _, picks => picks
  | .pick _ next, [] => (next 0).unused []
  | .pick extra next, i :: picks => (next (Fin.ofNat (extra + 1) i)).unused picks

theorem follow_bind (p : Choice α) (k : α → Choice β) (picks : List Nat) :
    (p.bind k).follow picks = (k (p.follow picks)).follow (p.unused picks) := by
  induction p generalizing picks with
  | done a => rfl
  | pick extra next ih =>
    cases picks with
    | nil => exact ih 0 []
    | cons i picks => exact ih _ picks

theorem unused_bind (p : Choice α) (k : α → Choice β) (picks : List Nat) :
    (p.bind k).unused picks = (k (p.follow picks)).unused (p.unused picks) := by
  induction p generalizing picks with
  | done a => rfl
  | pick extra next ih =>
    cases picks with
    | nil => exact ih 0 []
    | cons i picks => exact ih _ picks

/-- Two computations that offer the same choices; whatever is picked, their outcomes are related. -/
inductive Alike (R : α → β → Prop) : Choice α → Choice β → Prop where
  | done {a : α} {b : β} (same : R a b) : Alike R (.done a) (.done b)
  | pick {extra : Nat} {next : Fin (extra + 1) → Choice α} {next' : Fin (extra + 1) → Choice β}
      (each : ∀ i, Alike R (next i) (next' i)) : Alike R (.pick extra next) (.pick extra next')

/-- The same picks lead to related outcomes, and leave the same picks over. -/
theorem Alike.follow {R : α → β → Prop} {p : Choice α} {q : Choice β} (alike : Alike R p q)
    (picks : List Nat) :
    R (p.follow picks) (q.follow picks) ∧ q.unused picks = p.unused picks := by
  induction alike generalizing picks with
  | done same => exact ⟨same, rfl⟩
  | pick _ ih =>
    cases picks with
    | nil => exact ih 0 []
    | cons i picks => exact ih _ picks

theorem alike_among {R : α → β → Prop} {first : γ} {rest : List γ} {k : γ → α} {l : γ → β}
    (each : ∀ x ∈ first :: rest, R (k x) (l x)) :
    Alike R ((among first rest).bind fun x => .done (k x))
      ((among first rest).bind fun x => .done (l x)) :=
  .pick fun _ => .done (each _ (List.getElem_mem _))

/-- Without picks the first branches are taken. -/
theorem follow_nil (p : Choice α) : p.follow [] = p.first ∧ p.unused [] = [] := by
  induction p with
  | done a => exact ⟨rfl, rfl⟩
  | pick extra next ih => exact ih 0

end Choice

namespace ScaleOut

variable {σ F : Type} [Quantity F]

/-- The run is not cancelled in this turn, and none of the turn's simulations is cut short. -/
def Turn.isSmooth (t : Turn σ F) : Bool :=
  (match t.next with
    | .finished (.error (.cancelled _)) => false
    | _ => true) &&
  t.pass?.all fun p => p.simulations.all fun s => s.error?.all fun e => !e.isCutShort

section Follow

variable (c : Conductor σ) (r : AdviceRequest) (scoring : Scoring F)

/-- The turns of a group that these picks lead to. -/
def groupTurns (g : CandidateGroup) (s : ScaleOut σ F) (stalled : Nat) (picks : List Nat) :
    List (Turn σ F) :=
  let t := (turn c r scoring g s stalled).follow picks
  match _next : t.next with
  | .finished _ => [t]
  | .again again => t :: groupTurns g t.after again ((turn c r scoring g s stalled).unused picks)
termination_by (s.pending.size, patience - stalled)
decreasing_by exact turn_shrinks (Choice.reaches_follow _ _) _next

/-- The turns of all groups that are visited. -/
def visitTurns : ScaleOut σ F → List CandidateGroup → List Nat → List (Turn σ F)
  | _, [], _ => []
  | s, g :: rest, picks =>
    groupTurns c r scoring g s 0 picks ++
      match (runGroup c r scoring g s 0).follow picks with
      | (s', .ok false) => visitTurns s' rest ((runGroup c r scoring g s 0).unused picks)
      | _ => []

/-- The turns of the run that these picks lead to. -/
def turns (f : Forest) (clock : σ) (picks : List Nat) : List (Turn σ F) :=
  match opening r f clock with
  | (_, .error _) => []
  | (w, .ok pending) =>
    if pending.isEmpty then []
    else visitTurns c r scoring (begun w pending) (CandidateGroup.ofPools r.pools) picks

variable {c r scoring}

/-- What a group comes to after a turn. -/
def afterTurn (c : Conductor σ) (r : AdviceRequest) (scoring : Scoring F) (g : CandidateGroup)
    (t : Turn σ F) : Choice (ScaleOut σ F × Except SimulationError Bool) :=
  match t.next with
  | .finished answer => .done (t.after, answer)
  | .again stalled => runGroup c r scoring g t.after stalled

theorem follow_runGroup (g : CandidateGroup) (s : ScaleOut σ F) (stalled : Nat) (picks : List Nat) :
    (runGroup c r scoring g s stalled).follow picks =
        (afterTurn c r scoring g ((turn c r scoring g s stalled).follow picks)).follow
          ((turn c r scoring g s stalled).unused picks) ∧
      (runGroup c r scoring g s stalled).unused picks =
        (afterTurn c r scoring g ((turn c r scoring g s stalled).follow picks)).unused
          ((turn c r scoring g s stalled).unused picks) := by
  rw [runGroup_eq_turn]
  exact ⟨Choice.follow_bind _ _ _, Choice.unused_bind _ _ _⟩

theorem follow_mem_groupTurns {g : CandidateGroup} {s : ScaleOut σ F} {stalled : Nat}
    {picks : List Nat} :
    (turn c r scoring g s stalled).follow picks ∈ groupTurns c r scoring g s stalled picks := by
  rw [groupTurns]
  split <;> exact List.mem_cons_self

theorem groupTurns_of_again {g : CandidateGroup} {s : ScaleOut σ F} {stalled again : Nat}
    {picks : List Nat} (next : ((turn c r scoring g s stalled).follow picks).next = .again again) :
    groupTurns c r scoring g s stalled picks = (turn c r scoring g s stalled).follow picks ::
      groupTurns c r scoring g ((turn c r scoring g s stalled).follow picks).after again
        ((turn c r scoring g s stalled).unused picks) := by
  rw [groupTurns, next]

/-- The turns that picks lead to are those of a group. -/
theorem groupRun_follow (g : CandidateGroup) (s : ScaleOut σ F) (stalled : Nat) (picks : List Nat) :
    GroupRun c r scoring g s stalled (groupTurns c r scoring g s stalled picks)
      ((runGroup c r scoring g s stalled).follow picks).1
      ((runGroup c r scoring g s stalled).follow picks).2 := by
  have taken := (turn c r scoring g s stalled).reaches_follow picks
  rw [groupTurns, (follow_runGroup g s stalled picks).1, afterTurn]
  split
  · rename_i answer next
    rw [next]
    exact .last taken next
  · rename_i again next
    have shrinks := turn_shrinks taken next
    rw [next]
    exact .more taken next (groupRun_follow g _ again _)
termination_by (s.pending.size, patience - stalled)
decreasing_by exact shrinks

theorem exists_visits_follow (s : ScaleOut σ F) (noted : List ScaleOutPlan)
    (groups : List CandidateGroup) (picks : List Nat) :
    ∃ visits, visits.flatMap (·.turns) = visitTurns c r scoring s groups picks ∧
      Visits c r scoring s groups visits ((runGroups c r scoring s noted groups).follow picks).1
        ((runGroups c r scoring s noted groups).follow picks).2.2 := by
  induction groups generalizing s noted picks with
  | nil => exact ⟨[], rfl, .done s⟩
  | cons g rest ih =>
    have group : GroupRun c r scoring g s 0 _ _ _ := groupRun_follow g s 0 picks
    rw [runGroups, Choice.follow_bind, visitTurns]
    generalize (runGroup c r scoring g s 0).follow picks = reached at group ⊢
    obtain ⟨s', e | _ | _⟩ := reached
    · exact ⟨_, (List.flatMap_singleton _ _).trans (List.append_nil _).symm, .failed group⟩
    · obtain ⟨visits, same, further⟩ := ih s' _ ((runGroup c r scoring g s 0).unused picks)
      exact ⟨_ :: visits, by rw [List.flatMap_cons, same], .next group further⟩
    · exact ⟨_, (List.flatMap_singleton _ _).trans (List.append_nil _).symm, .complete group⟩

/-- The turns that picks lead to are those of a run, and the run has the outcome that they lead
to. -/
theorem exists_run_turns {f : Forest} {clock : σ} {w : Workspace σ} {pending : KeySet WorkloadKey}
    (opened : opening r f clock = (w, .ok pending)) (picks : List Nat) :
    ∃ visits last, visits.flatMap (·.turns) = turns c r scoring f clock picks ∧
      Run c r scoring f clock visits last
        ((simulate c r scoring f clock).follow picks).outcome := by
  rw [turns, simulate_eq, opened]
  dsimp only
  split
  · rename_i nothing
    exact ⟨[], _, rfl, .idle opened (SortedMap.isEmpty_iff.mp nothing)⟩
  · rename_i something
    have something := fun none => something (SortedMap.isEmpty_iff.mpr none)
    obtain ⟨visits, same, further⟩ := @exists_visits_follow σ F _ c r scoring
      (begun w pending) [] (CandidateGroup.ofPools r.pools) picks
    rw [Choice.follow_bind_done]
    generalize (runGroups c r scoring (begun w pending) [] (CandidateGroup.ofPools r.pools)).follow
      picks = reached at further ⊢
    obtain ⟨last, notes, e | ⟨⟩⟩ := reached
    · exact ⟨visits, last, same, .failed opened something further⟩
    · exact ⟨visits, last, same, .searched opened something further⟩

end Follow

section First

variable {c : Conductor σ} {r : AdviceRequest} {scoring : Scoring F}

/-- Without picks a group takes the turns that pick the first of all ties. -/
theorem groupTurns_nil {g : CandidateGroup} {fuel stalled : Nat} {s last : ScaleOut σ F}
    {turns : List (Turn σ F)} {answer : Except SimulationError Bool}
    (h : firstTurns c r scoring g fuel s stalled = some (turns, last, answer)) :
    groupTurns c r scoring g s stalled [] = turns ∧
      (runGroup c r scoring g s stalled).follow [] = (last, answer) := by
  induction fuel generalizing s stalled turns with
  | zero => simp [firstTurns] at h
  | succ fuel ih =>
    obtain ⟨first, unused⟩ := (turn c r scoring g s stalled).follow_nil
    rw [groupTurns, (follow_runGroup g s stalled []).1, afterTurn, first, unused]
    rw [firstTurns] at h
    dsimp only at h ⊢
    split at h
    · rename_i next
      cases h
      rw [next]
      exact ⟨rfl, rfl⟩
    · rename_i again next
      obtain ⟨⟨turns', last', answer'⟩, rest, same⟩ := Option.map_eq_some_iff.mp h
      cases same
      obtain ⟨later, reached⟩ := ih rest
      rw [next]
      exact ⟨congrArg _ later, reached⟩

theorem visitTurns_nil {fuel : Nat} {s last : ScaleOut σ F} {groups : List CandidateGroup}
    {visits : List (Visit σ F)} {answer : Except SimulationError Unit}
    (h : firstVisits c r scoring fuel s groups = some (visits, last, answer))
    (noted : List ScaleOutPlan) :
    visitTurns c r scoring s groups [] = visits.flatMap (·.turns) ∧ ∃ notes,
      (runGroups c r scoring s noted groups).follow [] = (last, notes, answer) := by
  induction groups generalizing s noted visits with
  | nil =>
    cases h
    exact ⟨rfl, noted, rfl⟩
  | cons g rest ih =>
    rw [firstVisits] at h
    obtain ⟨⟨turns, after, answer'⟩, taken, further⟩ := Option.bind_eq_some_iff.mp h
    obtain ⟨group, reached⟩ := groupTurns_nil taken
    rw [visitTurns, runGroups, Choice.follow_bind, group, reached, (Choice.follow_nil _).2]
    rcases answer' with e | _ | _
    · cases further
      exact ⟨by simp, _, rfl⟩
    · obtain ⟨⟨visits', last', answer''⟩, rest', same⟩ := Option.map_eq_some_iff.mp further
      cases same
      obtain ⟨later, reached'⟩ := ih rest' _
      exact ⟨congrArg _ later, reached'⟩
    · cases further
      exact ⟨by simp, _, rfl⟩

/-- Without picks a run is the one that picks the first of all ties. -/
theorem turns_nil {fuel : Nat} {f : Forest} {clock : σ} {visits : List (Visit σ F)}
    {last : ScaleOut σ F} {outcome : Except SimulationError ScaleOutPlan}
    (h : firstRun c r scoring fuel f clock = some (visits, last, outcome)) :
    turns c r scoring f clock [] = visits.flatMap (·.turns) ∧
      ((simulate c r scoring f clock).follow []).outcome = outcome := by
  rw [firstRun] at h
  rw [turns, simulate_eq]
  generalize opening r f clock = opened at h ⊢
  obtain ⟨w, e | pending⟩ := opened
  · simp at h
  · dsimp only at h ⊢
    split at h
    · rename_i nothing
      cases h
      rw [if_pos nothing, if_pos nothing]
      exact ⟨rfl, rfl⟩
    · rename_i something
      obtain ⟨⟨visits', last', answer⟩, visited, same⟩ := Option.map_eq_some_iff.mp h
      obtain ⟨taken, notes, reached⟩ := visitTurns_nil visited []
      cases same
      rw [if_neg something, if_neg something, Choice.follow_bind_done, reached]
      refine ⟨taken, ?_⟩
      cases answer <;> rfl

/-- What the run that picks the first of all ties shows, the run without picks shows. -/
theorem smooth_of_first (c : Conductor σ) (r : AdviceRequest) (scoring : Scoring F) (fuel : Nat)
    (f : Forest) (clock : σ) (shows : Except SimulationError ScaleOutPlan → Bool)
    (h : (firstRun c r scoring fuel f clock).any (fun (visits, _, outcome) =>
      visits.all (fun v => v.turns.all (·.isSmooth)) && shows outcome) = true) :
    (∀ t ∈ turns c r scoring f clock [], t.isSmooth = true) ∧
      shows ((simulate c r scoring f clock).follow []).outcome = true := by
  obtain ⟨⟨visits, last, outcome⟩, first, shown⟩ := (Option.any_eq_true _ _).mp h
  obtain ⟨smooth, shown⟩ := Bool.and_eq_true_iff.mp shown
  obtain ⟨taken, reached⟩ := turns_nil first
  rw [taken, reached]
  refine ⟨fun t ht => ?_, shown⟩
  obtain ⟨v, hv, ht⟩ := List.mem_flatMap.mp ht
  exact List.all_eq_true.mp (List.all_eq_true.mp smooth v hv) t ht

end First

end ScaleOut

end ScaleAdvisor
