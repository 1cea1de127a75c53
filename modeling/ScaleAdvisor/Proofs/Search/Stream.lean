import ScaleAdvisor.Advice.Planner
import ScaleAdvisor.Proofs.Search.Shares
import ScaleAdvisor.Scheduling.Rehearsal

/-!
The messages that answer a request. A run of the search comes to partial plans for its groups, if
the request asks for them, and to one terminal message. A group that fails takes the whole run down
with it, and nothing is said of what it has added.

* `reaches_plan_iff`: the answers to a request are those of its runs;
* `simulate_mode`: the search does not depend on how it is answered;
* `answer_in_parts`: the partial plans come group by group, and add up to the whole.
-/

namespace ScaleAdvisor

/-- The plan that a message carries, if it carries one. -/
def AdviceResult.plan? (m : AdviceResult) : Option ScaleOutPlan := m.outcome.toOption

namespace ScaleOut

variable {σ F : Type} [Quantity F] {c : Conductor σ} {r : AdviceRequest} {scoring : Scoring F}

theorem runGroup_mode (mode : AdviceMode) (g : CandidateGroup) (s : ScaleOut σ F) (stalled : Nat) :
    runGroup c { r with mode } scoring g s stalled = runGroup c r scoring g s stalled := by
  rw [runGroup_eq_turn, runGroup_eq_turn]
  refine Choice.bind_congr fun t taken => ?_
  split
  · rfl
  · rename_i again next
    have shrinks := turn_shrinks taken next
    exact runGroup_mode mode g t.after again
termination_by (s.pending.size, patience - stalled)
decreasing_by exact shrinks

theorem runGroups_mode (mode : AdviceMode) (groups : List CandidateGroup) (s : ScaleOut σ F)
    (noted : List ScaleOutPlan) :
    runGroups c { r with mode } scoring s noted groups = runGroups c r scoring s noted groups := by
  induction groups generalizing s noted with
  | nil => rfl
  | cons g rest ih =>
    rw [runGroups, runGroups, runGroup_mode]
    refine Choice.bind_congr ?_
    rintro ⟨s', answer⟩ -
    cases answer with
    | error e => rfl
    | ok complete =>
      dsimp only
      rw [ih]

/-- The search does not depend on how it is answered. -/
theorem simulate_mode (mode : AdviceMode) (f : Forest) (clock : σ) :
    simulate c { r with mode } scoring f clock = simulate c r scoring f clock := by
  rw [simulate_eq, simulate_eq]
  simp only [runGroups_mode]
  rfl

end ScaleOut

namespace Planner

open ScaleOut

variable {σ F : Type} [Quantity F]

/-- The answers to a request, each with the groups that have been visited for it. -/
inductive Answers (c : Conductor σ) (r : AdviceRequest) (scoring : Scoring F)
    (trace : Option String) (clock : σ) : List (Visit σ F) → Answer σ → Prop where
  | unimplemented (single : r.simulation = .singleSimulationPerGroup) :
      Answers c r scoring trace clock []
        ⟨[terminalMessage r trace
          (.error (.unimplemented ("simulation strategy " ++ r.simulation.text)))], clock⟩
  /-- The snapshot cannot be loaded. -/
  | unopened {w : Workspace σ} {e : SimulationError}
      (multi : r.simulation = .multiSimulationsPerGroup)
      (opened : opening r ∅ clock = (w, .error e)) :
      Answers c r scoring trace clock [] ⟨[terminalMessage r trace (.error e)], w.clock⟩
  | ran {visits : List (Visit σ F)} {last : ScaleOut σ F}
      {outcome : Except SimulationError ScaleOutPlan}
      (multi : r.simulation = .multiSimulationsPerGroup)
      (run : Run c r scoring ∅ clock visits last outcome) :
      Answers c r scoring trace clock visits
        ⟨partialMessages r (visits.flatMap (Visit.note r)) ++ [terminalMessage r trace outcome],
          last.workspace.clock⟩

variable {c : Conductor σ} {r : AdviceRequest} {scoring : Scoring F} {trace : Option String}
  {clock : σ}

theorem partialMessages_nil (r : AdviceRequest) : partialMessages r [] = [] := by
  rw [partialMessages]
  split <;> rfl

/-- The answers to a request are those of its runs. -/
theorem reaches_plan_iff {a : Answer σ} : (plan c r scoring trace clock).Reaches a ↔
    ∃ visits, Answers c r scoring trace clock visits a := by
  rw [plan]
  split
  · rename_i single
    rw [Choice.reaches_done]
    constructor
    · rintro rfl
      exact ⟨[], .unimplemented single⟩
    · rintro ⟨visits, answers⟩
      cases answers with
      | unimplemented => rfl
      | unopened multi | ran multi => simp [single] at multi
  · rename_i multi
    rw [Choice.reaches_bind]
    constructor
    · rintro ⟨result, reached, made⟩
      obtain rfl := Choice.reaches_done.mp made
      rcases reaches_simulate_iff.mp reached with
        ⟨e, opened, none, failed⟩ | ⟨visits, last, run, same, noted⟩
      · rw [none, failed, partialMessages_nil]
        exact ⟨[], .unopened multi opened⟩
      · rw [same, noted]
        exact ⟨visits, .ran multi run⟩
    · rintro ⟨visits, answers⟩
      cases answers with
      | unimplemented single => simp [single] at multi
      | @unopened w e _ opened =>
        refine ⟨⟨w, [], .error e⟩, reaches_simulate_iff.mpr (.inl ⟨e, opened, rfl, rfl⟩), ?_⟩
        rw [partialMessages_nil]
        exact .done _
      | @ran _ last outcome _ run =>
        exact ⟨⟨last.workspace, _, outcome⟩,
          reaches_simulate_iff.mpr (.inr ⟨visits, last, run, rfl, rfl⟩), .done _⟩

/-- The last message is the same in both modes. -/
theorem getLast?_messages_mode (mode : AdviceMode) (picks : List Nat) :
    ((plan c { r with mode } scoring trace clock).follow picks).messages.getLast? =
      ((plan c r scoring trace clock).follow picks).messages.getLast? := by
  simp only [plan, simulate_mode]
  cases r.simulation with
  | singleSimulationPerGroup => rfl
  | multiSimulationsPerGroup =>
    dsimp only
    rw [Choice.follow_bind_done, Choice.follow_bind_done, List.getLast?_concat,
      List.getLast?_concat]
    rfl

/-- A plan for what a group has added, and nothing else. -/
structure Covers (v : Visit σ F) (plan : ScaleOutPlan) : Prop where
  items : ∀ item ∈ plan.items, ∃ d ∈ v.group.candidates, d.Offers item.placement
  added : ∀ kind, plan.added kind = v.added.countP fun winner => kind winner.placement
  unsatisfied : plan.unsatisfied = v.after.pending.keys.map (·.text)

/-- What can be relied on in the messages that are sent on the way and the one that ends them. -/
structure Streamed (c : Conductor σ) (r : AdviceRequest) (clock : σ) (visits : List (Visit σ F))
    (sent : List AdviceResult) (final : AdviceResult) : Prop where
  parts : ∀ m ∈ sent, m.terminal = false ∧ m.plan?.isSome = true
  terminal : final.terminal = true
  quiet : r.mode = .allAtOnce → sent = []
  groups : visits.map (·.group) <+: CandidateGroup.ofPools r.pools
  ascending : (visits.map (·.group)).Pairwise (·.priority < ·.priority)
  /-- One for each group that has ended well and has added nodes, in their order. -/
  each :
    r.mode = .incremental → List.Forall₂ (fun v m => ∃ plan, m.plan? = some plan ∧ Covers v plan)
      (visits.filter (·.productive)) sent
  /-- Only the last group may end with a failure, and that is what the last message says. -/
  failed : ∀ v ∈ visits, ∀ e, v.answer = .error e →
    visits.getLast? = some v ∧ final.outcome = .error ⟨r.id, r.correlationId, e⟩
  sums : r.mode = .incremental → ∀ plan, final.plan? = some plan → ∀ kind,
    plan.added kind = ((sent.filterMap (·.plan?)).map (·.added kind)).sum
  /-- With the real scheduler, less and less is left over. -/
  leftovers : ∀ ready, Fair r → c.Interleaves BinPack.algorithm ready → ready clock →
    ((sent ++ [final]).filterMap (·.plan?)).Pairwise fun p q => q.unsatisfied ⊆ p.unsatisfied

omit [Quantity F] in
/-- A failure that nothing has come before. -/
theorem streamed_alone {e : SimulationError} :
    Streamed c r clock ([] : List (Visit σ F)) [] (terminalMessage r trace (.error e)) where
  parts := by simp
  terminal := rfl
  quiet _ := rfl
  groups := List.nil_prefix
  ascending := .nil
  each _ := .nil
  failed := by simp
  sums := by simp [AdviceResult.plan?, terminalMessage, Except.toOption]
  leftovers _ _ _ _ := .nil

theorem plan?_terminalMessage (outcome : Except SimulationError ScaleOutPlan) :
    (terminalMessage r trace outcome).plan? = outcome.toOption := by
  cases outcome <;> rfl

/-- The partial plans that are passed on. -/
theorem plans_partialMessages (r : AdviceRequest) (partials : List ScaleOutPlan) :
    (partialMessages r partials).filterMap (·.plan?) =
      if r.mode = .incremental then partials else [] := by
  rw [partialMessages]
  cases r.mode with
  | allAtOnce => rfl
  | incremental =>
    rw [if_pos rfl, List.filterMap_map]
    exact List.filterMap_some

section Run

variable {visits : List (Visit σ F)} {last : ScaleOut σ F}
  {outcome : Except SimulationError ScaleOutPlan}

theorem covers_share (faithful : c.Faithful) (run : Run c r scoring ∅ clock visits last outcome)
    {v : Visit σ F} (hv : v ∈ visits) : Covers v (v.share r) := by
  obtain ⟨w, pending, groups, answer, -, -, further⟩ := run.further
  refine ⟨?_, ?_, rfl⟩
  · intro item hitem
    obtain ⟨winner, added, placement⟩ := List.mem_map.mp (ScaleOutPlan.placement_of_item hitem)
    rw [← placement]
    exact further.offered faithful v hv winner added
  · intro kind
    rw [Visit.share, ScaleOutPlan.added_build, List.countP_map]
    rfl

/-- The plans of all messages, in their order, leave less and less over. -/
theorem leftovers_of_run {ready : σ → Prop} (run : Run c r scoring ∅ clock visits last outcome)
    (fair : Fair r) (interleaves : c.Interleaves BinPack.algorithm ready) (set : ready clock) :
    ((visits.filter (·.productive)).map (Visit.share r) ++ outcome.toOption.toList).Pairwise
      fun p q => q.unsatisfied ⊆ p.unsatisfied := by
  -- Each plan says what some state has left over.
  have said : (((visits.map (·.after)) ++ [last]).map fun s => s.pending.keys.map (·.text)).Pairwise
      fun p q => q ⊆ p :=
    List.pairwise_map.mpr ((run.leftovers fair interleaves set).imp fun h => List.map_subset _ h)
  have plans : (((visits.filter (·.productive)).map (Visit.share r) ++ outcome.toOption.toList).map
      (·.unsatisfied)).Sublist
        (((visits.map (·.after)) ++ [last]).map fun s => s.pending.keys.map (·.text)) := by
    rw [List.map_append, List.map_append]
    refine List.Sublist.append ?_ ?_
    · rw [List.map_map, List.map_map]
      exact List.filter_sublist.map _
    · cases outcome with
      | error e => exact List.nil_sublist _
      | ok plan =>
        rw [run.plan_eq]
        exact .refl _
  exact List.pairwise_map.mp (said.sublist plans)

theorem streamed_of_run (faithful : c.Faithful)
    (run : Run c r scoring ∅ clock visits last outcome) :
    Streamed c r clock visits (partialMessages r (visits.flatMap (Visit.note r)))
      (terminalMessage r trace outcome) := by
  obtain ⟨w, pending, groups, answer, -, -, further⟩ := run.further
  have groups := run.groups_prefix
  rw [further.notes_eq]
  constructor
  case parts =>
    intro m hm
    rw [partialMessages] at hm
    split at hm
    · obtain ⟨plan, -, rfl⟩ := List.mem_map.mp hm
      exact ⟨rfl, rfl⟩
    · simp at hm
  case terminal => rfl
  case quiet =>
    intro quiet
    rw [partialMessages, quiet]
  case groups => exact groups
  case ascending => exact (CandidateGroup.ofPools_ascending r.pools).sublist groups.sublist
  case each =>
    intro incremental
    rw [partialMessages, incremental, List.map_map, List.forall₂_map_right_iff, List.forall₂_same]
    intro v hv
    exact ⟨_, rfl, covers_share faithful run (List.mem_filter.mp hv).1⟩
  case failed =>
    intro v hv e failed
    obtain ⟨final, rfl⟩ := run.failed_last hv failed
    exact ⟨final, rfl⟩
  case sums =>
    intro incremental plan answered kind
    rw [plans_partialMessages, if_pos incremental]
    rw [plan?_terminalMessage] at answered
    cases outcome with
    | error e => cases answered
    | ok plan' =>
      cases answered
      exact run.added_eq kind
  case leftovers =>
    intro ready fair interleaves set
    have leftovers := leftovers_of_run run fair interleaves set
    have final :
      [terminalMessage r trace outcome].filterMap (·.plan?) = outcome.toOption.toList := by
      rw [List.filterMap_cons, plan?_terminalMessage]
      cases outcome <;> rfl
    rw [List.filterMap_append, final, plans_partialMessages]
    -- Without partial messages there is the plan of the last one, if there is any.
    split
    · exact leftovers
    · exact leftovers.sublist (List.sublist_append_right _ _)

end Run

/-- Every way of choosing leads to an answer of partial messages and one terminal message, and in
both modes to the same terminal message. -/
theorem answer_in_parts (faithful : c.Faithful) (r : AdviceRequest) (scoring : Scoring F)
    (trace : Option String) (clock : σ) (picks : List Nat) :
    ∃ visits sent final,
      Answers c r scoring trace clock visits ((plan c r scoring trace clock).follow picks) ∧
      ((plan c r scoring trace clock).follow picks).messages = sent ++ [final] ∧
      Streamed c r clock visits sent final ∧
      ∀ mode, ((plan c { r with mode } scoring trace clock).follow picks).messages.getLast? =
        some final := by
  obtain ⟨visits, answers⟩ := reaches_plan_iff.mp
    ((plan c r scoring trace clock).reaches_follow picks)
  have modes : ∀ mode,
      ((plan c { r with mode } scoring trace clock).follow picks).messages.getLast? =
        ((plan c r scoring trace clock).follow picks).messages.getLast? :=
    fun mode => getLast?_messages_mode mode picks
  generalize (plan c r scoring trace clock).follow picks = a at answers modes ⊢
  have parts : ∃ sent final, a.messages = sent ++ [final] ∧
    Streamed c r clock visits sent final := by
    cases answers with
    | unimplemented => exact ⟨[], _, rfl, streamed_alone⟩
    | unopened => exact ⟨[], _, rfl, streamed_alone⟩
    | ran _ run => exact ⟨_, _, rfl, streamed_of_run faithful run⟩
  obtain ⟨sent, final, messages, streamed⟩ := parts
  refine ⟨visits, sent, final, answers, messages, streamed, ?_⟩
  intro mode
  rw [modes mode, messages, List.getLast?_concat]

/-- Four cores to place, answered group by group. -/
def fourCoresInParts : AdviceRequest := { smallThenLarge 4 with mode := .incremental }

/-- A machine of the second pool takes four cores, and its group is answered at once. -/
theorem answer_in_parts_smallThenLarge :
    ∃ (picks : List Nat) (visits : List (Visit Timeline Float)) (sent : List AdviceResult)
      (final : AdviceResult),
    ((plan standardRules.conductor fourCoresInParts (priced Float) none freshClock).follow
      picks).messages = sent ++ [final] ∧
    sent.map (fun m => m.plan?.map (·.totalDelta)) = [some 1] ∧
    final.plan?.map (·.totalDelta) = some 1 ∧
    Streamed standardRules.conductor fourCoresInParts freshClock visits sent final ∧
    ((sent ++ [final]).filterMap (·.plan?)).Pairwise fun p q => q.unsatisfied ⊆ p.unsatisfied := by
  obtain ⟨visits, last, whole, run, shown⟩ :=
    exists_planned standardRules.conductor fourCoresInParts (priced Float) 1 ∅ freshClock
    (fun visits _ whole => decide
      ((visits.flatMap (Visit.note fourCoresInParts)).map (·.totalDelta) = [1] ∧
        whole.totalDelta = 1))
    (by decide +kernel)
  obtain ⟨notes, delta⟩ := of_decide_eq_true shown
  have reached :
      (plan standardRules.conductor fourCoresInParts (priced Float) none freshClock).Reaches _ :=
    reaches_plan_iff.mpr ⟨visits, .ran rfl run⟩
  obtain ⟨picks, answered⟩ := Choice.reaches_iff_exists_follow.mp reached
  obtain ⟨visits', sent, final, -, messages, streamed, -⟩ :=
    answer_in_parts (faithful_conductor standardRules) fourCoresInParts
      (priced Float) none freshClock picks
  have parts := messages
  rw [answered] at parts
  obtain ⟨rfl, same⟩ := List.append_inj' parts rfl
  obtain rfl := List.singleton_inj.mp same
  refine ⟨picks, visits', _, _, messages, ?_, ?_, streamed, streamed.leftovers _ (by decide +kernel)
    (interleaves_conductor standardRules BinPack.algorithm)
    (Timeline.ready_opened BinPack.algorithm 1 none)⟩
  · have sums := congrArg (List.map some) notes
    rw [List.map_map] at sums
    change ((visits.flatMap _).map (partialMessage _)).map _ = _
    rw [List.map_map]
    exact sums
  · rw [plan?_terminalMessage]
    exact congrArg some delta

/-- Places one of several workloads, and does nothing about the last of them. -/
def oneOfSeveral : Algorithm where
  cycle m := .call .nodes fun
    | .error e => .done (m, .failed (.view e))
    | .ok nodes => .call .workloads fun
      | .error e => .done (m, .failed (.view e))
      | .ok workloads =>
        match Rehearsal.simulatedNode? nodes, workloads.filter (·.isPending) with
        | some n, first :: second :: rest => (Client.bind first.key n.name).bind fun
          | .error e => .done (m, .failed (.view e))
          | .ok _ => Rehearsal.reportAll m 0 ((second :: rest).map fun w => (w.key, none))
        | _, _ => .done (m, .finished 0 0)

/-- Two workloads, and machines for them. -/
def twoToPlace : AdviceRequest where
  id := "request"
  pools := (smallThenLarge 4).pools
  snapshot.workloads := [
    { inNamespace := "default", name := "web", requests := .ofCoresAndGib 1 1 },
    { inNamespace := "default", name := "worker", requests := .ofCoresAndGib 1 1 }]
  mode := .incremental

/-- A group that is cut short is not answered, although it has added a node; and a plan that is
answered all at once has no parts that could add up to it. -/
theorem answer_in_parts_cutShort :
    (∃ visits a e,
      Answers standardRules.conductor twoToPlace (priced Float) none
        (.opened oneOfSeveral 1 (some (100, "stop"))) visits a ∧
      visits.map (·.added.length) = [1] ∧
      a.messages = [terminalMessage twoToPlace none (.error e)]) ∧
    ∃ visits whole a,
      Answers standardRules.conductor (smallThenLarge 4) (priced Float) none freshClock visits a ∧
      whole.totalDelta = 1 ∧
      a.messages = [terminalMessage (smallThenLarge 4) none (.ok whole)] := by
  constructor
  · have first : (firstRun standardRules.conductor twoToPlace (priced Float) 2 ∅
        (.opened oneOfSeveral 1 (some (100, "stop")))).any
        (fun run => decide (run.1.map (·.added.length) = [1] ∧
          run.1.flatMap (Visit.note twoToPlace) = []) && run.2.2.toOption.isNone) = true := by
      decide +kernel
    obtain ⟨visits, last, outcome, run, shown⟩ := exists_run first
    obtain ⟨shown, planless⟩ := Bool.and_eq_true_iff.mp shown
    obtain ⟨added, notes⟩ := of_decide_eq_true shown
    cases outcome with
    | ok plan => cases planless
    | error e =>
      refine ⟨visits, _, e, .ran rfl run, added, ?_⟩
      rw [notes]
      rfl
  · obtain ⟨visits, last, whole, run, delta⟩ := exists_planned standardRules.conductor
      (smallThenLarge 4) (priced Float) 1 ∅ freshClock
      (fun _ _ whole => decide (whole.totalDelta = 1))
      (by decide +kernel)
    exact ⟨visits, whole, _, .ran rfl run, of_decide_eq_true delta, rfl⟩

end Planner

end ScaleAdvisor
