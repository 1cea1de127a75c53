import ScaleAdvisor.Advice.ScaleOut
import ScaleAdvisor.Proofs.Search.Scores

/-!
The search, turn by turn. A turn is one round of a group: at most one pass, and what the search
makes of it. A run of the search is told by its turns, group after group, with the state before and
after each of them.

* `turn_course`: the courses that a turn can take;
* `reaches_runGroup_iff`: the outcomes of a group are those of its sequences of turns;
* `reaches_simulate_iff`: the results of a search are those that its runs lead to;
* `firstRun`: one of the runs, worked out.
-/

namespace ScaleAdvisor

namespace ScaleOut

/-- After a turn the group is finished, or takes another turn. -/
inductive Next where
  | finished (answer : Except SimulationError Bool)
  | again (stalled : Nat)

/-- What happens in a turn. -/
structure Turn (σ F : Type) where
  before : ScaleOut σ F
  after : ScaleOut σ F
  next : Next
  /-- The pass, if one has come to its end. -/
  pass? : Option Pass := none
  /-- Which of the scores that can win has been picked. -/
  winner? : Option (NodeScore F) := none
  /-- The search goes on from the sandbox of the winner. -/
  promoted : Bool := false

namespace Turn

variable {σ F : Type}

/-- The number of the turn's pass. -/
def number (t : Turn σ F) : Nat := t.before.passes + 1

/-- What the winner's simulation has come to. -/
def outcome? (t : Turn σ F) : Option Outcome :=
  match t.pass?, t.winner? with
  | some p, some winner => (p.simulation? winner.name).bind (·.outcome?)
  | _, _ => none

/-- The outcome that the search goes on from. -/
def promoted? (t : Turn σ F) : Option Outcome := if t.promoted then t.outcome? else none

/-- The promoted outcome, if it counts as adding a node. -/
def recorded? (t : Turn σ F) : Option Outcome := t.promoted?.filter (·.usesScaledNode)

end Turn

/-- The state after a pass that has left this workspace. -/
def passed {σ F : Type} (s : ScaleOut σ F) (workspace : Workspace σ) : ScaleOut σ F :=
  { s with workspace, passes := s.passes + 1 }

variable {σ F : Type} [Quantity F]

/-- One round of a group. -/
def turn (c : Conductor σ) (r : AdviceRequest) (scoring : Scoring F) (g : CandidateGroup)
    (s : ScaleOut σ F) (stalled : Nat) : Choice (Turn σ F) :=
  match c.cause s.workspace.clock with
  | some cause => .done { before := s, after := s, next := .finished (.error (.cancelled cause)) }
  | none =>
    let number := s.passes + 1
    match Pass.run c number s.base (s.eligible r g) s.workspace with
    | (workspace, .error e) =>
      .done {
        before := s, after := { s with workspace, passes := number }
        next := .finished (.error e) }
    | (workspace, .ok p) =>
      let s' := { s with workspace, passes := number }
      let ended (after : ScaleOut σ F) (answer : Except SimulationError Bool) : Turn σ F :=
        { before := s, after, next := .finished answer, pass? := some p }
      if p.nothingPending then .done (ended { s' with pending := ∅ } (.ok true))
      else
        match p.ties scoring with
        | .error e => .done (ended (s'.discard p) (.error e))
        | .ok [] => .done (ended (s'.discard p) (.ok false))
        | .ok (first :: rest) => (Choice.among first rest).bind fun winner =>
          let leftover := KeySet.ofKeys winner.unscheduled
          .done <|
            if leftover.size < s.pending.size then
              match p.view? winner.name with
              | none =>
                { ended (s'.discard p) (.error .noWinningNodeScore) with winner? := some winner }
              | some view => {
                  before := s
                  after := s'.promote p winner view leftover
                  next := if leftover.isEmpty then .finished (.ok true) else .again 0
                  pass? := some p
                  winner? := some winner
                  promoted := true }
            else {
              before := s
              after := s'.discard p
              next := if stalled + 1 < patience then .again (stalled + 1) else .finished (.ok false)
              pass? := some p
              winner? := some winner }

section Group

variable {c : Conductor σ} {r : AdviceRequest} {scoring : Scoring F} {g : CandidateGroup}

/-- A group runs turn by turn. -/
theorem runGroup_eq_turn (s : ScaleOut σ F) (stalled : Nat) :
    runGroup c r scoring g s stalled = (turn c r scoring g s stalled).bind fun t =>
      match t.next with
      | .finished answer => .done (t.after, answer)
      | .again stalled => runGroup c r scoring g t.after stalled := by
  rw [runGroup, turn]
  cases c.cause s.workspace.clock with
  | some cause => rfl
  | none =>
    dsimp only
    rcases Pass.run c (s.passes + 1) s.base (s.eligible r g) s.workspace with ⟨workspace, e | p⟩
    · rfl
    · dsimp only
      cases p.nothingPending with
      | true => rfl
      | false =>
        rcases p.ties scoring with e | _ | ⟨first, rest⟩
        · rfl
        · rfl
        · simp only [Bool.false_eq_true, if_false]
          rw [Choice.bind_bind]
          refine congrArg _ (funext ?_)
          intro winner
          rw [Choice.bind]
          split
          · cases p.view? winner.name with
            | none => rfl
            | some view =>
              dsimp only
              split <;> rfl
          · dsimp only
            split <;> rfl

/-- The course of a turn: where it can end, and what has led there. -/
inductive Course (c : Conductor σ) (r : AdviceRequest) (scoring : Scoring F) (g : CandidateGroup)
    (s : ScaleOut σ F) (stalled : Nat) : Turn σ F → Prop where
  /-- The whole run has been cancelled, and no pass begins. -/
  | cancelled (cause : String) (called : c.cause s.workspace.clock = some cause) :
      Course c r scoring g s stalled
        { before := s, after := s, next := .finished (.error (.cancelled cause)) }
  /-- The pass fails. -/
  | broken {w : Workspace σ} {e : SimulationError}
      (uncalled : c.cause s.workspace.clock = none)
      (ran : Pass.run c (s.passes + 1) s.base (s.eligible r g) s.workspace = (w, .error e)) :
      Course c r scoring g s stalled
        { before := s, after := s.passed w, next := .finished (.error e) }
  /-- There is nothing to place. -/
  | nothing {w : Workspace σ} {p : Pass} (uncalled : c.cause s.workspace.clock = none)
      (ran : Pass.run c (s.passes + 1) s.base (s.eligible r g) s.workspace = (w, .ok p))
      (said : p.nothingPending = true) :
      Course c r scoring g s stalled {
        before := s, after := { s.passed w with pending := ∅ }, next := .finished (.ok true)
        pass? := some p }
  /-- The winner cannot be told. -/
  | untold {w : Workspace σ} {p : Pass} {e : SimulationError}
      (uncalled : c.cause s.workspace.clock = none)
      (ran : Pass.run c (s.passes + 1) s.base (s.eligible r g) s.workspace = (w, .ok p))
      (something : p.nothingPending = false) (ties : p.ties scoring = .error e) :
      Course c r scoring g s stalled {
        before := s, after := (s.passed w).discard p, next := .finished (.error e),
        pass? := some p }
  /-- Nobody wins. -/
  | exhausted {w : Workspace σ} {p : Pass} (uncalled : c.cause s.workspace.clock = none)
      (ran : Pass.run c (s.passes + 1) s.base (s.eligible r g) s.workspace = (w, .ok p))
      (something : p.nothingPending = false) (ties : p.ties scoring = .ok []) :
      Course c r scoring g s stalled {
        before := s, after := (s.passed w).discard p, next := .finished (.ok false),
        pass? := some p }
  /-- The winner's sandbox is missing. -/
  | homeless {w : Workspace σ} {p : Pass} {winner : NodeScore F}
      (uncalled : c.cause s.workspace.clock = none)
      (ran : Pass.run c (s.passes + 1) s.base (s.eligible r g) s.workspace = (w, .ok p))
      (something : p.nothingPending = false) (scored : winner ∈ p.scores scoring)
      (missing : p.view? winner.name = none) :
      Course c r scoring g s stalled {
        before := s, after := (s.passed w).discard p, next := .finished (.error .noWinningNodeScore)
        pass? := some p
        winner? := some winner }
  /-- The winner leaves no less pending. -/
  | useless {w : Workspace σ} {p : Pass} {winner : NodeScore F}
      (uncalled : c.cause s.workspace.clock = none)
      (ran : Pass.run c (s.passes + 1) s.base (s.eligible r g) s.workspace = (w, .ok p))
      (something : p.nothingPending = false) (scored : winner ∈ p.scores scoring)
      (enough : ¬ (KeySet.ofKeys winner.unscheduled).size < s.pending.size) :
      Course c r scoring g s stalled {
        before := s
        after := (s.passed w).discard p
        next := if stalled + 1 < patience then .again (stalled + 1) else .finished (.ok false)
        pass? := some p
        winner? := some winner }
  /-- The winner leaves less pending. -/
  | promoted {w : Workspace σ} {p : Pass} {winner : NodeScore F} {view : ViewId}
      (uncalled : c.cause s.workspace.clock = none)
      (ran : Pass.run c (s.passes + 1) s.base (s.eligible r g) s.workspace = (w, .ok p))
      (something : p.nothingPending = false) (scored : winner ∈ p.scores scoring)
      (found : p.view? winner.name = some view)
      (less : (KeySet.ofKeys winner.unscheduled).size < s.pending.size) :
      Course c r scoring g s stalled {
        before := s
        after := (s.passed w).promote p winner view (.ofKeys winner.unscheduled)
        next :=
          if (KeySet.ofKeys winner.unscheduled).isEmpty then .finished (.ok true) else .again 0
        pass? := some p
        winner? := some winner
        promoted := true }

/-- Every turn takes one of these courses. -/
theorem turn_course {s : ScaleOut σ F} {stalled : Nat} {t : Turn σ F}
    (taken : (turn c r scoring g s stalled).Reaches t) : Course c r scoring g s stalled t := by
  rw [turn] at taken
  split at taken
  · rename_i cause called
    obtain rfl := Choice.reaches_done.mp taken
    exact .cancelled cause called
  · rename_i uncalled
    dsimp only at taken
    split at taken
    · rename_i w e ran
      obtain rfl := Choice.reaches_done.mp taken
      exact .broken uncalled ran
    · rename_i w p ran
      split at taken
      · rename_i said
        obtain rfl := Choice.reaches_done.mp taken
        exact .nothing uncalled ran said
      · rename_i something
        have something : p.nothingPending = false := by simpa using something
        split at taken
        · rename_i e ties
          obtain rfl := Choice.reaches_done.mp taken
          exact .untold uncalled ran something ties
        · rename_i ties
          obtain rfl := Choice.reaches_done.mp taken
          exact .exhausted uncalled ran something ties
        · rename_i first rest ties
          obtain ⟨winner, picked, taken⟩ := Choice.reaches_bind.mp taken
          have scored := Pass.mem_scores_of_mem_ties ties (Choice.reaches_among.mp picked)
          obtain rfl := Choice.reaches_done.mp taken
          split
          · rename_i less
            split
            · exact .homeless uncalled ran something scored ‹_›
            · exact .promoted uncalled ran something scored ‹_› less
          · exact .useless uncalled ran something scored ‹_›

/-- Either less is pending after a turn, or the group has less patience left. -/
theorem turn_decreases {s : ScaleOut σ F} {stalled again : Nat} {t : Turn σ F}
    (taken : (turn c r scoring g s stalled).Reaches t) (next : t.next = .again again) :
    t.after.pending.size < s.pending.size ∨
      (t.after.pending = s.pending ∧ again = stalled + 1 ∧ again < patience) := by
  cases turn_course taken with
  | cancelled | broken | nothing | untold | exhausted | homeless => simp at next
  | useless =>
    dsimp only at next
    split at next
    · cases next
      exact .inr ⟨rfl, rfl, ‹_›⟩
    · simp at next
  | promoted _ _ _ _ _ less => exact .inl less

theorem turn_shrinks {s : ScaleOut σ F} {stalled again : Nat} {t : Turn σ F}
    (taken : (turn c r scoring g s stalled).Reaches t) (next : t.next = .again again) :
    Prod.Lex (· < ·) (· < ·) (t.after.pending.size, patience - again)
      (s.pending.size, patience - stalled) := by
  rcases turn_decreases taken next with less | ⟨same, rfl, patient⟩
  · exact .left _ _ less
  · rw [same]
    exact .right _ (by omega)

/-- The turns of a group. -/
inductive GroupRun (c : Conductor σ) (r : AdviceRequest) (scoring : Scoring F)
    (g : CandidateGroup) : ScaleOut σ F → Nat → List (Turn σ F) → ScaleOut σ F →
      Except SimulationError Bool → Prop where
  | last {s : ScaleOut σ F} {stalled : Nat} {t : Turn σ F} {answer : Except SimulationError Bool}
      (taken : (turn c r scoring g s stalled).Reaches t) (next : t.next = .finished answer) :
      GroupRun c r scoring g s stalled [t] t.after answer
  | more {s last : ScaleOut σ F} {stalled again : Nat} {t : Turn σ F} {turns : List (Turn σ F)}
      {answer : Except SimulationError Bool} (taken : (turn c r scoring g s stalled).Reaches t)
      (next : t.next = .again again)
      (rest : GroupRun c r scoring g t.after again turns last answer) :
      GroupRun c r scoring g s stalled (t :: turns) last answer

theorem exists_groupRun {s last : ScaleOut σ F} {stalled : Nat}
    {answer : Except SimulationError Bool}
    (reached : (runGroup c r scoring g s stalled).Reaches (last, answer)) :
    ∃ turns, GroupRun c r scoring g s stalled turns last answer := by
  rw [runGroup_eq_turn] at reached
  obtain ⟨t, taken, rest⟩ := Choice.reaches_bind.mp reached
  split at rest
  · rename_i answer' next
    cases rest
    exact ⟨[t], .last taken next⟩
  · rename_i again next
    have shrinks := turn_shrinks taken next
    obtain ⟨turns, run⟩ := exists_groupRun rest
    exact ⟨t :: turns, .more taken next run⟩
termination_by (s.pending.size, patience - stalled)
decreasing_by exact shrinks

/-- The outcomes of a group are those of its sequences of turns. -/
theorem reaches_runGroup_iff {s last : ScaleOut σ F} {stalled : Nat}
    {answer : Except SimulationError Bool} :
    (runGroup c r scoring g s stalled).Reaches (last, answer) ↔
      ∃ turns, GroupRun c r scoring g s stalled turns last answer := by
  refine ⟨exists_groupRun, ?_⟩
  rintro ⟨turns, run⟩
  induction run with
  | last taken next =>
    rw [runGroup_eq_turn]
    refine Choice.reaches_bind.mpr ⟨_, taken, ?_⟩
    rw [next]
    exact .done _
  | more taken next _ ih =>
    rw [runGroup_eq_turn]
    refine Choice.reaches_bind.mpr ⟨_, taken, ?_⟩
    rw [next]
    exact ih

end Group

/-- A group that has been visited, with all its turns. -/
structure Visit (σ F : Type) where
  group : CandidateGroup
  before : ScaleOut σ F
  turns : List (Turn σ F)
  after : ScaleOut σ F
  answer : Except SimulationError Bool

/-- The plan that is noted after a visit. -/
def Visit.note (r : AdviceRequest) (v : Visit σ F) : List ScaleOutPlan :=
  match v.answer with
  | .error _ => []
  | .ok _ =>
    let added := v.after.winners.drop v.before.winners.length
    if added.isEmpty then []
    else [.build r.snapshot.nodes (added.map (·.placement)) v.after.pending]

section Visits

variable (c : Conductor σ) (r : AdviceRequest) (scoring : Scoring F)

/-- Visits to groups, one after the other, until one fails or leaves nothing pending. -/
inductive Visits : ScaleOut σ F → List CandidateGroup → List (Visit σ F) → ScaleOut σ F →
    Except SimulationError Unit → Prop where
  | done (s : ScaleOut σ F) : Visits s [] [] s (.ok ())
  | failed {s last : ScaleOut σ F} {g : CandidateGroup} {rest : List CandidateGroup}
      {turns : List (Turn σ F)} {e : SimulationError}
      (group : GroupRun c r scoring g s 0 turns last (.error e)) :
      Visits s (g :: rest) [⟨g, s, turns, last, .error e⟩] last (.error e)
  | complete {s last : ScaleOut σ F} {g : CandidateGroup} {rest : List CandidateGroup}
      {turns : List (Turn σ F)} (group : GroupRun c r scoring g s 0 turns last (.ok true)) :
      Visits s (g :: rest) [⟨g, s, turns, last, .ok true⟩] last (.ok ())
  | next {s middle last : ScaleOut σ F} {g : CandidateGroup} {rest : List CandidateGroup}
      {turns : List (Turn σ F)} {visits : List (Visit σ F)} {answer : Except SimulationError Unit}
      (group : GroupRun c r scoring g s 0 turns middle (.ok false))
      (further : Visits middle rest visits last answer) :
      Visits s (g :: rest) (⟨g, s, turns, middle, .ok false⟩ :: visits) last answer

variable {c r scoring}

theorem reaches_runGroups_iff {s last : ScaleOut σ F} {noted notes : List ScaleOutPlan}
    {groups : List CandidateGroup} {answer : Except SimulationError Unit} :
    (runGroups c r scoring s noted groups).Reaches (last, notes, answer) ↔
      ∃ visits, Visits c r scoring s groups visits last answer ∧
        notes = noted ++ visits.flatMap (Visit.note r) := by
  induction groups generalizing s noted with
  | nil =>
    rw [runGroups, Choice.reaches_done]
    constructor
    · rintro ⟨⟩
      exact ⟨[], .done _, by simp⟩
    · rintro ⟨_, ⟨⟩, rfl⟩
      simp
  | cons g rest ih =>
    rw [runGroups, Choice.reaches_bind]
    constructor
    · rintro ⟨⟨s', answer'⟩, reached, more⟩
      obtain ⟨turns, run⟩ := reaches_runGroup_iff.mp reached
      rcases answer' with e | _ | _
      · obtain ⟨⟩ := Choice.reaches_done.mp more
        exact ⟨_, .failed run, by simp [Visit.note]⟩
      · simp only [Bool.false_eq_true, if_false] at more
        obtain ⟨visits, further, rfl⟩ := ih.mp more
        refine ⟨_, .next run further, ?_⟩
        simp only [Visit.note, List.flatMap_cons]
        split <;> simp
      · obtain ⟨⟩ := Choice.reaches_done.mp more
        refine ⟨_, .complete run, ?_⟩
        simp only [Visit.note, List.flatMap_cons, List.flatMap_nil, List.append_nil]
        split <;> simp
    · rintro ⟨visits, run, rfl⟩
      cases run with
      | failed group =>
        refine ⟨(last, _), reaches_runGroup_iff.mpr ⟨_, group⟩, Choice.reaches_done.mpr ?_⟩
        simp [Visit.note]
      | complete group =>
        refine ⟨(last, _), reaches_runGroup_iff.mpr ⟨_, group⟩, Choice.reaches_done.mpr ?_⟩
        simp only [Visit.note, List.flatMap_cons, List.flatMap_nil, List.append_nil]
        split <;> simp
      | @next _ middle _ _ _ turns visits _ group further =>
        refine ⟨(middle, _), reaches_runGroup_iff.mpr ⟨_, group⟩, ?_⟩
        simp only [Bool.false_eq_true, if_false]
        refine ih.mpr ⟨visits, further, ?_⟩
        simp only [Visit.note, List.flatMap_cons]
        split <;> simp

end Visits

/-- The base view of a request, and what is pending in it. -/
def opening (r : AdviceRequest) (f : Forest) (clock : σ) :
    Workspace σ × Except SimulationError (KeySet WorkloadKey) :=
  let (f, base) := f.newBase ("base-" ++ r.id)
  let (forest, loaded) := f.loadSnapshot base r.snapshot
  ({ forest, registry := { base }, clock },
    match loaded with
    | .error e => .error (.createSimulator e.message)
    | .ok () =>
      match forest.pending base with
      | .error e => .error (.view e)
      | .ok pending => .ok (.ofKeys (pending.map (·.key))))

/-- A search that is about to visit its first group. -/
def begun (w : Workspace σ) (pending : KeySet WorkloadKey) : ScaleOut σ F :=
  { workspace := w, base := w.registry.base, pending }

/-- A run of the search for a request: the visits, the state that they lead to, and the outcome. -/
inductive Run (c : Conductor σ) (r : AdviceRequest) (scoring : Scoring F) (f : Forest) (clock : σ) :
    List (Visit σ F) → ScaleOut σ F → Except SimulationError ScaleOutPlan → Prop where
  | idle {w : Workspace σ} {pending : KeySet WorkloadKey}
      (opened : opening r f clock = (w, .ok pending)) (nothing : pending.keys = []) :
      Run c r scoring f clock [] (begun w pending) (.ok {})
  | searched {w : Workspace σ} {pending : KeySet WorkloadKey} {visits : List (Visit σ F)}
      {last : ScaleOut σ F} (opened : opening r f clock = (w, .ok pending))
      (something : pending.keys ≠ [])
      (further : Visits c r scoring (begun w pending) (CandidateGroup.ofPools r.pools) visits last
        (.ok ())) :
      Run c r scoring f clock visits last (last.plan r)
  | failed {w : Workspace σ} {pending : KeySet WorkloadKey} {visits : List (Visit σ F)}
      {last : ScaleOut σ F} {e : SimulationError} (opened : opening r f clock = (w, .ok pending))
      (something : pending.keys ≠ [])
      (further : Visits c r scoring (begun w pending) (CandidateGroup.ofPools r.pools) visits last
        (.error e)) :
      Run c r scoring f clock visits last (.error e)

theorem isEmpty_ofKeys_cons (k : WorkloadKey) (rest : List WorkloadKey) :
    (KeySet.ofKeys (k :: rest)).isEmpty = false := by
  cases empty : (KeySet.ofKeys (k :: rest)).isEmpty with
  | false => rfl
  | true =>
    have listed : k ∈ (KeySet.ofKeys (k :: rest)).keys := KeySet.mem_keys_ofKeys.mpr (by simp)
    rw [SortedMap.isEmpty_iff.mp empty] at listed
    simp at listed

/-- A search opens, and then visits groups if anything is pending. -/
theorem simulate_eq (c : Conductor σ) (r : AdviceRequest) (scoring : Scoring F) (f : Forest)
    (clock : σ) :
    simulate c r scoring f clock = match opening r f clock with
      | (w, .error e) => .done { workspace := w, outcome := .error e }
      | (w, .ok pending) =>
        if pending.isEmpty then .done { workspace := w, outcome := .ok {} }
        else (runGroups c r scoring (begun w pending) [] (CandidateGroup.ofPools r.pools)).bind
          fun (s, partials, answer) => .done {
            workspace := s.workspace
            partials
            outcome := match answer with
              | .error e => .error e
              | .ok () => s.plan r } := by
  rw [simulate, opening]
  rcases f.newBase ("base-" ++ r.id) with ⟨f₁, base⟩
  dsimp only
  rcases f₁.loadSnapshot base r.snapshot with ⟨f₂, e | ⟨⟩⟩
  · rfl
  · dsimp only
    rw [search]
    dsimp only
    rcases f₂.pending base with e | _ | ⟨first, rest⟩
    · rfl
    · rfl
    · dsimp only
      rw [List.map_cons, isEmpty_ofKeys_cons]
      rfl

/-- The snapshot cannot be loaded, and the search ends with that. -/
def Unopened (r : AdviceRequest) (f : Forest) (clock : σ) (result : Result σ) : Prop :=
  ∃ e, opening r f clock = (result.workspace, .error e) ∧ result.partials = [] ∧
    result.outcome = .error e

/-- A run that leads to a result: its outcome, the workspace that it leaves behind, and the plans
that it has noted. -/
structure Leads (c : Conductor σ) (r : AdviceRequest) (scoring : Scoring F) (f : Forest) (clock : σ)
    (visits : List (Visit σ F)) (last : ScaleOut σ F) (result : Result σ) : Prop where
  run : Run c r scoring f clock visits last result.outcome
  workspace : result.workspace = last.workspace
  partials : result.partials = visits.flatMap (Visit.note r)

/-- A search that is opened reaches whatever visits of all groups lead to. -/
theorem reaches_of_visits {c : Conductor σ} {r : AdviceRequest} {scoring : Scoring F} {f : Forest}
    {clock : σ} {w : Workspace σ} {pending : KeySet WorkloadKey} {visits : List (Visit σ F)}
    {last : ScaleOut σ F} {answer : Except SimulationError Unit}
    (opened : opening r f clock = (w, .ok pending)) (something : pending.keys ≠ [])
    (further : Visits c r scoring (begun w pending) (CandidateGroup.ofPools r.pools) visits last
      answer) :
    (simulate c r scoring f clock).Reaches {
      workspace := last.workspace
      partials := visits.flatMap (Visit.note r)
      outcome := answer.bind fun _ => last.plan r } := by
  rw [simulate_eq, opened]
  dsimp only
  rw [if_neg fun empty => something (SortedMap.isEmpty_iff.mp empty)]
  refine Choice.reaches_bind.mpr ⟨(last, visits.flatMap (Visit.note r), answer), ?_, ?_⟩
  · exact reaches_runGroups_iff.mpr ⟨visits, further, rfl⟩
  · rcases answer with e | ⟨⟩
    · exact .done _
    · exact .done _

/-- The results of a search are those that its runs lead to, unless the snapshot cannot even be
loaded. -/
theorem reaches_simulate_iff {c : Conductor σ} {r : AdviceRequest} {scoring : Scoring F}
    {f : Forest} {clock : σ} {result : Result σ} :
    (simulate c r scoring f clock).Reaches result ↔
      Unopened r f clock result ∨ ∃ visits last, Leads c r scoring f clock visits last result := by
  constructor
  · intro reached
    rw [simulate_eq] at reached
    rcases opened : opening r f clock with ⟨w, e | pending⟩
    · rw [opened] at reached
      obtain rfl := Choice.reaches_done.mp reached
      exact .inl ⟨e, opened, rfl, rfl⟩
    · rw [opened] at reached
      dsimp only at reached
      split at reached
      · rename_i nothing
        obtain rfl := Choice.reaches_done.mp reached
        exact .inr ⟨[], _, .idle opened (SortedMap.isEmpty_iff.mp nothing), rfl, rfl⟩
      · rename_i something
        obtain ⟨⟨last, notes, answer⟩, visited, reached⟩ := Choice.reaches_bind.mp reached
        obtain ⟨visits, further, rfl⟩ := reaches_runGroups_iff.mp visited
        obtain rfl := Choice.reaches_done.mp reached
        have something := fun none => something (SortedMap.isEmpty_iff.mpr none)
        refine .inr ⟨visits, last, ?_, rfl, List.nil_append _⟩
        rcases answer with e | ⟨⟩
        · exact .failed opened something further
        · exact .searched opened something further
  · obtain ⟨workspace, partials, outcome⟩ := result
    rintro (⟨e, opened, rfl, rfl⟩ | ⟨visits, last, run, rfl, rfl⟩)
    · rw [simulate_eq, opened]
      exact .done _
    · cases run with
      | idle opened nothing =>
        rw [simulate_eq, opened]
        dsimp only
        rw [if_pos (SortedMap.isEmpty_iff.mpr nothing)]
        exact .done _
      | searched opened something further => exact reaches_of_visits opened something further
      | failed opened something further => exact reaches_of_visits opened something further

section Led

variable {c : Conductor σ} {r : AdviceRequest} {scoring : Scoring F} {f : Forest} {clock : σ}
  {result : Result σ} {visits : List (Visit σ F)} {last : ScaleOut σ F}

/-- An outcome that does not come of the loading comes of a run. -/
theorem exists_leads (reached : (simulate c r scoring f clock).Reaches result)
    (opened : ∀ e, (opening r f clock).2 = .error e → result.outcome ≠ .error e) :
    ∃ visits last, Leads c r scoring f clock visits last result := by
  rcases reaches_simulate_iff.mp reached with ⟨e, unopened, -, failed⟩ | led
  · exact absurd failed (opened e (by rw [unopened]))
  · exact led

theorem exists_leads_of_plan (reached : (simulate c r scoring f clock).Reaches result)
    {plan : ScaleOutPlan} (planned : result.outcome = .ok plan) :
    ∃ visits last, Leads c r scoring f clock visits last result :=
  exists_leads reached fun e _ failed => by simp [planned] at failed

/-- A search that cannot find any advice has been opened. -/
theorem opening_error_ne_noScalingAdvice {e : SimulationError}
    (failed : (opening r f clock).2 = .error e) : e ≠ .noScalingAdvice := by
  rintro rfl
  rw [opening] at failed
  dsimp only at failed
  split at failed
  · simp at failed
  · split at failed <;> simp at failed

/-- Every run leads to a result. -/
theorem Run.leads {outcome : Except SimulationError ScaleOutPlan}
    (run : Run c r scoring f clock visits last outcome) :
    Leads c r scoring f clock visits last
      { workspace := last.workspace, partials := visits.flatMap (Visit.note r), outcome } :=
  ⟨run, rfl, rfl⟩

theorem Leads.reaches (leads : Leads c r scoring f clock visits last result) :
    (simulate c r scoring f clock).Reaches result :=
  reaches_simulate_iff.mpr (.inr ⟨visits, last, leads⟩)

end Led

section First

variable (c : Conductor σ) (r : AdviceRequest) (scoring : Scoring F)

/-- The turns of a group, if there are no more than `fuel`, each picking the first of its ties. -/
def firstTurns (g : CandidateGroup) :
    Nat → ScaleOut σ F → Nat → Option (List (Turn σ F) × ScaleOut σ F × Except SimulationError Bool)
  | 0, _, _ => none
  | fuel + 1, s, stalled =>
    let t := (turn c r scoring g s stalled).first
    match t.next with
    | .finished answer => some ([t], t.after, answer)
    | .again stalled =>
      (firstTurns g fuel t.after stalled).map fun (turns, last, answer) =>
        (t :: turns, last, answer)

/-- Visits to groups, each of no more than `fuel` turns. -/
def firstVisits (fuel : Nat) : ScaleOut σ F → List CandidateGroup →
    Option (List (Visit σ F) × ScaleOut σ F × Except SimulationError Unit)
  | s, [] => some ([], s, .ok ())
  | s, g :: rest =>
    (firstTurns c r scoring g fuel s 0).bind fun (turns, after, answer) =>
      let visit : Visit σ F := ⟨g, s, turns, after, answer⟩
      match answer with
      | .error e => some ([visit], after, .error e)
      | .ok true => some ([visit], after, .ok ())
      | .ok false =>
        (firstVisits fuel after rest).map fun (visits, last, answer) =>
          (visit :: visits, last, answer)

/-- The run that picks the first of all ties, if no group takes more than `fuel` turns. -/
def firstRun (fuel : Nat) (f : Forest) (clock : σ) :
    Option (List (Visit σ F) × ScaleOut σ F × Except SimulationError ScaleOutPlan) :=
  match opening r f clock with
  | (_, .error _) => none
  | (w, .ok pending) =>
    if pending.isEmpty then some ([], begun w pending, .ok {})
    else (firstVisits c r scoring fuel (begun w pending) (CandidateGroup.ofPools r.pools)).map
      fun (visits, last, answer) => (visits, last, answer.bind fun _ => last.plan r)

variable {c r scoring}

theorem groupRun_of_firstTurns {g : CandidateGroup} {fuel stalled : Nat} {s last : ScaleOut σ F}
    {turns : List (Turn σ F)} {answer : Except SimulationError Bool}
    (h : firstTurns c r scoring g fuel s stalled = some (turns, last, answer)) :
    GroupRun c r scoring g s stalled turns last answer := by
  induction fuel generalizing s stalled turns with
  | zero => simp [firstTurns] at h
  | succ fuel ih =>
    have taken := (turn c r scoring g s stalled).reaches_first
    rw [firstTurns] at h
    dsimp only at h
    split at h
    · rename_i next
      cases h
      exact .last taken next
    · rename_i next
      obtain ⟨⟨turns', last', answer'⟩, rest, same⟩ := Option.map_eq_some_iff.mp h
      cases same
      exact .more taken next (ih rest)

theorem visits_of_firstVisits {fuel : Nat} {s last : ScaleOut σ F} {groups : List CandidateGroup}
    {visits : List (Visit σ F)} {answer : Except SimulationError Unit}
    (h : firstVisits c r scoring fuel s groups = some (visits, last, answer)) :
    Visits c r scoring s groups visits last answer := by
  induction groups generalizing s visits with
  | nil =>
    cases h
    exact .done _
  | cons g rest ih =>
    rw [firstVisits] at h
    obtain ⟨⟨turns, after, answer'⟩, taken, further⟩ := Option.bind_eq_some_iff.mp h
    have group := groupRun_of_firstTurns taken
    rcases answer' with e | _ | _
    · cases further
      exact .failed group
    · obtain ⟨⟨visits', last', answer''⟩, rest', same⟩ := Option.map_eq_some_iff.mp further
      cases same
      exact .next group (ih rest')
    · cases further
      exact .complete group

theorem run_of_firstRun {fuel : Nat} {f : Forest} {clock : σ} {visits : List (Visit σ F)}
    {last : ScaleOut σ F} {outcome : Except SimulationError ScaleOutPlan}
    (h : firstRun c r scoring fuel f clock = some (visits, last, outcome)) :
    Run c r scoring f clock visits last outcome := by
  rw [firstRun] at h
  rcases opened : opening r f clock with ⟨w, e | pending⟩
  · simp [opened] at h
  · rw [opened] at h
    dsimp only at h
    split at h
    · rename_i nothing
      cases h
      exact .idle opened (SortedMap.isEmpty_iff.mp nothing)
    · rename_i something
      have something := fun none => something (SortedMap.isEmpty_iff.mpr none)
      obtain ⟨⟨visits', last', answer⟩, visited, same⟩ := Option.map_eq_some_iff.mp h
      have further := visits_of_firstVisits visited
      cases same
      rcases answer with e | ⟨⟩
      · exact .failed opened something further
      · exact .searched opened something further

/-- What the first run shows, some run shows. -/
theorem exists_run {fuel : Nat} {f : Forest} {clock : σ}
    {shows : List (Visit σ F) × ScaleOut σ F × Except SimulationError ScaleOutPlan → Bool}
    (h : (firstRun c r scoring fuel f clock).any shows = true) :
    ∃ visits last outcome, Run c r scoring f clock visits last outcome ∧
      shows (visits, last, outcome) = true := by
  obtain ⟨⟨visits, last, outcome⟩, first, shown⟩ := (Option.any_eq_true _ _).mp h
  exact ⟨visits, last, outcome, run_of_firstRun first, shown⟩

/-- What the first run shows of its plan, some run with a plan shows. -/
theorem exists_planned (c : Conductor σ) (r : AdviceRequest) (scoring : Scoring F) (fuel : Nat)
    (f : Forest) (clock : σ) (shows : List (Visit σ F) → ScaleOut σ F → ScaleOutPlan → Bool)
    (h : (firstRun c r scoring fuel f clock).any (fun (visits, last, outcome) =>
      match outcome with
      | .ok plan => shows visits last plan
      | .error _ => false) = true) :
    ∃ visits last plan, Run c r scoring f clock visits last (.ok plan) ∧
      shows visits last plan = true := by
  obtain ⟨visits, last, outcome, run, shown⟩ := exists_run h
  cases outcome with
  | error e => cases shown
  | ok plan => exact ⟨visits, last, plan, run, shown⟩

end First

end ScaleOut

end ScaleAdvisor
