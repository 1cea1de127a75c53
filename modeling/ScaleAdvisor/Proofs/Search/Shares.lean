import ScaleAdvisor.Proofs.Search.Courses
import ScaleAdvisor.Proofs.Search.Tally

/-!
The share of each group. What a search adds it adds group by group, so the plans for single groups
come to the plan for the whole; and what one of them leaves over, the next has no more of.

* `Course.added`, `GroupRun.added`, `Visits.added`: the winners, turn by turn and group by group;
* `Visits.notes_eq`: a plan is noted for each group that has ended well and has added nodes;
* `Run.added_eq`: these plans together add what the plan for the whole does;
* `Run.leftovers`: less and less is left over.
-/

namespace ScaleAdvisor

/-- Groups of lower value come first. -/
theorem CandidateGroup.ofPools_ascending (pools : List NodePool) :
    (ofPools pools).Pairwise (·.priority < ·.priority) := by
  have ascending := (KeySet.ofKeys (pools.map (·.priority))).sorted
  refine List.Pairwise.filter _ (List.pairwise_map.mpr (List.pairwise_map.mpr ?_))
  exact ascending.imp of_decide_eq_true

namespace ScaleOut

variable {σ F : Type}

/-- The winner of a turn, if it adds a node. -/
def Turn.added? (t : Turn σ F) : Option (NodeScore F) :=
  if t.recorded?.isSome then t.winner? else none

/-- The winners of a group that add a node, in the order of their passes. -/
def Visit.added (v : Visit σ F) : List (NodeScore F) := v.turns.filterMap Turn.added?

/-- The group has ended without a failure, and has added nodes. -/
def Visit.productive (v : Visit σ F) : Bool := v.answer.toOption.isSome && !v.added.isEmpty

/-- The plan for what a group has added alone. -/
def Visit.share (r : AdviceRequest) (v : Visit σ F) : ScaleOutPlan :=
  .build r.snapshot.nodes (v.added.map (·.placement)) v.after.pending

variable [Quantity F] {c : Conductor σ} {r : AdviceRequest} {scoring : Scoring F}
  {g : CandidateGroup} {s last : ScaleOut σ F} {stalled : Nat} {t : Turn σ F}
  {turns : List (Turn σ F)} {groups : List CandidateGroup} {visits : List (Visit σ F)}

/-- The winner that a turn adds is one more winner of the search. -/
theorem Course.added (course : Course c r scoring g s stalled t) :
    t.after.winners = s.winners ++ t.added?.toList := by
  cases course with
  | cancelled | broken | nothing | untold | exhausted | homeless | useless =>
    simp [Turn.added?, Turn.recorded?, Turn.promoted?, passed, discard]
  | @promoted w p winner view =>
    have recorded : p.usedScaledNode winner.name =
        (((p.simulation? winner.name).bind (·.outcome?)).filter (·.usesScaledNode)).isSome := by
      rw [Pass.usedScaledNode]
      cases (p.simulation? winner.name).bind (·.outcome?) with
      | none => rfl
      | some o => cases uses : o.usesScaledNode <;> simp [uses]
    simp only [promote, passed, Turn.added?, Turn.recorded?, Turn.promoted?, Turn.outcome?, if_true,
      ← recorded]
    split <;> simp

/-- Only candidates of the group can win. -/
theorem Course.offered (course : Course c r scoring g s stalled t) (faithful : c.Faithful)
    {winner : NodeScore F} (added : t.added? = some winner) :
    ∃ d ∈ g.candidates, d.Offers winner.placement := by
  have after := course.added
  rw [added] at after
  rcases course.winners with ⟨same, -⟩ | ⟨w, p, winner', ran, scored, -, won, -⟩
  · simp [same] at after
  · rw [won] at after
    obtain rfl : winner' = winner := by simpa using after
    obtain ⟨d, eligible, offers⟩ := Pass.exists_offers faithful ran scored
    exact ⟨d, (List.mem_filter.mp eligible).1, offers⟩

theorem GroupRun.added {answer : Except SimulationError Bool}
    (run : GroupRun c r scoring g s stalled turns last answer) :
    last.winners = s.winners ++ turns.filterMap Turn.added? := by
  rw [List.filterMap_eq_flatMap_toList]
  induction run with
  | last taken => simp [(turn_course taken).added]
  | more taken _ _ ih => simp [ih, (turn_course taken).added]

/-- Winners come group by group. -/
theorem Visits.added {answer : Except SimulationError Unit}
    (run : Visits c r scoring s groups visits last answer) :
    last.winners = s.winners ++ visits.flatMap (·.added) ∧
      ∀ v ∈ visits, v.after.winners = v.before.winners ++ v.added := by
  induction run with
  | done => simp
  | failed group | complete group => simp [Visit.added, group.added]
  | next group _ ih =>
    obtain ⟨later, each⟩ := ih
    refine ⟨?_, List.forall_mem_cons.mpr ⟨group.added, each⟩⟩
    rw [later, group.added]
    simp [Visit.added]

theorem Visits.offered {answer : Except SimulationError Unit} (faithful : c.Faithful)
    (run : Visits c r scoring s groups visits last answer) :
    ∀ v ∈ visits, ∀ winner ∈ v.added, ∃ d ∈ v.group.candidates, d.Offers winner.placement := by
  obtain ⟨-, told⟩ := run.keeps (fun _ => True) (fun _ _ => True)
    (fun g t => ∀ winner, t.added? = some winner → ∃ d ∈ g.candidates, d.Offers winner.placement)
    (fun _ _ _ _ _ _ _ course => ⟨trivial, fun _ => course.offered faithful⟩)
    (fun _ _ _ _ => trivial) trivial
  intro v hv winner added
  obtain ⟨t, ht, added⟩ := List.mem_filterMap.mp added
  exact ((told v hv).2.2 t ht).2.2 winner added

omit [Quantity F] in
theorem Visit.note_eq {v : Visit σ F} (added : v.after.winners = v.before.winners ++ v.added) :
    v.note r = if v.productive then [v.share r] else [] := by
  rw [note, productive, added, List.drop_left]
  cases v.answer with
  | error e => rfl
  | ok complete => cases some : v.added <;> simp [share, some, Except.toOption]

/-- A plan is noted for each group that has ended well and has added nodes. -/
theorem Visits.notes_eq {answer : Except SimulationError Unit}
    (run : Visits c r scoring s groups visits last answer) :
    visits.flatMap (Visit.note r) = (visits.filter (·.productive)).map (Visit.share r) := by
  have each := fun v hv => Visit.note_eq (r := r) (run.added.2 v hv)
  rw [List.flatMap_congr each]
  clear each run
  induction visits with
  | nil => rfl
  | cons v rest ih =>
    rw [List.flatMap_cons, ih, List.filter_cons]
    split <;> rfl

/-- A failure is that of the last group, and of the whole search. -/
theorem Visits.failed_last {answer : Except SimulationError Unit}
    (run : Visits c r scoring s groups visits last answer) {v : Visit σ F} (hv : v ∈ visits)
    {e : SimulationError} (failed : v.answer = .error e) :
    visits.getLast? = some v ∧ answer = .error e := by
  induction run with
  | done => simp at hv
  | failed =>
    obtain rfl := List.mem_singleton.mp hv
    cases failed
    exact ⟨rfl, rfl⟩
  | complete =>
    obtain rfl := List.mem_singleton.mp hv
    cases failed
  | next _ _ ih =>
    obtain rfl | hv := List.mem_cons.mp hv
    · cases failed
    · obtain ⟨final, same⟩ := ih hv
      exact ⟨by rw [List.getLast?_cons, final]; rfl, same⟩

omit [Quantity F] in
/-- The plans for single groups add what the groups have added. -/
theorem sum_added (answered : ∀ v ∈ visits, v.answer.toOption.isSome = true)
    (kind : Placement → Bool) :
    (((visits.filter (·.productive)).map (Visit.share r)).map (·.added kind)).sum =
      (visits.flatMap (·.added)).countP fun winner => kind winner.placement := by
  induction visits with
  | nil => rfl
  | cons v rest ih =>
    obtain ⟨well, rest_well⟩ := List.forall_mem_cons.mp answered
    rw [List.flatMap_cons, List.countP_append, ← ih rest_well, List.filter_cons, Visit.productive,
      well, Bool.true_and]
    cases none : v.added with
    | nil => simp
    | cons winner more =>
      simp only [List.isEmpty_cons, Bool.not_false, if_true, List.map_cons, List.sum_cons,
        Nat.add_right_cancel_iff]
      rw [Visit.share, ScaleOutPlan.added_build, List.countP_map, none]
      rfl

theorem Visits.groups_prefix {answer : Except SimulationError Unit}
    (run : Visits c r scoring s groups visits last answer) : visits.map (·.group) <+: groups := by
  induction run with
  | done => exact List.prefix_rfl
  | failed | complete => simp
  | next _ _ ih => exact (List.prefix_cons_inj _).mpr ih

/-- A group has turns, and the first is taken right away. -/
theorem GroupRun.before {answer : Except SimulationError Bool}
    (run : GroupRun c r scoring g s stalled turns last answer) :
    ∃ rest, turns.map (·.before) = s :: rest := by
  cases run with
  | last taken => exact ⟨[], by simp [(turn_course taken).before]⟩
  | more taken => exact ⟨_, by rw [List.map_cons, (turn_course taken).before]⟩

/-- The states between groups are among those between turns. -/
theorem Visits.afters_sublist {answer : Except SimulationError Unit}
    (run : Visits c r scoring s groups visits last answer) :
    (s :: visits.map (·.after)).Sublist (states (visits.flatMap (·.turns)) last) := by
  induction run with
  | done => exact .refl _
  | failed group | complete group =>
    obtain ⟨rest, turns⟩ := group.before
    simp only [states, List.flatMap_cons, List.flatMap_nil, List.append_nil, turns]
    exact (List.sublist_append_right _ _).cons_cons _
  | next group _ ih =>
    obtain ⟨rest, turns⟩ := group.before
    simp only [states, List.flatMap_cons, List.map_append, List.append_assoc, turns] at ih ⊢
    exact (ih.trans (List.sublist_append_right _ _)).cons_cons _

/-- What is left over at any time was left over before. -/
theorem Reached.leftovers {ready : σ → Prop} {C : Cluster}
    (reached : Reached ready scoring C turns s) :
    (states turns s).Pairwise fun s s' => ∀ k ∈ s'.pending.keys, k ∈ s.pending.keys := by
  have kept {x y : ScaleOut σ F} (before : x.Poised ready) (after : y.Poised ready)
      (grown : ∃ steps, Cluster.Grown x.contents steps y.contents) :
      ∀ k ∈ y.pending.keys, k ∈ x.pending.keys := by
    obtain ⟨steps, grown⟩ := grown
    intro k hk
    rw [after.pending] at hk
    rw [before.pending]
    exact ((grown.mem_pendingKeys_iff before.sound).mp hk).1
  refine List.pairwise_append.mpr ⟨List.pairwise_map.mpr ?_, List.pairwise_singleton _ _, ?_⟩
  · exact reached.between.imp_of_mem fun ht hu =>
      kept (reached.told _ ht).poised (reached.told _ hu).poised
  · intro x hx y hy
    obtain ⟨t, ht, rfl⟩ := List.mem_map.mp hx
    obtain rfl := List.mem_singleton.mp hy
    exact kept (reached.told t ht).poised reached.poised (reached.since t ht)

section Run

variable {f : Forest} {clock : σ} {outcome : Except SimulationError ScaleOutPlan}

theorem Run.groups_prefix (run : Run c r scoring f clock visits last outcome) :
    visits.map (·.group) <+: CandidateGroup.ofPools r.pools := by
  obtain ⟨w, pending, groups, answer, -, listed, further⟩ := run.further
  exact further.groups_prefix.trans listed

/-- A failure is that of the last group, and of the whole run. -/
theorem Run.failed_last (run : Run c r scoring f clock visits last outcome) {v : Visit σ F}
    (hv : v ∈ visits) {e : SimulationError} (failed : v.answer = .error e) :
    visits.getLast? = some v ∧ outcome = .error e := by
  cases run with
  | idle => simp at hv
  | searched opened something further =>
    obtain ⟨-, well⟩ := further.failed_last hv failed
    cases well
  | failed opened something further =>
    obtain ⟨final, same⟩ := further.failed_last hv failed
    cases same
    exact ⟨final, rfl⟩

/-- The plans for single groups come to the plan for the whole. -/
theorem Run.added_eq {plan : ScaleOutPlan} (run : Run c r scoring ∅ clock visits last (.ok plan))
    (kind : Placement → Bool) :
    plan.added kind =
      (((visits.filter (·.productive)).map (Visit.share r)).map (·.added kind)).sum := by
  obtain ⟨w, pending, groups, answer, -, -, further⟩ := run.further
  have answered : ∀ v ∈ visits, v.answer.toOption.isSome = true := by
    intro v hv
    cases failed : v.answer with
    | error e =>
      obtain ⟨-, planned⟩ := run.failed_last hv failed
      cases planned
    | ok => rfl
  rw [sum_added answered, run.plan_eq, ScaleOutPlan.added_build, List.countP_map, further.added.1]
  rfl

/-- Less and less is left over, from group to group and to the end. -/
theorem Run.leftovers {ready : σ → Prop} (run : Run c r scoring ∅ clock visits last outcome)
    (fair : Fair r) (interleaves : c.Interleaves BinPack.algorithm ready) (set : ready clock) :
    (visits.map (·.after) ++ [last]).Pairwise fun s s' =>
    ∀ k ∈ s'.pending.keys, k ∈ s.pending.keys := by
  obtain ⟨reached, -, -⟩ := run.reached fair interleaves set
  obtain ⟨w, pending, groups, answer, -, -, further⟩ := run.further
  have between := (List.sublist_cons_self _ _).trans further.afters_sublist
  have descends := reached.leftovers
  refine List.pairwise_append.mpr ⟨descends.sublist between, List.pairwise_singleton _ _, ?_⟩
  intro s hs s' hs'
  obtain rfl := List.mem_singleton.mp hs'
  obtain earlier | final := List.mem_append.mp (between.subset hs)
  · exact (List.pairwise_append.mp descends).2.2 s earlier _ (List.mem_singleton_self _)
  · rw [List.mem_singleton.mp final]
    exact fun _ hk => hk

end Run

end ScaleOut

end ScaleAdvisor
