import ScaleAdvisor.Proofs.Search.Completeness
import ScaleAdvisor.Proofs.Search.Courses
import ScaleAdvisor.Proofs.Search.Tally
import ScaleAdvisor.Scheduling.Rehearsal

/-!
How long a search can take. A pass that promotes a winner leaves less pending, and a group gives up
after two passes in a row that do not; so a pass is paid for by a workload that is no longer pending
or by the patience of its group, whatever the scheduler makes of the simulations.

* `Course.passes_le`: what a turn spends;
* `Visits.passes_le`: what a run spends;
* `passes_bounded`: a search ends within its bounds.
-/

namespace ScaleAdvisor.ScaleOut

variable {σ F : Type} [Quantity F] {c : Conductor σ} {r : AdviceRequest} {scoring : Scoring F}

/-- How many more passes the group can spend without a promotion. -/
def Next.reserve : Next → Nat
  | .finished _ => 0
  | .again stalled => patience - stalled

/-- A turn spends one pass at most. It is paid out of the reserve of the group, or twice over by a
workload that is no longer pending, which fills the reserve up again. -/
theorem Course.passes_le {g : CandidateGroup} {s : ScaleOut σ F} {stalled : Nat} {t : Turn σ F}
    (course : Course c r scoring g s stalled t) (patient : stalled < patience) :
    t.after.passes + 2 * t.after.pending.size + t.next.reserve ≤
        s.passes + 2 * s.pending.size + (patience - stalled) ∧
      ∀ again, t.next = .again again → again < patience := by
  cases course with
  | cancelled =>
    refine ⟨?_, by simp⟩
    simp only [Next.reserve]
    omega
  | nothing =>
    refine ⟨?_, by simp⟩
    have none : (∅ : KeySet WorkloadKey).size = 0 := rfl
    simp only [Next.reserve, passed, none]
    omega
  | broken | untold | exhausted | homeless =>
    refine ⟨?_, by simp⟩
    simp only [Next.reserve, passed, discard]
    omega
  | useless =>
    simp only [passed, discard]
    split
    · rename_i more
      constructor
      · simp only [Next.reserve]
        omega
      · rintro _ ⟨⟩
        exact more
    · refine ⟨?_, by simp⟩
      simp only [Next.reserve]
      omega
  | promoted _ _ _ _ _ less =>
    simp only [promote, passed]
    split
    · refine ⟨?_, by simp⟩
      simp only [Next.reserve]
      omega
    · constructor
      · simp only [Next.reserve, patience] at patient ⊢
        omega
      · rintro _ ⟨⟩
        exact Nat.zero_lt_two

theorem GroupRun.passes_le {g : CandidateGroup} {s last : ScaleOut σ F} {stalled : Nat}
    {turns : List (Turn σ F)} {answer : Except SimulationError Bool}
    (run : GroupRun c r scoring g s stalled turns last answer) (patient : stalled < patience) :
    last.passes + 2 * last.pending.size ≤ s.passes + 2 * s.pending.size + (patience - stalled) := by
  induction run with
  | last taken next =>
    obtain ⟨spent, -⟩ := (turn_course taken).passes_le patient
    rw [next, Next.reserve] at spent
    exact spent
  | more taken next _ ih =>
    obtain ⟨spent, goesOn⟩ := (turn_course taken).passes_le patient
    rw [next, Next.reserve] at spent
    exact Nat.le_trans (ih (goesOn _ next)) spent

theorem Visits.passes_le {groups : List CandidateGroup} {s last : ScaleOut σ F}
    {visits : List (Visit σ F)} {answer : Except SimulationError Unit}
    (run : Visits c r scoring s groups visits last answer) :
    last.passes + 2 * last.pending.size ≤ s.passes + 2 * s.pending.size +
      patience * groups.length := by
  have fresh : 0 < patience := Nat.zero_lt_two
  induction run with
  | done => exact Nat.le_add_right _ _
  | failed group | complete group =>
    have spent := group.passes_le fresh
    rw [List.length_cons, Nat.mul_succ]
    omega
  | next group _ ih =>
    have spent := group.passes_le fresh
    rw [List.length_cons, Nat.mul_succ]
    omega

/-- Each winner is paid for by a workload that is no longer pending. -/
theorem Course.winners_le {g : CandidateGroup} {s : ScaleOut σ F} {stalled : Nat} {t : Turn σ F}
    (course : Course c r scoring g s stalled t) :
    t.after.winners.length + t.after.pending.size ≤ s.winners.length + s.pending.size := by
  obtain ⟨shrinks, less⟩ := course.pending_le
  rcases course.winners with ⟨same, -⟩ | ⟨_, _, winner, -, -, promoted, won, -⟩
  · rw [same]
    omega
  · have less := less promoted
    rw [won, List.length_append, List.length_singleton]
    omega

/-- The bounds of a run for a request. -/
structure Bounded (r : AdviceRequest) (visits : List (Visit σ F)) (last : ScaleOut σ F)
    (outcome : Except SimulationError ScaleOutPlan) : Prop where
  passes : last.passes ≤
    2 * r.snapshot.workloads.countP (·.isPending) + 2 * (CandidateGroup.ofPools r.pools).length
  /-- The pending set never grows. -/
  shrinks : (states (visits.flatMap (·.turns)) last).Pairwise fun s s' =>
    s'.pending.size ≤ s.pending.size
  /-- There is never more pending than the request says. -/
  within : ∀ s ∈ states (visits.flatMap (·.turns)) last,
    s.pending.size ≤ r.snapshot.workloads.countP (·.isPending)
  promotions : ∀ v ∈ visits, ∀ t ∈ v.turns, t.promoted = true →
    t.after.pending.size < t.before.pending.size
  plan : ∀ plan, outcome = .ok plan →
    plan.totalDelta + plan.unsatisfied.length ≤ r.snapshot.workloads.countP (·.isPending)

/-- What is pending at first is what the request says. -/
theorem pending_of_opening {clock : σ} {w : Workspace σ} {pending : KeySet WorkloadKey}
    (opened : opening r ∅ clock = (w, .ok pending)) :
    pending.size ≤ r.snapshot.workloads.countP (·.isPending) := by
  let ready : σ → Prop := fun _ => True
  have set : ready clock := trivial
  obtain ⟨-, -, rfl, distinct⟩ := opening_eq_ok set opened
  calc
    _ ≤ ((r.snapshot.cluster.workloads.filter (·.isPending)).map (·.key)).length :=
      KeySet.size_ofKeys_le _
    _ = r.snapshot.cluster.workloads.countP (·.isPending) := by
      rw [List.length_map, List.countP_eq_length_filter]
    _ = r.snapshot.workloads.countP (·.isPending) := (Snapshot.perm_workloads distinct).countP_eq _

theorem Run.bounded {clock : σ} {visits : List (Visit σ F)} {last : ScaleOut σ F}
    {outcome : Except SimulationError ScaleOutPlan}
    (run : Run c r scoring ∅ clock visits last outcome) : Bounded r visits last outcome := by
  obtain ⟨w, pending, groups, answer, opened, listed, further⟩ := run.further
  have few := listed.length_le
  have most := pending_of_opening opened
  have spent := further.passes_le
  obtain ⟨-, promotions⟩ := further.keeps (fun _ => True) (fun _ _ => True)
    (fun _ t => t.promoted = true → t.after.pending.size < t.before.pending.size)
    (fun g _ s stalled t _ _ course => ⟨trivial, by rw [course.before]; exact course.pending_le.2⟩)
    (fun _ _ _ _ => trivial) trivial
  obtain ⟨shrinks, within⟩ := further.descends
    (R := fun s s' => s'.pending.size ≤ s.pending.size)
    (fun _ => Nat.le_refl _) (fun _ _ _ first second => Nat.le_trans second first)
    (fun _ _ _ _ _ course => course.pending_le.1)
  obtain ⟨-, paid⟩ := further.descends
    (R := fun s s' => s'.winners.length + s'.pending.size ≤ s.winners.length + s.pending.size)
    (fun _ => Nat.le_refl _) (fun _ _ _ first second => Nat.le_trans second first)
    (fun _ _ _ _ _ course => course.winners_le)
  have paid := paid last (List.mem_append_right _ (List.mem_singleton_self _))
  refine ⟨?_, shrinks, fun s hs => Nat.le_trans (within s hs) most,
    fun v hv t ht => (promotions v hv).2.2 t ht |>.2.2, ?_⟩
  · simp only [begun, patience] at spent
    omega
  · rintro plan rfl
    rw [run.plan_eq, ScaleOutPlan.totalDelta_eq, ScaleOutPlan.added_build]
    simp only [begun, List.length_nil] at paid
    simp only [List.countP_true, List.length_map, ScaleOutPlan.build, ← KeySet.size_eq]
    omega

/-- However its choices are made, a search ends, with the result of one of its runs unless the
snapshot cannot even be loaded; and every run stays within the bounds. -/
theorem passes_bounded (c : Conductor σ) (r : AdviceRequest) (scoring : Scoring F) (clock : σ) :
    (∀ picks,
        (∃ e, (opening r ∅ clock).2 = .error e ∧
          ((simulate c r scoring ∅ clock).follow picks).outcome = .error e) ∨
        ∃ visits last,
          Run c r scoring ∅ clock visits last
            ((simulate c r scoring ∅ clock).follow picks).outcome ∧
          ((simulate c r scoring ∅ clock).follow picks).workspace = last.workspace) ∧
      ∀ visits last outcome, Run c r scoring ∅ clock visits last outcome →
        Bounded r visits last outcome := by
  constructor
  · intro picks
    have reached := (simulate c r scoring ∅ clock).reaches_follow picks
    rcases reaches_simulate_iff.mp reached with
      ⟨e, opened, -, failed⟩ | ⟨visits, last, run, same, -⟩
    · exact .inl ⟨e, by rw [opened], failed⟩
    · exact .inr ⟨visits, last, run, same⟩
  · intro visits last outcome run
    exact run.bounded

/-- One workload is pending, and another one is there to be reported again and again. -/
def oneMorePending : AdviceRequest where
  id := "request"
  pools := [{
    name := "general"
    region := "here"
    zones := ["a"]
    templates := [{ name := "small", instanceType := "small", capacity := .ofCoresAndGib 2 16 }] }]
  snapshot := {
    nodes :=
      [{ name := "existing", capacity := .ofCoresAndGib 4 16, allocatable := .ofCoresAndGib 4 16 }]
    workloads := [
      { inNamespace := "default", name := "web", requests := .ofCoresAndGib 1 1 },
      { inNamespace := "default", name := "placed", requests := .ofCoresAndGib 1 1
        nodeName := some "existing" }] }

/-- A scheduler that reports what was placed long ago wins both passes of the group and never gets
any further. -/
theorem passes_bounded_noProgress : ∃ visits last,
    Run standardRules.conductor oneMorePending (priced Float) ∅
      (.opened Rehearsal.noProgress 1 none) visits last (.error .noScalingAdvice) ∧
    last.passes = 2 ∧
    (visits.flatMap (·.turns)).map (fun t => (t.winner?.isSome, t.promoted)) =
      [(true, false), (true, false)] ∧
    Bounded oneMorePending visits last (.error .noScalingAdvice) := by
  have first : (firstRun standardRules.conductor oneMorePending (priced Float) 2 ∅
      (.opened Rehearsal.noProgress 1 none)).any
      (fun run => decide (run.2.1.passes = 2 ∧
        (run.1.flatMap (·.turns)).map (fun t => (t.winner?.isSome, t.promoted)) =
          [(true, false), (true, false)]) &&
        run.1.all (·.answer.toOption.isSome) && run.2.2.toOption.isNone) = true := by
    decide +kernel
  obtain ⟨visits, last, outcome, run, shown⟩ := exists_run first
  obtain ⟨shown, planless⟩ := Bool.and_eq_true_iff.mp shown
  obtain ⟨shown, answered⟩ := Bool.and_eq_true_iff.mp shown
  obtain ⟨passes, turns⟩ := of_decide_eq_true shown
  obtain rfl := run.eq_of_planless planless (List.all_eq_true.mp answered)
  exact ⟨visits, last, run, passes, turns, (passes_bounded _ _ _ _).2 visits last _ run⟩

end ScaleAdvisor.ScaleOut
