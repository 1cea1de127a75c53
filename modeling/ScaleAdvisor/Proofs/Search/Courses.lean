import ScaleAdvisor.Proofs.Search.Promotion
import ScaleAdvisor.Proofs.Simulation.Faithful

/-!
What a turn can do, whatever the scheduler and the simulations come to. A turn that promotes nobody
leaves the base, the winners and the pools' counts alone; it can only clear the pending set, when
there is nothing to place. What every turn keeps, a whole run keeps.

* `Course.pending_le`, `Course.winners`: what a turn does to the pending set and to the winners;
* `Visits.keeps`: an invariant of turns holds throughout a run;
* `Visits.descends`: what relates a turn's state to the next relates each state of a run to all
  later ones;
* `Run.further`: every run is made of visits.
-/

namespace ScaleAdvisor

/-- The placement of one of the candidate's templates. -/
def Candidate.Offers (c : Candidate) (p : Placement) : Prop :=
  ∃ template, c.pool.template? c.template = some template ∧ p = c.placement template

theorem Candidate.Offers.pool {c : Candidate} {p : Placement} (offers : c.Offers p) :
    p.pool = c.pool.name := by
  obtain ⟨template, -, rfl⟩ := offers
  rfl

theorem CandidateGroup.pool_mem {pools : List NodePool} {g : CandidateGroup} {d : Candidate}
    (listed : g ∈ ofPools pools) (h : d ∈ g.candidates) : d.pool ∈ pools := by
  obtain ⟨priority, -, rfl⟩ := List.mem_map.mp (List.mem_filter.mp listed).1
  obtain ⟨pool, there, h⟩ := List.mem_flatMap.mp h
  obtain ⟨template, -, h⟩ := List.mem_flatMap.mp h
  obtain ⟨zone, -, rfl⟩ := List.mem_map.mp h
  exact (List.mem_filter.mp there).1

/-- What wins a pass is offered by one of its candidates. -/
theorem Pass.exists_offers {σ F : Type} [Quantity F] {c : Conductor σ} {number : Nat}
    {base : ViewId} {candidates : List Candidate} {w w' : Workspace σ} {p : Pass}
    {scoring : Scoring F} {winner : NodeScore F} (faithful : c.Faithful)
    (ran : run c number base candidates w = (w', .ok p)) (scored : winner ∈ p.scores scoring) :
    ∃ d ∈ candidates, d.Offers winner.placement := by
  obtain ⟨s, hs, o, succeeded, -, scored⟩ := Pass.mem_scores_iff.mp scored
  have simulates := mem_simulations faithful ran s hs
  obtain ⟨-, placement, -⟩ := simulates.outcome o succeeded
  refine ⟨s.candidate, simulates.candidate, s.template, simulates.template, ?_⟩
  exact (score_eq_ok scored).2.1.trans placement

namespace ScaleOut

variable {σ F : Type} [Quantity F]

/-- The states that a run goes through: the one before each turn, and the last. -/
def states (turns : List (Turn σ F)) (last : ScaleOut σ F) : List (ScaleOut σ F) :=
  turns.map (·.before) ++ [last]

variable {c : Conductor σ} {r : AdviceRequest} {scoring : Scoring F}

section Turn

variable {g : CandidateGroup} {s : ScaleOut σ F} {stalled : Nat} {t : Turn σ F}

theorem Course.before (course : Course c r scoring g s stalled t) : t.before = s := by
  cases course <;> rfl

/-- A pass that has come to its end is one over the candidates that could be tried. -/
theorem Course.ran (course : Course c r scoring g s stalled t) {p : Pass}
    (ended : t.pass? = some p) :
    ∃ w, Pass.run c (s.passes + 1) s.base (s.eligible r g) s.workspace = (w, .ok p) := by
  cases course with
  | cancelled | broken => cases ended
  | nothing _ ran | untold _ ran | exhausted _ ran | homeless _ ran | useless _ ran
  | promoted _ ran =>
    cases ended
    exact ⟨_, ran⟩

/-- No turn makes more pending than there was, and a promotion makes less. -/
theorem Course.pending_le (course : Course c r scoring g s stalled t) :
    t.after.pending.size ≤ s.pending.size ∧
      (t.promoted = true → t.after.pending.size < s.pending.size) := by
  cases course with
  | nothing => exact ⟨Nat.zero_le _, by simp⟩
  | cancelled | broken | untold | exhausted | homeless | useless => exact ⟨Nat.le_refl _, by simp⟩
  | promoted _ _ _ _ _ less => exact ⟨Nat.le_of_lt less, fun _ => less⟩

/-- A turn adds one winner at most: one of the scores of its pass, if that has put its node to
use. -/
theorem Course.winners (course : Course c r scoring g s stalled t) :
    (t.after.winners = s.winners ∧ t.after.perPool = s.perPool) ∨
      ∃ w p winner, Pass.run c (s.passes + 1) s.base (s.eligible r g) s.workspace = (w, .ok p) ∧
        winner ∈ p.scores scoring ∧ t.promoted = true ∧ t.after.winners = s.winners ++ [winner] ∧
        t.after.perPool =
          s.perPool.insert winner.placement.pool (s.perPool.getD winner.placement.pool 0 + 1) := by
  cases course with
  | cancelled | broken | nothing | untold | exhausted | homeless | useless => exact .inl ⟨rfl, rfl⟩
  | @promoted w p winner view _ ran _ scored =>
    cases adds : p.usedScaledNode winner.name with
    | false => exact .inl (by simp [promote, passed, adds])
    | true => exact .inr ⟨w, p, winner, ran, scored, rfl, by simp [promote, passed, adds]⟩

end Turn

section Keeps

variable (Inv : ScaleOut σ F → Prop) (Given Told : CandidateGroup → Turn σ F → Prop)

/-- What each turn of a group keeps, the group keeps. -/
theorem GroupRun.keeps {g : CandidateGroup} {s last : ScaleOut σ F} {stalled : Nat}
    {turns : List (Turn σ F)} {answer : Except SimulationError Bool}
    (step : ∀ s stalled t, Inv s → Given g t → Course c r scoring g s stalled t →
      Inv t.after ∧ Told g t)
    (run : GroupRun c r scoring g s stalled turns last answer) (given : ∀ t ∈ turns, Given g t)
    (start : Inv s) : Inv last ∧ ∀ t ∈ turns, Inv t.before ∧ Inv t.after ∧ Told g t := by
  induction run with
  | @last s stalled t _ taken _ =>
    have course := turn_course taken
    obtain ⟨after, told⟩ := step s stalled t start (given t (by simp)) course
    have before : Inv t.before := by rwa [course.before]
    exact ⟨after, List.forall_mem_singleton.mpr ⟨before, after, told⟩⟩
  | @more s _ stalled _ t _ _ taken _ _ ih =>
    have course := turn_course taken
    obtain ⟨first, later⟩ := List.forall_mem_cons.mp given
    obtain ⟨after, told⟩ := step s stalled t start first course
    have before : Inv t.before := by rwa [course.before]
    obtain ⟨last, rest⟩ := ih later after
    exact ⟨last, List.forall_mem_cons.mpr ⟨⟨before, after, told⟩, rest⟩⟩

/-- What each turn keeps, given something of it, a whole run keeps. -/
theorem Visits.keeps {s last : ScaleOut σ F} {groups : List CandidateGroup}
    {visits : List (Visit σ F)} {answer : Except SimulationError Unit}
    (step : ∀ g ∈ groups, ∀ s stalled t, Inv s → Given g t → Course c r scoring g s stalled t →
      Inv t.after ∧ Told g t)
    (run : Visits c r scoring s groups visits last answer)
    (given : ∀ v ∈ visits, ∀ t ∈ v.turns, Given v.group t) (start : Inv s) :
    Inv last ∧ ∀ v ∈ visits, Inv v.before ∧ Inv v.after ∧
      ∀ t ∈ v.turns, Inv t.before ∧ Inv t.after ∧ Told v.group t := by
  induction run with
  | done => exact ⟨start, by simp⟩
  | failed group | complete group =>
    obtain ⟨after, told⟩ := group.keeps Inv Given Told (step _ List.mem_cons_self)
      (given _ (List.mem_singleton_self _)) start
    exact ⟨after, List.forall_mem_singleton.mpr ⟨start, after, told⟩⟩
  | next group _ ih =>
    obtain ⟨first, later⟩ := List.forall_mem_cons.mp given
    obtain ⟨after, told⟩ := group.keeps Inv Given Told (step _ List.mem_cons_self) first start
    obtain ⟨last, rest⟩ := ih (fun g hg => step g (List.mem_cons_of_mem _ hg)) later after
    exact ⟨last, List.forall_mem_cons.mpr ⟨⟨start, after, told⟩, rest⟩⟩

end Keeps

section Descends

variable {R : ScaleOut σ F → ScaleOut σ F → Prop}

theorem GroupRun.descends {g : CandidateGroup} {s last : ScaleOut σ F} {stalled : Nat}
    {turns : List (Turn σ F)} {answer : Except SimulationError Bool} (refl : ∀ s, R s s)
    (trans : ∀ s₁ s₂ s₃, R s₁ s₂ → R s₂ s₃ → R s₁ s₃)
    (step : ∀ s stalled t, Course c r scoring g s stalled t → R s t.after)
    (run : GroupRun c r scoring g s stalled turns last answer) :
    (states turns last).Pairwise R ∧ ∀ x ∈ states turns last, R s x := by
  induction run with
  | @last s stalled t _ taken _ =>
    have course := turn_course taken
    have next := step s stalled t course
    simp [states, course.before, refl, next]
  | @more s last stalled _ t turns _ taken _ _ ih =>
    have course := turn_course taken
    have next := step s stalled t course
    obtain ⟨pairwise, above⟩ := ih
    have below : ∀ x ∈ states turns last, R s x := fun x hx => trans _ _ _ next (above x hx)
    have split : states (t :: turns) last = s :: states turns last := by
      rw [states, List.map_cons, course.before]
      rfl
    rw [split]
    exact ⟨List.pairwise_cons.mpr ⟨below, pairwise⟩, List.forall_mem_cons.mpr ⟨refl s, below⟩⟩

/-- What relates the states before and after each turn relates each state of a run to all later
ones. -/
theorem Visits.descends {s last : ScaleOut σ F} {groups : List CandidateGroup}
    {visits : List (Visit σ F)} {answer : Except SimulationError Unit} (refl : ∀ s, R s s)
    (trans : ∀ s₁ s₂ s₃, R s₁ s₂ → R s₂ s₃ → R s₁ s₃)
    (step : ∀ g ∈ groups, ∀ s stalled t, Course c r scoring g s stalled t → R s t.after)
    (run : Visits c r scoring s groups visits last answer) :
    (states (visits.flatMap (·.turns)) last).Pairwise R ∧
      ∀ x ∈ states (visits.flatMap (·.turns)) last, R s x := by
  induction run with
  | done s => simp [states, refl]
  | failed group | complete group =>
    simpa using group.descends refl trans (step _ List.mem_cons_self)
  | @next s middle last g rest turns visits _ group _ ih =>
    obtain ⟨pairwise, above⟩ := group.descends refl trans (step _ List.mem_cons_self)
    obtain ⟨pairwise', above'⟩ := ih fun g hg => step g (List.mem_cons_of_mem _ hg)
    rw [states, List.pairwise_append] at pairwise
    obtain ⟨first, -, toMiddle⟩ := pairwise
    have toMiddle : ∀ x ∈ turns.map (·.before), R x middle := fun x hx => toMiddle x hx _ (by simp)
    have split : states ((⟨g, s, turns, middle, .ok false⟩ :: visits).flatMap (·.turns)) last =
        turns.map (·.before) ++ states (visits.flatMap (·.turns)) last := by
      simp [states]
    rw [split]
    constructor
    · refine List.pairwise_append.mpr ⟨first, pairwise', ?_⟩
      intro x hx y hy
      exact trans _ _ _ (toMiddle x hx) (above' y hy)
    · intro x hx
      rcases List.mem_append.mp hx with hx | hx
      · exact above x (List.mem_append_left _ hx)
      · exact trans _ _ _ (above middle (List.mem_append_right _ (by simp))) (above' x hx)

end Descends

/-- A run opens, and then visits groups: all of them in turn, or none when nothing is pending. -/
theorem Run.further {f : Forest} {clock : σ} {visits : List (Visit σ F)} {last : ScaleOut σ F}
    {outcome : Except SimulationError ScaleOutPlan}
    (run : Run c r scoring f clock visits last outcome) :
    ∃ w pending groups answer, opening r f clock = (w, .ok pending) ∧
      groups <+: CandidateGroup.ofPools r.pools ∧
      Visits c r scoring (begun w pending) groups visits last answer := by
  cases run with
  | idle opened _ => exact ⟨_, _, [], _, opened, List.nil_prefix, .done _⟩
  | searched opened _ further => exact ⟨_, _, _, _, opened, List.prefix_rfl, further⟩
  | failed opened _ further => exact ⟨_, _, _, _, opened, List.prefix_rfl, further⟩

end ScaleOut

end ScaleAdvisor
