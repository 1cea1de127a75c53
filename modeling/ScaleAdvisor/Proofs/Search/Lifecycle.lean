import ScaleAdvisor.Proofs.Search.Courses
import ScaleAdvisor.Proofs.Search.Handouts
import ScaleAdvisor.Proofs.Search.Lineage

/-!
The life of sandboxes over a whole search. After each turn no sandbox is in use and all that its
pass has handed out are closed, but for that of a promoted winner; and the view that the search
works over, with all below it down to the request's base view, has been open all the time.

* `Upkept.turn`: what a turn leaves behind, whichever way it ends;
* `Run.tidied`: what holds of every turn of a run;
* `sandboxes_tidied`: the same of whatever a search ends with.
-/

namespace ScaleAdvisor.ScaleOut

open Forest

variable {σ F : Type}

/-- The state of a search between two turns: no sandbox is in use, and the base of the search can be
read and goes down to the base of the request. -/
structure Upkept (ready : σ → Prop) (s : ScaleOut σ F) : Prop where
  clean : s.workspace.Clean ready s.base
  rooted : s.workspace.registry.base ∈ s.workspace.forest.line s.base

/-- The sandboxes that the pass of a turn hands out. There is no pass when the whole run has been
cancelled before. -/
def Turn.handedOut (c : Conductor σ) (r : AdviceRequest) (g : CandidateGroup) (t : Turn σ F) :
    List ViewId :=
  match c.cause t.before.workspace.clock with
  | some _ => []
  | none =>
    Pass.handedOut t.before.base t.before.workspace { number := t.number } (t.before.eligible r g)

/-- What a turn does with its sandboxes, and with the views that the search works over. -/
structure Turn.Tidied (c : Conductor σ) (r : AdviceRequest) (g : CandidateGroup) (t : Turn σ F) :
    Prop where
  unregistered : t.after.workspace.registry.sandboxes = ∅
  closed : ∀ v ∈ t.handedOut c r g,
    t.after.workspace.forest.isClosed v = true ∨ (t.promoted = true ∧ v = t.after.base)
  /-- The search goes on from a sandbox of the turn, or from where it was. -/
  base : if t.promoted then t.after.base ∈ t.handedOut c r g else t.after.base = t.before.base
  root : t.after.workspace.registry.base = t.before.workspace.registry.base
  becomes : t.before.workspace.forest.Becomes t.after.workspace.forest
  /-- At any moment in between, the base of the search and all below it are open; the base of the
  request is one of them. -/
  always : ∀ f : Forest, t.before.workspace.forest.Becomes f → f.Becomes t.after.workspace.forest →
    f.Readable t.before.base ∧ t.before.workspace.registry.base ∈ f.line t.before.base
  /-- And so they are afterwards. -/
  after : t.after.workspace.forest.Readable t.after.base ∧
    t.after.workspace.registry.base ∈ t.after.workspace.forest.line t.after.base

variable {ready : σ → Prop} {c : Conductor σ} {r : AdviceRequest} {g : CandidateGroup}
  {s : ScaleOut σ F} {t : Turn σ F} {handed : List ViewId} {kept : Option ViewId}

/-- Nothing has been done, and nothing is left to do. -/
theorem settled_refl (clean : s.workspace.Clean ready s.base) :
    Pass.Settled ready s.base [] none s.workspace s.workspace :=
  ⟨clean.valid, clean.ready, clean.unused, .refl _ _, ⟨.refl _, rfl⟩, by simp, nofun⟩

/-- A turn whose pass has been settled. -/
theorem Upkept.tidied (upkept : Upkept ready s) (before : t.before = s)
    (handedOut : t.handedOut c r g = handed)
    (settled : Pass.Settled ready s.base handed kept s.workspace t.after.workspace)
    (goesOn : if t.promoted then kept = some t.after.base else kept = none ∧
      t.after.base = s.base) :
    Upkept ready t.after ∧ t.Tidied c r g := by
  have clean := upkept.clean
  have lower : t.after.workspace.forest.Readable s.base :=
    settled.keeps.readable clean.valid clean.base_lt clean.readable
  have root := settled.advances.base
  have line := settled.keeps.line_eq clean.base_lt
  have next : t.after.workspace.forest.Readable t.after.base ∧
      t.after.workspace.registry.base ∈ t.after.workspace.forest.line t.after.base := by
    rw [root]
    split at goesOn
    · obtain ⟨-, readable, line⟩ := settled.stays _ goesOn
      rw [line]
      exact ⟨readable, List.mem_cons_of_mem _ upkept.rooted⟩
    · rw [goesOn.2, line]
      exact ⟨lower, upkept.rooted⟩
  refine ⟨⟨⟨settled.valid, next.1, settled.unused, settled.ready⟩, next.2⟩, settled.unused,
    ?_, ?_, ?_, ?_, ?_, next⟩
  · rw [handedOut]
    intro v hv
    rcases settled.closed v hv with stays | closed
    · split at goesOn
      · rename_i promoted
        rw [goesOn] at stays
        exact .inr ⟨promoted, (Option.some.inj stays).symm⟩
      · rw [goesOn.1] at stays
        cases stays
    · exact .inl closed
  · rw [handedOut, before]
    split at goesOn
    · rename_i promoted
      rw [if_pos promoted]
      exact (settled.stays _ goesOn).1
    · rename_i unmoved
      rw [if_neg unmoved]
      exact goesOn.2
  · rw [before, root]
  · rw [before]
    exact settled.advances.becomes
  · rw [before]
    intro f first second
    have there : s.base < f.views.size := Nat.lt_of_lt_of_le clean.base_lt first.size_le
    refine ⟨second.readable (first.valid clean.valid) there lower, ?_⟩
    rw [first.line_eq clean.base_lt]
    exact upkept.rooted

theorem Turn.handedOut_of_called {cause : String} (before : t.before = s)
    (called : c.cause s.workspace.clock = some cause) : t.handedOut c r g = [] := by
  rw [handedOut, before, called]

theorem Turn.handedOut_of_uncalled (before : t.before = s)
    (uncalled : c.cause s.workspace.clock = none) :
    t.handedOut c r g =
      Pass.handedOut s.base s.workspace { number := s.passes + 1 } (s.eligible r g) := by
  rw [handedOut, number, before, uncalled]

variable [Quantity F] {scoring : Scoring F}

theorem Upkept.turn {stalled : Nat} {a : Algorithm} (upkept : Upkept ready s)
    (mayLose : c.MayLose a ready) (distinct : ((s.eligible r g).map Candidate.name).Nodup)
    (course : Course c r scoring g s stalled t) : Upkept ready t.after ∧ t.Tidied c r g := by
  have settling := Pass.run_settles (s.passes + 1) upkept.clean distinct mayLose
  cases course with
  | cancelled cause called =>
    exact upkept.tidied rfl (Turn.handedOut_of_called rfl called)
      (settled_refl upkept.clean) ⟨rfl, rfl⟩
  | broken uncalled ran =>
    rw [ran] at settling
    cases settling with
    | failed e settled =>
      exact upkept.tidied rfl (Turn.handedOut_of_uncalled rfl uncalled) settled ⟨rfl, rfl⟩
  | nothing uncalled ran said =>
    rw [ran] at settling
    cases settling with
    | nothing _ settled =>
      exact upkept.tidied rfl (Turn.handedOut_of_uncalled rfl uncalled) settled ⟨rfl, rfl⟩
    | ran something =>
      rw [said] at something
      cases something
  | untold uncalled ran something | exhausted uncalled ran something
  | homeless uncalled ran something
  | useless uncalled ran something =>
    rw [ran] at settling
    cases settling with
    | nothing said =>
      rw [said] at something
      cases something
    | ran _ left =>
      exact upkept.tidied rfl (Turn.handedOut_of_uncalled rfl uncalled)
        (left.release_all upkept.clean) ⟨rfl, rfl⟩
  | promoted uncalled ran something _ found =>
    rw [ran] at settling
    cases settling with
    | nothing said =>
      rw [said] at something
      cases something
    | ran _ left =>
      exact upkept.tidied rfl (Turn.handedOut_of_uncalled rfl uncalled)
        (left.release_but upkept.clean found) rfl

theorem Run.tidied {a : Algorithm} {clock : σ} {visits : List (Visit σ F)} {last : ScaleOut σ F}
    {outcome : Except SimulationError ScaleOutPlan} (mayLose : c.MayLose a ready)
    (set : ready clock) (run : Run c r scoring ∅ clock visits last outcome)
    (distinct :
      ∀ v ∈ visits, ∀ t ∈ v.turns, ((t.before.eligible r v.group).map Candidate.name).Nodup) :
    Upkept ready last ∧ ∀ v ∈ visits, ∀ t ∈ v.turns, t.Tidied c r v.group := by
  obtain ⟨w, pending, groups, answer, opened, -, further⟩ := run.further
  obtain ⟨clean, -⟩ := opening_eq_ok set opened
  have start : Upkept ready (begun w pending : ScaleOut σ F) := ⟨clean, List.mem_cons_self⟩
  obtain ⟨final, told⟩ := further.keeps (Upkept ready)
    (fun g t => ((t.before.eligible r g).map Candidate.name).Nodup) (fun g t => t.Tidied c r g)
    (fun g _ s stalled t upkept distinct course =>
      upkept.turn mayLose (by rwa [course.before] at distinct) course) distinct start
  exact ⟨final, fun v hv t ht => ((told v hv).2.2 t ht).2.2⟩

/-- Whatever the scheduler does, whoever is lost on the way and however a search ends, no turn
leaves a sandbox behind but that of a promoted winner, and no view that the search works over is
ever closed. -/
theorem sandboxes_tidied {a : Algorithm} {clock : σ} {result : Result σ}
    (mayLose : c.MayLose a ready) (set : ready clock)
    (reached : (simulate c r scoring ∅ clock).Reaches result) :
    (Unopened r ∅ clock result ∨ ∃ visits last, Leads c r scoring ∅ clock visits last result) ∧
    ∀ visits last, Leads c r scoring ∅ clock visits last result →
      (∀ v ∈ visits, ∀ t ∈ v.turns, ((t.before.eligible r v.group).map Candidate.name).Nodup) →
      Upkept ready last ∧ ∀ v ∈ visits, ∀ t ∈ v.turns, t.Tidied c r v.group :=
  ⟨reaches_simulate_iff.mp reached, fun _ _ leads distinct => leads.run.tidied mayLose set distinct⟩

/-- The small machine's sandbox is closed after its pass; the large one's stays, as the winner's. -/
theorem sandboxes_tidied_smallThenLarge : ∃ result visits last,
    (simulate standardRules.conductor (smallThenLarge 4) (priced Float) ∅ freshClock).Reaches
      result ∧
    Leads standardRules.conductor (smallThenLarge 4) (priced Float) ∅ freshClock visits last
      result ∧
    (visits.map fun v => v.turns.map fun t =>
      (t.promoted, t.after.base, t.handedOut standardRules.conductor (smallThenLarge 4) v.group)) =
      [[(false, 0, [1])], [(true, 2, [2])]] ∧
    ∀ v ∈ visits, ∀ t ∈ v.turns, t.Tidied standardRules.conductor (smallThenLarge 4) v.group := by
  obtain ⟨visits, last, plan, run, shown⟩ := exists_planned standardRules.conductor
    (smallThenLarge 4) (priced Float) 1 ∅ freshClock
    (fun visits _ _ => decide ((visits.map fun v => v.turns.map fun t =>
        (t.promoted, t.after.base,
          t.handedOut standardRules.conductor (smallThenLarge 4) v.group)) =
            [[(false, 0, [1])], [(true, 2, [2])]]) &&
      decide (∀ v ∈ visits, ∀ t ∈ v.turns,
        ((t.before.eligible (smallThenLarge 4) v.group).map Candidate.name).Nodup))
    (by decide +kernel)
  obtain ⟨handed, distinct⟩ := Bool.and_eq_true_iff.mp shown
  have tidied := sandboxes_tidied (interleaves_conductor standardRules BinPack.algorithm).mayLose
    (Timeline.ready_opened BinPack.algorithm 1 none) run.leads.reaches
  have turns := (tidied.2 visits last run.leads (of_decide_eq_true distinct)).2
  exact ⟨_, visits, last, run.leads.reaches, run.leads, of_decide_eq_true handed, turns⟩

end ScaleAdvisor.ScaleOut
