import ScaleAdvisor.Advice.Planner
import ScaleAdvisor.Proofs.Simulation.Acts

/-!
The clock takes simulations from start to end. From moment to moment it lets loops and simulations
do what they can, which is some order of their steps; and it never stands still before all are over,
since each that is not has a deadline ahead.

* `runUntil_keeps`, `runUntil_spec`: where the moments up to the time limit lead;
* `interleaves_conductor`: simulations on the clock are some order of their steps;
* `Timeline.ready_opened`: the clock that a request is answered on is ready for them.
-/

namespace ScaleAdvisor

/-- A clock between two passes: nothing runs, and from outside the whole run can be cancelled, no
more. -/
structure Timeline.Ready (a : Algorithm) (outer : TokenId) (t : Timeline) : Prop where
  algorithm : t.launcher.algorithm = a
  idle : t.launcher.held.keys = []
  outside : ∀ e ∈ t.agenda, ∃ cause, e.2 = .cancel outer cause
  known : outer < t.tokens.tokens.size

namespace Simulation

/-- Simulations on the clock, and where their steps have led. -/
structure Scene (outer : TokenId) (limit : Nat) (t : Timeline) (sims : List Simulation)
    (members : List Member) :
    Prop where
  stands : List.Forall₂ (Stands t.launcher.held.get?) sims members
  crew : Crew t.launcher (watched sims)
  limited : ∀ s ∈ sims, Limited t.tokens outer limit s
  outside : ∀ e ∈ t.agenda, ∃ cause, e.2 = .cancel outer cause
  known : outer < t.tokens.tokens.size

section Settle

variable {outer : TokenId} {limit : Nat} {f : Forest} {t : Timeline} {sims : List Simulation}
  {members : List Member}

/-- Cancellations of the whole run change tokens, and nothing else. -/
theorem perform_each (f : Forest) (t : Timeline) (due : List (Nat × Intervention))
    (outside : ∀ e ∈ due, ∃ cause, e.2 = .cancel outer cause) :
    ∃ tokens, Keeps outer t.tokens tokens ∧
      due.foldl (fun (x : Forest × Timeline) e => Timeline.perform x.1 x.2 e.2) (f, t) =
        (f, { t with tokens }) := by
  induction due generalizing t with
  | nil => exact ⟨t.tokens, .refl _ _, rfl⟩
  | cons e rest ih =>
    obtain ⟨cause, cancels⟩ := outside e List.mem_cons_self
    rw [List.foldl_cons, cancels]
    obtain ⟨tokens, keeps, rest'⟩ := ih { t with tokens := t.tokens.cancel outer cause }
      fun e' he' => outside e' (List.mem_cons_of_mem _ he')
    exact ⟨tokens, (keeps_cancel outer t.tokens cause).trans keeps, rest'⟩

/-- What is done from outside at a moment. -/
theorem intervene_spec (f : Forest) (t : Timeline)
    (outside : ∀ e ∈ t.agenda, ∃ cause, e.2 = .cancel outer cause) :
    ∃ tokens later, Keeps outer t.tokens tokens ∧ (∀ e ∈ later, e ∈ t.agenda) ∧
      t.intervene f = (f, { t with tokens, agenda := later }) := by
  let later := t.agenda.filter fun e => !decide (e.1 ≤ t.now)
  obtain ⟨tokens, keeps, performed⟩ := perform_each f { t with agenda := later }
    (t.agenda.filter (·.1 ≤ t.now)) fun e he => outside e (List.mem_filter.mp he).1
  refine ⟨tokens, later, keeps, fun e he => (List.mem_filter.mp he).1, ?_⟩
  rw [Timeline.intervene, List.partition_eq_filter_filter]
  exact performed

/-- All that is due at a moment is some order of steps of the simulations. -/
theorem Scene.settle (scene : Scene outer limit t sims members) (pass now : Nat) (f : Forest) :
    ∃ members',
      SideBySide.Run t.launcher.algorithm pass f members
        (({ t with now } : Timeline).settle f).1 members' ∧
      Scene outer limit (({ t with now } : Timeline).settle f).2 sims members' ∧
      (({ t with now } : Timeline).settle f).2.launcher.algorithm = t.launcher.algorithm ∧
      (({ t with now } : Timeline).settle f).2.now = now := by
  obtain ⟨tokens, later, keeps, kept, intervened⟩ := intervene_spec f { t with now } scene.outside
  obtain ⟨crew, members', run, stands⟩ := run_turn pass tokens now f scene.crew scene.stands
  rw [Timeline.settle, intervened]
  exact ⟨members', run, ⟨stands, crew, fun s hs => (scene.limited s hs).keep keeps,
    fun e he => scene.outside e (kept e he), Nat.lt_of_lt_of_le scene.known keeps.size⟩, rfl, rfl⟩

end Settle

/-- The first later moment comes no later than any other one. -/
theorem exists_firstAfter {now time : Nat} {moments : List Nat} (listed : time ∈ moments)
    (later : now < time) :
    ∃ next, Moment.firstAfter now moments = some next ∧ now < next ∧ next ≤ time := by
  have kept : time ∈ moments.filter (now < ·) := List.mem_filter.mpr ⟨listed, by simpa using later⟩
  obtain ⟨next, first⟩ := Option.isSome_iff_exists.mp (List.isSome_min?_of_mem kept)
  obtain ⟨least, before⟩ := List.min?_eq_some_iff.mp first
  exact ⟨next, first, by simpa using (List.mem_filter.mp least).2, before time kept⟩

/-- A simulation acts of its own accord when its token ends. -/
theorem mem_moments {tokens : TokenForest} {s : Simulation} {token : TokenId} {time : Nat}
    (own : s.token? = some token) (ends : tokens.expiry token = some time) :
    time ∈ s.moments tokens := by
  rw [moments]
  cases stage : s.stage <;> simp_all [token?]

/-- A simulation as it is handed back agrees with where its steps have led. -/
theorem Stands.ended {look : LoopId → Option SchedulerLoop} {s : Simulation} {m : Member}
    (stands : Stands look s m) : Ended m s := by
  cases stands with
  | pending stage => exact ⟨rfl, rfl, rfl, by simp [outcome?, stage]⟩
  | queued token => exact ⟨rfl, rfl, rfl, by simp [outcome?]⟩
  | watching token p nextPoll held on rests => exact ⟨rfl, rfl, rfl, by simp [outcome?]⟩
  | @finished s result result' agrees =>
    refine ⟨rfl, rfl, rfl, ?_⟩
    intro o succeeded
    cases result with
    | error e => simp [outcome?] at succeeded
    | ok o' =>
      obtain rfl : o' = o := by simpa [outcome?] using succeeded
      rw [agrees o' rfl]

theorem ended_of_stands {look : LoopId → Option SchedulerLoop} {sims : List Simulation}
    {members : List Member}
    (stands : List.Forall₂ (Stands look) sims members) : List.Forall₂ Ended members sims := by
  induction stands with
  | nil => exact .nil
  | cons head _ ih => exact .cons head.ended ih

theorem watched_eq_nil {sims : List Simulation} (all : ∀ s ∈ sims, s.isFinished = true) :
    watched sims = [] := by
  rw [watched, List.filterMap_eq_nil_iff]
  intro s hs
  have finished := all s hs
  rw [isFinished] at finished
  rw [loop?]
  cases stage : s.stage <;> simp_all

section Until

variable (rules : SimulationRules) (limit pass now : Nat) (f : Forest) (t : Timeline)
  (sims : List Simulation)

/-- All that loops and simulations do at one moment. -/
def moment : Forest × Timeline × List Simulation :=
  advanceEach rules pass (({ t with now } : Timeline).settle f).1
    (({ t with now } : Timeline).settle f).2 sims

theorem runUntil_eq : runUntil rules pass limit now f t sims =
    let (f', t', sims') := moment rules pass now f t sims
    if sims'.all (·.isFinished) then (f', t', sims')
    else
      match Moment.firstAfter now (t'.moments ++ sims'.flatMap (·.moments t'.tokens)) with
      | some next =>
        if now < next ∧ next ≤ limit then runUntil rules pass limit next f' t' sims'
        else (f', t', sims')
      | none => (f', t', sims') := by
  rw [runUntil]
  rfl

/-- Where one moment leads. -/
structure Reaches (outer : TokenId) (limit pass now : Nat) (f : Forest) (t : Timeline)
    (members : List Member)
    (f' : Forest) (t' : Timeline) (sims' : List Simulation) (members' : List Member) : Prop where
  run : SideBySide.Run t.launcher.algorithm pass f members f' members'
  scene : Scene outer limit t' sims' members'
  going : ∀ s ∈ sims', Going t'.tokens outer limit now s
  algorithm : t'.launcher.algorithm = t.launcher.algorithm

variable {sims} in
theorem reaches_moment {members : List Member} (scene : Scene rules.outer limit t sims members) :
    ∃ members', Reaches rules.outer limit pass now f t members (moment rules pass now f t sims).1
      (moment rules pass now f t sims).2.1 (moment rules pass now f t sims).2.2 members' := by
  obtain ⟨middle, settled, scene', algorithm, at_now⟩ := scene.settle pass now f
  obtain ⟨members', acted⟩ :=
    acted_advanceEach rules pass []
      (({ t with now } : Timeline).settle f).1 scene'.crew scene'.stands scene'.limited
  have run := acted.run
  have going := acted.going
  rw [algorithm] at run
  rw [at_now, ← acted.same.tokens] at going
  refine ⟨members', settled.trans run, ⟨acted.stands, acted.crew, ?_, ?_, ?_⟩, going,
    acted.same.algorithm.trans algorithm⟩
  · intro s hs unfinished
    obtain ⟨token, own, timed, -⟩ := going s hs unfinished
    exact ⟨token, own, timed⟩
  · rw [moment, acted.same.agenda]
    exact scene'.outside
  · rw [moment, acted.same.tokens]
    exact scene'.known

/-- Whoever is not over has the clock go on, to the time limit at most. -/
theorem exists_next {outer : TokenId} {t : Timeline} {sims : List Simulation}
    (going : ∀ s ∈ sims, Going t.tokens outer limit now s)
    (ongoing : ¬ sims.all (·.isFinished) = true) :
    ∃ next, Moment.firstAfter now (t.moments ++ sims.flatMap (·.moments t.tokens)) = some next ∧
      now < next ∧ next ≤ limit := by
  obtain ⟨s, hs, unfinished⟩ : ∃ s ∈ sims, s.isFinished = false := by simpa using ongoing
  obtain ⟨token, own, timed, going⟩ := going s hs unfinished
  obtain ⟨time, ends, ahead, within⟩ := timed.expires going
  have listed : time ∈ t.moments ++ sims.flatMap (·.moments t.tokens) :=
    List.mem_append_right _ (List.mem_flatMap.mpr ⟨s, hs, mem_moments own ends⟩)
  obtain ⟨next, first, later, early⟩ := exists_firstAfter listed ahead
  exact ⟨next, first, later, Nat.le_trans early within⟩

/-- Once all simulations are over, nothing runs. -/
theorem Scene.ready {outer : TokenId} {t : Timeline} {sims : List Simulation}
    {members : List Member} (scene : Scene outer limit t sims members)
    (all : sims.all (·.isFinished) = true) : t.Ready t.launcher.algorithm outer := by
  refine ⟨rfl, List.eq_nil_iff_forall_not_mem.mpr ?_, scene.outside, scene.known⟩
  intro id held
  have owned := (scene.crew.held id).mp held
  rw [watched_eq_nil (List.all_eq_true.mp all)] at owned
  simp at owned

/-- What each moment keeps, the moments up to the time limit keep. They take all simulations to
their ends, since whoever is not over has time left. -/
theorem runUntil_keeps (Inv : Forest → Timeline → List Simulation → Prop)
    (step : ∀ now f t sims, Inv f t sims →
      let (f', t', sims') := moment rules pass now f t sims
      Inv f' t' sims' ∧ ∀ s ∈ sims', Going t'.tokens rules.outer limit now s)
    (start : Inv f t sims) :
    let (f', t', sims') := runUntil rules pass limit now f t sims
    Inv f' t' sims' ∧ sims'.all (·.isFinished) = true := by
  -- On the time that is left: the next moment is a later one, at the limit or earlier.
  induction left : limit - now using Nat.strongRecOn generalizing now f t sims with
  | ind left ih =>
    have kept := step now f t sims start
    rw [runUntil_eq]
    generalize moment rules pass now f t sims = x at kept
    obtain ⟨f', t', sims'⟩ := x
    dsimp only at kept ⊢
    obtain ⟨inv, going⟩ := kept
    split
    · rename_i all
      exact ⟨inv, all⟩
    · rename_i ongoing
      obtain ⟨next, first, later, early⟩ := exists_next limit now going ongoing
      rw [first]
      dsimp only
      rw [if_pos ⟨later, early⟩]
      exact ih (limit - next) (by omega) next f' t' sims' inv rfl

/-- The moments up to the time limit are some order of steps of the simulations, and take all of
them to their ends. -/
theorem runUntil_spec {members : List Member} (scene : Scene rules.outer limit t sims members) :
    (runUntil rules pass limit now f t sims).2.1.Ready t.launcher.algorithm rules.outer ∧
      ∃ members',
        SideBySide.Run t.launcher.algorithm pass f members
          (runUntil rules pass limit now f t sims).1 members' ∧
        List.Forall₂ Ended members' (runUntil rules pass limit now f t sims).2.2 := by
  have kept := runUntil_keeps rules limit pass now f t sims
    (fun f' t' sims' => t'.launcher.algorithm = t.launcher.algorithm ∧ ∃ members',
      SideBySide.Run t.launcher.algorithm pass f members f' members' ∧
        Scene rules.outer limit t' sims' members')
    (by
      rintro now' f' t' sims' ⟨algorithm, middle, run, scene'⟩
      obtain ⟨members', reaches⟩ := reaches_moment rules limit pass now' f' t' scene'
      have further := reaches.run
      rw [algorithm] at further
      exact ⟨⟨reaches.algorithm.trans algorithm, members', run.trans further, reaches.scene⟩,
        reaches.going⟩)
    ⟨rfl, members, .refl _ _, scene⟩
  obtain ⟨⟨algorithm, members', run, scene'⟩, all⟩ := kept
  have ready := scene'.ready limit all
  rw [algorithm] at ready
  exact ⟨ready, members', run, ended_of_stands scene'.stands⟩

end Until

/-- All simulations have begun, and nothing else has happened yet. -/
theorem scene_beginEach (rules : SimulationRules) (pass : Nat) (f : Forest) {a : Algorithm}
    {t : Timeline} {sims : List Simulation} (ready : t.Ready a rules.outer)
    (pending : ∀ s ∈ sims, s.stage = .pending) :
    ∃ members, BegunEach rules pass f t (sims.map (·, .waiting)) (beginEach rules pass f t sims).1
        (beginEach rules pass f t sims).2.1 (beginEach rules pass f t sims).2.2 members ∧
      Scene rules.outer (t.now + rules.timeout) (beginEach rules pass f t sims).2.1
        (beginEach rules pass f t sims).2.2 members := by
  obtain ⟨members, begun⟩ := begun_beginEach rules pass f pending ready.known
  have launcher : (beginEach rules pass f t sims).2.1.launcher = t.launcher := by rw [begun.same]
  have agenda : (beginEach rules pass f t sims).2.1.agenda = t.agenda := by rw [begun.same]
  refine ⟨members, begun, begun.stands _, ?_, begun.limited, ?_,
    Nat.lt_of_lt_of_le ready.known begun.keeps.size⟩
  · rw [begun.idle]
    refine ⟨List.nodup_nil, ?_, by simp⟩
    intro id
    rw [launcher, ready.idle]
  · rw [agenda]
    exact ready.outside

/-- Simulations on the clock, from start to end. -/
theorem runAll_spec (rules : SimulationRules) (pass : Nat) (f : Forest) {a : Algorithm}
    {t : Timeline} {sims : List Simulation} (ready : t.Ready a rules.outer)
    (pending : ∀ s ∈ sims, s.stage = .pending) :
    (runAll rules pass f t sims).2.1.Ready a rules.outer ∧
      ∃ members',
        SideBySide.Run a pass f (sims.map (·, .waiting)) (runAll rules pass f t sims).1 members' ∧
        List.Forall₂ Ended members' (runAll rules pass f t sims).2.2 := by
  obtain ⟨members, begun, scene⟩ := scene_beginEach rules pass f ready pending
  have launcher : (beginEach rules pass f t sims).2.1.launcher = t.launcher := by rw [begun.same]
  have now : (beginEach rules pass f t sims).2.1.now = t.now := by rw [begun.same]
  obtain ⟨ready', members', rest, ended⟩ := runUntil_spec rules (t.now + rules.timeout) pass t.now
    (beginEach rules pass f t sims).1 _ _ scene
  have run := begun.run
  rw [launcher, ready.algorithm] at ready' rest
  rw [ready.algorithm] at run
  rw [runAll]
  dsimp only
  rw [now]
  exact ⟨ready', members', run.trans rest, ended⟩

end Simulation

/-- Simulations on the clock are some order of their steps. -/
theorem interleaves_conductor (rules : SimulationRules) (a : Algorithm) :
    rules.conductor.Interleaves a (Timeline.Ready a rules.outer) where
  runAll := fun pass _ _ _ set _ pending _ => Simulation.runAll_spec rules pass _ set pending

/-- A clock that nothing has happened on yet. The whole run may be cancelled at a set time. -/
def Timeline.opened (a : Algorithm) (slots : Nat) (cancel : Option (Nat × String)) : Timeline where
  tokens := (TokenForest.root {}).1
  launcher := .ofCapacity a slots
  agenda := cancel.toList.map fun (time, cause) => (time, .cancel (TokenForest.root {}).2 cause)

theorem Timeline.ready_opened (a : Algorithm) (slots : Nat) (cancel : Option (Nat × String)) :
    (opened a slots cancel).Ready a (TokenForest.root {}).2 := by
  refine ⟨rfl, rfl, ?_, Nat.lt_succ_self _⟩
  intro e he
  obtain ⟨⟨time, cause⟩, -, rfl⟩ := List.mem_map.mp he
  exact ⟨cause, rfl⟩

/-- A request is answered on such a clock. -/
theorem Planner.answer_eq {F : Type} [Quantity F] (a : Algorithm) (s : Settings)
    (scoring : Scoring F) (r : AdviceRequest) (trace : Option String)
    (cancel : Option (Nat × String)) : answer a s scoring r trace cancel =
      plan (rules s (TokenForest.root {}).2).conductor r scoring trace
        (.opened a s.maxParallel cancel) :=
  rfl

end ScaleAdvisor
