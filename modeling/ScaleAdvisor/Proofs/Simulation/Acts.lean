import ScaleAdvisor.Proofs.Simulation.Deadlines
import ScaleAdvisor.Proofs.Simulation.Loops
import ScaleAdvisor.Simulation.Batch

/-!
Simulations on a clock. Each does at a moment what it can: it adds its node, takes a slot, reads its
log, stops its loop. Whatever it does is some steps of its own, and the loops of the others stay as
they are.

* `Acted`, `ActedEach`: what one simulation has done at a moment, and what some have;
* `begun_beginEach`, `acted_advanceEach`: what all of them do when they begin, and at each moment
  later.
-/

namespace ScaleAdvisor.Simulation

/-- Nothing but loops has changed. -/
structure SameButLoops (t t' : Timeline) : Prop where
  now : t'.now = t.now
  tokens : t'.tokens = t.tokens
  agenda : t'.agenda = t.agenda
  algorithm : t'.launcher.algorithm = t.launcher.algorithm

theorem SameButLoops.refl (t : Timeline) : SameButLoops t t := ⟨rfl, rfl, rfl, rfl⟩

theorem SameButLoops.trans {t t' t'' : Timeline} (first : SameButLoops t t')
    (second : SameButLoops t' t'') :
    SameButLoops t t'' :=
  ⟨second.now.trans first.now, second.tokens.trans first.tokens, second.agenda.trans first.agenda,
    second.algorithm.trans first.algorithm⟩

/-- A simulation has done something at this moment. Others have not, and their loops are as
before. -/
structure Acted (pass : Nat) (s : Simulation) (owned : List LoopId) (f : Forest) (t : Timeline)
    (phase : Phase)
    (f' : Forest) (t' : Timeline) (s' : Simulation) (phase' : Phase) : Prop where
  steps : Steps t.launcher.algorithm pass s f phase f' phase'
  stands : Stands t'.launcher.held.get? s' (s, phase')
  crew : Crew t'.launcher (owned ++ s'.loop?.toList)
  others : ∀ id ∈ owned, t'.launcher.held.get? id = t.launcher.held.get? id
  same : SameButLoops t t'

section Act

variable (rules : SimulationRules) {pass : Nat} {s s' s'' : Simulation} {owned : List LoopId}
  {f f' f'' : Forest} {t t' t'' : Timeline} {phase phase' phase'' : Phase}

theorem Acted.trans (first : Acted pass s owned f t phase f' t' s' phase')
    (second : Acted pass s owned f' t' phase' f'' t'' s'' phase'') :
    Acted pass s owned f t phase f'' t'' s'' phase'' := by
  have steps := second.steps
  rw [first.same.algorithm] at steps
  exact ⟨first.steps.trans steps, second.stands, second.crew,
    fun id hid => (second.others id hid).trans (first.others id hid), first.same.trans second.same⟩

/-- A simulation fails while it has no loop. -/
theorem acted_fail (crew : Crew t.launcher owned) (ongoing : phase.isOver = false)
    (e : SimulationError) (stage : SimulationStage) :
    Acted pass s owned f t phase f t (({ s with stage } : Simulation).fail e)
      (.finished (.error e)) where
  steps := .single (.fail e ongoing)
  stands := by
    have agrees (o : Outcome)
        (failed : (.error (.runSimulation ({ s with stage } : Simulation).name e) :
          Except SimulationError Outcome) = .ok o) :
        (.error e : Except SimulationError Outcome) = .ok o := by
      simp at failed
    exact Stands.finished (s := s) agrees
  crew := by simpa [loop?, fail] using crew
  others := fun _ _ => rfl
  same := .refl t

/-- A simulation takes a slot, if it can. -/
theorem acted_enter (crew : Crew t.launcher owned) (token : TokenId) :
    ∃ phase', Acted pass s owned f t .queued
      (({ s with stage := .queued token } : Simulation).enter rules token f t).1
      (({ s with stage := .queued token } : Simulation).enter rules token f t).2.1
      (({ s with stage := .queued token } : Simulation).enter rules token f t).2.2 phase' := by
  rw [enter]
  split
  · exact ⟨_, acted_fail crew rfl _ _⟩
  · exact ⟨_, acted_fail crew rfl _ _⟩
  · split
    · exact ⟨.queued, .refl _ _, .queued token, by simpa [loop?] using crew,
        fun _ _ => rfl, .refl t⟩
    · dsimp only
      rcases launch_spec t.launcher pass s s.unread false t.tokens t.now
          ({ s with stage := .queued token } : Simulation).name token rules.resync f with
        ⟨e, failed⟩ | ⟨f', l, scheduler, launched, on, rests, steps⟩
      · rw [failed]
        exact ⟨_, acted_fail crew rfl _ _⟩
      · rw [launched]
        refine ⟨.running scheduler s.unread false, (Steps.single .launch).trans steps, ?_,
          ?_, ?_, ?_⟩
        · exact .watching token _ _ (SortedMap.get?_insert_self _ _ _) on rests
        · exact crew.add l
        · intro id hid
          refine SortedMap.get?_insert_of_ne _ _ ?_
          rintro rfl
          exact Nat.lt_irrefl _ (crew.fresh _ hid)
        · exact ⟨rfl, rfl, rfl, rfl⟩

variable {l : SchedulerLoop} {loop : LoopId} {scheduler : Program (CycleMemory × CycleEnd)}

/-- A simulation that stops its loop is over. -/
theorem acted_stop (crew : Crew t.launcher (owned ++ [loop])) (name : String) {f : Forest}
    {result result' : Except SimulationError Outcome}
    (agrees : ∀ o, result = .ok o → result' = .ok o)
    (steps : Steps t.launcher.algorithm pass s f phase f (.finished result')) :
    Acted pass s owned f t phase f { t with launcher := (t.launcher.stop name loop).1 }
      { s with stage := .finished result } (.finished result') where
  steps := steps
  stands := .finished agrees
  crew := by simpa [loop?] using (crew.drop name).1
  others := (crew.drop name).2
  same := ⟨rfl, rfl, rfl, rfl⟩

theorem acted_giveUp (crew : Crew t.launcher (owned ++ [loop])) (name : String) {f : Forest}
    (ongoing : phase.isOver = false) (e : SimulationError) {told : SimulationError} :
    Acted pass s owned f t phase f { t with launcher := (t.launcher.stop name loop).1 }
      { s with stage := .finished (.error told) } (.finished (.error e)) :=
  acted_stop crew name (by simp) (.single (.fail e ongoing))

/-- A simulation reads its log, and may stop its loop. -/
theorem acted_look (crew : Crew t.launcher (owned ++ [loop]))
    (held : t.launcher.held.get? loop = some l)
    (on : l.view = s.view) (rests : Rests l scheduler) (token : TokenId) (p : SimulationProgress)
    (nextPoll : Nat) (stage : SimulationStage) :
    ∃ phase', Acted pass s owned f t (.running scheduler p false) f
      (({ s with stage } : Simulation).look rules pass token loop p nextPoll f t).1
      (({ s with stage } : Simulation).look rules pass token loop p nextPoll f t).2 phase' := by
  rw [look]
  dsimp only
  cases news : f.eventsFrom s.view p.cursor with
  | error e => exact ⟨_, acted_giveUp crew _ rfl (.view e)⟩
  | ok events =>
    dsimp only
    cases verdict : (p.read events).verdict (t.tokens.cause t.now rules.outer)
      (t.tokens.deadlineExpired t.now token) with
    | waiting =>
      refine ⟨.running scheduler (p.read events) false, .single (.wait news verdict), ?_, ?_,
        fun _ _ => rfl, .refl t⟩
      · exact .watching token _ _ held on rests
      · exact crew
    | settled =>
      dsimp only
      rw [conclude]
      dsimp only
      split
      · rename_i o reached
        exact ⟨_, acted_stop crew _ (fun _ same => same)
          ((Steps.single (.stop news verdict)).trans (.single (.finish reached)))⟩
      · rename_i e _
        exact ⟨_, acted_giveUp crew _ rfl (.view e)⟩
    | cancelled cause => exact ⟨_, acted_giveUp crew _ rfl (.cancelled cause)⟩
    | timedOut => exact ⟨_, acted_giveUp crew _ rfl (.simulationTimeout s.name)⟩

theorem acted_nothing (crew : Crew t.launcher (owned ++ s'.loop?.toList))
    (stands : Stands t.launcher.held.get? s' (s, phase)) :
    Acted pass s owned f t phase f t s' phase :=
  ⟨.refl _ _, stands, crew, fun _ _ => rfl, .refl t⟩

theorem acted_watch (crew : Crew t.launcher (owned ++ s'.loop?.toList))
    (stands : Stands t.launcher.held.get? s' (s, phase)) :
    ∃ phase', Acted pass s owned f t phase f (s'.watch rules pass f t).1
      (s'.watch rules pass f t).2 phase' := by
  cases stands with
  | pending stage =>
    rw [watch, stage]
    exact ⟨_, acted_nothing crew (.pending stage)⟩
  | queued token => exact ⟨_, acted_nothing crew (.queued token)⟩
  | finished agrees => exact ⟨_, acted_nothing crew (.finished agrees)⟩
  | watching token p nextPoll held on rests =>
    rw [watch]
    dsimp only
    split
    · exact acted_look rules crew held on rests token p _ _
    · split
      · exact acted_look rules crew held on rests token p _ _
      · exact ⟨_, acted_nothing crew (.watching token p nextPoll held on rests)⟩

/-- A simulation does all that it can at this moment. -/
theorem acted_advance (crew : Crew t.launcher (owned ++ s'.loop?.toList))
    (stands : Stands t.launcher.held.get? s' (s, phase)) :
    ∃ phase', Acted pass s owned f t phase (s'.advance rules pass f t).1
      (s'.advance rules pass f t).2.1 (s'.advance rules pass f t).2.2 phase' := by
  rw [advance]
  cases stands with
  | pending stage =>
    rw [stage]
    exact acted_watch rules crew (.pending stage)
  | finished agrees => exact acted_watch rules crew (.finished agrees)
  | watching token p nextPoll held on rests =>
    exact acted_watch rules crew (.watching token p nextPoll held on rests)
  | queued token =>
    have crew : Crew t.launcher owned := by simpa [loop?] using crew
    obtain ⟨middle, entered⟩ := acted_enter rules crew token
    obtain ⟨last, watched⟩ := acted_watch rules entered.crew entered.stands
    exact ⟨last, entered.trans watched⟩

end Act

/-- Simulations have done all they can at this moment, one after the other. -/
structure ActedEach (outer : TokenId) (limit pass : Nat) (owned : List LoopId) (f : Forest)
    (t : Timeline) (members : List Member) (f' : Forest) (t' : Timeline) (sims' : List Simulation)
    (members' : List Member) :
    Prop where
  run : SideBySide.Run t.launcher.algorithm pass f members f' members'
  stands : List.Forall₂ (Stands t'.launcher.held.get?) sims' members'
  crew : Crew t'.launcher (owned ++ watched sims')
  others : ∀ id ∈ owned, t'.launcher.held.get? id = t.launcher.held.get? id
  going : ∀ s ∈ sims', Going t.tokens outer limit t.now s
  same : SameButLoops t t'

section Each

variable (rules : SimulationRules) {limit pass : Nat} {sims : List Simulation}
  {members : List Member} {owned : List LoopId} {f : Forest} {t : Timeline}

/-- The first one acts, then the others do. -/
theorem ActedEach.cons {outer : TokenId} {s s' : Simulation} {phase phase' : Phase}
    {f' f'' : Forest} {t' t'' : Timeline}
    {sims'' : List Simulation} {members'' : List Member}
    (first : Acted pass s (owned ++ watched sims) f t phase f' t' s' phase')
    (going : Going t.tokens outer limit t.now s')
    (rest : ActedEach outer limit pass (owned ++ s'.loop?.toList) f' t' members f'' t'' sims''
      members'') :
    ActedEach outer limit pass owned f t ((s, phase) :: members) f'' t'' (s' :: sims'')
      ((s, phase') :: members'') := by
  have run := rest.run
  rw [first.same.algorithm] at run
  refine ⟨(SideBySide.Run.head first.steps members).trans (run.tail (s, phase')),
    .cons ?_ rest.stands, ?_, ?_, ?_, first.same.trans rest.same⟩
  · exact first.stands.congr fun id mine => rest.others id (by simp [mine])
  · rw [watched_cons, ← List.append_assoc]
    exact rest.crew
  · intro id hid
    rw [rest.others id (List.mem_append_left _ hid), first.others id (List.mem_append_left _ hid)]
  · intro other hother
    obtain rfl | hother := List.mem_cons.mp hother
    · exact going
    · have later := rest.going other hother
      rw [first.same.tokens, first.same.now] at later
      exact later

/-- All simulations do what they can at this moment. -/
theorem acted_advanceEach (pass : Nat) (owned : List LoopId) (f : Forest)
    (crew : Crew t.launcher (owned ++ watched sims))
    (stands : List.Forall₂ (Stands t.launcher.held.get?) sims members)
    (limited : ∀ s ∈ sims, Limited t.tokens rules.outer limit s) :
    ∃ members', ActedEach rules.outer limit pass owned f t members
      (advanceEach rules pass f t sims).1 (advanceEach rules pass f t sims).2.1
      (advanceEach rules pass f t sims).2.2 members' := by
  induction sims generalizing members owned f t with
  | nil =>
    cases stands
    exact ⟨[], .refl _ _, .nil, crew, fun _ _ => rfl, by simp [advanceEach], .refl t⟩
  | cons s' rest ih =>
    cases stands with
    | @cons _ m _ others head tail =>
      obtain ⟨s, phase⟩ := m
      rw [watched_cons] at crew
      have aside : Crew t.launcher ((owned ++ watched rest) ++ s'.loop?.toList) :=
        crew.perm (by rw [List.append_assoc]; exact List.perm_append_comm.append_left owned)
      obtain ⟨next, first⟩ := acted_advance rules aside head
      have later : Crew (s'.advance rules pass f t).2.1.launcher
          ((owned ++ (s'.advance rules pass f t).2.2.loop?.toList) ++ watched rest) :=
        first.crew.perm (by
          rw [List.append_assoc, List.append_assoc]
          exact List.perm_append_comm.append_left owned)
      have stands := stands_congr tail fun id hid => first.others id (List.mem_append_right _ hid)
      have others : ∀ other ∈ rest,
          Limited (s'.advance rules pass f t).2.1.tokens rules.outer limit other := by
        rw [first.same.tokens]
        exact fun other hother => limited other (List.mem_cons_of_mem _ hother)
      obtain ⟨members', rest'⟩ := ih _ (s'.advance rules pass f t).1 later stands others
      exact ⟨(s, next) :: members',
        .cons first (advance_going (limited s' List.mem_cons_self)) rest'⟩

/-- A simulation has begun: it has its node and a time limit, or it has failed. -/
structure Begun (rules : SimulationRules) (pass : Nat) (s : Simulation) (f : Forest) (t : Timeline)
    (f' : Forest)
    (t' : Timeline) (s' : Simulation) (phase : Phase) : Prop where
  steps : Steps t.launcher.algorithm pass s f .waiting f' phase
  stands : ∀ look, Stands look s' (s, phase)
  idle : s'.loop? = none
  limited : Limited t'.tokens rules.outer (t.now + rules.timeout) s'
  keeps : Keeps rules.outer t.tokens t'.tokens
  same : t' = { t with tokens := t'.tokens }

theorem begun_begin (s : Simulation) (f : Forest) (known : rules.outer < t.tokens.tokens.size) :
    ∃ phase, Begun rules pass s f t (s.begin rules pass f t).1 (s.begin rules pass f t).2.1
      (s.begin rules pass f t).2.2 phase := by
  rw [begin]
  split
  · rename_i e _
    exact ⟨_, .single (.fail (.view e) rfl), fun _ => .finished nofun, rfl, .of_finished rfl,
      .refl _ _, rfl⟩
  · rename_i f' _ added
    obtain ⟨keeps, timed⟩ := keeps_childWithDeadline known
      ⟨t.now + rules.timeout, (SimulationError.simulationTimeout s.name).message⟩
    exact ⟨_, .single (.begin added), fun _ => .queued _, rfl, fun _ => ⟨_, rfl, timed⟩, keeps, rfl⟩

/-- Simulations have begun at one moment, one after the other. -/
structure BegunEach (rules : SimulationRules) (pass : Nat) (f : Forest) (t : Timeline)
    (members : List Member)
    (f' : Forest) (t' : Timeline) (sims' : List Simulation) (members' : List Member) : Prop where
  run : SideBySide.Run t.launcher.algorithm pass f members f' members'
  stands : ∀ look, List.Forall₂ (Stands look) sims' members'
  idle : watched sims' = []
  limited : ∀ s ∈ sims', Limited t'.tokens rules.outer (t.now + rules.timeout) s
  keeps : Keeps rules.outer t.tokens t'.tokens
  same : t' = { t with tokens := t'.tokens }

variable {rules} in
/-- The first one begins, then the others do. -/
theorem BegunEach.cons {s s' : Simulation} {phase : Phase} {f' f'' : Forest} {t' t'' : Timeline}
    {sims'' : List Simulation} {members'' : List Member}
    (first : Begun rules pass s f t f' t' s' phase)
    (rest : BegunEach rules pass f' t' members f'' t'' sims'' members'') :
    BegunEach rules pass f t ((s, .waiting) :: members) f'' t'' (s' :: sims'')
      ((s, phase) :: members'') := by
  have now : t'.now = t.now := by rw [first.same]
  have launcher : t'.launcher = t.launcher := by rw [first.same]
  have run := rest.run
  rw [launcher] at run
  refine ⟨(SideBySide.Run.head first.steps members).trans (run.tail (s, phase)),
    fun look => .cons (first.stands look) (rest.stands look), ?_, ?_,
    first.keeps.trans rest.keeps, ?_⟩
  · rw [watched_cons, first.idle, rest.idle]
    rfl
  · intro other hother
    obtain rfl | hother := List.mem_cons.mp hother
    · exact first.limited.keep rest.keeps
    · rw [← now]
      exact rest.limited other hother
  · rw [rest.same, first.same]

/-- All simulations begin. -/
theorem begun_beginEach (pass : Nat) (f : Forest) (pending : ∀ s ∈ sims, s.stage = .pending)
    (known : rules.outer < t.tokens.tokens.size) :
    ∃ members', BegunEach rules pass f t (sims.map (·, .waiting)) (beginEach rules pass f t sims).1
      (beginEach rules pass f t sims).2.1 (beginEach rules pass f t sims).2.2 members' := by
  induction sims generalizing f t with
  | nil => exact ⟨[], .refl _ _, fun _ => .nil, rfl, by simp [beginEach], .refl _ _, rfl⟩
  | cons s rest ih =>
    have stage : s.stage = .pending := pending s List.mem_cons_self
    obtain ⟨phase, first⟩ := begun_begin rules (t := t) s f known
    obtain ⟨others, later⟩ :=
      ih (s.begin rules pass f t).1 (fun s' hs' => pending s' (List.mem_cons_of_mem _ hs'))
      (Nat.lt_of_lt_of_le known first.keeps.size)
    rw [beginEach, stage]
    exact ⟨_, BegunEach.cons first later⟩

end Each

end ScaleAdvisor.Simulation
