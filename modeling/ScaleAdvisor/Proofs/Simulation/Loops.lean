import Mathlib.Logic.Function.Basic
import ScaleAdvisor.Proofs.Simulation.SideBySide
import ScaleAdvisor.Simulation.Batch

/-!
Loops on a clock. A loop stands for the scheduler of the one simulation that watches it, resting
between two cycles; whatever loops do at a moment is some steps of these simulations.

* `steps_settle`, `run_turn`: what loops do when they have their turn;
* `Stands`, `Crew`: where a simulation stands, and which loops the launcher holds;
* `launch_spec`: what a new loop does at once.
-/

namespace ScaleAdvisor.Simulation

namespace SideBySide

variable {a : Algorithm} {pass : Nat} {f g h : Forest}

theorem Run.trans {members middle last : List Member} (first : Run a pass f members g middle)
    (second : Run a pass g middle h last) : Run a pass f members h last := by
  induction second with
  | refl => exact first
  | step _ step ih => exact .step (ih first) step

theorem Run.head {s : Simulation} {phase next : Phase} (steps : Steps a pass s f phase g next)
    (rest : List Member) : Run a pass f ((s, phase) :: rest) g ((s, next) :: rest) := by
  induction steps with
  | refl => exact .refl _ _
  | snoc _ step ih => exact .step ih (.head step)

theorem Run.tail (m : Member) {rest rest' : List Member} (run : Run a pass f rest g rest') :
    Run a pass f (m :: rest) g (m :: rest') := by
  induction run with
  | refl => exact .refl _ _
  | step _ step ih => exact .step ih (.tail step)

end SideBySide

/-- The scheduler that a loop stands for between two cycles. -/
def Rests (l : SchedulerLoop) (scheduler : Program (CycleMemory × CycleEnd)) : Prop :=
  ∃ ending, scheduler = .done (l.memory, ending) ∧
    (l.phase = .running → SchedulerLoop.phaseAfter ending = .running)

section Loop

variable (a : Algorithm) (pass : Nat) (p : SimulationProgress) (stopped : Bool)
  (tokens : TokenForest) (now : Nat) {s : Simulation} {l : SchedulerLoop}
  {scheduler : Program (CycleMemory × CycleEnd)}

/-- One cycle of a loop. -/
theorem steps_cycle (f : Forest) (on : l.view = s.view) :
    (l.cycle a now f).2.view = s.view ∧ ∃ scheduler', Rests (l.cycle a now f).2 scheduler' ∧
      Steps a pass s f (.running (a.cycle l.memory) p stopped) (l.cycle a now f).1
        (.running scheduler' p stopped) := by
  refine ⟨on, _, ⟨(a.runCycle f l.view l.memory).2.2, rfl, fun running => running⟩, ?_⟩
  have calls : Steps a pass s f (.running (a.cycle l.memory) p stopped) _ _ :=
    steps_calls (a.cycle l.memory) f
  rw [← on] at calls
  exact calls

/-- All that a loop does at one moment. -/
theorem steps_settle (fuel : Nat) (f : Forest) (on : l.view = s.view) (rests : Rests l scheduler) :
    (l.settle a tokens now fuel f).2.view = s.view ∧
      ∃ scheduler', Rests (l.settle a tokens now fuel f).2 scheduler' ∧
        Steps a pass s f (.running scheduler p stopped) (l.settle a tokens now fuel f).1
          (.running scheduler' p stopped) := by
  induction fuel generalizing f l scheduler with
  | zero => exact ⟨on, scheduler, rests, .refl _ _⟩
  | succ fuel ih =>
    obtain ⟨ending, rfl, goesOn⟩ := rests
    rw [SchedulerLoop.settle]
    split
    · exact ⟨on, _, ⟨ending, rfl, goesOn⟩, .refl _ _⟩
    · rename_i running
      split
      · exact ⟨on, _, ⟨ending, rfl, by simp⟩, .refl _ _⟩
      · split
        · have begun : Steps a pass s f (.running (.done (l.memory, ending)) p stopped) f
              (.running (a.cycle l.memory) p stopped) :=
            .single (.again (goesOn (by simpa [SchedulerLoop.isRunning] using running)))
          obtain ⟨on', scheduler', rests', cycle⟩ := steps_cycle a pass p stopped now f on
          obtain ⟨on'', scheduler'', rests'', later⟩ := ih (l.cycle a now f).1 on' rests'
          exact ⟨on'', scheduler'', rests'', (begun.trans cycle).trans later⟩
        · exact ⟨on, _, ⟨ending, rfl, goesOn⟩, .refl _ _⟩

end Loop

/-- The loop that a simulation watches. -/
def loop? (s : Simulation) : Option LoopId :=
  match s.stage with
  | .watching _ loop _ _ => some loop
  | _ => none

/-- Which simulation, of those given, watches which loop. -/
def watched (sims : List Simulation) : List LoopId := sims.filterMap loop?

/-- A simulation on the clock agrees with where its steps have led. -/
inductive Stands (look : LoopId → Option SchedulerLoop) : Simulation → Member → Prop where
  | pending {s : Simulation} (stage : s.stage = .pending) : Stands look s (s, .waiting)
  | queued {s : Simulation} (token : TokenId) :
      Stands look { s with stage := .queued token } (s, .queued)
  | watching {s : Simulation} (token : TokenId) {loop : LoopId} {l : SchedulerLoop}
      {scheduler : Program (CycleMemory × CycleEnd)} (p : SimulationProgress) (nextPoll : Nat)
      (held : look loop = some l) (on : l.view = s.view) (rests : Rests l scheduler) :
      Stands look { s with stage := .watching token loop p nextPoll }
        (s, .running scheduler p false)
  | finished {s : Simulation} {result result' : Except SimulationError Outcome}
      (agrees : ∀ o, result = .ok o → result' = .ok o) :
      Stands look { s with stage := .finished result } (s, .finished result')

/-- Only the loop that it watches matters to a simulation. -/
theorem Stands.congr {look look' : LoopId → Option SchedulerLoop} {s : Simulation} {m : Member}
    (stands : Stands look s m) (same : ∀ id, s.loop? = some id → look' id = look id) :
    Stands look' s m := by
  cases stands with
  | pending stage => exact .pending stage
  | queued token => exact .queued token
  | watching token p nextPoll held on rests =>
    refine .watching token p nextPoll ?_ on rests
    rw [same _ rfl]
    exact held
  | finished agrees => exact .finished agrees

theorem watched_cons (s : Simulation) (rest : List Simulation) :
    watched (s :: rest) = s.loop?.toList ++ watched rest := by
  rw [watched, List.filterMap_cons]
  cases s.loop? <;> rfl

theorem stands_congr {look look' : LoopId → Option SchedulerLoop} {sims : List Simulation}
    {members : List Member} (stands : List.Forall₂ (Stands look) sims members)
    (same : ∀ id ∈ watched sims, look' id = look id) :
    List.Forall₂ (Stands look') sims members := by
  induction stands with
  | nil => exact .nil
  | cons head _ ih =>
    rw [watched_cons] at same
    refine .cons (head.congr fun id mine => same id ?_) (ih fun id other => same id ?_)
    · simp [mine]
    · exact List.mem_append_right _ other

section Turn

variable (a : Algorithm) (pass : Nat) (tokens : TokenForest) (now : Nat) (f : Forest)
  {sims : List Simulation} {members : List Member} {look : LoopId → Option SchedulerLoop}

/-- One loop has its turn. -/
theorem run_loop (stands : List.Forall₂ (Stands look) sims members) (once : (watched sims).Nodup)
    {id : LoopId} {l : SchedulerLoop} (held : look id = some l) (owned : id ∈ watched sims) :
    ∃ members', SideBySide.Run a pass f members (l.turn a tokens now f).1 members' ∧
      List.Forall₂
        (Stands (Function.update look id (some (l.turn a tokens now f).2))) sims members' := by
  induction stands with
  | nil => simp [watched] at owned
  | @cons s m rest others head tail ih =>
    rw [watched_cons] at once owned
    by_cases mine : s.loop? = some id
    · rw [mine, Option.toList_some, List.singleton_append, List.nodup_cons] at once
      have untouched :
        List.Forall₂ (Stands (Function.update look id (some (l.turn a tokens now f).2)))
          rest others := by
        refine stands_congr tail fun other hother => Function.update_of_ne ?_ _ _
        rintro rfl
        exact once.1 hother
      cases head with
      | pending stage => simp [loop?, stage] at mine
      | queued token => simp [loop?] at mine
      | finished agrees => simp [loop?] at mine
      | @watching s token loop l' scheduler p nextPoll held' on rests =>
        obtain rfl : loop = id := by simpa [loop?] using mine
        obtain rfl := Option.some.inj (held'.symm.trans held)
        obtain ⟨on', scheduler', rests', steps⟩ :=
          steps_settle a pass p false tokens now (l'.patience f) f on rests
        refine ⟨_, SideBySide.Run.head steps others, .cons ?_ untouched⟩
        exact .watching token p nextPoll (Function.update_self _ _ _) on' rests'
    · obtain yes | later := List.mem_append.mp owned
      · simp [mine] at yes
      · obtain ⟨members', run, stands'⟩ := ih (List.nodup_append.mp once).2.1 later
        refine ⟨m :: members', run.tail m, .cons (head.congr ?_) stands'⟩
        intro other hother
        refine Function.update_of_ne ?_ _ _
        rintro rfl
        exact mine hother

/-- All loops have their turn, one after the other. -/
theorem run_turnEach {loops : List (LoopId × SchedulerLoop)}
    (stands : List.Forall₂ (Stands look) sims members) (once : (watched sims).Nodup)
    (distinct : (loops.map (·.1)).Nodup) (held : ∀ e ∈ loops, look e.1 = some e.2)
    (owned : ∀ e ∈ loops, e.1 ∈ watched sims) :
    ∃ members', SideBySide.Run a pass f members (Launcher.turnEach a tokens now f loops).1
      members' ∧
      List.Forall₂ (Stands fun id =>
        (SortedMap.find id (Launcher.turnEach a tokens now f loops).2).or (look id))
        sims members' := by
  induction loops generalizing f look members with
  | nil =>
    refine ⟨members, .refl _ _, ?_⟩
    simpa [Launcher.turnEach] using stands
  | cons head rest ih =>
    obtain ⟨id, l⟩ := head
    rw [List.map_cons, List.nodup_cons] at distinct
    obtain ⟨middle, first, stands'⟩ := run_loop a pass tokens now f stands once
      (held _ List.mem_cons_self) (owned _ List.mem_cons_self)
    have others : ∀ e ∈ rest, e.1 ≠ id := by
      rintro e he rfl
      exact distinct.1 (List.mem_map_of_mem (f := (·.1)) he)
    obtain ⟨members', second, stands''⟩ := ih (l.turn a tokens now f).1 stands' distinct.2
      (fun e he => by rw [Function.update_of_ne (others e he), held e (List.mem_cons_of_mem _ he)])
      (fun e he => owned e (List.mem_cons_of_mem _ he))
    refine ⟨members', first.trans second, stands_congr stands'' ?_⟩
    intro other _
    rw [Launcher.turnEach]
    dsimp only
    rw [SortedMap.find]
    by_cases same : other = id
    · subst same
      have gone :
          SortedMap.find other (Launcher.turnEach a tokens now (l.turn a tokens now f).1 rest).2 =
          none := by
        rw [SortedMap.find_eq_none_iff, Launcher.keys_turnEach]
        exact distinct.1
      rw [gone, if_pos (KeyOrder.same_iff.mpr rfl), Option.none_or, Function.update_self,
        Option.some_or]
    · rw [if_neg fun equal => same (KeyOrder.same_iff.mp equal), Function.update_of_ne same]

end Turn

/-- A launcher holds just these loops. -/
structure Crew (x : Launcher) (owned : List LoopId) : Prop where
  once : owned.Nodup
  held : ∀ id, id ∈ x.held.keys ↔ id ∈ owned
  fresh : ∀ id ∈ owned, id < x.started

theorem Crew.perm {x : Launcher} {owned owned' : List LoopId} (crew : Crew x owned)
    (perm : owned.Perm owned') : Crew x owned' :=
  ⟨perm.nodup_iff.mp crew.once, fun id => (crew.held id).trans perm.mem_iff,
    fun id hid => crew.fresh id (perm.mem_iff.mpr hid)⟩

section Launcher

variable {x : Launcher} {owned : List LoopId}

/-- The launcher gives its loops their turn. -/
theorem run_turn (pass : Nat) (tokens : TokenForest) (now : Nat) (f : Forest)
    {sims : List Simulation} {members : List Member} (crew : Crew x (watched sims))
    (stands : List.Forall₂ (Stands x.held.get?) sims members) :
    Crew (x.turn tokens now f).2 (watched sims) ∧
      ∃ members', SideBySide.Run x.algorithm pass f members (x.turn tokens now f).1 members' ∧
        List.Forall₂ (Stands (x.turn tokens now f).2.held.get?) sims members' := by
  have distinct : (x.held.entries.map (·.1)).Nodup := x.held.nodup_keys
  have lookup (id : LoopId) : (x.turn tokens now f).2.held.get? id =
      SortedMap.find id (Launcher.turnEach x.algorithm tokens now f x.held.entries).2 := by
    have collected := SortedMap.get?_foldl_insert
      (Launcher.turnEach x.algorithm tokens now f x.held.entries).2 ∅ id
      (by rw [Launcher.keys_turnEach]; exact distinct)
    rw [SortedMap.get?_empty, Option.or_none] at collected
    exact collected
  have keys (id : LoopId) :
      (∃ l, (x.turn tokens now f).2.held.get? id = some l) ↔ id ∈ x.held.keys := by
    rw [lookup, ← Option.ne_none_iff_exists', ne_eq, SortedMap.find_eq_none_iff,
      Launcher.keys_turnEach, not_not]
    rfl
  obtain ⟨members', run, stands'⟩ :=
    run_turnEach x.algorithm pass tokens now f stands crew.once distinct
    (fun e he => (SortedMap.mem_entries_iff _).mp he)
    (fun e he => (crew.held _).mp (List.mem_map_of_mem he))
  refine ⟨⟨crew.once, ?_, crew.fresh⟩, members', run, stands_congr stands' ?_⟩
  · intro id
    rw [SortedMap.mem_keys_iff, keys, crew.held]
  · intro id hid
    obtain ⟨l, found⟩ := (keys id).mpr ((crew.held id).mpr hid)
    rw [found, ← lookup, found, Option.some_or]

/-- A new loop is held besides the others. -/
theorem Crew.add (crew : Crew x owned) (l : SchedulerLoop) :
    Crew { x with held := x.held.insert x.started l, started := x.started + 1 }
      (owned ++ [x.started]) where
  once := by
    refine List.nodup_append.mpr ⟨crew.once, by simp, ?_⟩
    rintro id hid _ hnew rfl
    exact Nat.lt_irrefl _ (List.mem_singleton.mp hnew ▸ crew.fresh id hid)
  held := fun id => by
    rw [SortedMap.mem_keys_insert, crew.held, List.mem_append, List.mem_singleton, or_comm]
  fresh := fun id hid => by
    obtain hid | hid := List.mem_append.mp hid
    · exact Nat.lt_succ_of_lt (crew.fresh id hid)
    · rw [List.mem_singleton.mp hid]
      exact Nat.lt_succ_self _

/-- A loop is let go, and all others are held as before. -/
theorem Crew.drop {id : LoopId} (crew : Crew x (owned ++ [id])) (name : String) :
    Crew (x.stop name id).1 owned ∧
      ∀ other ∈ owned, (x.stop name id).1.held.get? other = x.held.get? other := by
  have apart := List.nodup_append.mp crew.once
  have different : ∀ other ∈ owned, other ≠ id := fun other hother =>
    apart.2.2 other hother id (by simp)
  refine ⟨⟨apart.1, ?_, fun other hother => crew.fresh other (by simp [hother])⟩,
    ?_⟩
  · intro other
    change other ∈ (x.held.erase id).keys ↔ _
    rw [SortedMap.mem_keys_erase, crew.held, List.mem_append, List.mem_singleton]
    constructor
    · rintro ⟨no, hother | same⟩
      · exact hother
      · exact absurd same no
    · exact fun hother => ⟨different other hother, .inl hother⟩
  · intro other hother
    change (x.held.erase id).get? other = _
    rw [SortedMap.get?_erase, if_neg fun same => different other hother (KeyOrder.same_iff.mp same)]

/-- What a launch leads to: nothing at all, or a loop that has run its first cycles. -/
theorem launch_spec (x : Launcher) (pass : Nat) (s : Simulation) (p : SimulationProgress)
    (stopped : Bool)
    (tokens : TokenForest) (now : Nat) (name : String) (token : TokenId) (resync : Nat)
    (f : Forest) : (∃ e, x.launch tokens now name s.view token resync f = (f, x, .error e)) ∨
      ∃ f' l scheduler, x.launch tokens now name s.view token resync f =
          (f', { x with held := x.held.insert x.started l, started := x.started + 1 },
            .ok x.started) ∧
        l.view = s.view ∧ Rests l scheduler ∧
        Steps x.algorithm pass s f (.running (x.algorithm.cycle {}) p stopped) f'
          (.running scheduler p stopped) := by
  rw [Launcher.launch]
  split
  · exact .inl ⟨_, rfl⟩
  · split
    · exact .inl ⟨_, rfl⟩
    · let begun : SchedulerLoop :=
        { view := s.view, token, resync, watcher := .subscribe f s.view, due := now }
      have on : begun.view = s.view := rfl
      obtain ⟨on', scheduler, rests, cycle⟩ := steps_cycle x.algorithm pass p stopped now f on
      obtain ⟨on'', scheduler', rests', turn⟩ := steps_settle x.algorithm pass p stopped tokens now
        ((begun.cycle x.algorithm now f).2.patience (begun.cycle x.algorithm now f).1) _ on' rests
      exact .inr ⟨_, _, scheduler', rfl, on'', rests', cycle.trans turn⟩

end Launcher

end ScaleAdvisor.Simulation
