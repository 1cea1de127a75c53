import ScaleAdvisor.Proofs.Scheduling.Launches
import ScaleAdvisor.Proofs.Simulation.Clock
import ScaleAdvisor.Proofs.View.Operations
import ScaleAdvisor.Scheduling.BinPack

/-!
Slots of simulations. A pass on the clock launches loops when there are slots, stops them and gives
them their turn, and does nothing else with the launcher; at each moment the loops that are held are
those that a simulation watches.

* `Simulation.Passing`: a pass, up to some moment;
* `Simulation.Passing.uses`, `Simulation.Passing.freeSlots_add`: what it has done with the launcher;
* `slot_accounting`: where the slots are, whatever happens.
-/

namespace ScaleAdvisor

namespace Simulation

open Launcher

section Uses

variable (rules : SimulationRules) (pass : Nat) (f : Forest) (t : Timeline) (s : Simulation)

theorem launcher_intervene : (t.intervene f).2.launcher = t.launcher := by
  have each (due : List (Nat × Intervention)) (f : Forest) (t : Timeline) :
      (due.foldl (fun (x : Forest × Timeline) e => Timeline.perform x.1 x.2 e.2)
        (f, t)).2.launcher = t.launcher := by
    induction due generalizing f t with
    | nil => rfl
    | cons e rest ih =>
      rw [List.foldl_cons, ih]
      cases e.2 <;> rfl
  exact each _ f _

theorem uses_settle : Uses false t.launcher (t.settle f).2.launcher := by
  have turned : Use false (t.intervene f).2.launcher (t.settle f).2.launcher :=
    .turn _ (t.intervene f).2.tokens (t.intervene f).2.now (t.intervene f).1
  rw [launcher_intervene] at turned
  exact .single turned

theorem launcher_begin : (s.begin rules pass f t).2.1.launcher = t.launcher := by
  rw [begin]
  split <;> rfl

theorem launcher_beginEach (sims : List Simulation) :
    (beginEach rules pass f t sims).2.1.launcher = t.launcher := by
  induction sims generalizing f t with
  | nil => rfl
  | cons s rest ih =>
    rw [beginEach]
    cases s.stage with
    | pending => exact (ih _ _).trans (launcher_begin rules pass f t s)
    | _ => exact ih f t

theorem uses_look (token : TokenId) (loop : LoopId) (p : SimulationProgress) (nextPoll : Nat) :
    Uses false t.launcher (s.look rules pass token loop p nextPoll f t).1.launcher := by
  have stopped : Uses false t.launcher (t.launcher.stop s.name loop).1 := .single (.stop _ _ _)
  rw [look]
  cases f.eventsFrom s.view p.cursor with
  | error e => exact stopped
  | ok events =>
    dsimp only
    split
    · exact .refl
    · exact stopped

theorem uses_watch : Uses false t.launcher (s.watch rules pass f t).1.launcher := by
  rw [watch]
  split
  · split
    · exact uses_look ..
    · split
      · exact uses_look ..
      · exact .refl
  · exact .refl

/-- A loop is launched only when a slot is free. -/
theorem uses_enter (token : TokenId) :
    Uses false t.launcher (s.enter rules token f t).2.1.launcher := by
  rw [enter]
  split
  · exact .refl
  · exact .refl
  · split
    · exact .refl
    · rename_i free
      have launched : Use false t.launcher
          (t.launcher.launch t.tokens t.now s.name s.view token rules.resync f).2.1 :=
        .launch (Nat.pos_of_ne_zero free) ..
      split <;> rename_i result <;> rw [result] at launched <;> exact .single launched

theorem uses_advance : Uses false t.launcher (s.advance rules pass f t).2.1.launcher := by
  rw [advance]
  cases s.stage with
  | queued token => exact (uses_enter rules f t s token).trans (uses_watch ..)
  | _ => exact uses_watch ..

theorem uses_advanceEach (sims : List Simulation) :
    Uses false t.launcher (advanceEach rules pass f t sims).2.1.launcher := by
  induction sims generalizing f t with
  | nil => exact .refl
  | cons s rest ih => exact (uses_advance rules pass f t s).trans (ih _ _)

theorem uses_moment (now : Nat) (sims : List Simulation) :
    Uses false t.launcher (moment rules pass now f t sims).2.1.launcher :=
  (uses_settle f { t with now }).trans (uses_advanceEach ..)

end Uses

/-- A pass that began with some simulations, up to some moment. -/
inductive Passing (rules : SimulationRules) (pass : Nat) (f : Forest) (t : Timeline)
    (sims : List Simulation) : Forest → Timeline → List Simulation → Prop where
  | begun : Passing rules pass f t sims (beginEach rules pass f t sims).1
      (beginEach rules pass f t sims).2.1 (beginEach rules pass f t sims).2.2
  | moment (now : Nat) {f' : Forest} {t' : Timeline} {sims' : List Simulation}
      (before : Passing rules pass f t sims f' t' sims') : Passing rules pass f t sims
        (moment rules pass now f' t' sims').1 (moment rules pass now f' t' sims').2.1
        (moment rules pass now f' t' sims').2.2

section Passing

variable {rules : SimulationRules} {pass limit now : Nat} {f f' : Forest} {t t' : Timeline}
  {sims sims' : List Simulation} {a : Algorithm}

theorem passing_runUntil (before : Passing rules pass f t sims f' t' sims') :
    Passing rules pass f t sims (runUntil rules pass limit now f' t' sims').1
      (runUntil rules pass limit now f' t' sims').2.1
      (runUntil rules pass limit now f' t' sims').2.2 := by
  induction left : limit - now using Nat.strongRecOn generalizing now f' t' sims' with
  | ind left ih =>
    have after := before.moment now
    rw [runUntil_eq]
    dsimp only
    split
    · exact after
    · split
      · split
        · rename_i next
          exact ih _ (by omega) after rfl
        · exact after
      · exact after

theorem passing_runAll : Passing rules pass f t sims (runAll rules pass f t sims).1
    (runAll rules pass f t sims).2.1 (runAll rules pass f t sims).2.2 :=
  passing_runUntil .begun

theorem Passing.uses (passing : Passing rules pass f t sims f' t' sims') :
    Uses false t.launcher t'.launcher := by
  induction passing with
  | begun =>
    rw [launcher_beginEach]
    exact .refl
  | moment now _ ih => exact ih.trans (uses_moment ..)

/-- Only loops that a simulation watches are held. -/
theorem Passing.scene (passing : Passing rules pass f t sims f' t' sims')
    (ready : t.Ready a rules.outer) (pending : ∀ s ∈ sims, s.stage = .pending) :
    ∃ members, Scene rules.outer (t.now + rules.timeout) t' sims' members := by
  induction passing with
  | begun =>
    obtain ⟨members, -, scene⟩ := scene_beginEach rules pass f ready pending
    exact ⟨members, scene⟩
  | moment now _ ih =>
    obtain ⟨members, scene⟩ := ih
    obtain ⟨members', reaches⟩ := reaches_moment rules _ pass now _ _ scene
    exact ⟨members', reaches.scene⟩

theorem Crew.size_eq {x : Launcher} {owned : List LoopId} (crew : Crew x owned) :
    x.held.size = owned.length := by
  have same := (List.perm_ext_iff_of_nodup x.held.nodup_keys crew.once).mpr crew.held
  rw [← same.length_eq, SortedMap.keys, List.length_map, SortedMap.size]

/-- A slot is free unless a simulation watches the loop that has it. -/
theorem Passing.freeSlots_add {slots : Nat} (passing : Passing rules pass f t sims f' t' sims')
    (uses : Uses false (.ofCapacity a slots) t.launcher) (ready : t.Ready a rules.outer)
    (pending : ∀ s ∈ sims, s.stage = .pending) :
    t'.launcher.freeSlots + (watched sims').length = max slots 1 := by
  have uses' : Uses false (.ofCapacity a slots) t'.launcher := uses.trans passing.uses
  obtain ⟨gone, tracked⟩ := uses'.tracked (tracked_ofCapacity a slots)
  obtain ⟨members, scene⟩ := passing.scene ready pending
  rw [← scene.crew.size_eq, tracked.freeSlots_add, uses'.capacity_eq]
  rfl

/-- After a pass all slots are free. -/
theorem freeSlots_runAll {slots : Nat} (uses : Uses false (.ofCapacity a slots) t.launcher)
    (ready : t.Ready a rules.outer) (pending : ∀ s ∈ sims, s.stage = .pending) :
    (runAll rules pass f t sims).2.1.launcher.freeSlots = max slots 1 := by
  have uses' : Uses false (.ofCapacity a slots) (runAll rules pass f t sims).2.1.launcher :=
    uses.trans passing_runAll.uses
  have none : (runAll rules pass f t sims).2.1.launcher.held.size = 0 := by
    have idle := (runAll_spec rules pass f ready pending).1.idle
    rwa [SortedMap.keys, List.map_eq_nil_iff, ← List.length_eq_zero_iff] at idle
  rw [Launcher.freeSlots, none, uses'.capacity_eq]
  rfl

end Passing

end Simulation

open Simulation

/-- Where the slots of a launcher are. -/
structure SlotAccounting (a : Algorithm) (maxParallel : Nat) : Prop where
  /-- A slot is free, or a launch has been handed it, or it belongs to a handle, live or
  stopping. -/
  balance : ∀ events s, Slots.Run (max maxParallel 1) events s →
    s.free + s.holding + s.handles = max maxParallel 1
  free : ∀ events s, Slots.Run (max maxParallel 1) events s →
    s.free + events.countP SlotEvent.takes = max maxParallel 1 + events.countP SlotEvent.gives
  /-- A launch that has failed, and a handle that has been stopped or dropped, has given back one
  slot, once. A launch that was cancelled has given back what it had been handed, and none if it was
  still waiting. Whatever is not over has given back nothing. -/
  once : ∀ events s, Slots.Run (max maxParallel 1) events s →
    ∀ i (l : Launch), s.launches[i]? = some l →
    match l.stage with
    | .done .cancelled => Slots.given i events = Slots.handed i events ∧ Slots.handed i events ≤ 1
    | .done _ => Slots.given i events = 1
    | _ => Slots.given i events = 0
  tasks : ∀ events s, Slots.Run (max maxParallel 1) events s → (∀ i, .move i .drop ∉ events) →
    s.executing ≤ max maxParallel 1
  /-- Whatever is done with the launcher is such a run, and what it shows is what the run has led
  to. -/
  launcher : ∀ drops x, Launcher.Uses drops (.ofCapacity a maxParallel) x →
    ∃ events s, Slots.Run (max maxParallel 1) events s ∧
      (drops = false → ∀ i, .move i .drop ∉ events) ∧
      s.free = x.freeSlots ∧ s.holding = 0 ∧ s.handles = x.held.size ∧ s.executing = x.running
  /-- Simulations drop no handles. At each moment the slots in use are those of simulations that are
  being watched, so that whichever is over, however it ended, has none; and after a pass all are
  free. -/
  simulations : ∀ (rules : SimulationRules) pass f t sims,
    Launcher.Uses false (.ofCapacity a maxParallel) t.launcher → t.Ready a rules.outer →
    (∀ s ∈ sims, s.stage = .pending) →
      (∀ f' t' sims', Passing rules pass f t sims f' t' sims' →
        Launcher.Uses false (.ofCapacity a maxParallel) t'.launcher ∧
        t'.launcher.running ≤ max maxParallel 1 ∧
        t'.launcher.freeSlots + (watched sims').length = max maxParallel 1) ∧
      (runAll rules pass f t sims).2.1.launcher.freeSlots = max maxParallel 1

/-- Slots are neither lost nor given back twice, whatever the order of events. -/
theorem slot_accounting (a : Algorithm) (maxParallel : Nat) : SlotAccounting a maxParallel where
  balance _ _ run := run.balance
  free _ _ run := run.free_eq
  once _ _ run _ _ here := run.account here
  tasks _ _ run kept := run.executing_le kept
  launcher drops x uses := by
    obtain ⟨gone, tracked⟩ := uses.tracked (Launcher.tracked_ofCapacity a maxParallel)
    have capacity : x.capacity = max maxParallel 1 := uses.capacity_eq
    exact capacity ▸ tracked.exists_run
  simulations rules pass f t sims uses ready pending := by
    refine ⟨fun f' t' sims' passing => ?_, freeSlots_runAll uses ready pending⟩
    have uses' : Launcher.Uses false (.ofCapacity a maxParallel) t'.launcher :=
      uses.trans passing.uses
    refine ⟨uses', ?_, passing.freeSlots_add uses ready pending⟩
    obtain ⟨gone, tracked⟩ := uses'.tracked (Launcher.tracked_ofCapacity a maxParallel)
    obtain ⟨events, s, run, kept, -, -, -, executing⟩ := tracked.exists_run
    have capacity : t'.launcher.capacity = max maxParallel 1 := uses'.capacity_eq
    rw [← executing, ← capacity]
    exact run.executing_le (kept rfl)

/-- The only slot is taken, and a token has been cancelled. -/
def fullHouse : Forest × Timeline :=
  let f := Forest.replay ∅ [.base "base", .sandbox "v" 0, .sandbox "u" 0]
  let launched := (Launcher.ofCapacity BinPack.algorithm 1).launch {} 0 "first" 1 0 50 f
  (launched.1, {
    launcher := launched.2.1
    tokens := (TokenForest.root {}).1.cancel 0 "gave up" })

/-- A launch that is cancelled while it waits gives nothing back: it has been handed nothing, and
the slot that it waited for is still taken. -/
theorem cancelled_while_waiting :
    (¬ ∀ maxParallel events s, Slots.Run (max maxParallel 1) events s →
      ∀ i (l : Launch) ending, s.launches[i]? = some l → l.stage = .done ending →
        Slots.given i events = 1) ∧
      fullHouse.2.launcher.freeSlots = 0 ∧
      fullHouse.2.launch "second" 2 0 50 fullHouse.1 =
        some (fullHouse.1, fullHouse.2, .error (.cancelled "gave up")) := by
  refine ⟨fun always => ?_, by decide +kernel, ?_⟩
  · have handed : Slots.Run 1 ([] ++ [.request] ++ [.move 0 .acquire]) _ :=
      (Slots.Run.start.step (.request _)).step (.move rfl rfl (by decide))
    have cancelled :
      Slots.Run 1 ([] ++ [.request] ++ [.move 0 .acquire] ++ [.request] ++ [.move 1 .cancel]) _ :=
      (handed.step (.request _)).step (.move rfl rfl (by decide))
    exact absurd (always 1 _ _ cancelled 1 ⟨.done .cancelled, .absent⟩ .cancelled rfl rfl)
      (by decide)
  · have cause : fullHouse.2.tokens.cause fullHouse.2.now 0 = some "gave up" := by decide +kernel
    rw [Timeline.launch, cause]

end ScaleAdvisor
