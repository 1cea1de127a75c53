import Mathlib.Data.List.Perm.Basic
import Mathlib.Logic.Relation
import ScaleAdvisor.Proofs.Entries
import ScaleAdvisor.Proofs.Scheduling.Slots

/-!
What is done with a launcher, as steps of launches, handles and tasks. A loop that is held is a live
handle, and everything else that was ever launched is over.

* `Slots.Ran`: some run of slots leads to these launches;
* `Launcher.Use`: what is done with a launcher;
* `Launcher.Use.tracks`: after all of it the launcher is what such a run has led to.
-/

namespace ScaleAdvisor

namespace Slots

/-- Some run leads to these launches, in whatever order they were asked for. Handles are dropped
only where that is allowed. -/
def Ran (drops : Bool) (capacity : Nat) (launches : List Launch) : Prop :=
  ∃ events s, Run capacity events s ∧ s.launches.Perm launches ∧
    (drops = false → ∀ i, .move i .drop ∉ events)

/-- How many slots launches and handles have. -/
def used (launches : List Launch) : Nat :=
  launches.countP Launch.holds + launches.countP Launch.handled

section Ran

variable {drops : Bool} {capacity : Nat} {launches rest : List Launch} {l l' : Launch}
  {m : LaunchMove}

theorem Ran.perm {launches' : List Launch} (ran : Ran drops capacity launches)
    (perm : launches.Perm launches') : Ran drops capacity launches' := by
  obtain ⟨events, s, run, same, kept⟩ := ran
  exact ⟨events, s, run, same.trans perm, kept⟩

theorem Ran.request (ran : Ran drops capacity launches) : Ran drops capacity ({} :: launches) := by
  obtain ⟨events, s, run, same, kept⟩ := ran
  refine ⟨_, _, run.step (.request s), ?_, fun none i dropped => ?_⟩
  · exact (List.perm_append_singleton _ _).trans (same.cons _)
  · obtain before | new := List.mem_append.mp dropped
    · exact kept none i before
    · simp at new

/-- One launch makes a move. -/
theorem Ran.move (ran : Ran drops capacity (l :: rest)) (next : m.next l = some l')
    (room : m.takes → used (l :: rest) < capacity) (allowed : m = .drop → drops = true) :
    Ran drops capacity (l' :: rest) := by
  obtain ⟨events, s, run, same, kept⟩ := ran
  obtain ⟨i, inside, here⟩ := List.mem_iff_getElem.mp (same.mem_iff.mpr (List.mem_cons_self ..))
  have there : s.launches[i]? = some l := by rw [List.getElem?_eq_getElem inside, here]
  have free : m.takes.toNat ≤ s.free := by
    cases takes : m.takes with
    | false => exact Nat.zero_le _
    | true =>
      have room := room takes
      have balance := run.balance
      rw [holding, handles, same.countP_eq, same.countP_eq] at balance
      rw [used] at room
      exact Nat.succ_le_of_lt (by omega)
  refine ⟨_, _, run.step (.move there next free), ?_, fun none j dropped => ?_⟩
  · have others : (s.launches.eraseIdx i).Perm rest := by
      refine List.Perm.cons_inv (a := l) (List.Perm.trans ?_ same)
      exact here ▸ List.getElem_cons_eraseIdx_perm inside
    exact (List.set_perm_cons_eraseIdx inside l').trans (others.cons l')
  · obtain before | new := List.mem_append.mp dropped
    · exact kept none j before
    · obtain ⟨-, rfl⟩ : j = i ∧ LaunchMove.drop = m := by simpa using new
      simp [none] at allowed

/-- Some launches make the same move, which takes no slot and drops no handle. -/
theorem Ran.moveEach {launches' : List Launch}
    (each : List.Forall₂ (fun l l' => l' = l ∨ m.next l = some l') launches launches')
    (takes : m.takes = false) (kept : m ≠ .drop) (ran : Ran drops capacity (launches ++ rest)) :
    Ran drops capacity (launches' ++ rest) := by
  induction each generalizing rest with
  | nil => exact ran
  | @cons l l' ls ls' head _ ih =>
    have moved : Ran drops capacity (l' :: (ls ++ rest)) := by
      obtain rfl | next := head
      · exact ran
      · exact ran.move next (by simp [takes]) fun drop => absurd drop kept
    exact (ih (moved.perm List.perm_middle.symm)).perm List.perm_middle

end Ran

end Slots

/-- The launch of a loop that is held. -/
def SchedulerLoop.asLaunch (l : SchedulerLoop) : Launch where
  stage := .live
  task := if l.isRunning then .cycling else .ended

/-- It is over. Its task has ended, or is about to go. -/
structure Launch.Past (l : Launch) : Prop where
  done : ∃ ending, l.stage = .done ending
  cycles : l.task ≠ .cycling

namespace Slots

section Handles

variable {drops : Bool} {capacity : Nat} {rest : List Launch} (l : SchedulerLoop)

/-- A launch that succeeds, with the first cycles of its loop. -/
theorem Ran.launched (ran : Ran drops capacity rest) (room : used rest < capacity) :
    Ran drops capacity (l.asLaunch :: rest) := by
  have held : Ran drops capacity ({ stage := .holding } :: rest) :=
    ran.request.move (m := .acquire) rfl (fun _ => room) nofun
  have cycling : Ran drops capacity (⟨.starting, .cycling⟩ :: rest) :=
    (held.move (m := .spawn) rfl nofun nofun).move (m := .report) rfl nofun nofun
  rw [SchedulerLoop.asLaunch]
  split
  · exact cycling.move (m := .hand) rfl nofun nofun
  · exact (cycling.move (m := .exit) rfl nofun nofun).move (m := .hand) rfl nofun nofun

/-- A handle is stopped; a task that has not ended does so. -/
theorem Ran.stopped (ran : Ran drops capacity (l.asLaunch :: rest)) :
    Ran drops capacity (⟨.done .stopped, .ended⟩ :: rest) := by
  have ended : Ran drops capacity (⟨.live, .ended⟩ :: rest) := by
    rw [SchedulerLoop.asLaunch] at ran
    split at ran
    · exact ran.move (m := .exit) rfl nofun nofun
    · exact ran
  exact (ended.move (m := .stop) rfl nofun nofun).move (m := .release) rfl nofun nofun

theorem Ran.dropped (allowed : drops = true) (ran : Ran drops capacity (l.asLaunch :: rest)) :
    Ran drops capacity (⟨.done .dropped, if l.isRunning then .aborted else .ended⟩ :: rest) := by
  rw [SchedulerLoop.asLaunch] at ran
  cases running : l.isRunning with
  | true =>
    rw [running] at ran
    exact ran.move (m := .drop) rfl nofun fun _ => allowed
  | false =>
    rw [running] at ran
    exact ran.move (m := .drop) rfl nofun fun _ => allowed

end Handles

end Slots

namespace Launcher

open Slots

/-- What is done with a launcher: a loop is launched when there is a slot for it, a loop is stopped,
the loops have their turn; and, where that is allowed, a loop is let go. -/
inductive Use (drops : Bool) : Launcher → Launcher → Prop where
  | launch {x : Launcher} (room : 0 < x.freeSlots) (tokens : TokenForest) (now : Nat)
      (name : String) (view : ViewId) (token : TokenId) (resync : Nat) (f : Forest) :
      Use drops x (x.launch tokens now name view token resync f).2.1
  | stop (x : Launcher) (name : String) (id : LoopId) : Use drops x (x.stop name id).1
  | turn (x : Launcher) (tokens : TokenForest) (now : Nat) (f : Forest) :
      Use drops x (x.turn tokens now f).2
  | drop (x : Launcher) (id : LoopId) (allowed : drops = true) : Use drops x (x.drop id)

/-- One after another. -/
def Uses (drops : Bool) : Launcher → Launcher → Prop := Relation.ReflTransGen (Use drops)

/-- Its loops are the live handles of a run of slots, and all other launches of the run are over. -/
structure Tracked (drops : Bool) (x : Launcher) (gone : List Launch) : Prop where
  ran : Ran drops x.capacity (x.held.values.map (·.asLaunch) ++ gone)
  past : ∀ l ∈ gone, l.Past
  dying : gone.countP Launch.executes = x.dying
  fresh : ∀ id ∈ x.held.keys, id < x.started

section Tracked

variable {drops : Bool} {x x' : Launcher} {gone : List Launch}

theorem holds_past {l : Launch} (past : l.Past) : l.holds = false ∧ l.handled = false := by
  obtain ⟨⟨ending, done⟩, -⟩ := past
  simp [Launch.holds, Launch.handled, done]

/-- Every loop that is held has a slot, and nothing else has. -/
theorem Tracked.counts (tracked : Tracked drops x gone) :
    (x.held.values.map (·.asLaunch) ++ gone).countP Launch.holds = 0 ∧
      (x.held.values.map (·.asLaunch) ++ gone).countP Launch.handled = x.held.size := by
  have handles : (x.held.values.map (·.asLaunch)).countP Launch.handled = x.held.size := by
    rw [List.countP_eq_length.mpr, List.length_map, SortedMap.values, List.length_map,
      SortedMap.size]
    simp [SchedulerLoop.asLaunch, Launch.handled]
  have holds : (x.held.values.map (·.asLaunch)).countP Launch.holds = 0 := by
    simp [SchedulerLoop.asLaunch, Launch.holds]
  have past (p : Launch → Bool) (none : ∀ l : Launch, l.Past → p l = false) :
    gone.countP p = 0 := by
    refine List.countP_eq_zero.mpr fun l hl => ?_
    simp [none l (tracked.past l hl)]
  rw [List.countP_append, List.countP_append, handles, holds, past _ fun l h => (holds_past h).1,
    past _ fun l h => (holds_past h).2]
  exact ⟨rfl, rfl⟩

theorem Tracked.used_eq (tracked : Tracked drops x gone) :
    used (x.held.values.map (·.asLaunch) ++ gone) = x.held.size := by
  rw [used, tracked.counts.1, tracked.counts.2, Nat.zero_add]

theorem tracked_ofCapacity (a : Algorithm) (slots : Nat) :
    Tracked drops (ofCapacity a slots) [] where
  ran := ⟨[], _, .start, .refl _, fun _ _ => nofun⟩
  past := nofun
  dying := rfl
  fresh := nofun

theorem values_perm_cons {m m' : SortedMap LoopId SchedulerLoop} {id : LoopId} {l : SchedulerLoop}
    (perm : m.entries.Perm ((id, l) :: m'.entries)) : (m.values.map (·.asLaunch) ++ gone).Perm
      (l.asLaunch :: (m'.values.map (·.asLaunch) ++ gone)) :=
  ((perm.map (·.2)).map (·.asLaunch)).append_right gone

theorem Tracked.launch (tracked : Tracked drops x gone) (room : 0 < x.freeSlots)
    (tokens : TokenForest) (now : Nat) (name : String) (view : ViewId) (token : TokenId)
    (resync : Nat) (f : Forest) :
    Tracked drops (x.launch tokens now name view token resync f).2.1 gone := by
  rw [Launcher.launch]
  split
  · exact tracked
  · split
    · exact tracked
    · have new : x.held.get? x.started = none := by
        by_contra held
        obtain ⟨l, held⟩ := Option.ne_none_iff_exists'.mp held
        exact Nat.lt_irrefl _ (tracked.fresh _ (SortedMap.mem_keys_iff.mpr ⟨l, held⟩))
      refine ⟨?_, tracked.past, tracked.dying, fun id held => ?_⟩
      · refine (tracked.ran.launched _ ?_).perm
          (values_perm_cons (SortedMap.perm_insert _ new)).symm
        rw [tracked.used_eq]
        exact Nat.lt_of_sub_pos room
      · obtain rfl | old := SortedMap.mem_keys_insert.mp held
        · exact Nat.lt_succ_self _
        · exact Nat.lt_succ_of_lt (tracked.fresh id old)

/-- What is over is put with what was over before. -/
theorem Tracked.release (tracked : Tracked drops x gone) {id : LoopId} {past : Launch}
    (done : past.Past) (dying : x'.dying = x.dying + past.executes.toNat)
    (held : x'.held = x.held.erase id) (capacity : x'.capacity = x.capacity)
    (started : x'.started = x.started)
    (ran : Ran drops x.capacity (past :: ((x.held.erase id).values.map (·.asLaunch) ++ gone))) :
    Tracked drops x' (past :: gone) where
  ran := by
    rw [held, capacity]
    exact ran.perm List.perm_middle.symm
  past := List.forall_mem_cons.mpr ⟨done, tracked.past⟩
  dying := by
    rw [List.countP_cons, tracked.dying, dying]
    cases past.executes <;> rfl
  fresh := fun other here => by
    rw [held] at here
    rw [started]
    exact tracked.fresh other (SortedMap.mem_keys_erase.mp here).2

theorem Tracked.stop (tracked : Tracked drops x gone) (name : String) (id : LoopId) :
    ∃ gone', Tracked drops (x.stop name id).1 gone' := by
  cases held : x.held.get? id with
  | none =>
    have same : (x.stop name id).1 = x := by rw [Launcher.stop, SortedMap.erase_of_free held]
    exact ⟨gone, by rwa [same]⟩
  | some l =>
    have ran := (tracked.ran.perm (values_perm_cons (SortedMap.perm_erase held))).stopped l
    exact ⟨_, tracked.release ⟨⟨_, rfl⟩, by simp⟩ rfl rfl rfl rfl ran⟩

theorem Tracked.drop (tracked : Tracked drops x gone) (id : LoopId) (allowed : drops = true) :
    ∃ gone', Tracked drops (x.drop id) gone' := by
  cases held : x.held.get? id with
  | none =>
    have same : x.drop id = x := by simp [Launcher.drop, SortedMap.erase_of_free held, held]
    exact ⟨gone, by rwa [same]⟩
  | some l =>
    have ran := (tracked.ran.perm (values_perm_cons (SortedMap.perm_erase held))).dropped l allowed
    refine ⟨_, tracked.release ⟨⟨_, rfl⟩, ?_⟩ ?_ rfl rfl rfl ran⟩
    · cases l.isRunning <;> simp
    · rw [Launcher.drop, held]
      cases running : l.isRunning <;> simp [Launch.executes, running]

theorem isRunning_of_settle {a : Algorithm} {tokens : TokenForest} {now fuel : Nat} {f : Forest}
    {l : SchedulerLoop} (running : (l.settle a tokens now fuel f).2.isRunning) : l.isRunning := by
  cases fuel with
  | zero => exact running
  | succ fuel =>
    by_contra ended
    rw [SchedulerLoop.settle, if_pos (by simpa using ended)] at running
    exact ended running

/-- A loop that has its turn is as before, or its task has ended. -/
theorem asLaunch_turn (a : Algorithm) (tokens : TokenForest) (now : Nat) (f : Forest)
    (l : SchedulerLoop) : (l.turn a tokens now f).2.asLaunch = l.asLaunch ∨
      LaunchMove.exit.next l.asLaunch = some (l.turn a tokens now f).2.asLaunch := by
  rw [SchedulerLoop.asLaunch, SchedulerLoop.asLaunch]
  cases after : (l.turn a tokens now f).2.isRunning with
  | true => exact .inl (by rw [isRunning_of_settle after])
  | false =>
    cases l.isRunning with
    | true => exact .inr rfl
    | false => exact .inl rfl

theorem exits_turnEach (a : Algorithm) (tokens : TokenForest) (now : Nat) (f : Forest)
    (loops : List (LoopId × SchedulerLoop)) :
    List.Forall₂ (fun l l' => l' = l ∨ LaunchMove.exit.next l = some l')
      (loops.map fun e => e.2.asLaunch)
      ((turnEach a tokens now f loops).2.map fun e => e.2.asLaunch) := by
  induction loops generalizing f with
  | nil => exact .nil
  | cons head rest ih => exact .cons (asLaunch_turn a tokens now f head.2) (ih _)

/-- What an aborted task comes to. -/
def vanished (l : Launch) : Launch := (LaunchMove.vanish.next l).getD l

theorem vanish_each (gone : List Launch) :
    List.Forall₂ (fun l l' => l' = l ∨ LaunchMove.vanish.next l = some l') gone
      (gone.map vanished) := by
  induction gone with
  | nil => exact .nil
  | cons l rest ih =>
    refine .cons ?_ ih
    rw [vanished]
    cases LaunchMove.vanish.next l with
    | none => exact .inl rfl
    | some l' => exact .inr rfl

theorem past_vanished {l : Launch} (past : l.Past) :
    (vanished l).Past ∧ (vanished l).executes = false := by
  obtain ⟨stage, task⟩ := l
  obtain ⟨⟨ending, done⟩, cycles⟩ := past
  obtain rfl : stage = .done ending := done
  cases task with
  | cycling => exact absurd rfl cycles
  | _ => exact ⟨⟨⟨ending, rfl⟩, nofun⟩, rfl⟩

theorem Tracked.turn (tracked : Tracked drops x gone) (tokens : TokenForest) (now : Nat)
    (f : Forest) : Tracked drops (x.turn tokens now f).2 (gone.map vanished) := by
  let turned := (turnEach x.algorithm tokens now f x.held.entries).2
  have keys : turned.map (·.1) = x.held.keys :=
    keys_turnEach x.algorithm tokens now f x.held.entries
  have listed : (SortedMap.ofList turned).entries.Perm turned :=
    SortedMap.perm_ofList (keys ▸ x.held.nodup_keys)
  refine ⟨?_, ?_, ?_, fun id held => ?_⟩
  · have exits := exits_turnEach x.algorithm tokens now f x.held.entries
    have before : Ran drops x.capacity ((x.held.entries.map fun e => e.2.asLaunch) ++ gone) := by
      have ran := tracked.ran
      rwa [SortedMap.values, List.map_map] at ran
    have ended := before.moveEach exits rfl nofun
    have all := ((ended.perm List.perm_append_comm).moveEach (vanish_each gone) rfl nofun).perm
      List.perm_append_comm
    refine all.perm (List.Perm.append_right _ ?_)
    refine List.Perm.trans (listed.map fun e => e.2.asLaunch).symm (.of_eq ?_)
    rw [SortedMap.values, List.map_map]
    rfl
  · intro l hl
    obtain ⟨before, hbefore, rfl⟩ := List.mem_map.mp hl
    exact (past_vanished (tracked.past before hbefore)).1
  · refine List.countP_eq_zero.mpr fun l hl => ?_
    obtain ⟨before, hbefore, rfl⟩ := List.mem_map.mp hl
    simp [(past_vanished (tracked.past before hbefore)).2]
  · refine tracked.fresh id ?_
    rw [← keys]
    exact (listed.map (·.1)).mem_iff.mp held

theorem Use.tracked (use : Use drops x x') (tracked : Tracked drops x gone) :
    ∃ gone', Tracked drops x' gone' := by
  cases use with
  | launch room tokens now name view token resync f =>
    exact ⟨gone, tracked.launch room tokens now name view token resync f⟩
  | stop name id => exact tracked.stop name id
  | turn tokens now f => exact ⟨_, tracked.turn tokens now f⟩
  | drop id allowed => exact tracked.drop id allowed

theorem Uses.tracked (uses : Uses drops x x') (tracked : Tracked drops x gone) :
    ∃ gone', Tracked drops x' gone' := by
  induction uses with
  | refl => exact ⟨gone, tracked⟩
  | tail _ use ih =>
    obtain ⟨gone', tracked'⟩ := ih
    exact use.tracked tracked'

theorem Use.capacity_eq (use : Use drops x x') : x'.capacity = x.capacity := by
  cases use with
  | launch =>
    rw [Launcher.launch]
    split
    · rfl
    · split <;> rfl
  | stop | turn | drop => rfl

theorem Uses.capacity_eq (uses : Uses drops x x') : x'.capacity = x.capacity := by
  induction uses with
  | refl => rfl
  | tail _ use ih => exact use.capacity_eq.trans ih

/-- The loops that have not ended are the tasks that may be executing cycles. -/
theorem Tracked.running_eq (tracked : Tracked drops x gone) :
    (x.held.values.map (·.asLaunch) ++ gone).countP Launch.executes = x.running := by
  rw [List.countP_append, tracked.dying, List.countP_map, running]
  congr 1
  refine List.countP_congr fun l _ => ?_
  rw [Function.comp, SchedulerLoop.asLaunch]
  cases l.isRunning <;> simp [Launch.executes]

/-- What is true of slots is true of the launcher. -/
theorem Tracked.exists_run (tracked : Tracked drops x gone) : ∃ events s, Run x.capacity events s ∧
    (drops = false → ∀ i, .move i .drop ∉ events) ∧ s.free = x.freeSlots ∧ s.holding = 0 ∧
      s.handles = x.held.size ∧ s.executing = x.running := by
  obtain ⟨events, s, run, same, kept⟩ := tracked.ran
  have holding : s.holding = 0 := by rw [Slots.holding, same.countP_eq, tracked.counts.1]
  have handles : s.handles = x.held.size := by rw [Slots.handles, same.countP_eq, tracked.counts.2]
  have balance := run.balance
  refine ⟨events, s, run, kept, ?_, holding, handles, ?_⟩
  · rw [freeSlots]
    omega
  · rw [executing, same.countP_eq, tracked.running_eq]

theorem Tracked.freeSlots_add (tracked : Tracked drops x gone) :
    x.freeSlots + x.held.size = x.capacity := by
  obtain ⟨events, s, run, -, free, holding, handles, -⟩ := tracked.exists_run
  have balance := run.balance
  omega

end Tracked

end Launcher

end ScaleAdvisor
