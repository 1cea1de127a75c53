import ScaleAdvisor.Scheduling.Loop

/-!
The launcher bounds how many scheduler loops are held at a time. Starting one takes a slot; stopping
or dropping it gives the slot back, and so does a start that fails. A loop that has ended keeps its
slot until then.
-/

namespace ScaleAdvisor

/-- What a loop that has been started is known by. -/
abbrev LoopId := Nat

structure Launcher where
  algorithm : Algorithm
  capacity : Nat
  capacity_pos : 1 ≤ capacity
  /-- The loops that hold a slot. -/
  held : SortedMap LoopId SchedulerLoop := ∅
  /-- How many loops have been started. -/
  started : LoopId := 0
  /-- Loops whose slot has been given back before they had a chance to end. -/
  dying : Nat := 0

namespace Launcher

/-- A launcher for so many loops, but one at least. -/
def ofCapacity (algorithm : Algorithm) (slots : Nat) : Launcher :=
  { algorithm, capacity := max slots 1, capacity_pos := Nat.le_max_right slots 1 }

def freeSlots (x : Launcher) : Nat := x.capacity - x.held.size

/-- Loops that have not ended. -/
def running (x : Launcher) : Nat := x.held.values.countP (·.isRunning) + x.dying

/-- Give every held loop, in the order of their starts, its turn. -/
def turnEach (a : Algorithm) (tokens : TokenForest) (now : Nat) (f : Forest) :
    List (LoopId × SchedulerLoop) → Forest × List (LoopId × SchedulerLoop)
  | [] => (f, [])
  | (id, l) :: rest =>
    let (f', l') := l.turn a tokens now f
    let (f'', rest') := turnEach a tokens now f' rest
    (f'', (id, l') :: rest')

theorem keys_turnEach (a : Algorithm) (tokens : TokenForest) (now : Nat) (f : Forest)
    (loops : List (LoopId × SchedulerLoop)) :
    (turnEach a tokens now f loops).2.map (·.1) = loops.map (·.1) := by
  induction loops generalizing f with
  | nil => rfl
  | cons head rest ih => simp [turnEach, ih]

/-- All that the loops do at one moment. -/
def turn (tokens : TokenForest) (now : Nat) (f : Forest) (x : Launcher) : Forest × Launcher :=
  let turned := turnEach x.algorithm tokens now f x.held.entries
  (turned.1, { x with held := .ofList turned.2, dying := 0 })

/-- Start a loop on a view, given that a slot is free. Fails on a closed view, or when the view
cannot be listed. -/
def launch (tokens : TokenForest) (now : Nat) (name : String) (view : ViewId) (token : TokenId)
    (resync : Nat) (f : Forest) (x : Launcher) :
    Forest × Launcher × Except SchedulerError LoopId :=
  if f.isClosed view then
    (f, x, .error (.launchScheduler name ("view " ++ f.name view ++ " is closed")))
  else
    match f.nodes view with
    | .error e => (f, x, .error (.launchScheduler name e.message))
    | .ok _ =>
      let (f', l) := SchedulerLoop.start x.algorithm tokens now f view token resync
      (f', { x with held := x.held.insert x.started l, started := x.started + 1 }, .ok x.started)

/-- Stop a loop and wait for its end. A loop that has crashed says so; its slot is free either
way. -/
def stop (name : String) (id : LoopId) (x : Launcher) : Launcher × Except SchedulerError Unit :=
  let outcome := match (x.held.get? id).map (·.phase) with
    | some .crashed => .error (.taskFailed name "the scheduler died")
    | _ => .ok ()
  ({ x with held := x.held.erase id }, outcome)

/-- Let go of a loop at once. It counts as running until the others have had a turn. -/
def drop (id : LoopId) (x : Launcher) : Launcher :=
  let alive := (x.held.get? id).any (·.isRunning)
  { x with held := x.held.erase id, dying := x.dying + alive.toNat }

/-- When one of the loops acts next if nothing changes. -/
def wakes (tokens : TokenForest) (x : Launcher) : Option Nat :=
  (x.held.values.filterMap (·.wakes tokens)).min?

end Launcher

end ScaleAdvisor
