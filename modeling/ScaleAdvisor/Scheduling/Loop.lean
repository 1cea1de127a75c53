import ScaleAdvisor.Scheduling.Algorithm
import ScaleAdvisor.Scheduling.Cancellation
import ScaleAdvisor.View.Watch

/-!
Scheduler loops. A loop runs cycles on its view: the first at once, each further one when the view
has changed since or the resync interval is over. It ends when its token is cancelled or a cycle
finds the view closed.
-/

namespace ScaleAdvisor

inductive LoopPhase where
  | running
  /-- Ended of its own accord. -/
  | exited
  /-- Died in a cycle. -/
  | crashed
  deriving DecidableEq, Repr

structure SchedulerLoop where
  view : ViewId
  token : TokenId
  /-- The longest time between two cycles, in milliseconds. -/
  resync : Nat
  /-- What it has seen of its view's changes. -/
  watcher : Watcher
  /-- When the next cycle starts even if nothing changes. -/
  due : Nat
  memory : CycleMemory := {}
  phase : LoopPhase := .running

namespace SchedulerLoop

def isRunning (l : SchedulerLoop) : Bool := l.phase == .running

/-- What becomes of a loop whose cycle ends so. Only a closed view ends it; other failures are
ignored. -/
def phaseAfter : CycleEnd → LoopPhase
  | .failed (.view (.closed _)) => .exited
  | .crashed => .crashed
  | _ => .running

/-- Take note of all changes so far, then run one cycle. -/
def cycle (a : Algorithm) (now : Nat) (f : Forest) (l : SchedulerLoop) : Forest × SchedulerLoop :=
  let (f', memory, ending) := a.runCycle f l.view l.memory
  (f', { l with
    watcher := .subscribe f l.view
    due := now + l.resync
    memory
    phase := phaseAfter ending })

/-- There is reason for another cycle. -/
def wantsCycle (now : Nat) (f : Forest) (l : SchedulerLoop) : Bool :=
  l.watcher.unread f || l.due ≤ now

/-- Run cycles while there is reason to, at most `fuel` of them. -/
def settle (a : Algorithm) (tokens : TokenForest) (now : Nat) :
    Nat → Forest → SchedulerLoop → Forest × SchedulerLoop
  | 0, f, l => (f, l)
  | fuel + 1, f, l =>
    if !l.isRunning then (f, l)
    else if tokens.isCancelled now l.token then (f, { l with phase := .exited })
    else if l.wantsCycle now f then
      let (f', l') := l.cycle a now f
      settle a tokens now fuel f' l'
    else (f, l)

/-- A cycle changes its view only by binding, so there are no more cycles in a row than pending
workloads, one for a change from outside, and one that finds nothing to do. -/
def patience (f : Forest) (l : SchedulerLoop) : Nat :=
  match f.pending l.view with
  | .ok pending => pending.length + 2
  | .error _ => 2

/-- All that the loop does at one moment. -/
def turn (a : Algorithm) (tokens : TokenForest) (now : Nat) (f : Forest) (l : SchedulerLoop) :
    Forest × SchedulerLoop :=
  settle a tokens now (l.patience f) f l

/-- A loop that begins; its first cycle comes before it looks at its token. -/
def start (a : Algorithm) (tokens : TokenForest) (now : Nat) (f : Forest) (view : ViewId)
    (token : TokenId) (resync : Nat) : Forest × SchedulerLoop :=
  let (f', l) := cycle a now f
    { view, token, resync, watcher := .subscribe f view, due := now }
  l.turn a tokens now f'

/-- When it acts next if nothing changes: for its next cycle, or because its token expires. -/
def wakes (tokens : TokenForest) (l : SchedulerLoop) : Option Nat :=
  if l.isRunning then (l.due :: (tokens.expiry l.token).toList).min? else none

end SchedulerLoop

end ScaleAdvisor
