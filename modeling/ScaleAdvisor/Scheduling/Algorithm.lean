import ScaleAdvisor.View.Client

/-!
Scheduling algorithms. An algorithm works in cycles; each cycle is a program over one view, and one
scheduler carries a memory from cycle to cycle.
-/

namespace ScaleAdvisor

/-- Why a scheduler could not be started, or ended. -/
inductive SchedulerError where
  | launchScheduler (name reason : String)
  | taskFailed (name reason : String)
  | cancelled (cause : String)
  | view (e : ViewError)
  deriving DecidableEq, Repr

def SchedulerError.message : SchedulerError → String
  | .launchScheduler name reason => "failed to launch scheduler for " ++ name ++ ": " ++ reason
  | .taskFailed name reason => "scheduler task for " ++ name ++ " failed: " ++ reason
  | .cancelled cause => "cancelled: " ++ cause
  | .view e => "view error: " ++ e.message

/-- What one scheduler remembers between cycles. -/
structure CycleMemory where
  /-- Workloads reported as unschedulable and not bound since. -/
  reported : KeySet WorkloadKey := ∅
  /-- How many cycles it has begun. -/
  cycles : Nat := 0

/-- How a cycle ends. -/
inductive CycleEnd where
  | finished (bound unschedulable : Nat)
  | failed (e : SchedulerError)
  /-- The scheduler itself dies. -/
  | crashed

structure Algorithm where
  cycle : CycleMemory → Program (CycleMemory × CycleEnd)

namespace Algorithm

/-- Run one cycle on a view. -/
def runCycle (a : Algorithm) (f : Forest) (v : ViewId) (m : CycleMemory) :
    Forest × CycleMemory × CycleEnd :=
  (a.cycle m).run f v

end Algorithm

end ScaleAdvisor
