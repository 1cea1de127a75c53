import ScaleAdvisor.Scheduling.Timeline
import ScaleAdvisor.Simulation.Candidate
import ScaleAdvisor.Simulation.Error
import ScaleAdvisor.Simulation.Progress

/-!
One simulation: a candidate's node is added to a view of its own, a scheduler is let loose on the
view, and its events are read at regular intervals until everything pending has been placed or given
up on. The time limit counts from the moment at which the node is added; waiting for a free slot is
part of it.
-/

namespace ScaleAdvisor

/-- How simulations are run; times are in milliseconds. -/
structure SimulationRules where
  poll : Nat := 20
  timeout : Nat := 5000
  resync : Nat := 50
  /-- The token that stands for the whole run. -/
  outer : TokenId

inductive SimulationStage where
  | pending
  /-- The node is there; a slot is waited for. -/
  | queued (token : TokenId)
  /-- A scheduler is running; its events are read next at `nextPoll`. -/
  | watching (token : TokenId) (loop : LoopId) (progress : SimulationProgress) (nextPoll : Nat)
  | finished (result : Except SimulationError Outcome)

inductive SimulationStatus where
  | pending
  | running
  | success
  | failure
  deriving DecidableEq, Repr

structure Simulation where
  candidate : Candidate
  template : NodeTemplate
  view : ViewId
  /-- What is pending in the view before the node is added. -/
  unscheduled : KeySet WorkloadKey
  stage : SimulationStage := .pending

def SimulationStatus.text : SimulationStatus → String
  | .pending => "pending"
  | .running => "running"
  | .success => "success"
  | .failure => "failure"

namespace Simulation

def name (s : Simulation) : String := s.candidate.name

def placement (s : Simulation) : Placement := s.candidate.placement s.template

/-- The node that is tried out in a pass. -/
def node (s : Simulation) (pass : Nat) : Node := s.candidate.node s.template pass

/-- Set up a simulation. Its template has to be one of the pool's, and something has to be
pending. -/
def create (f : Forest) (c : Candidate) (v : ViewId) : Except SimulationError Simulation :=
  let failed (e : SimulationError) : SimulationError := .createSimulation c.name e
  match c.pool.template? c.template with
  | none => .error (failed (.templateNotFound c.pool.name c.template))
  | some template =>
    match f.pending v with
    | .error e => .error (failed (.view e))
    | .ok [] => .error (failed .noUnscheduledWorkloads)
    | .ok pending => .ok {
        candidate := c
        template
        view := v
        unscheduled := .ofKeys (pending.map (·.key)) }

def status (s : Simulation) : SimulationStatus :=
  match s.stage with
  | .pending => .pending
  | .finished (.ok _) => .success
  | .finished (.error _) => .failure
  | _ => .running

def isFinished (s : Simulation) : Bool :=
  match s.stage with
  | .finished _ => true
  | _ => false

def outcome? (s : Simulation) : Option Outcome :=
  match s.stage with
  | .finished (.ok o) => some o
  | _ => none

def error? (s : Simulation) : Option SimulationError :=
  match s.stage with
  | .finished (.error e) => some e
  | _ => none

/-- End with an error. -/
def fail (s : Simulation) (e : SimulationError) : Simulation :=
  { s with stage := .finished (.error (.runSimulation s.name e)) }

/-- Add the node and set the time limit. -/
def begin (rules : SimulationRules) (pass : Nat) (f : Forest) (t : Timeline) (s : Simulation) :
    Forest × Timeline × Simulation :=
  match f.create s.view (.node (s.node pass)) with
  | .error e => (f, t, s.fail (.view e))
  | .ok (f', _) =>
    let cause := (SimulationError.simulationTimeout s.name).message
    let (tokens, token) :=
      t.tokens.childWithDeadline rules.outer ⟨t.now + rules.timeout, cause⟩
    (f', { t with tokens }, { s with stage := .queued token })

/-- Take a free slot and start a scheduler, unless the time for it is over. -/
def enter (rules : SimulationRules) (token : TokenId) (f : Forest) (t : Timeline) (s : Simulation) :
    Forest × Timeline × Simulation :=
  match t.tokens.cause t.now rules.outer, t.tokens.cause t.now token with
  | some cause, _ => (f, t, s.fail (.cancelled cause))
  | none, some cause => (f, t, s.fail (.launchScheduler (.cancelled cause)))
  | none, none =>
    if t.launcher.freeSlots = 0 then (f, t, s)
    else
      match t.launcher.launch t.tokens t.now s.name s.view token rules.resync f with
      | (f', launcher, .error e) => (f', { t with launcher }, s.fail (.launchScheduler e))
      | (f', launcher, .ok loop) =>
        (f', { t with launcher },
          { s with stage := .watching token loop { unscheduled := s.unscheduled } t.now })

/-- Stop the scheduler, then end as the verdict says. -/
def conclude (pass : Nat) (f : Forest) (s : Simulation) (p : SimulationProgress) :
    Verdict → Simulation
  | .settled =>
    match p.outcome f s.view s.name s.placement (s.node pass) with
    | .ok o => { s with stage := .finished (.ok o) }
    | .error e => s.fail (.view e)
  | .cancelled cause => s.fail (.cancelled cause)
  | .timedOut => s.fail (.simulationTimeout s.name)
  | .waiting => s

/-- Read the new events and judge by them. -/
def look (rules : SimulationRules) (pass : Nat) (token : TokenId) (loop : LoopId)
    (p : SimulationProgress) (nextPoll : Nat) (f : Forest) (t : Timeline) (s : Simulation) :
    Timeline × Simulation :=
  let stopped := { t with launcher := (t.launcher.stop s.name loop).1 }
  match f.eventsFrom s.view p.cursor with
  | .error e => (stopped, s.fail (.view e))
  | .ok events =>
    let p := p.read events
    match p.verdict (t.tokens.cause t.now rules.outer) (t.tokens.deadlineExpired t.now token) with
    | .waiting => (t, { s with stage := .watching token loop p nextPoll })
    | verdict => (stopped, s.conclude pass f p verdict)

/-- Read the events if it is time to: at regular intervals, and when the simulation is cancelled or
its time is over. -/
def watch (rules : SimulationRules) (pass : Nat) (f : Forest) (t : Timeline) (s : Simulation) :
    Timeline × Simulation :=
  match s.stage with
  | .watching token loop p nextPoll =>
    if nextPoll ≤ t.now then s.look rules pass token loop p (nextPoll + rules.poll) f t
    else if t.tokens.isCancelled t.now token then s.look rules pass token loop p nextPoll f t
    else (t, s)
  | _ => (t, s)

/-- All that a simulation that has begun can do at this moment. -/
def advance (rules : SimulationRules) (pass : Nat) (f : Forest) (t : Timeline) (s : Simulation) :
    Forest × Timeline × Simulation :=
  let (f, t, s) := match s.stage with
    | .queued token => s.enter rules token f t
    | _ => (f, t, s)
  (f, s.watch rules pass f t)

/-- The moments at which the simulation acts of its own accord. -/
def moments (tokens : TokenForest) (s : Simulation) : List Nat :=
  match s.stage with
  | .queued token => (tokens.expiry token).toList
  | .watching token _ _ nextPoll => nextPoll :: (tokens.expiry token).toList
  | _ => []

end Simulation

end ScaleAdvisor
