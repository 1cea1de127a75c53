import ScaleAdvisor.Simulation.Run

/-!
Running simulations side by side. They share the clock and the launcher's slots; slots go to them in
their order. All of them begin at one moment, so none lives longer than one time limit.
-/

namespace ScaleAdvisor.Simulation

/-- Let each simulation that has not begun begin. -/
def beginEach (rules : SimulationRules) (pass : Nat) (f : Forest) (t : Timeline) :
    List Simulation → Forest × Timeline × List Simulation
  | [] => (f, t, [])
  | s :: rest =>
    let (f, t, s) := match s.stage with
      | .pending => s.begin rules pass f t
      | _ => (f, t, s)
    let (f, t, rest) := beginEach rules pass f t rest
    (f, t, s :: rest)

/-- Let each simulation do what it can at this moment. -/
def advanceEach (rules : SimulationRules) (pass : Nat) (f : Forest) (t : Timeline) :
    List Simulation → Forest × Timeline × List Simulation
  | [] => (f, t, [])
  | s :: rest =>
    let (f, t, s) := s.advance rules pass f t
    let (f, t, rest) := advanceEach rules pass f t rest
    (f, t, s :: rest)

/-- Go from moment to moment, from `now` to `limit`, until all are finished. -/
def runUntil (rules : SimulationRules) (pass limit now : Nat) (f : Forest) (t : Timeline)
    (sims : List Simulation) : Forest × Timeline × List Simulation :=
  let (f, t) := { t with now }.settle f
  let (f, t, sims) := advanceEach rules pass f t sims
  if sims.all (·.isFinished) then (f, t, sims)
  else
    match Moment.firstAfter now (t.moments ++ sims.flatMap (·.moments t.tokens)) with
    | some next =>
      if _h : now < next ∧ next ≤ limit then runUntil rules pass limit next f t sims
      else (f, t, sims)
    | none => (f, t, sims)
termination_by limit - now
decreasing_by omega

/-- Run simulations to their ends. -/
def runAll (rules : SimulationRules) (pass : Nat) (f : Forest) (t : Timeline)
    (sims : List Simulation) : Forest × Timeline × List Simulation :=
  let (f, t, sims) := beginEach rules pass f t sims
  runUntil rules pass (t.now + rules.timeout) t.now f t sims

end ScaleAdvisor.Simulation
