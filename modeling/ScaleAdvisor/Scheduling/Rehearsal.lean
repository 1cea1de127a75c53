import ScaleAdvisor.Scheduling.BinPack

/-!
Algorithms for rehearsing a simulation: schedulers that do nothing, fail, die, dawdle or make no
headway, so that every way in which a run can end is reached on purpose.
-/

namespace ScaleAdvisor.Rehearsal

/-- Does nothing. -/
def idle : Algorithm :=
  ⟨fun m => .done ({ m with cycles := m.cycles + 1 }, .finished 0 0)⟩

/-- Every cycle fails. -/
def failing : Algorithm :=
  ⟨fun m => .done ({ m with cycles := m.cycles + 1 }, .failed (.taskFailed "rehearsal" "failing"))⟩

/-- Dies in its first cycle. -/
def crashing : Algorithm := ⟨fun m => .done (m, .crashed)⟩

/-- Packs, unless a node comes from the template `slow`: then it does nothing. -/
def slowTemplate : Algorithm where
  cycle m := .call .nodes fun
    | .error e => .done (m, .failed (.view e))
    | .ok nodes =>
      if nodes.any fun n => n.label? Label.nodeTemplate == some "slow" then idle.cycle m
      else BinPack.cycle m

/-- The first node, by name, that was made up for a simulation. -/
def simulatedNode? (nodes : List Node) : Option Node := nodes.find? (·.isSimulated)

/-- Binds `default/a` to the simulated node, and nothing else. -/
def bindFirst : Algorithm where
  cycle m := .call .nodes fun
    | .error e => .done (m, .failed (.view e))
    | .ok nodes => .call .workloads fun
      | .error e => .done (m, .failed (.view e))
      | .ok workloads =>
        let k : WorkloadKey := ⟨"default", "a"⟩
        match simulatedNode? nodes, workloads.find? fun w => w.key == k && w.isPending with
        | some n, some _ => (Client.bind k n.name).bind fun
          | .error e => .done (m, .failed (.view e))
          | .ok _ => .done (m, .finished 1 0)
        | _, _ => .done (m, .finished 0 0)

/-- Make reports one after another; the first failure ends the cycle. -/
def reportAll (m : CycleMemory) (counted : Nat) :
    List (WorkloadKey × Option String) → Program (CycleMemory × CycleEnd)
  | [] => .done (m, .finished 0 counted)
  | (k, some node) :: rest =>
    (Program.ask (.record .scheduled k (some node) "already placed")).bind fun
      | .error e => .done (m, .failed (.view e))
      | .ok _ => reportAll m counted rest
  | (k, none) :: rest =>
    (Client.reportUnschedulable k "no fit").bind fun
      | .error e => .done (m, .failed (.view e))
      | .ok _ => reportAll { m with reported := m.reported.add k } (counted + 1) rest

/-- Reports, once, bound workloads as placed on the simulated node and pending ones as fitting
nowhere; binds nothing. -/
def noProgress : Algorithm where
  cycle m := .call .nodes fun
    | .error e => .done (m, .failed (.view e))
    | .ok nodes => .call .workloads fun
      | .error e => .done (m, .failed (.view e))
      | .ok workloads =>
        match simulatedNode? nodes with
        | none => .done (m, .finished 0 0)
        | some n =>
          if !m.reported.isEmpty then .done (m, .finished 0 0)
          else
            let (pending, bound) := workloads.partition (·.isPending)
            reportAll m 0 (bound.map (fun w => (w.key, some n.name)) ++
              pending.map fun w => (w.key, none))

/-- The algorithms by name, the real one among them. -/
def algorithms : List (String × Algorithm) :=
  [("bin_pack", BinPack.algorithm), ("idle", idle), ("failing", failing), ("panicking", crashing),
    ("slow_template", slowTemplate), ("bind_first", bindFirst), ("no_progress", noProgress)]

end ScaleAdvisor.Rehearsal
