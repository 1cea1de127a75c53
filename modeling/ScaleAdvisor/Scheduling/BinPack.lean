import ScaleAdvisor.Scheduling.Algorithm

/-!
Bin packing. A cycle lists the view once, ranks the pending workloads by priority, and gives each in
turn the node that ends up fullest among those it fits on; a workload that fits nowhere is reported
once. The decisions depend on the listing alone, and carrying them out comes after.

* `decideAll` is the list of decisions for ranked workloads;
* `enact` carries decisions out, one write at a time.
-/

namespace ScaleAdvisor.BinPack

/-- What the bound workloads of each node ask for. -/
abbrev Usage := SortedMap String Resources

def Usage.at (u : Usage) (node : String) : Resources := SortedMap.getD u node ∅

def Usage.charge (u : Usage) (node : String) (requests : Resources) : Usage :=
  SortedMap.insert u node ((Usage.at u node).add requests)

/-- The usage by workloads that are bound. -/
def usageOf (classes : List RuntimeClass) (workloads : List Workload) : Usage :=
  workloads.foldl (fun u w =>
    match w.nodeName with
    | some node => if w.isPending then u else Usage.charge u node (w.effectiveRequests classes)
    | none => u) ∅

/-- Urgent workloads first, then by key. -/
def rank (classes : List PriorityClass) (w : Workload) : Int × WorkloadKey :=
  (-(w.effectivePriority classes), w.key)

def ranked (classes : List PriorityClass) (workloads : List Workload) : List Workload :=
  (workloads.filter (·.isPending)).mergeSort fun a b =>
    !KeyOrder.before (rank classes b) (rank classes a)

/-- Mean share of cpu and memory in use, over those of the two that the node has; zero when it has
neither. -/
def utilization (n : Node) (used : Resources) : Float :=
  let shares := [Resources.cpu, Resources.memory].filterMap fun name =>
    if 0 < n.allocatable.get name then
      some (Float.ofInt (used.get name) / Float.ofInt (n.allocatable.get name))
    else none
  match shares with
  | [] => 0
  | shares => shares.foldl (· + ·) 0 / Float.ofNat shares.length

/-- The node takes new workloads, carries the labels asked for, and its taints are tolerated. -/
def admits (w : Workload) (n : Node) : Bool :=
  !n.unschedulable && w.selects n && w.toleratesAll n.taints

/-- What is free on a node covers the requests. -/
def hasRoom (u : Usage) (requests : Resources) (n : Node) : Bool :=
  (n.allocatable.minus (Usage.at u n.name)).covers requests

def fits (u : Usage) (w : Workload) (requests : Resources) (n : Node) : Bool :=
  admits w n && hasRoom u requests n

/-- The fuller of two nodes; of two equally full the one whose name comes first. -/
def fuller (a b : Float × Node) : Float × Node :=
  if a.1 < b.1 then b
  else if b.1 < a.1 then a
  else if b.2.name < a.2.name then b else a

/-- The node to take, of those that fit. -/
def choose (u : Usage) (w : Workload) (requests : Resources) (nodes : List Node) : Option Node :=
  let candidates := (nodes.filter (fits u w requests)).map fun n =>
    (utilization n ((Usage.at u n.name).add requests), n)
  match candidates with
  | [] => none
  | first :: rest => some (rest.foldl fuller first).2

/-- Where a workload goes, or that it fits nowhere. -/
structure Decision where
  workload : WorkloadKey
  node : Option String
  deriving DecidableEq

/-- Decide on ranked workloads, each after those before it. -/
def decideAll (nodes : List Node) (classes : List RuntimeClass) :
    Usage → List Workload → List Decision
  | _, [] => []
  | u, w :: rest =>
    let requests := w.effectiveRequests classes
    match choose u w requests nodes with
    | some n => ⟨w.key, some n.name⟩ ::
        decideAll nodes classes (Usage.charge u n.name requests) rest
    | none => ⟨w.key, none⟩ :: decideAll nodes classes u rest

/-- The decisions for everything pending in a listing. -/
def decisions (nodes : List Node) (workloads : List Workload) (priorities : List PriorityClass)
    (runtimes : List RuntimeClass) : List Decision :=
  decideAll nodes runtimes (usageOf runtimes workloads) (ranked priorities workloads)

def unschedulableMessage (nodeCount : Nat) (k : WorkloadKey) : String :=
  "0/" ++ toString nodeCount ++ " nodes are available for " ++ k.text

/-- Carry decisions out, counting on from `bound` and `unschedulable`. -/
def enact (nodeCount : Nat) (m : CycleMemory) (bound unschedulable : Nat) :
    List Decision → Program (CycleMemory × CycleEnd)
  | [] => .done (m, .finished bound unschedulable)
  | ⟨k, some node⟩ :: rest =>
    (Client.bind k node).bind fun
      | .error e => .done (m, .failed (.view e))
      | .ok _ =>
        enact nodeCount { m with reported := m.reported.erase k } (bound + 1) unschedulable rest
  | ⟨k, none⟩ :: rest =>
    if m.reported.has k then enact nodeCount m bound (unschedulable + 1) rest
    else
      let m := { m with reported := m.reported.add k }
      (Client.reportUnschedulable k (unschedulableMessage nodeCount k)).bind fun
        | .error e => .done (m, .failed (.view e))
        | .ok _ => enact nodeCount m bound (unschedulable + 1) rest

/-- One cycle: list, decide, carry out. -/
def cycle (memory : CycleMemory) : Program (CycleMemory × CycleEnd) :=
  let m := { memory with cycles := memory.cycles + 1 }
  .call .nodes fun
    | .error e => .done (m, .failed (.view e))
    | .ok nodes => .call .workloads fun
      | .error e => .done (m, .failed (.view e))
      | .ok workloads => .call .priorityClasses fun
        | .error e => .done (m, .failed (.view e))
        | .ok priorities => .call .runtimeClasses fun
          | .error e => .done (m, .failed (.view e))
          | .ok runtimes =>
            enact nodes.length m 0 0 (decisions nodes workloads priorities runtimes)

def algorithm : Algorithm := ⟨cycle⟩

end ScaleAdvisor.BinPack
