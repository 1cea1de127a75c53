import Mathlib.Data.List.Perm.Basic
import ScaleAdvisor.Proofs.Catalog.Totals
import ScaleAdvisor.Proofs.Simulation.Outcome
import ScaleAdvisor.Simulation.Run

/-!
From the log of a view to the result of a simulation. However often a simulation looks at its log
while the log grows, it reads every event once and in its place. The first event that names a node
for a workload counts, and the result lists every workload that has a node once, with that node.

* `find_placements`: who counts as placed, and where;
* `spread_gather`: gathering workloads by their nodes loses none and doubles none;
* `Watched.result_follows_log`: what a simulation knows and what its result says, after any looks at
  any log.
-/

namespace ScaleAdvisor

/-- The event names a node for this workload. -/
def ViewEvent.places (e : ViewEvent) (k : WorkloadKey) : Bool :=
  e.reason == .scheduled && e.workload == k && e.nodeName.isSome

theorem ViewEvent.placement?_of_places {e : ViewEvent} {k : WorkloadKey}
    (places : e.places k = true) : ∃ node, e.nodeName = some node ∧
    e.placement? = some (k, node) := by
  simp only [ViewEvent.places, Bool.and_eq_true, beq_iff_eq, Option.isSome_iff_exists] at places
  obtain ⟨⟨reason, rfl⟩, node, named⟩ := places
  exact ⟨node, named, by simp [placement?, reason, named]⟩

theorem ViewEvent.places_of_placement? {e : ViewEvent} {k : WorkloadKey} {node : String}
    (placed : e.placement? = some (k, node)) : e.places k = true := by
  simp only [placement?] at placed
  split at placed
  · rename_i reason named
    obtain ⟨rfl, rfl⟩ := Prod.mk.inj (Option.some.inj placed)
    simp [places, reason, named]
  · simp at placed

/-- The first event that names a node for a workload is the one that counts. -/
theorem find_placements (log : List ViewEvent) (k : WorkloadKey) :
    SortedMap.find k (placements log) = (log.find? (·.places k)).bind (·.nodeName) := by
  induction log with
  | nil => rfl
  | cons e rest ih =>
    rw [SimulationProgress.placements_cons, SimulationProgress.find_append, ih, List.find?_cons]
    cases places : e.places k with
    | true =>
      obtain ⟨node, named, placed⟩ := ViewEvent.placement?_of_places places
      simp [placed, SortedMap.find, named]
    | false =>
      have other : SortedMap.find k e.placement?.toList = none := by
        cases placed : e.placement? with
        | none => rfl
        | some at_ =>
          obtain ⟨k', node⟩ := at_
          have apart : k ≠ k' := by
            rintro rfl
            rw [ViewEvent.places_of_placement? placed] at places
            cases places
          simp [SortedMap.find, apart]
      simp [other]

/-- The added node first, then the others. -/
def Outcome.assignments (o : Outcome) : List NodeAssignment := o.scaled :: o.others

theorem Outcome.carried_eq (o : Outcome) : o.carried = o.assignments.flatMap (·.workloads) := rfl

namespace Forest

variable {f : Forest} {v : ViewId}

/-- Only a readable view can be listed. -/
theorem readable_of_runtimeClasses {classes : List RuntimeClass}
    (read : f.runtimeClasses v = .ok classes) : f.Readable v := by
  rw [runtimeClasses, objects, list] at read
  split at read
  · cases read
  · rename_i nothingClosed
    intro u hu
    have opened := List.find?_eq_none.mp nothingClosed (f.view u)
      (by rw [stack_eq]; exact List.mem_map_of_mem hu)
    simpa using opened

theorem events_of_eventsFrom {cursor : Nat} {events : List ViewEvent}
    (news : f.eventsFrom v cursor = .ok events) :
    events = (f.view v).events.toList.drop cursor := by
  rw [eventsFrom, whileOpen] at news
  split at news
  · cases news
  · exact (Except.ok.inj news).symm

end Forest

namespace SimulationProgress

/-- Workloads with their requests, each with the node that it is listed under. -/
def spread (byNode : Assignments) : List ((WorkloadKey × Resources) × String) :=
  byNode.entries.flatMap fun e => e.2.map (·, e.1)

section

variable {byNode : Assignments} {node : String} {C : Cluster} {placed : List (WorkloadKey × String)}

theorem spread_erase (byNode : Assignments) (node : String) :
    (spread byNode).Perm ((byNode.getD node []).map (·, node) ++ spread (byNode.erase node)) := by
  cases held : byNode.get? node with
  | none =>
    rw [SortedMap.erase_of_free held, SortedMap.getD, held]
    exact .refl _
  | some workloads =>
    rw [SortedMap.getD, held]
    exact (SortedMap.perm_erase held).flatMap_right _

theorem spread_insert (byNode : Assignments) (node : String)
    (workloads : List (WorkloadKey × Resources)) : (spread (byNode.insert node workloads)).Perm
      (workloads.map (·, node) ++ spread (byNode.erase node)) := by
  have split := spread_erase (byNode.insert node workloads) node
  rwa [SortedMap.erase_insert, SortedMap.getD, SortedMap.get?_insert_self] at split

/-- Gathering loses no workload and doubles none. -/
theorem spread_gather (C : Cluster) (placed : List (WorkloadKey × String)) :
    (spread (gather C placed)).Perm (placed.map fun e => ((e.1, requestsOver C e.1), e.2)) := by
  have collected (byNode : Assignments) :
      (spread (placed.foldl (fun byNode e =>
        byNode.insert e.2 (byNode.getD e.2 [] ++ [(e.1, requestsOver C e.1)])) byNode)).Perm
      (spread byNode ++ placed.map fun e => ((e.1, requestsOver C e.1), e.2)) := by
    induction placed generalizing byNode with
    | nil => simp
    | cons head rest ih =>
      obtain ⟨k, node⟩ := head
      rw [List.foldl_cons, List.map_cons]
      refine (ih _).trans ?_
      have inserted :
        (spread (byNode.insert node (byNode.getD node [] ++ [(k, requestsOver C k)]))).Perm
          (((k, requestsOver C k), node) :: spread byNode) := by
        refine (spread_insert byNode node _).trans ?_
        rw [List.map_append, List.append_assoc]
        exact List.perm_middle.trans ((spread_erase byNode node).symm.cons _)
      exact (inserted.append_right _).trans List.perm_middle.symm
  exact collected ∅

theorem gather_ne_nil {workloads : List (WorkloadKey × Resources)}
    (held : (gather C placed).get? node = some workloads) : workloads ≠ [] := by
  have collected (placed : List (WorkloadKey × String)) (byNode : Assignments)
      (nonempty : ∀ node ws, byNode.get? node = some ws → ws ≠ []) :
      ∀ node ws, (placed.foldl (fun byNode e =>
        byNode.insert e.2 (byNode.getD e.2 [] ++ [(e.1, requestsOver C e.1)])) byNode).get?
          node = some ws →
        ws ≠ [] := by
    induction placed generalizing byNode with
    | nil => exact nonempty
    | cons head rest ih =>
      refine ih _ fun node ws found => ?_
      rw [SortedMap.get?_insert] at found
      split at found
      · rw [← Option.some.inj found]
        exact List.append_ne_nil_of_right_ne_nil _ (List.cons_ne_nil _ _)
      · exact nonempty node ws found
  exact collected placed ∅ (by simp) node workloads held

end

/-- The placed workloads that are still in a view. -/
def found (p : SimulationProgress) (f : Forest) (v : ViewId) : List Workload :=
  p.scheduled.keys.filterMap fun k => (f.workload v k).toOption.join

/-- What an outcome says of the log that has been read and of the view that it has been made
from. -/
structure ToldBy (p : SimulationProgress) (f : Forest) (v : ViewId) (node : Node) (o : Outcome) :
    Prop where
  /-- Every placed workload is in one assignment, and that is for its node. -/
  placed : (o.assignments.flatMap fun a => a.workloads.map fun w => (w.1, a.nodeName)).Perm
    p.scheduled.entries
  scaled : o.scaled.nodeName = node.name
  apart : ∀ a ∈ o.others, a.nodeName ≠ node.name
  nonempty : ∀ a ∈ o.others, a.workloads ≠ []
  ascending : o.others.Pairwise fun a b => a.nodeName < b.nodeName
  unscheduled : o.unscheduled = p.unscheduled.keys
  bound : o.boundWorkloads = p.scheduled.size
  /-- Placed workloads ask for what they ask for in the view, and for nothing if they are gone; what
  they ask for in all is added up in words. -/
  requests : ∃ classes, f.runtimeClasses v = .ok classes ∧ ∀ name,
    o.load name = ((p.found f v).map fun w => (w.effectiveRequests classes).get name).sum ∧
    o.aggregated.get name = wrap64 (o.load name)

variable {p : SimulationProgress} {f : Forest} {v : ViewId} {C : Cluster} {name : String}
  {placement : Placement} {node : Node}

theorem assignments_perm (p : SimulationProgress) (C : Cluster) (name : String)
    (placement : Placement) (node : Node) :
    ((p.outcomeOver C name placement node).assignments.flatMap fun a =>
      a.workloads.map (·, a.nodeName)).Perm
    (p.scheduled.entries.map fun e => ((e.1, requestsOver C e.1), e.2)) := by
  have split := spread_erase (gather C p.scheduled.entries) node.name
  refine List.Perm.trans (.of_eq ?_) (split.symm.trans (spread_gather C _))
  rw [Outcome.assignments, outcomeOver, List.flatMap_cons, List.flatMap_map, spread]

theorem carried_perm : (p.outcomeOver C name placement node).carried.Perm
    (p.scheduled.keys.map fun k => (k, requestsOver C k)) := by
  have listed := (assignments_perm p C name placement node).map (·.1)
  rw [List.map_flatMap, List.map_map] at listed
  rw [SortedMap.keys, List.map_map, Outcome.carried_eq]
  simpa [Function.comp_def] using listed

theorem toldBy_outcomeOver (valid : f.Valid) (readable : f.Readable v) :
    ToldBy p f v node (p.outcomeOver (f.cluster v) name placement node) := by
  have others : ∀ a ∈ (p.outcomeOver (f.cluster v) name placement node).others,
      ((gather (f.cluster v) p.scheduled.entries).erase node.name).get? a.nodeName =
        some a.workloads := by
    intro a listed
    obtain ⟨e, he, rfl⟩ := List.mem_map.mp listed
    exact (SortedMap.mem_entries_iff _).mp he
  constructor
  case scaled => rfl
  case unscheduled => rfl
  case placed =>
    have listed := (assignments_perm p (f.cluster v) name placement node).map fun x => (x.1.1, x.2)
    rw [List.map_flatMap, List.map_map] at listed
    simpa [Function.comp_def] using listed
  case apart =>
    intro a listed same
    have held := others a listed
    rw [same, SortedMap.get?_erase] at held
    simp at held
  case nonempty =>
    intro a listed
    have held := others a listed
    rw [SortedMap.get?_erase] at held
    split at held
    · cases held
    · exact gather_ne_nil held
  case ascending =>
    have sorted := ((gather (f.cluster v) p.scheduled.entries).erase node.name).sorted
    exact List.pairwise_map.mpr (sorted.imp fun before => of_decide_eq_true before)
  case bound =>
    rw [Outcome.boundWorkloads_eq, Outcome.assigned, List.length_map, ← Outcome.carried,
      carried_perm.length_eq, List.length_map, SortedMap.keys, List.length_map, SortedMap.size]
  case requests =>
    refine ⟨_, Forest.runtimeClasses_eq valid readable, fun resource =>
      ⟨?_, Outcome.get_aggregated _ resource⟩⟩
    rw [Outcome.load, (carried_perm.map _).sum_eq, List.map_map, found, List.map_filterMap,
      sum_filterMap]
    refine congrArg List.sum (List.map_congr_left fun k _ => ?_)
    rw [Forest.workload_eq readable]
    simp only [Function.comp_apply, requestsOver]
    cases (f.cluster v).workload? k with
    | none => rfl
    | some w => rfl

/-- Whatever outcome there is, it is this one. -/
theorem toldBy_of_outcome {o : Outcome} (valid : f.Valid)
    (reached : p.outcome f v name placement node = .ok o) : ToldBy p f v node o := by
  have readable : f.Readable v := by
    rw [outcome] at reached
    cases classes : f.runtimeClasses v with
    | error e =>
      rw [classes] at reached
      cases reached
    | ok _ => exact Forest.readable_of_runtimeClasses classes
  rw [outcome_eq valid readable] at reached
  obtain rfl := Except.ok.inj reached
  exact toldBy_outcomeOver valid readable

end SimulationProgress

namespace Simulation

variable {rules : SimulationRules} {pass : Nat} {s s' : Simulation} {f g : Forest} {t : Timeline}
  {token : TokenId} {loop : LoopId} {p : SimulationProgress} {nextPoll : Nat}
  {log events : List ViewEvent} {reads : List (List ViewEvent)}

/-- Events that have been read are taken in, and an outcome is made from what is known then. -/
theorem look_of_events (news : f.eventsFrom s.view p.cursor = .ok events) :
    ∃ stage, (s.look rules pass token loop p nextPoll f t).2 = { s with stage } ∧
      ∀ o, stage = .finished (.ok o) →
        (p.read events).outcome f s.view s.name s.placement (s.node pass) = .ok o := by
  rw [look, news]
  dsimp only
  split
  · exact ⟨_, rfl, by simp⟩
  · rename_i judged
    cases verdict : (p.read events).verdict (t.tokens.cause t.now rules.outer)
      (t.tokens.deadlineExpired t.now token) with
    | waiting => exact absurd verdict judged
    | cancelled cause => exact ⟨_, rfl, by simp⟩
    | timedOut => exact ⟨_, rfl, by simp⟩
    | settled =>
      rw [conclude]
      split
      · rename_i o reached
        refine ⟨_, rfl, fun o' same => ?_⟩
        rw [reached, Except.ok.inj (SimulationStage.finished.inj same)]
      · exact ⟨_, rfl, by simp⟩

/-- A simulation that looks again and again at its log, which may have grown from one look to the
next. Here are the log that the last look has found, what each look has read, what is known from it,
the forest of the last look and the simulation after it. -/
inductive Watched (rules : SimulationRules) (pass : Nat) (s : Simulation) :
    List ViewEvent → List (List ViewEvent) → SimulationProgress → Forest → Simulation → Prop
  | entered {f : Forest} {token : TokenId} {loop : LoopId} {nextPoll : Nat} :
    Watched rules pass s [] [] { unscheduled := s.unscheduled } f
      { s with stage := .watching token loop { unscheduled := s.unscheduled } nextPoll }
  | looked {log more events : List ViewEvent} {reads : List (List ViewEvent)}
      {p : SimulationProgress} {f g : Forest} {s' : Simulation} {token : TokenId} {loop : LoopId}
      {due nextPoll : Nat} {t : Timeline} (before : Watched rules pass s log reads p f s')
      (stage : s'.stage = .watching token loop p due)
      (grown : (g.view s'.view).events.toList = log ++ more)
      (news : g.eventsFrom s'.view p.cursor = .ok events) :
    Watched rules pass s (log ++ more) (reads ++ [events]) (p.read events) g
      (s'.look rules pass token loop p nextPoll g t).2

theorem Watched.read (watched : Watched rules pass s log reads p f s') :
    p = ({ unscheduled := s.unscheduled } : SimulationProgress).read log ∧ reads.flatten = log := by
  induction watched with
  | entered => exact ⟨rfl, rfl⟩
  | @looked log more events _ _ _ g s' _ _ _ _ _ _ _ grown news ih =>
    obtain ⟨rfl, flat⟩ := ih
    have rest : events = more := by
      rw [Forest.events_of_eventsFrom news, grown, SimulationProgress.cursor_read, Nat.zero_add,
        List.drop_left]
    subst rest
    exact ⟨(SimulationProgress.read_append _ _ _).symm, by simp [flat]⟩

theorem Watched.stays (watched : Watched rules pass s log reads p f s') :
    ∃ stage, s' = { s with stage } ∧ ∀ o, stage = .finished (.ok o) →
      p.outcome f s.view s.name s.placement (s.node pass) = .ok o := by
  induction watched with
  | entered => exact ⟨_, rfl, by simp⟩
  | looked _ _ _ news ih =>
    obtain ⟨stage, rfl, -⟩ := ih
    exact look_of_events news

/-- One view without objects, with this log. -/
def viewWithLog (log : List ViewEvent) : Forest where
  views := #[{ name := "trial", lineage := 0, events := log.toArray }]
  issued := #[0]

theorem valid_viewWithLog (log : List ViewEvent) : (viewWithLog log).Valid := by
  have bare (v : ViewId) :
      ((viewWithLog log).view v).below = [] ∧ ((viewWithLog log).view v).edits = ∅ := by
    cases v with
    | zero => exact ⟨rfl, rfl⟩
    | succ v => exact ⟨rfl, rfl⟩
  constructor
  · intro v u rest lower
    rw [(bare v).1] at lower
    cases lower
  · intro v k st held
    rw [(bare v).2] at held
    cases held

/-- A web server and a job are looked for. -/
def webAndJob : Simulation where
  candidate := { pool := { name := "pool", region := "here", zones := ["a"], templates := [] }
                 template := "large", zone := "a" }
  template := { name := "large", instanceType := "large", capacity := .ofCoresAndGib 4 8 }
  view := 0
  unscheduled := .ofKeys [⟨"default", "job"⟩, ⟨"default", "web"⟩]

/-- A binding without a node, and one to a node. -/
def earlyEvents : List ViewEvent :=
  [⟨0, .scheduled, ⟨"default", "web"⟩, none, "", 0⟩,
    ⟨1, .scheduled, ⟨"default", "web"⟩, some "old", "", 0⟩]

/-- A second binding, one of a workload that nobody looks for, and a job that fits nowhere. -/
def lateEvents : List ViewEvent :=
  [⟨2, .scheduled, ⟨"default", "web"⟩, some "new", "", 0⟩,
    ⟨3, .scheduled, ⟨"default", "stray"⟩, some (webAndJob.node 1).name, "", 0⟩,
    ⟨4, .failedScheduling, ⟨"default", "job"⟩, none, "", 0⟩]

def idleClock : Timeline := { launcher := .ofCapacity BinPack.algorithm 1 }

/-- A look at this log, in the first pass and with time to spare. -/
def lookAt (log : List ViewEvent) (p : SimulationProgress) (s : Simulation) : Simulation :=
  (s.look { outer := 0 } 1 0 0 p 20 (viewWithLog log) idleClock).2

end Simulation

end ScaleAdvisor
