import ScaleAdvisor.Proofs.Packing.Carrying

/-!
A scheduler that runs cycle after cycle on one view, while anything may be done to any view from
outside before each cycle. Every cycle accounts for all that it finds pending, and what the
scheduler remembers follows from what it has reported in all its cycles. Nothing is asked of names
or amounts.

* `accounts_of_runCycle`: one cycle;
* `Served.cycles_account`: any number of cycles.
-/

namespace ScaleAdvisor.BinPack

variable {f g : Forest} {v : ViewId}

/-- One cycle: the forest before it and after it, and how it has ended. -/
structure Round where
  before : Forest
  after : Forest
  ended : CycleEnd

/-- The events that the log of a view has got in a round. -/
def Round.emitted (r : Round) (v : ViewId) : List ViewEvent :=
  (r.after.view v).events.toList.drop (r.before.view v).events.size

/-- All that has been reported to a view in some rounds. -/
def emitted (v : ViewId) (rounds : List Round) : List ViewEvent := rounds.flatMap (·.emitted v)

/-- Cycles of one scheduler on a view that is readable whenever a cycle begins. From outside
anything may be done between the cycles. -/
inductive Served (v : ViewId) (f₀ : Forest) : List Round → Forest → CycleMemory → Prop where
  | start : Served v f₀ [] f₀ {}
  | outside {rounds : List Round} {f : Forest} {m : CycleMemory} (served : Served v f₀ rounds f m)
      (move : Move) : Served v f₀ rounds (f.move move) m
  | cycle {rounds : List Round} {f g : Forest} {m m' : CycleMemory} {ended : CycleEnd}
      (served : Served v f₀ rounds f m) (readable : f.Readable v)
      (ran : algorithm.runCycle f v m = (g, m', ended)) :
      Served v f₀ (rounds ++ [⟨f, g, ended⟩]) g m'

/-- What a round does with the workloads that it finds pending, after what has been reported
before. -/
structure Accounts (v : ViewId) (reported : List ViewEvent) (r : Round) (pending : List Workload)
    (outcomes : List Decision) : Prop where
  listed : r.before.pending v = .ok pending
  /-- Each of them gets one outcome, and nobody else gets one. -/
  each : (outcomes.map (·.workload)).Perm (pending.map (·.key))
  once : (pending.map (·.key)).Nodup
  ended : r.ended = .finished (placed outcomes) (leftOver outcomes)
  total : placed outcomes + leftOver outcomes = pending.length
  log : (r.after.view v).events.toList = (r.before.view v).events.toList ++ r.emitted v
  /-- The outcome is what becomes of the workload. -/
  becomes : ∀ w ∈ pending, ∀ target, ⟨w.key, target⟩ ∈ outcomes →
    r.after.workload v w.key = .ok (some (target.elim w w.bindTo))
  /-- The bindings among the outcomes are reported, and no others. -/
  bindings : placements (r.emitted v) = outcomes.filterMap fun d => d.node.map (d.workload, ·)
  bound : placed outcomes = (r.emitted v).countP (·.reason == .scheduled)
  failures : ∀ e ∈ r.emitted v, ∀ k, e.givesUpOn k = true → ⟨k, none⟩ ∈ outcomes
  settled : ∀ w ∈ pending, (∃ e ∈ r.emitted v, e.binds w.key = true) ∨
    Standing w.key (reported ++ r.emitted v)

theorem placed_add_leftOver (ds : List Decision) : placed ds + leftOver ds = ds.length := by
  induction ds with
  | nil => rfl
  | cons d rest ih =>
    obtain ⟨k, _ | node⟩ := d
    · obtain ⟨same, one⟩ := count_leave k rest
      rw [same, one, ← Nat.add_assoc, ih, List.length_cons]
    · obtain ⟨one, same⟩ := count_place k node rest
      rw [one, same, Nat.add_right_comm, ih, List.length_cons]

/-- A round accounts for all that it finds pending, and the scheduler's memory goes on following
from its reports. -/
theorem accounts_of_runCycle {m m' : CycleMemory} {ended : CycleEnd} {reported : List ViewEvent}
    (valid : f.Valid) (readable : f.Readable v) (recalls : Recalls m.reported reported)
    (ran : algorithm.runCycle f v m = (g, m', ended)) :
    g.Valid ∧ Recalls m'.reported (reported ++ Round.emitted ⟨f, g, ended⟩ v) ∧
      ∃ pending outcomes, Accounts v reported ⟨f, g, ended⟩ pending outcomes := by
  obtain ⟨g', memory, es, run, touches, valid', here, -, log, tells⟩ :=
    runCycle_performs valid readable m
  rw [ran] at run
  simp only [Prod.mk.injEq] at run
  obtain ⟨rfl, rfl, rfl⟩ := run
  have news (ended : CycleEnd) : Round.emitted ⟨f, g, ended⟩ v = es := by
    rw [Round.emitted, log, ← Array.length_toList, List.drop_left]
  have keyed := Forest.keyed_cluster valid (v := v)
  have recalls' := tells.recalls recalls
  have decided : ((f.cluster v).decisions.map (·.workload)).Perm
      (((f.cluster v).workloads.filter (·.isPending)).map (·.key)) := by
    rw [Cluster.decisions, decisions, map_workload_decideAll]
    exact (perm_ranked _ _).map _
  rw [news]
  refine ⟨valid', recalls', (f.cluster v).workloads.filter (·.isPending),
    (f.cluster v).decisions, ?_⟩
  constructor
  case listed => exact Forest.pending_eq valid readable
  case each => exact decided
  case once => exact decided.nodup_iff.mp (ready_decisions keyed).once
  case ended => rfl
  case total =>
    rw [placed_add_leftOver]
    simpa using decided.length_eq
  case log => rw [news, log]
  case becomes =>
    intro w hw target hd
    have kept := (ready_decisions keyed).settled keyed (List.mem_filter.mp hw).1 hd
    rw [← here] at kept
    have found := Cluster.workload?_eq_some (Forest.keyed_cluster valid') kept
    rw [Forest.workload_eq (touches.readable readable), ← found]
    cases target <;> rfl
  case bindings => rw [news, tells.placements_eq]
  case bound => rw [news, tells.countP_scheduled]
  case failures =>
    rw [news]
    exact fun e he k up => tells.left_of_givesUpOn he up
  case settled =>
    intro w hw
    obtain ⟨d, hd, key⟩ := List.mem_map.mp (decided.mem_iff.mpr (List.mem_map_of_mem hw))
    rw [news, ← key, ← recalls'.standing]
    exact tells.bound_or_remembered d hd

/-- One core for two workloads, of which one asks for four. -/
def oneTooLarge : Snapshot where
  nodes := [{ name := "small", capacity := .ofCoresAndGib 1 4, allocatable := .ofCoresAndGib 1 4 }]
  workloads := [
    { inNamespace := "default", name := "large", requests := .ofCoresAndGib 4 1 },
    { inNamespace := "default", name := "web", requests := .ofCoresAndGib 1 1 }]

def oneCore : Forest := .replay ∅ [.base "base", .ask 0 (.load oneTooLarge)]

/-- The workload that may have been bound is made pending. -/
def unbindWeb : Operation :=
  .edit (.update (.workload {
    inNamespace := "default", name := "web", requests := .ofCoresAndGib 1 1 }))

end ScaleAdvisor.BinPack
