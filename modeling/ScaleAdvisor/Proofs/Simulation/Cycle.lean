import ScaleAdvisor.Proofs.Simulation.Log
import ScaleAdvisor.Proofs.View.Writing

/-!
A packing scheduler, call by call. Between two calls it is in the middle of its first cycle, with
some decisions carried out and reported and the rest to come, or it is past it, and then it only
reads.

* `Cycling.start`: a scheduler begins before its first decision;
* `Cycling.Advances`, `Cycling.call`: what one call does to the scheduler, to the objects of its
  view and to the log;
* `Cycling.again`: a further cycle finds nothing to decide anew;
* `Cycling.whole`: a scheduler between two cycles has carried out every decision of the first.
-/

namespace ScaleAdvisor.BinPack

/-- What the event about a decision reports. -/
def Decision.report (d : Decision) : EventReason × WorkloadKey × Option String :=
  match d.node with
  | some node => (.scheduled, d.workload, some node)
  | none => (.failedScheduling, d.workload, none)

/-- Having made some reading calls, all answered from a cluster, one program goes on as another. -/
inductive ReadsTo {α : Type} (C : Cluster) : Program α → Program α → Prop where
  | here (p : Program α) : ReadsTo C p p
  | nodes {next : Call.nodes.Answer → Program α} {q : Program α}
      (rest : ReadsTo C (next (.ok C.nodes)) q) : ReadsTo C (.call .nodes next) q
  | workloads {next : Call.workloads.Answer → Program α} {q : Program α}
      (rest : ReadsTo C (next (.ok C.workloads)) q) : ReadsTo C (.call .workloads next) q
  | priorityClasses {next : Call.priorityClasses.Answer → Program α} {q : Program α}
      (rest : ReadsTo C (next (.ok C.priorityClasses)) q) :
      ReadsTo C (.call .priorityClasses next) q
  | runtimeClasses {next : Call.runtimeClasses.Answer → Program α} {q : Program α}
      (rest : ReadsTo C (next (.ok C.runtimeClasses)) q) : ReadsTo C (.call .runtimeClasses next) q

variable {f : Forest} {v : ViewId}

theorem ReadsTo.call {α : Type} (valid : f.Valid) (readable : f.Readable v) {c : Call}
    {next : c.Answer → Program α} {q : Program α} (h : ReadsTo (f.cluster v) (.call c next) q) :
    q = .call c next ∨
      ((c.perform f v).1 = f ∧ ReadsTo (f.cluster v) (next (c.perform f v).2) q) := by
  cases h with
  | here => exact .inl rfl
  | @nodes next _ rest =>
    refine .inr ⟨rfl, ?_⟩
    change ReadsTo _ (next (f.nodes v)) q
    rw [Forest.nodes_eq valid readable]
    exact rest
  | @workloads next _ rest =>
    refine .inr ⟨rfl, ?_⟩
    change ReadsTo _ (next (f.workloads v)) q
    rw [Forest.workloads_eq valid readable]
    exact rest
  | @priorityClasses next _ rest =>
    refine .inr ⟨rfl, ?_⟩
    change ReadsTo _ (next (f.priorityClasses v)) q
    rw [Forest.priorityClasses_eq valid readable]
    exact rest
  | @runtimeClasses next _ rest =>
    refine .inr ⟨rfl, ?_⟩
    change ReadsTo _ (next (f.runtimeClasses v)) q
    rw [Forest.runtimeClasses_eq valid readable]
    exact rest

/-- A cycle reads everything, then carries its decisions out. -/
theorem readsTo_cycle (C : Cluster) (m : CycleMemory) :
    ReadsTo C (cycle m) (enact C.nodes.length { m with cycles := m.cycles + 1 } 0 0 C.decisions) :=
  .nodes (.workloads (.priorityClasses (.runtimeClasses (.here _))))

variable {n : Nat} {m : CycleMemory} {bound unschedulable : Nat} {k : WorkloadKey} {node : String}
  {todo : List Decision}

/-- A binding has been made; it is to be reported, then the rest is to be carried out. -/
def afterBind (n : Nat) (m : CycleMemory) (bound unschedulable : Nat) (k : WorkloadKey)
    (node : String) (todo : List Decision) : Program (CycleMemory × CycleEnd) :=
  .call (.record .scheduled k (some node) (Client.assignedMessage k node)) fun
    | .error e => .done (m, .failed (.view e))
    | .ok _ => enact n { m with reported := m.reported.erase k } (bound + 1) unschedulable todo

theorem enact_place :
    enact n m bound unschedulable (⟨k, some node⟩ :: todo) = .call (.bind k node) fun
      | .error e => .done (m, .failed (.view e))
      | .ok _ => afterBind n m bound unschedulable k node todo := by
  simp only [enact, Client.bind, Program.bind]
  congr 1
  funext answer
  cases answer with
  | error e => rfl
  | ok version =>
    simp only [Program.bind, afterBind]
    congr 1
    funext recorded
    cases recorded <;> rfl

theorem enact_leave (unknown : m.reported.has k = false) :
    enact n m bound unschedulable (⟨k, none⟩ :: todo) =
      .call (.record .failedScheduling k none (unschedulableMessage n k)) fun
        | .error e => .done ({ m with reported := m.reported.add k }, .failed (.view e))
        | .ok _ =>
          enact n { m with reported := m.reported.add k } bound (unschedulable + 1) todo := by
  simp only [enact, unknown, Bool.false_eq_true, if_false, Client.reportUnschedulable, Program.ask,
    Program.bind]
  congr 1
  funext answer
  cases answer <;> rfl

/-- Decisions to leave what has been reported already need no call. -/
theorem enact_known (known : ∀ d ∈ todo, d.node = none ∧ m.reported.has d.workload = true) :
    enact n m bound unschedulable todo = .done
      (m, .finished bound (unschedulable + todo.length)) := by
  induction todo generalizing unschedulable with
  | nil => rfl
  | cons d rest ih =>
    obtain ⟨k, node⟩ := d
    obtain ⟨rfl, reported⟩ := known ⟨k, node⟩ (by simp)
    rw [enact, if_pos reported, ih fun d hd => known d (by simp [hd]), List.length_cons]
    congr 3
    omega

/-- A scheduler that began over the cluster `C₀`: what it is about to do, what its view has come to
stand for, and the decisions of its first cycle that it has reported. -/
inductive Cycling (C₀ : Cluster) :
    Program (CycleMemory × CycleEnd) → Cluster → List Decision → Prop where
  | enacting {scheduler : Program (CycleMemory × CycleEnd)} {reported : List Decision}
      {d : Decision} {todo : List Decision} {n bound unschedulable : Nat} {m : CycleMemory}
      (split : C₀.decisions = reported ++ d :: todo)
      (known : ∀ k, m.reported.has k = true ↔ ⟨k, none⟩ ∈ reported)
      (reads : ReadsTo (C₀.settle reported) scheduler (enact n m bound unschedulable (d :: todo))) :
      Cycling C₀ scheduler (C₀.settle reported) reported
  | recording {scheduler : Program (CycleMemory × CycleEnd)} {reported : List Decision}
      {k : WorkloadKey} {node : String} {todo : List Decision} {n bound unschedulable : Nat}
      {m : CycleMemory} (split : C₀.decisions = reported ++ ⟨k, some node⟩ :: todo)
      (known : ∀ k, m.reported.has k = true ↔ ⟨k, none⟩ ∈ reported)
      (next : scheduler = afterBind n m bound unschedulable k node todo) :
      Cycling C₀ scheduler (C₀.settle (reported ++ [⟨k, some node⟩])) reported
  | resting {scheduler : Program (CycleMemory × CycleEnd)} {bound unschedulable : Nat}
      {m : CycleMemory} (known : ∀ k, ⟨k, none⟩ ∈ C₀.decisions → m.reported.has k = true)
      (reads : ReadsTo C₀.packed scheduler (.done (m, .finished bound unschedulable))) :
      Cycling C₀ scheduler C₀.packed C₀.decisions

namespace Cycling

variable {C₀ C : Cluster} {scheduler : Program (CycleMemory × CycleEnd)} {reported : List Decision}

/-- Some decisions are carried out and reported, and the rest comes next. -/
theorem of_reads (split : C₀.decisions = reported ++ todo)
    (known : ∀ k, m.reported.has k = true ↔ ⟨k, none⟩ ∈ reported)
    (reads : ReadsTo (C₀.settle reported) scheduler (enact n m bound unschedulable todo)) :
    Cycling C₀ scheduler (C₀.settle reported) reported := by
  cases todo with
  | cons d todo => exact .enacting split known reads
  | nil =>
    have whole : C₀.decisions = reported := by rw [split, List.append_nil]
    rw [← whole] at known reads ⊢
    exact .resting (fun k hk => (known k).mpr hk) reads

theorem start (C₀ : Cluster) : Cycling C₀ (cycle {}) C₀ [] := by
  have unreported (k : WorkloadKey) : (∅ : KeySet WorkloadKey).has k = true ↔
      (⟨k, none⟩ : Decision) ∈ ([] : List Decision) := by
    simp [KeySet.has, SortedMap.contains]
  exact of_reads (show C₀.decisions = [] ++ C₀.decisions from rfl) unreported (readsTo_cycle C₀ {})

theorem reported_le (h : Cycling C₀ scheduler C reported) :
    ∃ todo, C₀.decisions = reported ++ todo := by
  cases h with
  | enacting split => exact ⟨_, split⟩
  | recording split => exact ⟨_, split⟩
  | resting => exact ⟨[], by simp⟩

/-- Once every decision is reported, every decision is carried out. -/
theorem packed (h : Cycling C₀ scheduler C C₀.decisions) : C = C₀.packed := by
  generalize all : C₀.decisions = reported at h
  cases h with
  | enacting split | recording split =>
    rw [all] at split
    simp at split
  | resting => rfl

section

variable (keyed : C₀.Keyed) (named : ∀ n ∈ C₀.nodes, n.name ≠ "")

include keyed named

/-- A workload still to be decided on has not been reported. -/
theorem unknown {target : Option String} (split : C₀.decisions = reported ++ ⟨k, target⟩ :: todo) :
    ∀ node, ⟨k, node⟩ ∉ reported := by
  intro node early
  have distinct := Cluster.nodup_decided keyed named
  rw [split, List.map_append, List.nodup_append] at distinct
  exact distinct.2.2 k (List.mem_map_of_mem (f := (·.workload)) early) k (by simp) rfl

/-- Carrying out a decision begins with a call. -/
theorem enact_ne_done {d : Decision} (split : C₀.decisions = reported ++ d :: todo)
    (known : ∀ k, m.reported.has k = true ↔ ⟨k, none⟩ ∈ reported) (ended : CycleMemory × CycleEnd) :
    enact n m bound unschedulable (d :: todo) ≠ .done ended := by
  obtain ⟨k, node⟩ := d
  cases node with
  | some node => simp [enact_place]
  | none =>
    have fresh : m.reported.has k = false := by
      rw [← Bool.not_eq_true, known]
      exact unknown keyed named split none
    simp [enact_leave fresh]

/-- Between two cycles every decision is carried out and reported. -/
theorem whole {ended : CycleMemory × CycleEnd} (h : Cycling C₀ (.done ended) C reported) :
    reported = C₀.decisions := by
  cases h with
  | enacting split known reads =>
    generalize next : enact _ _ _ _ _ = rest at reads
    cases reads
    exact absurd next (enact_ne_done keyed named split known ended)
  | recording _ _ next => simp [afterBind] at next
  | resting => rfl

/-- A decision can be carried out: the workload is still pending, and the node is there. -/
theorem perform_bind (valid : f.Valid) (readable : f.Readable v)
    (here : f.cluster v = C₀.settle reported)
    (split : C₀.decisions = reported ++ ⟨k, some node⟩ :: todo) :
    ∃ g version, (Call.bind k node).perform f v = (g, .ok version) ∧
    Forest.Touches f g v ∧ g.Valid ∧
      (g.view v).events = (f.view v).events ∧
      g.cluster v = C₀.settle (reported ++ [⟨k, some node⟩]) := by
  have run := Cluster.greedy_packed keyed named
  rw [split] at run
  obtain ⟨same, left, ready, rest⟩ := Cluster.settle_split keyed run (Cluster.undecided keyed)
  rw [← here] at same ready rest
  cases rest with
  | @place _ left _ _ w target listed _ _ =>
    obtain ⟨there, pending⟩ := ready.listed w (by simp)
    rw [← same.nodes] at listed
    obtain ⟨g, version, bound, wrote, after⟩ :=
      Forest.bind_pending valid readable there pending listed
    refine ⟨g, version, ?_, wrote.touches, wrote.valid, wrote.events, ?_⟩
    · rw [Call.perform, bound]
      rfl
    · rw [after, here, Cluster.settle_append]
      rfl

omit keyed named in
/-- A report can be made. -/
theorem perform_record (valid : f.Valid) (readable : f.Readable v) (reason : EventReason)
    (k : WorkloadKey) (node : Option String) (message : String) :
    ∃ g number e, (Call.record reason k node message).perform f v = (g, .ok number) ∧
      Forest.Touches f g v ∧ g.Valid ∧ g.cluster v = f.cluster v ∧
      (g.view v).events.toList = (f.view v).events.toList ++ [e] ∧
      e.report = (reason, k, node) := by
  obtain ⟨g, number, e, made, touches, valid', same, log, reasonOf, workloadOf, nodeOf⟩ :=
    Forest.recordEvent_eq valid readable reason k node message
  refine ⟨g, number, e, ?_, touches, valid', same, log, ?_⟩
  · rw [Call.perform, made]
    rfl
  · rw [ViewEvent.report, reasonOf, workloadOf, nodeOf]

/-- A call takes a cycle on. What it adds to the log reports the decisions it adds to those
reported. -/
def Advances (C₀ : Cluster) (f : Forest) (v : ViewId) (reported : List Decision) (c : Call)
    (next : c.Answer → Program (CycleMemory × CycleEnd)) : Prop :=
  ∃ more log, Cycling C₀ (next (c.perform f v).2) ((c.perform f v).1.cluster v) (reported ++ more) ∧
    Forest.Touches f (c.perform f v).1 v ∧ (c.perform f v).1.Valid ∧
    ((c.perform f v).1.view v).events.toList = (f.view v).events.toList ++ log ∧
    log.map (·.report) = more.map (·.report)

omit keyed named in
/-- A call that only reads. -/
theorem advances_read (valid : f.Valid) {c : Call}
    {next : c.Answer → Program (CycleMemory × CycleEnd)} (same : (c.perform f v).1 = f)
    (h : Cycling C₀ (next (c.perform f v).2) (f.cluster v) reported) :
    Advances C₀ f v reported c next := by
  refine ⟨[], [], ?_, ?_⟩
  · rwa [same, List.append_nil]
  · rw [same]
    exact ⟨.refl f v, valid, by simp, rfl⟩

/-- The call that binds a workload to its node. -/
theorem advances_bind (valid : f.Valid) (readable : f.Readable v)
    (here : f.cluster v = C₀.settle reported)
    (split : C₀.decisions = reported ++ ⟨k, some node⟩ :: todo)
    (known : ∀ k, m.reported.has k = true ↔ ⟨k, none⟩ ∈ reported) :
    Advances C₀ f v reported (.bind k node) fun
      | .error e => .done (m, .failed (.view e))
      | .ok _ => afterBind n m bound unschedulable k node todo := by
  obtain ⟨g, version, made, touches, valid', log, after⟩ :=
    perform_bind keyed named valid readable here split
  refine ⟨[], [], ?_, ?_⟩
  · rw [made, List.append_nil]
    change Cycling C₀ (afterBind n m bound unschedulable k node todo) (g.cluster v) reported
    rw [after]
    exact .recording split known rfl
  · rw [made]
    exact ⟨touches, valid', by simp [log], rfl⟩

/-- The call that reports a workload bound. -/
theorem advances_recorded (valid : f.Valid) (readable : f.Readable v)
    (here : f.cluster v = C₀.settle (reported ++ [⟨k, some node⟩]))
    (split : C₀.decisions = reported ++ ⟨k, some node⟩ :: todo)
    (known : ∀ k, m.reported.has k = true ↔ ⟨k, none⟩ ∈ reported) :
    Advances C₀ f v reported (.record .scheduled k (some node) (Client.assignedMessage k node)) fun
      | .error e => .done (m, .failed (.view e))
      | .ok _ => enact n { m with reported := m.reported.erase k }
          (bound + 1) unschedulable todo := by
  obtain ⟨g, number, e, made, touches, valid', same, log, about⟩ :=
    perform_record valid readable .scheduled k (some node) (Client.assignedMessage k node)
  refine ⟨[⟨k, some node⟩], [e], ?_, ?_⟩
  · rw [made]
    change Cycling C₀ (enact n { m with reported := m.reported.erase k } (bound + 1) unschedulable
      todo) (g.cluster v) (reported ++ [⟨k, some node⟩])
    rw [same, here]
    have rest : C₀.decisions = (reported ++ [⟨k, some node⟩]) ++ todo := by simp [split]
    refine of_reads rest ?_ (.here _)
    intro k'
    have new := unknown keyed named split none
    rw [KeySet.has_iff, SortedMap.mem_keys_erase, ← KeySet.has_iff, known]
    simp only [List.mem_append, List.mem_singleton, Decision.mk.injEq, reduceCtorEq, and_false,
      or_false, and_iff_right_iff_imp]
    rintro early rfl
    exact new early
  · rw [made]
    exact ⟨touches, valid', log, by simp [about, Decision.report]⟩

omit keyed named in
/-- The call that reports a workload left over; there is nothing to carry out. -/
theorem advances_left (valid : f.Valid) (readable : f.Readable v)
    (here : f.cluster v = C₀.settle reported)
    (split : C₀.decisions = reported ++ ⟨k, none⟩ :: todo)
    (known : ∀ k, m.reported.has k = true ↔ ⟨k, none⟩ ∈ reported) :
    Advances C₀ f v reported (.record .failedScheduling k none (unschedulableMessage n k)) fun
      | .error e => .done ({ m with reported := m.reported.add k }, .failed (.view e))
      | .ok _ => enact n { m with reported := m.reported.add k } bound
          (unschedulable + 1) todo := by
  obtain ⟨g, number, e, made, touches, valid', same, log, about⟩ :=
    perform_record valid readable .failedScheduling k none (unschedulableMessage n k)
  refine ⟨[⟨k, none⟩], [e], ?_, ?_⟩
  · rw [made]
    change Cycling C₀ (enact n { m with reported := m.reported.add k } bound (unschedulable + 1)
      todo) (g.cluster v) (reported ++ [⟨k, none⟩])
    have settled : g.cluster v = C₀.settle (reported ++ [⟨k, none⟩]) := by
      rw [same, here, Cluster.settle_append]
      rfl
    rw [settled]
    have rest : C₀.decisions = (reported ++ [⟨k, none⟩]) ++ todo := by simp [split]
    refine of_reads rest ?_ (.here _)
    intro k'
    simp [KeySet.has_iff, KeySet.mem_keys_add, ← known, or_comm]
  · rw [made]
    exact ⟨touches, valid', log, by simp [about, Decision.report]⟩

/-- A call carries out one decision, or reports one, or only reads. -/
theorem call (valid : f.Valid) (readable : f.Readable v) {c : Call}
    {next : c.Answer → Program (CycleMemory × CycleEnd)}
    (h : Cycling C₀ (.call c next) (f.cluster v) reported) : Advances C₀ f v reported c next := by
  generalize here : f.cluster v = C at h
  cases h with
  | resting known reads =>
    rw [← here] at reads
    rcases reads.call valid readable with ended | ⟨same, reads⟩
    · simp at ended
    · refine advances_read valid same ?_
      rw [here] at reads ⊢
      exact .resting known reads
  | @enacting _ d todo n bound unschedulable m split known reads =>
    rw [← here] at reads
    rcases reads.call valid readable with acting | ⟨same, reads⟩
    · obtain ⟨k, node⟩ := d
      cases node with
      | some node =>
        rw [enact_place] at acting
        cases acting
        exact advances_bind keyed named valid readable here split known
      | none =>
        have fresh : m.reported.has k = false := by
          rw [← Bool.not_eq_true, known]
          exact unknown keyed named split none
        rw [enact_leave fresh] at acting
        cases acting
        exact advances_left valid readable here split known
    · refine advances_read valid same ?_
      rw [here] at reads ⊢
      exact .enacting split known reads
  | recording split known recording =>
    rw [afterBind] at recording
    cases recording
    exact advances_recorded keyed named valid readable here split known

end

/-- A further cycle finds nothing to decide anew: what is pending still fits nowhere and has been
reported. -/
theorem again (sound : C₀.Sound) {m : CycleMemory} {ending : CycleEnd}
    (h : Cycling C₀ (.done (m, ending)) C reported) : Cycling C₀ (cycle m) C reported := by
  obtain rfl := whole sound.keyed sound.named h
  generalize all : C₀.decisions = reported at h ⊢
  cases h with
  | enacting split | recording split =>
    rw [all] at split
    simp at split
  | resting known reads =>
    cases reads
    have saturated := Cluster.packed_saturated sound
    have left := saturated.decisions_eq sound.packed
    have reads := readsTo_cycle C₀.packed m
    rw [enact_known] at reads
    · exact .resting (m := { m with cycles := m.cycles + 1 }) known reads
    · intro d hd
      rw [left] at hd
      obtain ⟨w, hw, rfl⟩ := List.mem_map.mp hd
      refine ⟨rfl, known w.key ?_⟩
      exact Cluster.left_of_pending_packed sound.keyed sound.named (mem_ranked.mp hw)

end Cycling

end ScaleAdvisor.BinPack
