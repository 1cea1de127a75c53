import ScaleAdvisor.Proofs.Simulation.Cycle
import ScaleAdvisor.Proofs.Simulation.Outcome
import ScaleAdvisor.Scheduling.Loop
import ScaleAdvisor.Simulation.Run

/-!
One simulation among others, in every order of steps. The scheduler makes one call at a time, begins
further cycles whenever it likes, and may still be at it when its watcher has seen enough; the
watcher looks at the log whenever it likes; and in between others may do anything to views that the
simulation's own view is not laid over.

* `known_iff_all_read`: the watcher has seen enough just when it has read a report on every decision
  of the first cycle;
* `Coherent.step`, `Coherent.run`: what each step, and so every run, keeps.
-/

namespace ScaleAdvisor.Simulation

open BinPack

/-- Where a simulation stands between two of its steps. -/
inductive Phase where
  | waiting
  /-- The node is there. -/
  | queued
  /-- What the scheduler has left to do, what the watcher has read, and whether it has seen
  enough. -/
  | running (scheduler : Program (CycleMemory × CycleEnd)) (progress : SimulationProgress)
      (stopped : Bool)
  | finished (result : Except SimulationError Outcome)

def Phase.isOver : Phase → Bool
  | .finished _ => true
  | _ => false

/-- Nothing of the log has been read. -/
def unread (s : Simulation) : SimulationProgress := { unscheduled := s.unscheduled }

/-- One step of a simulation. It may fail at any time, whatever the reason. -/
inductive Step (a : Algorithm) (pass : Nat) (s : Simulation) :
    Forest → Phase → Forest → Phase → Prop where
  | begin {f g : Forest} {version : Nat}
      (added : f.create s.view (.node (s.node pass)) = .ok (g, version)) :
      Step a pass s f .waiting g .queued
  | launch {f : Forest} : Step a pass s f .queued f (.running (a.cycle {}) s.unread false)
  | call {f : Forest} {c : Call} {next : c.Answer → Program (CycleMemory × CycleEnd)}
      {p : SimulationProgress} {stopped : Bool} :
      Step a pass s f (.running (.call c next) p stopped)
        (c.perform f s.view).1 (.running (next (c.perform f s.view).2) p stopped)
  | again {f : Forest} {m : CycleMemory} {ending : CycleEnd} {p : SimulationProgress}
      {stopped : Bool} (goesOn : SchedulerLoop.phaseAfter ending = .running) :
      Step a pass s f (.running (.done (m, ending)) p stopped) f (.running (a.cycle m) p stopped)
  | wait {f : Forest} {scheduler : Program (CycleMemory × CycleEnd)} {p : SimulationProgress}
      {events : List ViewEvent} {cause : Option String} {expired : Bool}
      (news : f.eventsFrom s.view p.cursor = .ok events)
      (verdict : (p.read events).verdict cause expired = .waiting) :
      Step a pass s f (.running scheduler p false) f (.running scheduler (p.read events) false)
  | stop {f : Forest} {scheduler : Program (CycleMemory × CycleEnd)} {p : SimulationProgress}
      {events : List ViewEvent} {cause : Option String} {expired : Bool}
      (news : f.eventsFrom s.view p.cursor = .ok events)
      (verdict : (p.read events).verdict cause expired = .settled) :
      Step a pass s f (.running scheduler p false) f (.running scheduler (p.read events) true)
  | finish {f : Forest} {scheduler : Program (CycleMemory × CycleEnd)} {p : SimulationProgress}
      {o : Outcome} (reached : p.outcome f s.view s.name s.placement (s.node pass) = .ok o) :
      Step a pass s f (.running scheduler p true) f (.finished (.ok o))
  | fail {f : Forest} {phase : Phase} (e : SimulationError) (ongoing : phase.isOver = false) :
      Step a pass s f phase f (.finished (.error e))

/-- Steps of a simulation, and in between whatever leaves its view and all below it alone. -/
inductive Run (a : Algorithm) (pass : Nat) (s : Simulation) :
    Forest → Phase → Forest → Phase → Prop where
  | refl (f : Forest) (phase : Phase) : Run a pass s f phase f phase
  | own {f g h : Forest} {phase middle last : Phase} (run : Run a pass s f phase g middle)
      (step : Step a pass s g middle h last) : Run a pass s f phase h last
  | other {f g h : Forest} {phase last : Phase} (run : Run a pass s f phase g last)
      (valid : h.Valid) (apart : ∀ u ∈ g.line s.view, h.view u = g.view u) :
      Run a pass s f phase h last

theorem Run.trans {a : Algorithm} {pass : Nat} {s : Simulation} {f g h : Forest}
    {phase middle last : Phase} (first : Run a pass s f phase g middle)
    (second : Run a pass s g middle h last) : Run a pass s f phase h last := by
  induction second with
  | refl => exact first
  | own _ step ih => exact .own (ih first) step
  | other _ valid apart ih => exact .other (ih first) valid apart

/-- Steps of one simulation in a row, and nothing in between. -/
inductive Steps (a : Algorithm) (pass : Nat) (s : Simulation) :
    Forest → Phase → Forest → Phase → Prop where
  | refl (f : Forest) (phase : Phase) : Steps a pass s f phase f phase
  | snoc {f g h : Forest} {phase middle last : Phase} (steps : Steps a pass s f phase g middle)
      (step : Step a pass s g middle h last) : Steps a pass s f phase h last

section Steps

variable {a : Algorithm} {pass : Nat} {s : Simulation} {f g h : Forest} {phase middle last : Phase}

theorem Steps.single (step : Step a pass s f phase g last) : Steps a pass s f phase g last :=
  .snoc (.refl _ _) step

theorem Steps.trans (first : Steps a pass s f phase g middle)
    (second : Steps a pass s g middle h last) :
    Steps a pass s f phase h last := by
  induction second with
  | refl => exact first
  | snoc _ step ih => exact .snoc (ih first) step

theorem Steps.run (steps : Steps a pass s f phase g last) : Run a pass s f phase g last := by
  induction steps with
  | refl => exact .refl _ _
  | snoc _ step ih => exact .own ih step

/-- The scheduler can make all calls of a cycle in a row. -/
theorem steps_calls {p : SimulationProgress} {stopped : Bool}
    (scheduler : Program (CycleMemory × CycleEnd)) (f : Forest) :
    Steps a pass s f (.running scheduler p stopped) (scheduler.run f s.view).1
      (.running (.done (scheduler.run f s.view).2) p stopped) := by
  induction scheduler generalizing f with
  | done x => exact .refl _ _
  | call c next ih => exact (Steps.single .call).trans (ih _ _)

end Steps

section Reports

variable {e : ViewEvent} {d : Decision} {E log : List ViewEvent} {ds : List Decision}

theorem workload_of_report (h : e.report = d.report) : e.workload = d.workload := by
  obtain ⟨k, node⟩ := d
  cases node <;> simp_all [ViewEvent.report, Decision.report]

theorem placement_of_report {k : WorkloadKey} {node : String}
    (h : e.report = (⟨k, some node⟩ : Decision).report) : e.placement? = some (k, node) := by
  simp only [ViewEvent.report, Decision.report, Prod.mk.injEq] at h
  simp [ViewEvent.placement?, h]

theorem no_placement_of_report {k : WorkloadKey} (h : e.report = (⟨k, none⟩ : Decision).report) :
    e.placement? = none ∧ e.givesUp = true := by
  simp only [ViewEvent.report, Decision.report, Prod.mk.injEq] at h
  simp [ViewEvent.placement?, ViewEvent.givesUp, h]

theorem map_workload_of_reports (h : E.map (·.report) = ds.map (·.report)) :
    E.map (·.workload) = ds.map (·.workload) := by
  have workloads := congrArg (List.map fun r => r.2.1) h
  rw [List.map_map, List.map_map] at workloads
  have read (d : Decision) : d.report.2.1 = d.workload := by
    obtain ⟨k, node⟩ := d
    cases node <;> rfl
  calc E.map (·.workload) = E.map ((fun r => r.2.1) ∘ (·.report)) := rfl
    _ = ds.map ((fun r => r.2.1) ∘ (·.report)) := workloads
    _ = ds.map (·.workload) := List.map_congr_left fun d _ => read d

theorem mem_of_reports (h : E.map (·.report) = ds.map (·.report)) (hd : d ∈ ds) :
    ∃ e ∈ E, e.report = d.report := by
  have listed : d.report ∈ ds.map (·.report) := List.mem_map_of_mem hd
  rw [← h] at listed
  exact List.mem_map.mp listed

theorem placements_of_reports (h : E.map (·.report) = ds.map (·.report)) :
    placements E = ds.filterMap fun d => d.node.map (d.workload, ·) := by
  induction E generalizing ds with
  | nil =>
    rw [List.map_eq_nil_iff.mp h.symm]
    rfl
  | cons e rest ih =>
    cases ds with
    | nil => simp at h
    | cons d ds =>
      simp only [List.map_cons, List.cons.injEq] at h
      rw [SimulationProgress.placements_cons, ih h.2]
      obtain ⟨k, node⟩ := d
      cases node with
      | some node => simp [placement_of_report h.1]
      | none => simp [no_placement_of_report h.1]

theorem exists_of_mem_placements {k : WorkloadKey} (h : k ∈ (placements log).map (·.1)) :
    ∃ e ∈ log, e.workload = k := by
  obtain ⟨⟨k, node⟩, listed, rfl⟩ := List.mem_map.mp h
  obtain ⟨e, he, placed⟩ := List.mem_filterMap.mp listed
  exact ⟨e, he, (SimulationProgress.note_of_placement (p := { unscheduled := ∅ }) placed).2.2⟩

end Reports

/-- What a simulation relies on: the contents that its scheduler begins with, once the node is
there, and the log that it finds. -/
structure Opening (s : Simulation) (C₀ : Cluster) (L₀ : List ViewEvent) : Prop where
  sound : C₀.Sound
  wanted : s.unscheduled = C₀.pendingKeys
  something : s.unscheduled.keys ≠ []
  /-- Nothing has been reported yet of what is looked for. -/
  quiet : ∀ e ∈ L₀, e.workload ∉ s.unscheduled.keys

section

variable {s : Simulation} {C₀ : Cluster} {L₀ : List ViewEvent}

theorem Opening.wanted_iff (opening : Opening s C₀ L₀) (k : WorkloadKey) :
    k ∈ s.unscheduled.keys ↔ k ∈ C₀.decisions.map (·.workload) := by
  rw [opening.wanted, Cluster.mem_decided_iff opening.sound.keyed opening.sound.named]

/-- Once all of the first cycle has been read, what is still looked for is what is still pending. -/
theorem unscheduled_read (opening : Opening s C₀ L₀) {E : List ViewEvent}
    (reports : E.map (·.report) = C₀.decisions.map (·.report)) :
    (s.unread.read (L₀ ++ E)).unscheduled = C₀.packed.pendingKeys := by
  have keyed := opening.sound.keyed
  have named := opening.sound.named
  apply KeySet.ext_mem
  intro k
  rw [Cluster.mem_pendingKeys_packed keyed named, ← opening.wanted, unread,
    SimulationProgress.mem_unscheduled_read (SimulationProgress.consistent_start _)]
  apply and_congr_right
  intro wanted
  have silent : k ∉ (placements L₀).map (·.1) := by
    intro placed
    obtain ⟨e, he, rfl⟩ := exists_of_mem_placements placed
    exact opening.quiet e he wanted
  have split : placements (L₀ ++ E) = placements L₀ ++ placements E := List.filterMap_append
  rw [split, List.map_append, List.mem_append, placements_of_reports reports]
  simp only [silent, false_or, List.mem_map, List.mem_filterMap, Option.map_eq_some_iff]
  constructor
  · intro free node hd
    exact free ⟨(k, node), ⟨⟨k, some node⟩, hd, node, rfl, rfl⟩, rfl⟩
  · rintro free ⟨_, ⟨⟨k, _⟩, hd, node, rfl, rfl⟩, rfl⟩
    exact free node hd

/-- The watcher has seen enough just when it has read to the end of a log that reports every
decision of the first cycle. -/
theorem known_iff_all_read (opening : Opening s C₀ L₀) {reported todo : List Decision}
    (split : C₀.decisions = reported ++ todo) {E : List ViewEvent}
    (reports : E.map (·.report) = reported.map (·.report)) {cursor : Nat}
    (bounded : cursor ≤ (L₀ ++ E).length) :
    (s.unread.read ((L₀ ++ E).take cursor)).Known ↔ todo = [] ∧ cursor = (L₀ ++ E).length := by
  have distinct := Cluster.nodup_decided opening.sound.keyed opening.sound.named
  have sizes : E.length = reported.length := by simpa using congrArg List.length reports
  rw [unread, SimulationProgress.known_read_iff]
  constructor
  · intro seen
    -- Each decision's workload has been read of, and only what the first cycle reports speaks of
    -- it.
    have within : C₀.decisions.map (·.workload) ⊆
        (reported.take (cursor - L₀.length)).map (·.workload) := by
      intro k hk
      have wanted := (opening.wanted_iff k).mpr hk
      have read : ∃ e ∈ (L₀ ++ E).take cursor, e.workload = k := by
        rcases seen k wanted with placed | ⟨e, he, -, about⟩
        · exact exists_of_mem_placements placed
        · exact ⟨e, he, about⟩
      obtain ⟨e, he, rfl⟩ := read
      rw [List.take_append] at he
      obtain early | he := List.mem_append.mp he
      · exact absurd wanted (opening.quiet e (List.mem_of_mem_take early))
      · have listed := List.mem_map_of_mem (f := (·.workload)) he
        rw [List.map_take, map_workload_of_reports reports, ← List.map_take] at listed
        exact listed
    have fewer := distinct.length_le_of_subset within
    have some : 0 < C₀.decisions.length := by
      obtain ⟨k, hk⟩ := List.exists_mem_of_ne_nil _ opening.something
      have := List.length_pos_of_mem ((opening.wanted_iff k).mp hk)
      simpa using this
    simp only [List.length_map, List.length_take, split, List.length_append] at fewer some bounded ⊢
    refine ⟨List.eq_nil_of_length_eq_zero (by omega), by omega⟩
  · rintro ⟨rfl, rfl⟩ k wanted
    rw [List.take_length]
    rw [List.append_nil] at split
    obtain ⟨⟨k, node⟩, hd, rfl⟩ := List.mem_map.mp ((opening.wanted_iff k).mp wanted)
    rw [split] at hd
    obtain ⟨e, he, about⟩ := mem_of_reports reports hd
    cases node with
    | some node =>
      refine .inl (List.mem_map.mpr ⟨(k, node), ?_, rfl⟩)
      exact List.mem_filterMap.mpr ⟨e, by simp [he], placement_of_report about⟩
    | none =>
      exact .inr ⟨e, by simp [he], (no_placement_of_report about).2, workload_of_report about⟩

/-- The view of a simulation, with all that has been reported since its opening. -/
structure Underway (s : Simulation) (L₀ : List ViewEvent) (f : Forest) (reported : List Decision) :
    Prop where
  valid : f.Valid
  readable : f.Readable s.view
  log : ∃ E, (f.view s.view).events.toList = L₀ ++ E ∧ E.map (·.report) = reported.map (·.report)

/-- A phase that agrees with the view, given which decisions have been reported. -/
inductive Coherent (pass : Nat) (s : Simulation) (C₀ : Cluster) (L₀ : List ViewEvent) (f : Forest) :
    List Decision → Phase → Prop where
  | queued (contents : f.cluster s.view = C₀) : Coherent pass s C₀ L₀ f [] .queued
  | running {reported : List Decision} {scheduler : Program (CycleMemory × CycleEnd)}
      {p : SimulationProgress} {stopped : Bool}
      (cycling : Cycling C₀ scheduler (f.cluster s.view) reported)
      (bounded : p.cursor ≤ (f.view s.view).events.toList.length)
      (read : p = s.unread.read ((f.view s.view).events.toList.take p.cursor))
      (enough : stopped = true →
        reported = C₀.decisions ∧ p.cursor = (f.view s.view).events.toList.length) :
      Coherent pass s C₀ L₀ f reported (.running scheduler p stopped)
  | succeeded {E : List ViewEvent} (contents : f.cluster s.view = C₀.packed)
      (reports : E.map (·.report) = C₀.decisions.map (·.report)) :
      Coherent pass s C₀ L₀ f C₀.decisions (.finished (.ok
        ((s.unread.read (L₀ ++ E)).outcomeOver C₀.packed s.name s.placement (s.node pass))))
  | failed {reported : List Decision} (e : SimulationError) :
      Coherent pass s C₀ L₀ f reported (.finished (.error e))

variable {pass : Nat} {f g : Forest} {reported : List Decision} {phase last : Phase}

/-- Reading what is new is reading all from the start. -/
theorem read_news {p : SimulationProgress} {log : List ViewEvent} (bounded : p.cursor ≤ log.length)
    (read : p = s.unread.read (log.take p.cursor)) :
    p.read (log.drop p.cursor) = s.unread.read log ∧
      (p.read (log.drop p.cursor)).cursor = log.length := by
  have whole : p.read (log.drop p.cursor) = s.unread.read log := by
    have joined := SimulationProgress.read_append s.unread (log.take p.cursor) (log.drop p.cursor)
    rw [List.take_append_drop, ← read] at joined
    exact joined.symm
  refine ⟨whole, ?_⟩
  rw [SimulationProgress.cursor_read, List.length_drop]
  omega

/-- Nothing more has been reported. -/
theorem Underway.silent (underway : Underway s L₀ f reported)
    (coherent : Coherent pass s C₀ L₀ f reported phase) :
    ∃ more, Underway s L₀ f (reported ++ more) ∧
    Coherent pass s C₀ L₀ f (reported ++ more) phase := by
  refine ⟨[], ?_, ?_⟩
  · rwa [List.append_nil]
  · rwa [List.append_nil]

/-- The scheduler makes a call; what it reports is appended to the log, past what has been read. -/
theorem Coherent.call (opening : Opening s C₀ L₀) (underway : Underway s L₀ f reported) {c : Call}
    {next : c.Answer → Program (CycleMemory × CycleEnd)} {p : SimulationProgress} {stopped : Bool}
    (coherent : Coherent pass s C₀ L₀ f reported (.running (.call c next) p stopped)) :
    ∃ more, Underway s L₀ (c.perform f s.view).1 (reported ++ more) ∧
      Coherent pass s C₀ L₀ (c.perform f s.view).1 (reported ++ more)
        (.running (next (c.perform f s.view).2) p stopped) := by
  cases coherent with
  | running cycling bounded read enough =>
    obtain ⟨more, log, cycling', touches, valid, grown, about⟩ :=
      cycling.call opening.sound.keyed opening.sound.named underway.valid underway.readable
    obtain ⟨E, before, reports⟩ := underway.log
    refine ⟨more, ⟨valid, touches.readable underway.readable, E ++ log, ?_, ?_⟩,
      .running cycling' ?_ ?_ ?_⟩
    · rw [grown, before, List.append_assoc]
    · rw [List.map_append, List.map_append, reports, about]
    · rw [grown, List.length_append]
      omega
    · rw [grown, List.take_append_of_le_length bounded]
      exact read
    · intro stopped
      obtain ⟨all, atEnd⟩ := enough stopped
      obtain ⟨todo, split⟩ := cycling'.reported_le
      rw [all, List.append_assoc, List.self_eq_append_right] at split
      obtain ⟨rfl, -⟩ := List.append_eq_nil_iff.mp split
      have silent : log = [] := by simpa using about
      rw [all, grown, silent, List.append_nil, List.append_nil]
      exact ⟨rfl, atEnd⟩

/-- The watcher has read to the end of the log, and that is enough: everything has been reported. -/
theorem Coherent.stop (opening : Opening s C₀ L₀) (underway : Underway s L₀ f reported)
    {scheduler : Program (CycleMemory × CycleEnd)} {p : SimulationProgress} {stopped : Bool}
    (coherent : Coherent pass s C₀ L₀ f reported (.running scheduler p stopped))
    {cause : Option String} {expired : Bool}
    (verdict : (p.read ((f.view s.view).events.toList.drop p.cursor)).verdict cause expired =
      .settled) :
    Coherent pass s C₀ L₀ f reported
      (.running scheduler (p.read ((f.view s.view).events.toList.drop p.cursor)) true) := by
  cases coherent with
  | running cycling bounded read enough =>
    obtain ⟨whole, atEnd⟩ := read_news bounded read
    have known := SimulationProgress.known_of_settled verdict
    obtain ⟨E, log, reports⟩ := underway.log
    obtain ⟨todo, split⟩ := cycling.reported_le
    have all : todo = [] := by
      have decided := known_iff_all_read opening split reports (Nat.le_refl _)
      rw [List.take_length, ← log, ← whole] at decided
      exact (decided.mp known).1
    rw [all, List.append_nil] at split
    refine .running cycling (Nat.le_of_eq atEnd) ?_ fun _ => ⟨split.symm, atEnd⟩
    rw [atEnd, List.take_length, whole]

/-- What one step keeps. -/
theorem Coherent.step (opening : Opening s C₀ L₀)
    (coherent : Coherent pass s C₀ L₀ f reported phase) (underway : Underway s L₀ f reported)
    (step : Step algorithm pass s f phase g last) : ∃ more, Underway s L₀ g (reported ++ more) ∧
    Coherent pass s C₀ L₀ g (reported ++ more) last := by
  cases step with
  | begin => cases coherent
  | launch =>
    cases coherent with
    | queued contents =>
      refine underway.silent (.running ?_ (Nat.zero_le _) rfl (by simp))
      rw [contents]
      exact .start C₀
  | call => exact coherent.call opening underway
  | again =>
    cases coherent with
    | running cycling bounded read enough =>
      exact underway.silent (.running (cycling.again opening.sound) bounded read enough)
  | wait news =>
    rw [Forest.eventsFrom_eq underway.readable] at news
    cases news
    cases coherent with
    | running cycling bounded read enough =>
      obtain ⟨whole, atEnd⟩ := read_news bounded read
      refine underway.silent (.running cycling (by omega) ?_ (by simp))
      rw [atEnd, List.take_length, whole]
  | stop news verdict =>
    rw [Forest.eventsFrom_eq underway.readable] at news
    cases news
    exact underway.silent (coherent.stop opening underway verdict)
  | finish reached =>
    cases coherent with
    | running cycling bounded read enough =>
      obtain ⟨rfl, atEnd⟩ := enough rfl
      have contents := cycling.packed
      obtain ⟨E, log, reports⟩ := underway.log
      rw [SimulationProgress.outcome_eq underway.valid underway.readable, contents] at reached
      cases reached
      rw [atEnd, List.take_length, log] at read
      rw [read]
      exact underway.silent (.succeeded contents reports)
  | fail e => exact underway.silent (.failed e)

/-- What others do elsewhere is none of a simulation's business. -/
theorem Underway.elsewhere (underway : Underway s L₀ f reported) (valid : g.Valid)
    (apart : ∀ u ∈ f.line s.view, g.view u = f.view u) : Underway s L₀ g reported where
  valid := valid
  readable := Forest.readable_congr apart underway.readable
  log := by
    rw [apart s.view (by simp [Forest.line])]
    exact underway.log

theorem Coherent.elsewhere (coherent : Coherent pass s C₀ L₀ f reported phase)
    (apart : ∀ u ∈ f.line s.view, g.view u = f.view u) :
    Coherent pass s C₀ L₀ g reported phase := by
  have top : g.view s.view = f.view s.view := apart s.view (by simp [Forest.line])
  have same : g.cluster s.view = f.cluster s.view := Forest.cluster_congr apart
  cases coherent with
  | queued contents => exact .queued (same.trans contents)
  | running cycling bounded read enough =>
    rw [← same] at cycling
    rw [← top] at bounded read enough
    exact .running cycling bounded read enough
  | succeeded contents reports => exact .succeeded (same.trans contents) reports
  | failed e => exact .failed e

/-- What every run keeps; decisions once reported stay reported. -/
theorem Coherent.run (opening : Opening s C₀ L₀) (coherent : Coherent pass s C₀ L₀ f reported phase)
    (underway : Underway s L₀ f reported) (run : Run algorithm pass s f phase g last) :
    ∃ more, Underway s L₀ g (reported ++ more) ∧
    Coherent pass s C₀ L₀ g (reported ++ more) last := by
  induction run with
  | refl => exact underway.silent coherent
  | own _ step ih =>
    obtain ⟨more, underway', coherent'⟩ := ih coherent
    obtain ⟨later, underway'', coherent''⟩ := coherent'.step opening underway' step
    exact ⟨more ++ later, by rwa [← List.append_assoc], by rwa [← List.append_assoc]⟩
  | other _ valid apart ih =>
    obtain ⟨more, underway', coherent'⟩ := ih coherent
    exact ⟨more, underway'.elsewhere valid apart, coherent'.elsewhere apart⟩

end

/-- A simulation that is set up looks for everything pending, and there is something. -/
theorem create_eq_ok {f : Forest} {c : Candidate} {v : ViewId} {s : Simulation} (valid : f.Valid)
    (readable : f.Readable v) (created : create f c v = .ok s) :
    s.candidate = c ∧ s.view = v ∧ c.pool.template? c.template = some s.template ∧
      s.stage = .pending ∧ s.unscheduled = (f.cluster v).pendingKeys ∧ s.unscheduled.keys ≠ [] := by
  unfold create at created
  dsimp only at created
  split at created
  · simp at created
  · rename_i template found
    rw [Forest.pending_eq valid readable] at created
    split at created
    · simp at created
    · simp at created
    · rename_i pending some listed
      cases created
      rw [← Except.ok.inj listed] at some ⊢
      refine ⟨rfl, rfl, found, rfl, rfl, ?_⟩
      intro none
      cases ws : (f.cluster v).workloads.filter (·.isPending) with
      | nil => exact some ws
      | cons w rest =>
        have member : w.key ∈ (KeySet.ofKeys
            (((f.cluster v).workloads.filter (·.isPending)).map (·.key))).keys :=
          KeySet.mem_keys_ofKeys.mpr (by simp [ws])
        rw [none] at member
        simp at member

theorem node_name_ne_empty (s : Simulation) (pass : Nat) : (s.node pass).name ≠ "" := by
  simp [node, Candidate.node, Candidate.nodeName]

/-- With the node in its view a simulation can start. -/
theorem opening_of_added {s : Simulation} {pass version : Nat} {f g : Forest} (valid : f.Valid)
    (readable : f.Readable s.view) (sound : (f.cluster s.view).Sound)
    (wanted : s.unscheduled = (f.cluster s.view).pendingKeys) (something : s.unscheduled.keys ≠ [])
    (quiet : ∀ e ∈ (f.view s.view).events.toList, e.workload ∉ s.unscheduled.keys)
    (added : f.create s.view (.node (s.node pass)) = .ok (g, version)) :
    (f.cluster s.view).get? ⟨.node, (s.node pass).name⟩ = none ∧ Forest.Touches f g s.view ∧
      Opening s ((f.cluster s.view).addNode (s.node pass)) (f.view s.view).events.toList ∧
      Underway s (f.view s.view).events.toList g [] ∧
      Coherent pass s ((f.cluster s.view).addNode (s.node pass)) (f.view s.view).events.toList g []
        .queued := by
  obtain ⟨free, wrote⟩ := Forest.wrote_create valid readable added
  refine ⟨free, wrote.touches,
    ⟨sound.addNode (s.node_name_ne_empty pass) free, ?_, something, quiet⟩,
    ⟨wrote.valid, wrote.touches.readable readable, [], ?_, rfl⟩, .queued wrote.cluster⟩
  · rw [Cluster.pendingKeys_addNode free]
    exact wanted
  · rw [wrote.events, List.append_nil]

end ScaleAdvisor.Simulation
