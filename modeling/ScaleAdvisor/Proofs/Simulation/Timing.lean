import ScaleAdvisor.Proofs.Simulation.Interleaving
import ScaleAdvisor.Proofs.View.Operations
import ScaleAdvisor.Scheduling.Rehearsal

/-!
A packing simulation comes to the same outcome in every order of steps. The outcome is the one after
exactly one complete cycle: the watcher cannot have seen enough before it has read everything that
the first cycle reports, and after that nothing is reported any more. Only a log that has told of
the pending workloads before may stop it too early.
-/

namespace ScaleAdvisor.Simulation

open BinPack

/-- What a simulation comes to when one complete cycle is followed by one look at the whole log. -/
def afterOneCycle (pass : Nat) (s : Simulation) (f : Forest) : Except ViewError Outcome :=
  let g := (algorithm.runCycle f s.view {}).1
  (s.unread.read (g.view s.view).events.toList).outcome g s.view s.name s.placement (s.node pass)

variable {s : Simulation} {C₀ : Cluster} {L₀ : List ViewEvent} {pass : Nat} {f g : Forest}
  {reported : List Decision}

/-- Once every decision is reported, what has been read of the log does not depend on anything
else. -/
theorem read_all (underway : Underway s L₀ f C₀.decisions) {E : List ViewEvent}
    (reports : E.map (·.report) = C₀.decisions.map (·.report)) :
    s.unread.read (f.view s.view).events.toList = s.unread.read (L₀ ++ E) := by
  obtain ⟨E', log, reports'⟩ := underway.log
  rw [log]
  apply SimulationProgress.read_congr
  rw [List.map_append, List.map_append, reports, reports']

/-- A complete cycle, with nothing in between. -/
theorem runCycle_underway (opening : Opening s C₀ L₀) (underway : Underway s L₀ f [])
    (coherent : Coherent pass s C₀ L₀ f [] .queued) :
    Underway s L₀ (algorithm.runCycle f s.view {}).1 C₀.decisions ∧
      (algorithm.runCycle f s.view {}).1.cluster s.view = C₀.packed := by
  have calls : Steps algorithm pass s f (.running (algorithm.cycle {}) s.unread false)
      (algorithm.runCycle f s.view {}).1
        (.running (.done (algorithm.runCycle f s.view {}).2) s.unread false) :=
    steps_calls (algorithm.cycle {}) f
  obtain ⟨more, underway', coherent'⟩ :=
    coherent.run opening underway ((Steps.single .launch).trans calls).run
  generalize [] ++ more = reported at underway' coherent'
  cases coherent' with
  | running cycling =>
    obtain rfl := cycling.whole opening.sound.keyed opening.sound.named
    exact ⟨underway', cycling.packed⟩

section

variable (opening : Opening s C₀ L₀) {E : List ViewEvent}
  (reports : E.map (·.report) = C₀.decisions.map (·.report))

include opening reports

/-- A watcher that has stopped has read all that the first cycle reports, and nothing else. -/
theorem Coherent.stopped (underway : Underway s L₀ f reported)
    {scheduler : Program (CycleMemory × CycleEnd)} {p : SimulationProgress}
    (coherent : Coherent pass s C₀ L₀ f reported (.running scheduler p true)) :
    (∀ k ∈ s.unscheduled.keys, ∃ e ∈ (f.view s.view).events.toList.take p.cursor, e.workload = k) ∧
      ((f.view s.view).events.toList.take p.cursor).map (·.report) = (L₀ ++ E).map (·.report) ∧
      p.outcome f s.view s.name s.placement (s.node pass) =
        .ok ((s.unread.read (L₀ ++ E)).outcomeOver C₀.packed s.name s.placement (s.node pass)) := by
  cases coherent with
  | running cycling bounded read enough =>
    obtain ⟨rfl, atEnd⟩ := enough rfl
    have all := read_all underway reports
    obtain ⟨E', log, reports'⟩ := underway.log
    rw [atEnd, List.take_length] at read ⊢
    refine ⟨?_, ?_, ?_⟩
    · intro k hk
      obtain ⟨d, hd, rfl⟩ := List.mem_map.mp ((opening.wanted_iff k).mp hk)
      obtain ⟨e, he, about⟩ := mem_of_reports reports' hd
      exact ⟨e, by simp [log, he], workload_of_report about⟩
    · rw [log, List.map_append, List.map_append, reports, reports']
    · rw [SimulationProgress.outcome_eq underway.valid underway.readable, cycling.packed, read, all]

/-- A simulation that has succeeded leaves over what is still pending. -/
theorem Coherent.finished (underway : Underway s L₀ f reported) {o : Outcome}
    (coherent : Coherent pass s C₀ L₀ f reported (.finished (.ok o))) :
    o = (s.unread.read (L₀ ++ E)).outcomeOver C₀.packed s.name s.placement (s.node pass) ∧
      ∃ left, f.pending s.view = .ok left ∧
        o.unscheduled = (KeySet.ofKeys (left.map (·.key))).keys := by
  cases coherent with
  | @succeeded E' contents reports' =>
    have same : s.unread.read (L₀ ++ E') = s.unread.read (L₀ ++ E) := by
      apply SimulationProgress.read_congr
      rw [List.map_append, List.map_append, reports, reports']
    refine ⟨by rw [same], _, Forest.pending_eq underway.valid underway.readable, ?_⟩
    rw [contents]
    exact congrArg SortedMap.keys (unscheduled_read opening reports')

omit reports in
/-- Once every decision is reported, the next look is enough. -/
theorem Coherent.settled (underway : Underway s L₀ f reported)
    (whole : ∃ more, C₀.decisions ++ more = reported)
    {scheduler : Program (CycleMemory × CycleEnd)} {p : SimulationProgress} {stopped : Bool}
    (coherent : Coherent pass s C₀ L₀ f reported (.running scheduler p stopped)) :
    ∃ events, f.eventsFrom s.view p.cursor = .ok events ∧
      (p.read events).verdict none false = .settled := by
  obtain ⟨more, whole⟩ := whole
  cases coherent with
  | running cycling bounded read =>
    obtain ⟨todo, split⟩ := cycling.reported_le
    have rest : todo = [] := by
      rw [← whole, List.append_assoc, List.self_eq_append_right] at split
      exact (List.append_eq_nil_iff.mp split).2
    obtain ⟨E', log, reports'⟩ := underway.log
    have known := (known_iff_all_read opening split reports' (by omega)).mpr ⟨rest, rfl⟩
    rw [List.take_length, ← log, ← (read_news bounded read).1] at known
    exact ⟨_, Forest.eventsFrom_eq underway.readable _, SimulationProgress.settled_of_known known⟩

end

/-- Timing does not matter. In every order of steps, those of others included, a watcher that stops
has read, of every workload that was pending, what the first cycle has reported, and the outcome is
the one after exactly one complete cycle; and once a cycle is complete the next look is enough. The
log of the view may say anything but about the workloads that are pending; that of a fresh sandbox
is empty. -/
theorem outcome_independent_of_timing {f f₁ : Forest} {c : Candidate} {v : ViewId} {s : Simulation}
    {pass version : Nat} (valid : f.Valid) (readable : f.Readable v)
    (named : ∀ n ∈ (f.cluster v).nodes, n.name ≠ "")
    (nonneg : NonNegative (f.cluster v).runtimeClasses (f.cluster v).workloads)
    (quiet : ∀ e ∈ (f.view v).events.toList, e.workload ∉ s.unscheduled.keys)
    (created : create f c v = .ok s)
    (added : f.create v (.node (s.node pass)) = .ok (f₁, version)) :
    ∃ o, s.afterOneCycle pass f₁ = .ok o ∧ ∀ g phase, Run algorithm pass s f₁ .queued g phase →
      (∀ scheduler p, phase = .running scheduler p true →
        (∀ k ∈ s.unscheduled.keys, ∃ e ∈ (g.view v).events.toList.take p.cursor, e.workload = k) ∧
        ((g.view v).events.toList.take p.cursor).map (·.report) =
          ((algorithm.runCycle f₁ v {}).1.view v).events.toList.map (·.report) ∧
        p.outcome g v s.name s.placement (s.node pass) = .ok o) ∧
      (∀ result, phase = .finished (.ok result) → result = o ∧
        ∃ left, g.pending v = .ok left ∧
          result.unscheduled = (KeySet.ofKeys (left.map (·.key))).keys) ∧
      (∀ ended p stopped, phase = .running (.done ended) p stopped →
        ∀ h scheduler p' stopped', Run algorithm pass s g phase h (.running scheduler p' stopped') →
          ∃ events, h.eventsFrom v p'.cursor = .ok events ∧
            (p'.read events).verdict none false = .settled) := by
  obtain ⟨-, rfl, -, -, wanted, something⟩ := create_eq_ok valid readable created
  obtain ⟨-, -, opening, underway, coherent⟩ := opening_of_added valid readable
    ⟨Forest.keyed_cluster valid, named, nonneg⟩ wanted something quiet added
  generalize (f.cluster s.view).addNode (s.node pass) = C₀ at opening coherent
  generalize (f.view s.view).events.toList = L₀ at opening underway coherent
  obtain ⟨alone, packed⟩ := runCycle_underway opening underway coherent
  obtain ⟨E, log, reports⟩ := alone.log
  refine ⟨(s.unread.read (L₀ ++ E)).outcomeOver C₀.packed s.name s.placement (s.node pass), ?_, ?_⟩
  · unfold afterOneCycle
    dsimp only
    rw [SimulationProgress.outcome_eq alone.valid alone.readable, packed, log]
  intro g phase run
  obtain ⟨reported, underway', coherent'⟩ := coherent.run opening underway run
  rw [List.nil_append] at underway' coherent'
  refine ⟨?_, ?_, ?_⟩
  · rintro scheduler p rfl
    rw [log]
    exact coherent'.stopped opening reports underway'
  · rintro result rfl
    exact coherent'.finished opening reports underway'
  · rintro ended p stopped rfl h scheduler p' stopped' later
    obtain ⟨more, underway'', coherent''⟩ := coherent'.run opening underway' later
    refine coherent''.settled opening underway'' ⟨more, ?_⟩
    cases coherent' with
    | running cycling => rw [cycling.whole opening.sound.keyed opening.sound.named]

/-- A cluster where one workload is pending. -/
def oneWorkload : Snapshot where
  workloads := [{ inNamespace := "default", name := "web", requests := .ofCoresAndGib 4 1 }]

def baseView : Forest × Except ViewError Unit :=
  ((∅ : Forest).newBase "base").1.loadSnapshot 0 oneWorkload

def sandboxed : Forest := (baseView.1.sandbox "sandbox" 0).1

/-- A machine that is large enough for the workload. -/
def largeMachine : Candidate where
  pool := {
    name := "large"
    region := "here"
    zones := ["a"]
    templates := [{ name := "large", instanceType := "large", capacity := .ofCoresAndGib 8 16 }] }
  template := "large"
  zone := "a"

theorem exists_eq_ok {ε α : Type} {x : Except ε α} (h : x.toOption.isSome = true) :
    ∃ a, x = .ok a := by
  cases x with
  | error e => simp [Except.toOption] at h
  | ok a => exact ⟨a, rfl⟩

/-- A simulation that is set up and whose node is there, as a check shows. -/
theorem exists_added (f : Forest) (c : Candidate) (v : ViewId) (pass : Nat)
    (shown : Simulation → Forest → Bool)
    (checked : (create f c v).toOption.any (fun s =>
      (f.create v (.node (s.node pass))).toOption.any fun added => shown s added.1) = true) :
    ∃ s f₁ version, create f c v = .ok s ∧ f.create v (.node (s.node pass)) = .ok (f₁, version) ∧
      shown s f₁ = true := by
  cases created : create f c v with
  | error e => simp [created, Except.toOption] at checked
  | ok s =>
    cases added : f.create v (.node (s.node pass)) with
    | error e => simp [created, added, Except.toOption] at checked
    | ok next =>
      refine ⟨s, next.1, next.2, rfl, added, ?_⟩
      simpa [created, added, Except.toOption] using checked

theorem outcome_independent_of_timing_oneWorkload : ∃ s f₁ version o,
    create sandboxed largeMachine 1 = .ok s ∧
    sandboxed.create 1 (.node (s.node 1)) = .ok (f₁, version) ∧
    s.afterOneCycle 1 f₁ = .ok o ∧
    ∀ g result, Run algorithm 1 s f₁ .queued g (.finished (.ok result)) → result = o := by
  have size : baseView.1.views.size = 1 := by decide +kernel
  have filled : baseView.2.toOption.isSome = true := by decide +kernel
  obtain ⟨⟨⟩, filled⟩ := exists_eq_ok filled
  have loaded : baseView = (baseView.1, .ok ()) := Prod.ext rfl filled
  obtain ⟨s, f₁, version, created, added, -⟩ :=
    exists_added sandboxed largeMachine 1 1 (fun _ _ => true) (by decide +kernel)
  obtain ⟨valid, readable, contents, -, distinct⟩ :=
    Forest.loadSnapshot_newBase Forest.valid_empty loaded
  have sound := Snapshot.sound_cluster distinct (by decide) (by decide +kernel)
  have view := Forest.view_sandbox baseView.1 "sandbox" 0
  have valid' : sandboxed.Valid := Forest.valid_sandbox "sandbox" valid readable.lt_size
  have readable' := Forest.readable_sandbox "sandbox" valid readable
  rw [← contents, ← Forest.cluster_sandbox "sandbox" valid readable.lt_size] at sound
  rw [size] at view sound readable'
  obtain ⟨o, one, all⟩ := outcome_independent_of_timing valid' readable' sound.named sound.nonneg
    (by simp [sandboxed, view]) created added
  exact ⟨s, f₁, version, o, created, added, one,
    fun g result run => ((all g _ run).2.1 result rfl).1⟩

/-- The sandbox tells, before there is any simulation, that the workload fits nowhere. -/
def toldSandbox : Forest :=
  .replay ∅ [.base "base", .ask 0 (.load oneWorkload), .sandbox "sandbox" 0,
    .ask 1 (.reportUnschedulable ⟨"default", "web"⟩ "no fit")]

/-- A look at the whole log is enough, but does not show what a complete cycle comes to. -/
def misled (s : Simulation) (f : Forest) : Bool :=
  let p := s.unread.read (f.view s.view).events.toList
  decide (p.verdict none false = .settled) &&
    match p.outcome f s.view s.name s.placement (s.node 1), s.afterOneCycle 1 f with
    | .ok early, .ok o => decide (early ≠ o)
    | _, _ => false

/-- What has been told before is read as well. The watcher has then seen enough before the scheduler
has made a single call, and leaves over what a complete cycle places. Once a scheduler that reports
nothing has completed a cycle, on the other hand, the next look is not enough. -/
theorem outcome_independent_of_timing_told :
    (toldSandbox.Valid ∧ toldSandbox.Readable 1 ∧
      (∀ n ∈ (toldSandbox.cluster 1).nodes, n.name ≠ "") ∧
      NonNegative (toldSandbox.cluster 1).runtimeClasses (toldSandbox.cluster 1).workloads ∧
      ∃ s f₁ version o early p, create toldSandbox largeMachine 1 = .ok s ∧
        toldSandbox.create 1 (.node (s.node 1)) = .ok (f₁, version) ∧
        s.afterOneCycle 1 f₁ = .ok o ∧
        Run algorithm 1 s f₁ .queued f₁ (.running (algorithm.cycle {}) p true) ∧
        Run algorithm 1 s f₁ .queued f₁ (.finished (.ok early)) ∧ early ≠ o) ∧
    ∃ s f₁ version, create sandboxed largeMachine 1 = .ok s ∧
      sandboxed.create 1 (.node (s.node 1)) = .ok (f₁, version) ∧
      Run Rehearsal.idle 1 s f₁ .queued f₁
        (.running (.done ({ cycles := 1 }, .finished 0 0)) s.unread false) ∧
      ∃ events, f₁.eventsFrom 1 0 = .ok events ∧
        (s.unread.read events).verdict none false = .waiting := by
  have valid : toldSandbox.Valid := Forest.valid_replay Forest.valid_empty _
  have readable : toldSandbox.Readable 1 := by
    unfold Forest.Readable
    decide +kernel
  refine ⟨⟨valid, readable, by decide +kernel, by decide +kernel, ?_⟩, ?_⟩
  · obtain ⟨s, f₁, version, created, added, shown⟩ :=
      exists_added toldSandbox largeMachine 1 1 misled (by decide +kernel)
    obtain ⟨-, view, -⟩ := create_eq_ok valid readable created
    obtain ⟨-, wrote⟩ := Forest.wrote_create valid readable added
    have news := Forest.eventsFrom_eq (wrote.touches.readable readable) 0
    rw [← view, List.drop_zero] at news
    rw [misled, Bool.and_eq_true, decide_eq_true_iff] at shown
    obtain ⟨settled, differs⟩ := shown
    split at differs
    · rename_i early o reached one
      have stopped : Steps algorithm 1 s f₁ .queued f₁ (.running (algorithm.cycle {}) _ true) :=
        (Steps.single .launch).trans (.single (.stop news settled))
      exact ⟨s, f₁, version, o, early, _, created, added, one, stopped.run,
        (stopped.trans (.single (.finish reached))).run, of_decide_eq_true differs⟩
    · exact absurd differs Bool.false_ne_true
  · obtain ⟨s, f₁, version, created, added, shown⟩ :=
      exists_added sandboxed largeMachine 1 1
        (fun s f => !f.isClosed 1 &&
          decide ((s.unread.read (f.view 1).events.toList).verdict none false = .waiting))
        (by decide +kernel)
    rw [Bool.and_eq_true, Bool.not_eq_true', decide_eq_true_iff] at shown
    obtain ⟨opened, waiting⟩ := shown
    refine ⟨s, f₁, version, created, added, (Steps.single .launch).run, _, ?_, waiting⟩
    rw [Forest.eventsFrom, Forest.whileOpen, opened]
    rfl

end ScaleAdvisor.Simulation
