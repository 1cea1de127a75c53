import ScaleAdvisor.Proofs.Simulation.Clock

/-!
Simulations that nothing disturbs: none is cancelled, and none runs out of time. Then one fails only
over a call on its own view, and the only such call is the first one, when the name of its node is
taken. So what there is to find in the end follows from what the view stood for at the start,
whoever runs beside it and in whatever order.

* `Coherent.no_defect`: once the node is there no call fails;
* `alone`, `Run.found_eq`: what a simulation comes to, computed from the contents of its view;
* `Conductor.Undisturbed.each`: so does each of those side by side;
* `Conductor.Interleaves.undisturbed`: where all have succeeded nothing has disturbed them.
-/

namespace ScaleAdvisor

open BinPack

/-- What there is to find when a simulation is over: its outcome, if it has succeeded, what its view
stands for, and what has been reported there. Versions are left out. -/
structure Found where
  outcome : Option Outcome
  contents : Cluster
  reports : List (EventReason × WorkloadKey × Option String)

/-- An event that reports a decision and says no more. -/
def BinPack.Decision.event (d : Decision) : ViewEvent :=
  ⟨0, d.report.1, d.report.2.1, d.report.2.2, "", 0⟩

/-- What the simulation of a candidate comes to by itself over some contents: it packs them together
with the candidate's node, if the name of that node is free. -/
def Candidate.alone (c : Candidate) (t : NodeTemplate) (pass : Nat) (C : Cluster) : Found :=
  if C.get? ⟨.node, c.nodeName t pass⟩ = none then
    let C₀ := C.addNode (c.node t pass)
    let told := SimulationProgress.read { unscheduled := C.pendingKeys }
      (C₀.decisions.map (·.event))
    { outcome := some (told.outcomeOver C₀.packed c.name (c.placement t) (c.node t pass))
      contents := C₀.packed
      reports := C₀.decisions.map (·.report) }
  else { outcome := none, contents := C, reports := [] }

/-- An outcome bears the name of its candidate. -/
theorem Candidate.name_of_alone {c : Candidate} {t : NodeTemplate} {pass : Nat} {C : Cluster}
    {o : Outcome} (succeeded : (c.alone t pass C).outcome = some o) : o.name = c.name := by
  rw [alone] at succeeded
  split at succeeded
  · cases succeeded
    rfl
  · simp at succeeded

namespace Simulation

/-- What there is to find of a simulation. -/
def found (f : Forest) (s : Simulation) : Found where
  outcome := s.outcome?
  contents := f.cluster s.view
  reports := (f.view s.view).events.toList.map (·.report)

/-- A call of the simulation on its own view has failed: it could not add its node, have a scheduler
started, read the log, or tell its outcome. -/
inductive Defect (pass : Nat) (s : Simulation) (f : Forest) : Phase → SimulationError → Prop where
  | node {e : ViewError} (refused : f.create s.view (.node (s.node pass)) = .error e) :
      Defect pass s f .waiting (.view e)
  | closed (gone : f.isClosed s.view = true) :
      Defect pass s f .queued
        (.launchScheduler (.launchScheduler s.name ("view " ++ f.name s.view ++ " is closed")))
  | listing {e : ViewError} (refused : f.nodes s.view = .error e) :
      Defect pass s f .queued (.launchScheduler (.launchScheduler s.name e.message))
  | log {scheduler : Program (CycleMemory × CycleEnd)} {p : SimulationProgress} {e : ViewError}
      (refused : f.eventsFrom s.view p.cursor = .error e) :
      Defect pass s f (.running scheduler p false) (.view e)
  | outcome {scheduler : Program (CycleMemory × CycleEnd)} {p : SimulationProgress} {e : ViewError}
      (refused : p.outcome f s.view s.name s.placement (s.node pass) = .error e) :
      Defect pass s f (.running scheduler p true) (.view e)

section One

variable {a : Algorithm} {pass : Nat} {s : Simulation} {f g : Forest} {phase : Phase}
  {e : SimulationError}

/-- A simulation whose node cannot be added does nothing but fail. -/
theorem Run.refused {first : Phase} (valid : f.Valid) (readable : f.Readable s.view)
    (taken : (f.cluster s.view).get? ⟨.node, (s.node pass).name⟩ ≠ none)
    (run : Run a pass s f first g phase) (start : first = .waiting) :
    (phase = .waiting ∨ ∃ e, phase = .finished (.error e)) ∧ g.Valid ∧
      ∀ u ∈ f.line s.view, g.view u = f.view u := by
  induction run with
  | refl => exact ⟨.inl start, valid, fun _ _ => rfl⟩
  | own _ step ih =>
    obtain ⟨rfl | ⟨e, rfl⟩, valid', same⟩ := ih start
    · cases step with
      | begin added =>
        obtain ⟨free, -⟩ := Forest.wrote_create valid' (Forest.readable_congr same readable) added
        rw [Forest.cluster_congr same] at free
        exact absurd free taken
      | fail e => exact ⟨.inr ⟨e, rfl⟩, valid', same⟩
    · cases step with
      | fail _ ongoing => simp [Phase.isOver] at ongoing
  | other _ valid'' apart ih =>
    obtain ⟨outcome, -, same⟩ := ih start
    refine ⟨outcome, valid'', fun u hu => ?_⟩
    rw [apart u (by rwa [Forest.line_congr same]), same u hu]

/-- Once the node is there every call succeeds. -/
theorem Coherent.no_defect {C₀ : Cluster} {L₀ : List ViewEvent} {reported : List Decision}
    (coherent : Coherent pass s C₀ L₀ f reported phase) (underway : Underway s L₀ f reported) :
    ¬ Defect pass s f phase e := by
  intro defect
  cases defect with
  | node => cases coherent
  | closed gone =>
    rw [Forest.isClosed, underway.readable.isOpen] at gone
    simp at gone
  | listing refused =>
    rw [Forest.nodes_eq underway.valid underway.readable] at refused
    simp at refused
  | log refused =>
    rw [Forest.eventsFrom_eq underway.readable] at refused
    simp at refused
  | outcome refused =>
    rw [SimulationProgress.outcome_eq underway.valid underway.readable] at refused
    simp at refused

/-- A call fails only if the name of the node is taken. -/
theorem taken_of_defect (valid : f.Valid) (sound : (f.cluster s.view).Sound) (fresh : Fresh f s)
    (run : Run algorithm pass s f .waiting g phase) (defect : Defect pass s g phase e) :
    (f.cluster s.view).get? ⟨.node, (s.node pass).name⟩ ≠ none := by
  rcases run.coherent valid sound fresh with ⟨rfl, -, same⟩ | ⟨_, rfl⟩ |
    ⟨reported, -, -, underway, coherent⟩
  · intro free
    cases defect with
    | node refused =>
      have readable := Forest.readable_congr same fresh.readable
      rw [← Forest.cluster_congr same] at free
      have nothing : g.find? s.view (ClusterObject.node (s.node pass)).key = none :=
        (Forest.find?_eq_none_iff readable).mpr free
      rw [Forest.create, Forest.get_eq readable, nothing] at refused
      cases refused
  · cases defect
  · exact absurd defect (coherent.no_defect underway)

/-- Where the node cannot be added there is nothing to find but what was there before. -/
theorem Run.found_of_taken (valid : f.Valid) (fresh : Fresh f s)
    (run : Run a pass s f .waiting g phase)
    (taken : (f.cluster s.view).get? ⟨.node, (s.node pass).name⟩ ≠ none) :
    (⟨none, g.cluster s.view, (g.view s.view).events.toList.map (·.report)⟩ : Found) =
      s.candidate.alone s.template pass (f.cluster s.view) := by
  have taken' :
    ¬ (f.cluster s.view).get? ⟨.node, s.candidate.nodeName s.template pass⟩ = none := taken
  obtain ⟨-, -, same⟩ := run.refused valid fresh.readable taken rfl
  rw [Candidate.alone, if_neg taken', Forest.cluster_congr same,
    same s.view (by simp [Forest.line]), fresh.silent]
  rfl

/-- What there is to find in the end, if nothing disturbs the simulation. -/
theorem Run.found_eq {result : Except SimulationError Outcome} (valid : f.Valid)
    (sound : (f.cluster s.view).Sound) (fresh : Fresh f s)
    (run : Run algorithm pass s f .waiting g (.finished result))
    (taken : ∀ e, result = .error e →
      (f.cluster s.view).get? ⟨.node, (s.node pass).name⟩ ≠ none) :
    (⟨result.toOption, g.cluster s.view, (g.view s.view).events.toList.map (·.report)⟩ : Found) =
      s.candidate.alone s.template pass (f.cluster s.view) := by
  cases result with
  | error e => exact run.found_of_taken valid fresh (taken e rfl)
  | ok o =>
    rcases run.coherent valid sound fresh with ⟨waiting, -⟩ | ⟨e, failed⟩ |
      ⟨reported, free, -, underway, coherent⟩
    · simp at waiting
    · simp at failed
    · cases coherent with
      | @succeeded E contents reports =>
        obtain ⟨E', log, reports'⟩ := underway.log
        have free :
          (f.cluster s.view).get? ⟨.node, s.candidate.nodeName s.template pass⟩ = none := free
        have read : s.unread.read E = SimulationProgress.read
            { unscheduled := (f.cluster s.view).pendingKeys }
            (((f.cluster s.view).addNode (s.node pass)).decisions.map (·.event)) := by
          rw [unread, fresh.wanted]
          apply SimulationProgress.read_congr
          rw [reports, List.map_map]
          rfl
        rw [Candidate.alone, if_pos free, contents, log, List.nil_append, List.nil_append, reports',
          read]
        rfl

end One

/-- Simulations go from start to end, and nothing disturbs any of them: all get to their ends, and
one that fails does so because a call on its own view has failed on the way. -/
structure SideBySide.Undisturbed (a : Algorithm) (pass : Nat) (f : Forest) (sims : List Simulation)
    (g : Forest) (last : List Member) : Prop where
  run : SideBySide.Run a pass f (sims.map (·, .waiting)) g last
  done : ∀ m ∈ last, m.2.isOver = true
  failed : ∀ s e, (s, .finished (.error e)) ∈ last → ∃ h middle phase,
    SideBySide.Run a pass f (sims.map (·, .waiting)) h middle ∧ (s, phase) ∈ middle ∧
      Defect pass s h phase e ∧ SideBySide.Run a pass h middle g last

/-- A simulation is handed back as its steps have left it. -/
structure HandedBack (m : Member) (s : Simulation) : Prop where
  candidate : s.candidate = m.1.candidate
  view : s.view = m.1.view
  outcome : ∀ result, m.2 = .finished result → s.outcome? = result.toOption

/-- A simulation as it was set up, and as it is handed back: there is to find what it comes to by
itself. -/
structure Comes (pass : Nat) (f g : Forest) (s s' : Simulation) : Prop where
  candidate : s'.candidate = s.candidate
  found : s'.found g = s.candidate.alone s.template pass (f.cluster s.view)

section All

variable {pass : Nat} {f g : Forest} {sims : List Simulation}

/-- A run of all, from the start, is a run of each. -/
theorem SideBySide.Run.member {a : Algorithm} {last : List Member} {m : Member} (valid : f.Valid)
    (apart : SideBySide.Apart f sims)
    (run : SideBySide.Run a pass f (sims.map (·, .waiting)) g last) (hm : m ∈ last) :
    m.1 ∈ sims ∧ Simulation.Run a pass m.1 f .waiting g m.2 := by
  obtain ⟨-, each⟩ := SideBySide.run_each valid (by rwa [SideBySide.map_fst_waiting]) run
  obtain ⟨_, first, same, own⟩ := SideBySide.exists_left each hm
  obtain ⟨s, hs, rfl⟩ := List.mem_map.mp first
  dsimp only at same own
  rw [same]
  exact ⟨hs, own⟩

/-- Each one comes to what it comes to by itself. -/
theorem SideBySide.Undisturbed.found_eq {last : List Member} {m : Member} (valid : f.Valid)
    (apart : SideBySide.Apart f sims) (sound : ∀ s ∈ sims, (f.cluster s.view).Sound)
    (fresh : ∀ s ∈ sims, Fresh f s)
    (undisturbed : SideBySide.Undisturbed algorithm pass f sims g last) (hm : m ∈ last) :
    ∃ result, m.2 = .finished result ∧
      (⟨result.toOption, g.cluster m.1.view, (g.view m.1.view).events.toList.map (·.report)⟩ :
        Found) = m.1.candidate.alone m.1.template pass (f.cluster m.1.view) := by
  obtain ⟨hs, run⟩ := undisturbed.run.member valid apart hm
  have done := undisturbed.done m hm
  obtain ⟨s, phase⟩ := m
  cases phase with
  | waiting | queued | running => simp [Phase.isOver] at done
  | finished result =>
    refine ⟨result, rfl, Run.found_eq valid (sound s hs) (fresh s hs) run ?_⟩
    rintro e rfl
    obtain ⟨h, middle, phase, before, there, defect, -⟩ := undisturbed.failed s e hm
    exact taken_of_defect valid (sound s hs) (fresh s hs) (before.member valid apart there).2 defect

end All

end Simulation

/-- A conductor takes these simulations to their ends in some order of their steps, disturbs none of
them, and hands them back in the order in which they happen to end. -/
def Conductor.Undisturbed {σ : Type} (c : Conductor σ) (a : Algorithm) (pass : Nat) (f : Forest)
    (clock : σ) (sims : List Simulation) : Prop :=
  ∃ last ended,
    Simulation.SideBySide.Undisturbed a pass f sims (c.runAll pass f clock sims).1 last ∧
      ended.Perm last ∧ List.Forall₂ Simulation.HandedBack ended (c.runAll pass f clock sims).2.2

namespace Conductor

variable {σ : Type} {c : Conductor σ} {pass : Nat} {f : Forest} {clock : σ} {sims : List Simulation}

/-- Simulations that nothing disturbs come to what each comes to by itself. -/
theorem Undisturbed.each (valid : f.Valid) (apart : Simulation.SideBySide.Apart f sims)
    (sound : ∀ s ∈ sims, (f.cluster s.view).Sound) (fresh : ∀ s ∈ sims, Simulation.Fresh f s)
    (undisturbed : c.Undisturbed algorithm pass f clock sims) :
    ∃ ended, ended.Perm sims ∧
      List.Forall₂ (Simulation.Comes pass f (c.runAll pass f clock sims).1) ended
        (c.runAll pass f clock sims).2.2 := by
  obtain ⟨last, ended, run, perm, back⟩ := undisturbed
  obtain ⟨-, each⟩ := Simulation.SideBySide.run_each valid
    (by rwa [Simulation.SideBySide.map_fst_waiting]) run.run
  have sims := Simulation.SideBySide.map_fst_of_later each
  rw [Simulation.SideBySide.map_fst_waiting] at sims
  refine ⟨ended.map (·.1), sims ▸ perm.map _, List.forall₂_map_left_iff.mpr ?_⟩
  have told : ∀ m ∈ ended, ∃ result, m.2 = .finished result ∧
      (⟨result.toOption, _, _⟩ : Found) =
        m.1.candidate.alone m.1.template pass (f.cluster m.1.view) :=
    fun m hm => run.found_eq valid apart sound fresh (perm.mem_iff.mp hm)
  refine ((List.forall₂_and_left _ _).mpr ⟨told, back⟩).imp ?_
  rintro m s' ⟨⟨result, done, found⟩, back⟩
  refine ⟨back.candidate, ?_⟩
  rw [Simulation.found, back.view, back.outcome result done, found]

/-- Where simulations have all succeeded nothing has disturbed them. -/
theorem Interleaves.undisturbed {a : Algorithm} {ready : σ → Prop}
    (interleaves : c.Interleaves a ready) (set : ready clock) (valid : f.Valid)
    (pending : ∀ s ∈ sims, s.stage = .pending) (apart : Simulation.SideBySide.Apart f sims)
    (all : ∀ s ∈ (c.runAll pass f clock sims).2.2, ∃ o, s.outcome? = some o) :
    c.Undisturbed a pass f clock sims := by
  obtain ⟨-, members, run, ended⟩ := interleaves.runAll pass set valid pending apart
  have succeeded : ∀ m ∈ members, ∃ o, m.2 = .finished (.ok o) := by
    intro m hm
    obtain ⟨s, hs, fits⟩ := Simulation.SideBySide.exists_right ended hm
    obtain ⟨o, outcome⟩ := all s hs
    exact ⟨o, fits.outcome o outcome⟩
  refine ⟨members, members, ⟨run, ?_, ?_⟩, .refl _, ?_⟩
  · intro m hm
    obtain ⟨o, done⟩ := succeeded m hm
    rw [done]
    rfl
  · intro s e failed
    obtain ⟨o, done⟩ := succeeded _ failed
    simp at done
  · refine (((List.forall₂_and_left _ _).mpr ⟨all, ended.flip⟩).imp ?_).flip
    rintro s m ⟨⟨o, outcome⟩, fits⟩
    refine ⟨fits.candidate, fits.view, ?_⟩
    intro result done
    rw [fits.outcome o outcome, Simulation.Phase.finished.injEq] at done
    rw [← done, outcome]
    rfl

end Conductor

end ScaleAdvisor
