import Mathlib.Data.List.Forall2
import ScaleAdvisor.Advice.Pass
import ScaleAdvisor.Proofs.Simulation.Interleaving

/-!
Simulations side by side, in every order of steps. Each works on a view of its own, and no view is
laid over another's; so for each of them the others do nothing, and what it comes to is what it
would come to alone.

* `SideBySide.run_each`: a run of all is a run of each;
* `Run.success`: what a simulation that succeeds leaves behind, and what its outcome tells;
* `Conductor.Interleaves`: what is asked of whatever takes simulations from start to end.
-/

namespace ScaleAdvisor

/-- The outcome tells what a cycle over these contents decides: what it places, on the added node or
elsewhere, and what it leaves. -/
structure Outcome.Tells (o : Outcome) (C : Cluster) : Prop where
  scaled : ∀ k, k ∈ o.scaled.workloads.map (·.1) ↔ ⟨k, some o.scaledNode.name⟩ ∈ C.decisions
  assigned : ∀ k, k ∈ o.assigned ↔ ∃ node, ⟨k, some node⟩ ∈ C.decisions
  left : o.unscheduled = C.packed.pendingKeys.keys

namespace Simulation

open BinPack

/-- A simulation, and where it stands. -/
abbrev Member := Simulation × Phase

/-- A simulation as it is handed back agrees with where its steps have led. -/
structure Ended (m : Member) (s : Simulation) : Prop where
  candidate : s.candidate = m.1.candidate
  template : s.template = m.1.template
  view : s.view = m.1.view
  outcome : ∀ o, s.outcome? = some o → m.2 = .finished (.ok o)

namespace SideBySide

/-- One of the simulations takes a step. -/
inductive Step (a : Algorithm) (pass : Nat) : Forest → List Member → Forest → List Member →
    Prop where
  | head {f g : Forest} {s : Simulation} {phase next : Phase} {rest : List Member}
      (step : Simulation.Step a pass s f phase g next) :
      Step a pass f ((s, phase) :: rest) g ((s, next) :: rest)
  | tail {f g : Forest} {m : Member} {rest rest' : List Member}
      (step : Step a pass f rest g rest') : Step a pass f (m :: rest) g (m :: rest')

inductive Run (a : Algorithm) (pass : Nat) : Forest → List Member → Forest → List Member →
    Prop where
  | refl (f : Forest) (members : List Member) : Run a pass f members f members
  | step {f g h : Forest} {members middle last : List Member} (run : Run a pass f members g middle)
      (step : Step a pass g middle h last) : Run a pass f members h last

/-- No simulation's view is laid over that of another one. -/
def Apart (f : Forest) (sims : List Simulation) : Prop :=
  sims.Pairwise fun s t => s.view ∉ f.line t.view ∧ t.view ∉ f.line s.view

end SideBySide

variable {a : Algorithm} {pass : Nat} {f g : Forest}

theorem Step.touches {s : Simulation} {phase next : Phase} (valid : f.Valid)
    (step : Step a pass s f phase g next) : Forest.Touches f g s.view ∧ g.Valid := by
  cases step with
  | begin added =>
    obtain ⟨opened, rfl, -⟩ := Forest.create_eq_ok added
    have wrote :=
      Forest.wrote_commit valid (Forest.lt_size_of_open opened) .added (.node (s.node pass))
    exact ⟨wrote.touches, wrote.valid⟩
  | call => exact Forest.touches_perform valid s.view _
  | launch | again | wait | stop | finish | fail => exact ⟨.refl f s.view, valid⟩

namespace SideBySide

section Matched

variable {α β γ : Type} {R : α → β → Prop} {xs : List α} {ys : List β} {zs : List γ}

theorem exists_left (matched : List.Forall₂ R xs ys) {y : β} (h : y ∈ ys) : ∃ x ∈ xs, R x y := by
  induction matched with
  | nil => simp at h
  | @cons x z _ _ head _ ih =>
    obtain rfl | h := List.mem_cons.mp h
    · exact ⟨x, by simp, head⟩
    · obtain ⟨w, hw, rest⟩ := ih h
      exact ⟨w, by simp [hw], rest⟩

theorem exists_right (matched : List.Forall₂ R xs ys) {x : α} (h : x ∈ xs) : ∃ y ∈ ys, R x y :=
  exists_left matched.flip h

theorem map_eq_of_matched (matched : List.Forall₂ R xs ys) {p : α → γ} {q : β → γ}
    (same : ∀ x y, R x y → q y = p x) : ys.map q = xs.map p := by
  induction matched with
  | nil => rfl
  | cons head _ ih => rw [List.map_cons, List.map_cons, same _ _ head, ih]

/-- What is matched with something that is matched with a third thing is matched with that. -/
theorem matched_trans {S : β → γ → Prop} {T : α → γ → Prop} (first : List.Forall₂ R xs ys)
    (second : List.Forall₂ S ys zs) (both : ∀ x y z, R x y → S y z → T x z) :
    List.Forall₂ T xs zs := by
  induction first generalizing zs with
  | nil =>
    cases second
    exact .nil
  | cons head _ ih =>
    cases second with
    | cons head' rest' => exact .cons (both _ _ _ head head') (ih rest')

end Matched

theorem map_fst_waiting (sims : List Simulation) :
    (sims.map fun s => ((s, .waiting) : Member)).map (·.1) = sims := by
  rw [List.map_map]
  exact List.map_id sims

/-- The same simulation, some steps later. -/
def Later (a : Algorithm) (pass : Nat) (f g : Forest) (m m' : Member) : Prop :=
  m'.1 = m.1 ∧ Simulation.Run a pass m.1 f m.2 g m'.2

theorem later_trans {h : Forest} {members middle after : List Member}
    (first : List.Forall₂ (Later a pass f g) members middle)
    (second : List.Forall₂ (Later a pass g h) middle after) :
    List.Forall₂ (Later a pass f h) members after := by
  refine matched_trans first second ?_
  rintro m m' m'' ⟨same, run⟩ ⟨same', run'⟩
  rw [same] at run'
  exact ⟨same'.trans same, run.trans run'⟩

theorem map_fst_of_later {members after : List Member}
    (each : List.Forall₂ (Later a pass f g) members after) :
    after.map (·.1) = members.map (·.1) :=
  map_eq_of_matched each fun _ _ later => later.1

/-- A step of one of them is a step for that one, and nothing for each other one. -/
theorem step_each {members after : List Member} (valid : f.Valid)
    (apart : Apart f (members.map (·.1))) (step : Step a pass f members g after) :
    (∃ s ∈ members.map (·.1), Forest.Touches f g s.view) ∧ g.Valid ∧
      List.Forall₂ (Later a pass f g) members after := by
  induction step with
  | @head g s phase next rest step =>
    obtain ⟨touches, valid'⟩ := step.touches valid
    rw [List.map_cons, Apart, List.pairwise_cons] at apart
    refine ⟨⟨s, by simp, touches⟩, valid', .cons ⟨rfl, .own (.refl _ _) step⟩ ?_⟩
    apply List.forall₂_same.mpr
    intro m hm
    refine ⟨rfl, .other (.refl _ _) valid' fun u hu => touches.elsewhere ?_⟩
    rintro rfl
    exact (apart.1 m.1 (List.mem_map_of_mem hm)).1 hu
  | @tail g m rest rest' step ih =>
    rw [List.map_cons, Apart, List.pairwise_cons] at apart
    obtain ⟨⟨s, hs, touches⟩, valid', each⟩ := ih apart.2
    refine ⟨⟨s, List.mem_cons_of_mem _ hs, touches⟩, valid', .cons ⟨rfl, ?_⟩ each⟩
    refine .other (.refl _ _) valid' fun u hu => touches.elsewhere ?_
    rintro rfl
    exact (apart.1 s hs).2 hu

/-- What a run of all leaves alone. -/
structure Spares (f g : Forest) (sims : List Simulation) : Prop where
  valid : g.Valid
  size : g.views.size = f.views.size
  elsewhere : ∀ u, (∀ s ∈ sims, s.view ≠ u) → g.view u = f.view u
  line : ∀ u, g.line u = f.line u
  closed : ∀ u, (g.view u).closed = (f.view u).closed

theorem Spares.readable {sims : List Simulation} (spares : Spares f g sims) {u : ViewId}
    (readable : f.Readable u) : g.Readable u := by
  intro w hw
  rw [spares.line] at hw
  rw [spares.closed]
  exact readable w hw

/-- A run of all is a run of each. -/
theorem run_each {members after : List Member} (valid : f.Valid)
    (apart : Apart f (members.map (·.1))) (run : Run a pass f members g after) :
    Spares f g (members.map (·.1)) ∧ List.Forall₂ (Later a pass f g) members after := by
  induction run with
  | refl =>
    exact ⟨⟨valid, rfl, fun _ _ => rfl, fun _ => rfl, fun _ => rfl⟩,
      List.forall₂_same.mpr fun m _ => ⟨rfl, .refl _ _⟩⟩
  | @step g h members middle last run step ih =>
    obtain ⟨spares, each⟩ := ih apart
    have sims := map_fst_of_later each
    have apart' : Apart g (middle.map (·.1)) := by
      rw [sims]
      refine List.Pairwise.imp (fun {s t} ⟨st, ts⟩ => ?_) apart
      rw [spares.line, spares.line]
      exact ⟨st, ts⟩
    obtain ⟨⟨s, hs, touches⟩, valid', next⟩ := step_each spares.valid apart' step
    rw [sims] at hs
    refine ⟨⟨valid', touches.size.trans spares.size, ?_, ?_, ?_⟩,
      later_trans each next⟩
    · intro u unused
      rw [touches.elsewhere (Ne.symm (unused s hs)), spares.elsewhere u unused]
    · intro u
      rw [touches.line_eq, spares.line]
    · intro u
      rw [touches.closed_eq, spares.closed]

/-- A simulation as it was set up, and as it is handed back after a run. -/
structure Done (a : Algorithm) (pass : Nat) (f g : Forest) (s s' : Simulation) : Prop where
  candidate : s'.candidate = s.candidate
  template : s'.template = s.template
  view : s'.view = s.view
  outcome : ∀ o, s'.outcome? = some o → Simulation.Run a pass s f .waiting g (.finished (.ok o))

theorem done_each {sims returned : List Simulation} {members : List Member}
    (each : List.Forall₂ (Later a pass f g) (sims.map (·, .waiting)) members)
    (ended : List.Forall₂ Ended members returned) :
    List.Forall₂ (Done a pass f g) sims returned := by
  refine matched_trans (List.forall₂_map_left_iff.mp each) ended ?_
  rintro s m s' later fits
  refine ⟨?_, ?_, ?_, ?_⟩
  · rw [fits.candidate, later.1]
  · rw [fits.template, later.1]
  · rw [fits.view, later.1]
  · intro o succeeded
    rw [← fits.outcome o succeeded]
    exact later.2

end SideBySide

/-- Before its node is there a simulation has done nothing. -/
theorem Run.begun {s : Simulation} {first phase : Phase} (valid : f.Valid)
    (run : Run a pass s f first g phase) (start : first = .waiting) :
    (phase = .waiting ∧ g.Valid ∧ ∀ u ∈ f.line s.view, g.view u = f.view u) ∨
      (∃ e, phase = .finished (.error e)) ∨
      ∃ h : Forest, ∃ h₁ version, h.Valid ∧ (∀ u ∈ f.line s.view, h.view u = f.view u) ∧
        h.create s.view (.node (s.node pass)) = .ok (h₁, version) ∧
          Run a pass s h₁ .queued g phase := by
  induction run with
  | refl =>
    subst start
    exact .inl ⟨rfl, valid, fun _ _ => rfl⟩
  | own _ step ih =>
    rcases ih start with ⟨rfl, valid', same⟩ | ⟨e, rfl⟩ | ⟨h, h₁, version, valid', same, added, run⟩
    · cases step with
      | begin added => exact .inr (.inr ⟨_, _, _, valid', same, added, .refl _ _⟩)
      | fail e => exact .inr (.inl ⟨e, rfl⟩)
    · cases step with
      | fail _ ongoing => simp [Phase.isOver] at ongoing
    · exact .inr (.inr ⟨h, h₁, version, valid', same, added, .own run step⟩)
  | @other g h _ _ _ valid'' apart ih =>
    rcases ih start with ⟨rfl, valid', same⟩ | failed | ⟨h, h₁, version, valid', same, added, run⟩
    · refine .inl ⟨rfl, valid'', ?_⟩
      intro u hu
      rw [apart u (by rwa [Forest.line_congr same]), same u hu]
    · exact .inr (.inl failed)
    · exact .inr (.inr ⟨h, h₁, version, valid', same, added, .other run valid'' apart⟩)

/-- Set up over a view that nobody has written to yet. -/
structure Fresh (f : Forest) (s : Simulation) : Prop where
  stage : s.stage = .pending
  readable : f.Readable s.view
  wanted : s.unscheduled = (f.cluster s.view).pendingKeys
  something : s.unscheduled.keys ≠ []
  silent : (f.view s.view).events = #[]

/-- What a simulation that succeeds over some contents has made of its view, and what its outcome
tells. -/
structure Success (pass : Nat) (C : Cluster) (g : Forest) (s : Simulation) (o : Outcome) :
    Prop where
  name : o.name = s.name
  placement : o.placement = s.placement
  node : o.scaledNode = s.node pass
  free : C.get? ⟨.node, o.scaledNode.name⟩ = none
  contents : g.cluster s.view = (C.addNode o.scaledNode).packed
  tells : o.Tells (C.addNode o.scaledNode)

/-- Success is that of the simulation handed back, too. -/
theorem Success.done {C : Cluster} {s s' : Simulation} {o : Outcome}
    (success : Success pass C g s o) (done : SideBySide.Done a pass f g s s') :
    Success pass C g s' o where
  name := by rw [success.name, Simulation.name, Simulation.name, done.candidate]
  placement := by
    rw [success.placement, Simulation.placement, Simulation.placement, done.candidate,
      done.template]
  node := by rw [success.node, Simulation.node, Simulation.node, done.candidate, done.template]
  free := success.free
  contents := by rw [done.view, success.contents]
  tells := success.tells

/-- The outcome of a log that reports one whole cycle tells what that cycle has decided. -/
theorem tells_of_reports {s : Simulation} {C₀ : Cluster} (opening : Opening s C₀ [])
    {E : List ViewEvent} (reports : E.map (·.report) = C₀.decisions.map (·.report))
    (placement : Placement) (node : Node) :
    ((s.unread.read E).outcomeOver C₀.packed s.name placement node).Tells C₀ := by
  have distinct := Cluster.nodup_decided opening.sound.keyed opening.sound.named
  have placed (k : WorkloadKey) (node : String) :
      (s.unread.read E).scheduled.get? k = some node ↔ ⟨k, some node⟩ ∈ C₀.decisions := by
    have once : ((placements E).map (·.1)).Nodup := by
      rw [placements_of_reports reports]
      apply List.pairwise_map.mpr
      apply List.pairwise_filterMap.mpr
      refine (List.pairwise_map.mp distinct).imp fun {d d'} apart x hx y hy => ?_
      obtain ⟨_, -, rfl⟩ := Option.map_eq_some_iff.mp hx
      obtain ⟨_, -, rfl⟩ := Option.map_eq_some_iff.mp hy
      exact apart
    have start : s.unread.scheduled.get? k = none := rfl
    rw [SimulationProgress.get?_scheduled_read, start, Option.none_or]
    constructor
    · intro found
      have listed := SortedMap.mem_of_find found
      rw [placements_of_reports reports] at listed
      obtain ⟨⟨k', _⟩, hd, same⟩ := List.mem_filterMap.mp listed
      obtain ⟨node', rfl, same⟩ := Option.map_eq_some_iff.mp same
      cases same
      exact hd
    · intro hd
      apply SortedMap.find_eq_some_of_mem once
      rw [placements_of_reports reports]
      exact List.mem_filterMap.mpr ⟨_, hd, rfl⟩
  refine ⟨?_, ?_, ?_⟩
  · intro k
    rw [SimulationProgress.mem_scaled_iff, placed]
    rfl
  · intro k
    simp only [SimulationProgress.mem_assigned_iff, placed]
  · have left := unscheduled_read opening reports
    rw [List.nil_append] at left
    rw [← left]
    rfl

/-- Once its node is there, which needs the name to be free, a simulation and its view agree. -/
theorem Run.coherent {s : Simulation} {phase : Phase} (valid : f.Valid)
    (sound : (f.cluster s.view).Sound) (fresh : Fresh f s)
    (run : Run algorithm pass s f .waiting g phase) :
    (phase = .waiting ∧ g.Valid ∧ ∀ u ∈ f.line s.view, g.view u = f.view u) ∨
      (∃ e, phase = .finished (.error e)) ∨
      ∃ reported, (f.cluster s.view).get? ⟨.node, (s.node pass).name⟩ = none ∧
        Opening s ((f.cluster s.view).addNode (s.node pass)) [] ∧ Underway s [] g reported ∧
          Coherent pass s ((f.cluster s.view).addNode (s.node pass)) [] g reported phase := by
  rcases run.begun valid rfl with waiting | failed | ⟨h, h₁, version, valid', same, added, run⟩
  · exact .inl waiting
  · exact .inr (.inl failed)
  · have cluster := Forest.cluster_congr same
    have top := same s.view (by simp [Forest.line])
    have readable := Forest.readable_congr same fresh.readable
    have silent : (h.view s.view).events.toList = [] := by rw [top, fresh.silent]
    obtain ⟨free, -, opening, underway, coherent⟩ := opening_of_added valid' readable
      (by rw [cluster]; exact sound) (by rw [cluster]; exact fresh.wanted) fresh.something
      (by simp [silent]) added
    rw [silent] at opening underway coherent
    rw [cluster] at free opening coherent
    obtain ⟨reported, underway', coherent'⟩ := coherent.run opening underway run
    exact .inr (.inr ⟨_, free, opening, underway', coherent'⟩)

/-- What a simulation that succeeds leaves behind. -/
theorem Run.success {s : Simulation} {o : Outcome} (valid : f.Valid)
    (sound : (f.cluster s.view).Sound) (fresh : Fresh f s)
    (run : Run algorithm pass s f .waiting g (.finished (.ok o))) :
    Success pass (f.cluster s.view) g s o := by
  rcases run.coherent valid sound fresh with ⟨waiting, -⟩ | ⟨e, failed⟩ |
    ⟨reported, free, opening, -, coherent⟩
  · simp at waiting
  · simp at failed
  · cases coherent with
    | succeeded contents reports =>
      exact ⟨rfl, rfl, rfl, free, contents, tells_of_reports opening reports _ _⟩

end Simulation

/-- What is asked of a conductor: whatever it does with simulations over views that are apart, it is
some order of their steps, and it comes out ready for more. -/
structure Conductor.Interleaves {σ : Type} (c : Conductor σ) (a : Algorithm) (ready : σ → Prop) :
    Prop where
  runAll (pass : Nat) {f : Forest} {clock : σ} {sims : List Simulation} (set : ready clock)
    (valid : f.Valid) (pending : ∀ s ∈ sims, s.stage = .pending)
    (apart : Simulation.SideBySide.Apart f sims) :
    ready (c.runAll pass f clock sims).2.1 ∧
      ∃ members, Simulation.SideBySide.Run a pass f (sims.map (·, .waiting))
          (c.runAll pass f clock sims).1 members ∧
        List.Forall₂ Simulation.Ended members (c.runAll pass f clock sims).2.2

/-- Simulations that a conductor takes to their end leave all else alone, and each comes to what its
own steps lead to. -/
theorem Conductor.Interleaves.each {σ : Type} {c : Conductor σ} {a : Algorithm} {ready : σ → Prop}
    (interleaves : c.Interleaves a ready) (pass : Nat) {f : Forest} {clock : σ}
    {sims : List Simulation} (set : ready clock) (valid : f.Valid)
    (pending : ∀ s ∈ sims, s.stage = .pending) (apart : Simulation.SideBySide.Apart f sims) :
    ready (c.runAll pass f clock sims).2.1 ∧
      Simulation.SideBySide.Spares f (c.runAll pass f clock sims).1 sims ∧
      List.Forall₂ (Simulation.SideBySide.Done a pass f (c.runAll pass f clock sims).1) sims
        (c.runAll pass f clock sims).2.2 := by
  obtain ⟨ready', members, run, ended⟩ := interleaves.runAll pass set valid pending apart
  have firsts := Simulation.SideBySide.map_fst_waiting sims
  obtain ⟨spares, each⟩ := Simulation.SideBySide.run_each valid (by rwa [firsts]) run
  rw [firsts] at spares
  exact ⟨ready', spares, Simulation.SideBySide.done_each each ended⟩

end ScaleAdvisor
