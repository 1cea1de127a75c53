import ScaleAdvisor.Proofs.Simulation.Undisturbed

/-!
What a simulation on the clock fails over. It is cut short, since the whole run is cancelled or its
own time is over; or the name of its node is taken, and then it fails at once. No other call on its
view fails: the view stays open for as long as the simulation goes on.

* `Excused.advance`: no moment gives a simulation another reason to fail;
* `candid_conductor`: so simulations on the clock fail for no other reason;
* `Conductor.Candid.comes`: one that is not cut short comes to what it comes to by itself.
-/

namespace ScaleAdvisor

/-- The error tells that a simulation was cancelled, or that its time was over. -/
def SimulationError.isCutShort : SimulationError → Bool
  | .runSimulation _ source => source.isCutShort
  | .simulationTimeout _ | .cancelled _ | .launchScheduler (.cancelled _) => true
  | _ => false

/-- The forest is valid still, and views that could be read still can be. -/
structure Forest.Sustains (f g : Forest) : Prop where
  valid : g.Valid
  readable : ∀ u, f.Readable u → g.Readable u

theorem Forest.Sustains.refl {f : Forest} (valid : f.Valid) : f.Sustains f := ⟨valid, fun _ h => h⟩

theorem Forest.Sustains.trans {f g h : Forest} (first : f.Sustains g) (second : g.Sustains h) :
    f.Sustains h :=
  ⟨second.valid, fun u readable => second.readable u (first.readable u readable)⟩

namespace Simulation

section Sustains

variable {a : Algorithm} {pass : Nat} {s : Simulation} {f g : Forest} {phase next : Phase}

theorem Step.sustains (valid : f.Valid) (step : Step a pass s f phase g next) : f.Sustains g := by
  obtain ⟨touches, valid'⟩ := step.touches valid
  exact ⟨valid', fun _ readable => touches.readable readable⟩

theorem Steps.sustains (valid : f.Valid) (steps : Steps a pass s f phase g next) :
    f.Sustains g := by
  induction steps with
  | refl => exact .refl valid
  | snoc _ step ih => exact ih.trans (step.sustains ih.valid)

theorem SideBySide.Step.sustains {members members' : List Member} (valid : f.Valid)
    (step : SideBySide.Step a pass f members g members') : f.Sustains g := by
  induction step with
  | head step => exact step.sustains valid
  | tail _ ih => exact ih

theorem SideBySide.Run.sustains {members members' : List Member} (valid : f.Valid)
    (run : SideBySide.Run a pass f members g members') : f.Sustains g := by
  induction run with
  | refl => exact .refl valid
  | step _ step ih => exact ih.trans (step.sustains ih.valid)

end Sustains

/-- The name of the simulation's node is taken in its view. -/
def Barred (pass : Nat) (f : Forest) (s : Simulation) : Prop :=
  (f.cluster s.view).get? ⟨.node, (s.node pass).name⟩ ≠ none

/-- A simulation whose view can be read. If it has failed, it was cut short, or barred from its view
as that was at the start. -/
structure Excused (pass : Nat) (f₀ f : Forest) (s : Simulation) : Prop where
  readable : f.Readable s.view
  failed : ∀ e, s.error? = some e → e.isCutShort = true ∨ s.Barred pass f₀

section Act

variable {pass : Nat} {f₀ f g : Forest} {s : Simulation} (rules : SimulationRules) (t : Timeline)

theorem Excused.keep (excused : Excused pass f₀ f s) (sustains : f.Sustains g) :
    Excused pass f₀ g s :=
  ⟨sustains.readable _ excused.readable, excused.failed⟩

/-- A simulation that has not failed owes no excuse. -/
theorem Excused.restage (excused : Excused pass f₀ f s) {stage : SimulationStage}
    (none : ({ s with stage } : Simulation).error? = none) :
    Excused pass f₀ f { s with stage } :=
  ⟨excused.readable, fun e failed => by simp [none] at failed⟩

theorem Excused.fail (excused : Excused pass f₀ f s) {e : SimulationError}
    (cut : e.isCutShort = true) : Excused pass f₀ f (s.fail e) := by
  refine ⟨excused.readable, fun e' failed => .inl ?_⟩
  cases failed
  exact cut

/-- A loop can be started on every view that can be read. -/
theorem launch_eq_ok (valid : f.Valid) {v : ViewId} (readable : f.Readable v) (x : Launcher)
    (tokens : TokenForest) (now : Nat) (name : String) (token : TokenId) (resync : Nat) :
    (x.launch tokens now name v token resync f).2.2 = .ok x.started := by
  have opened : f.isClosed v = false := readable.isOpen
  rw [Launcher.launch, opened, Forest.nodes_eq valid readable]
  rfl

theorem Excused.enter (excused : Excused pass f₀ f s) (valid : f.Valid) (token : TokenId) :
    f.Sustains (s.enter rules token f t).1 ∧
      Excused pass f₀ (s.enter rules token f t).1 (s.enter rules token f t).2.2 := by
  rw [Simulation.enter]
  split
  · exact ⟨.refl valid, excused.fail rfl⟩
  · exact ⟨.refl valid, excused.fail rfl⟩
  · split
    · exact ⟨.refl valid, excused⟩
    · have started := launch_eq_ok valid excused.readable t.launcher t.tokens t.now s.name token
        rules.resync
      rcases launch_spec t.launcher pass s s.unread false t.tokens t.now s.name token
        rules.resync f with ⟨e, failed⟩ | ⟨f', l, scheduler, launched, -, -, steps⟩
      · simp [failed] at started
      · rw [launched]
        exact ⟨steps.sustains valid, (excused.keep (steps.sustains valid)).restage rfl⟩

theorem Excused.conclude (excused : Excused pass f₀ f s) (valid : f.Valid) (p : SimulationProgress)
    (verdict : Verdict) : Excused pass f₀ f (s.conclude pass f p verdict) := by
  cases verdict with
  | waiting => exact excused
  | cancelled cause => exact excused.fail rfl
  | timedOut => exact excused.fail rfl
  | settled =>
    rw [Simulation.conclude, SimulationProgress.outcome_eq valid excused.readable]
    exact excused.restage rfl

theorem Excused.look (excused : Excused pass f₀ f s) (valid : f.Valid) (token : TokenId)
    (loop : LoopId) (p : SimulationProgress) (nextPoll : Nat) :
    Excused pass f₀ f (s.look rules pass token loop p nextPoll f t).2 := by
  rw [Simulation.look, Forest.eventsFrom_eq excused.readable]
  dsimp only
  split
  · exact excused.restage rfl
  · exact excused.conclude valid _ _

theorem Excused.watch (excused : Excused pass f₀ f s) (valid : f.Valid) :
    Excused pass f₀ f (s.watch rules pass f t).2 := by
  rw [Simulation.watch]
  split
  · split
    · exact excused.look rules t valid _ _ _ _
    · split
      · exact excused.look rules t valid _ _ _ _
      · exact excused
  · exact excused

/-- No moment gives a simulation another reason to fail. -/
theorem Excused.advance (excused : Excused pass f₀ f s) (valid : f.Valid) :
    f.Sustains (s.advance rules pass f t).1 ∧
      Excused pass f₀ (s.advance rules pass f t).1 (s.advance rules pass f t).2.2 := by
  rw [Simulation.advance]
  cases s.stage with
  | queued token =>
    obtain ⟨sustains, entered⟩ := excused.enter rules t valid token
    exact ⟨sustains, entered.watch rules _ sustains.valid⟩
  | pending | watching | finished => exact ⟨.refl valid, excused.watch rules t valid⟩

theorem excused_advanceEach {sims : List Simulation} (valid : f.Valid)
    (excused : ∀ s ∈ sims, Excused pass f₀ f s) :
    f.Sustains (advanceEach rules pass f t sims).1 ∧
      ∀ s ∈ (advanceEach rules pass f t sims).2.2,
        Excused pass f₀ (advanceEach rules pass f t sims).1 s := by
  induction sims generalizing f t with
  | nil => exact ⟨.refl valid, by simp [advanceEach]⟩
  | cons s rest ih =>
    obtain ⟨first, others⟩ := List.forall_mem_cons.mp excused
    obtain ⟨sustains, advanced⟩ := first.advance rules t valid
    obtain ⟨sustains', rest'⟩ := ih (s.advance rules pass f t).2.1 sustains.valid
      fun s' hs' => (others s' hs').keep sustains
    exact ⟨sustains.trans sustains', List.forall_mem_cons.mpr ⟨advanced.keep sustains', rest'⟩⟩

/-- A simulation cannot begin if it is barred from its view, and otherwise it can. -/
theorem excused_begin (valid : f.Valid) (readable : f.Readable s.view)
    (same : f.cluster s.view = f₀.cluster s.view) :
    f.Touches (s.begin rules pass f t).1 s.view ∧ (s.begin rules pass f t).1.Valid ∧
      Excused pass f₀ (s.begin rules pass f t).1 (s.begin rules pass f t).2.2 := by
  rw [begin]
  split
  · rename_i e refused
    refine ⟨.refl _ _, valid, readable, fun _ _ => .inr fun free => ?_⟩
    have nothing : f.find? s.view (ClusterObject.node (s.node pass)).key = none := by
      apply (Forest.find?_eq_none_iff readable).mpr
      rw [same]
      exact free
    rw [Forest.create, Forest.get_eq readable, nothing] at refused
    cases refused
  · rename_i f' _ added
    have step : Step BinPack.algorithm pass s f .waiting f' .queued := .begin added
    obtain ⟨touches, valid'⟩ := step.touches valid
    exact ⟨touches, valid', touches.readable readable, by simp [error?]⟩

theorem excused_beginEach {sims : List Simulation} (valid : f.Valid)
    (pending : ∀ s ∈ sims, s.stage = .pending) (readable : ∀ s ∈ sims, f.Readable s.view)
    (apart : SideBySide.Apart f sims) (same : ∀ s ∈ sims, f.cluster s.view = f₀.cluster s.view) :
    f.Sustains (beginEach rules pass f t sims).1 ∧
      ∀ s ∈ (beginEach rules pass f t sims).2.2, Excused pass f₀
        (beginEach rules pass f t sims).1 s := by
  induction sims generalizing f t with
  | nil => exact ⟨.refl valid, by simp [beginEach]⟩
  | cons s rest ih =>
    simp only [List.forall_mem_cons] at pending readable same
    rw [SideBySide.Apart, List.pairwise_cons] at apart
    obtain ⟨touches, valid', begun⟩ :=
      excused_begin rules t valid readable.1 same.1
    have others : ∀ s' ∈ rest, (s.begin rules pass f t).1.cluster s'.view = f₀.cluster s'.view :=
      fun s' hs' => (touches.cluster_eq (apart.1 s' hs').1).trans (same.2 s' hs')
    have apart' : SideBySide.Apart (s.begin rules pass f t).1 rest := by
      refine apart.2.imp fun {x y} clear => ?_
      rwa [touches.line_eq, touches.line_eq]
    obtain ⟨sustains, rest'⟩ := ih (s.begin rules pass f t).2.1 valid' pending.2
      (fun s' hs' => touches.readable (readable.2 s' hs')) apart' others
    rw [beginEach, pending.1]
    exact ⟨⟨sustains.valid, fun u h => sustains.readable u (touches.readable h)⟩,
      List.forall_mem_cons.mpr ⟨begun.keep sustains, rest'⟩⟩

end Act

/-- Simulations on the clock come to their ends; none but those that are cut short or barred
fail. -/
theorem excused_runAll (rules : SimulationRules) (pass : Nat) {a : Algorithm} {f : Forest}
    {t : Timeline} {sims : List Simulation} (ready : t.Ready a rules.outer) (valid : f.Valid)
    (pending : ∀ s ∈ sims, s.stage = .pending) (readable : ∀ s ∈ sims, f.Readable s.view)
    (apart : SideBySide.Apart f sims) :
    ∀ s ∈ (runAll rules pass f t sims).2.2, s.isFinished = true ∧
      ∀ e, s.error? = some e → e.isCutShort = true ∨ s.Barred pass f := by
  obtain ⟨members, begun, scene⟩ := scene_beginEach rules pass f ready pending
  have now : (beginEach rules pass f t sims).2.1.now = t.now := by rw [begun.same]
  obtain ⟨sustains, excused⟩ := excused_beginEach rules t valid pending readable apart
    fun _ _ => rfl
  have kept :=
    runUntil_keeps rules (t.now + rules.timeout) pass t.now (beginEach rules pass f t sims).1
      (beginEach rules pass f t sims).2.1 (beginEach rules pass f t sims).2.2
    (fun g t' sims' => (∃ members, Scene rules.outer (t.now + rules.timeout) t' sims' members) ∧
      g.Valid ∧ ∀ s ∈ sims', Excused pass f g s)
    (by
      rintro now g t' sims' ⟨⟨middle, scene'⟩, valid', excused⟩
      obtain ⟨members', reaches⟩ :=
        reaches_moment rules (t.now + rules.timeout) pass now g t' scene'
      obtain ⟨_, settled, -⟩ := scene'.settle pass now g
      have settled := settled.sustains valid'
      obtain ⟨sustains', advanced⟩ := excused_advanceEach rules
        (({ t' with now } : Timeline).settle g).2 settled.valid fun s hs =>
        (excused s hs).keep settled
      exact ⟨⟨⟨members', reaches.scene⟩, sustains'.valid, advanced⟩, reaches.going⟩)
    ⟨⟨members, scene⟩, sustains.valid, excused⟩
  obtain ⟨⟨-, -, excused⟩, all⟩ := kept
  rw [runAll]
  dsimp only
  rw [now]
  exact fun s hs => ⟨List.all_eq_true.mp all s hs, (excused s hs).failed⟩

end Simulation

/-- What is asked of a conductor besides: everyone it hands back is over, and who has failed was cut
short, or was barred from its view. -/
structure Conductor.Candid {σ : Type} (c : Conductor σ) (a : Algorithm) (ready : σ → Prop) : Prop
    extends c.Interleaves a ready where
  excused (pass : Nat) {f : Forest} {clock : σ} {sims : List Simulation} (set : ready clock)
    (valid : f.Valid) (pending : ∀ s ∈ sims, s.stage = .pending)
    (readable : ∀ s ∈ sims, f.Readable s.view) (apart : Simulation.SideBySide.Apart f sims) :
    ∀ s ∈ (c.runAll pass f clock sims).2.2, s.isFinished = true ∧
      ∀ e, s.error? = some e → e.isCutShort = true ∨ s.Barred pass f

/-- Simulations on the clock fail for no other reason. -/
theorem candid_conductor (rules : SimulationRules) (a : Algorithm) :
    rules.conductor.Candid a (Timeline.Ready a rules.outer) where
  toInterleaves := interleaves_conductor rules a
  excused pass _ _ _ set valid pending readable apart :=
    Simulation.excused_runAll rules pass set valid pending readable apart

namespace Simulation

/-- A simulation that is over, and has failed only if it was barred, comes to what it comes to by
itself. -/
theorem comes_of_ended {pass : Nat} {f g : Forest} {s s' : Simulation} {m : Member}
    (valid : f.Valid) (sound : (f.cluster s.view).Sound) (fresh : Fresh f s)
    (later : SideBySide.Later BinPack.algorithm pass f g (s, .waiting) m) (ended : Ended m s')
    (finished : s'.isFinished = true) (failed : ∀ e, s'.error? = some e → s'.Barred pass f) :
    Comes pass f g s s' := by
  obtain ⟨same, run⟩ := later
  have candidate : s'.candidate = s.candidate := by rw [ended.candidate, same]
  have template : s'.template = s.template := by rw [ended.template, same]
  have view : s'.view = s.view := by rw [ended.view, same]
  refine ⟨candidate, ?_⟩
  rw [found, view]
  cases outcome : s'.outcome? with
  | some o =>
    dsimp only at run
    rw [ended.outcome o outcome] at run
    exact run.found_eq valid sound fresh (by simp)
  | none =>
    have taken : s'.Barred pass f := by
      rw [isFinished] at finished
      rw [outcome?] at outcome
      rw [error?] at failed
      cases stage : s'.stage with
      | pending | queued | watching => simp [stage] at finished
      | finished result =>
        cases result with
        | ok o => simp [stage] at outcome
        | error e => exact failed e (by rw [stage])
    rw [Barred, view, node, candidate, template] at taken
    exact run.found_of_taken valid fresh taken

end Simulation

/-- Simulations that are not cut short come to what each comes to by itself. -/
theorem Conductor.Candid.comes {σ : Type} {c : Conductor σ} {ready : σ → Prop} {pass : Nat}
    {f : Forest} {clock : σ} {sims : List Simulation} (candid : c.Candid BinPack.algorithm ready)
    (set : ready clock) (valid : f.Valid) (apart : Simulation.SideBySide.Apart f sims)
    (sound : ∀ s ∈ sims, (f.cluster s.view).Sound) (fresh : ∀ s ∈ sims, Simulation.Fresh f s)
    (whole : ∀ s ∈ (c.runAll pass f clock sims).2.2, ∀ e, s.error? = some e →
      e.isCutShort = false) :
    List.Forall₂ (Simulation.Comes pass f (c.runAll pass f clock sims).1) sims
      (c.runAll pass f clock sims).2.2 := by
  have pending : ∀ s ∈ sims, s.stage = .pending := fun s hs => (fresh s hs).stage
  obtain ⟨-, members, run, ended⟩ := candid.runAll pass set valid pending apart
  obtain ⟨-, each⟩ := Simulation.SideBySide.run_each valid
    (by rwa [Simulation.SideBySide.map_fst_waiting]) run
  have fair : ∀ s ∈ (c.runAll pass f clock sims).2.2,
      s.isFinished = true ∧ ∀ e, s.error? = some e → s.Barred pass f := by
    intro s hs
    obtain ⟨finished, excused⟩ :=
      candid.excused pass set valid pending (fun s hs => (fresh s hs).readable) apart s hs
    refine ⟨finished, fun e failed => (excused e failed).resolve_left ?_⟩
    simp [whole s hs e failed]
  have steps := (List.forall₂_and_left _ _).mpr
    ⟨fun s hs => And.intro (sound s hs) (fresh s hs), List.forall₂_map_left_iff.mp each⟩
  have back := ((List.forall₂_and_left _ _).mpr ⟨fair, ended.flip⟩).flip
  refine Simulation.SideBySide.matched_trans steps back ?_
  rintro s m s' ⟨⟨sound, fresh⟩, later⟩ ⟨⟨finished, failed⟩, ended⟩
  exact Simulation.comes_of_ended valid sound fresh later ended finished failed

end ScaleAdvisor
