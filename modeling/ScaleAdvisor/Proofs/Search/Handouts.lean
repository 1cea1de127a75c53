import ScaleAdvisor.Proofs.Search.Passes
import ScaleAdvisor.Proofs.View.Closing

/-!
The sandboxes that a pass hands out, and what becomes of them. While a pass is prepared each is that
of a simulation, or closed already; once the pass has been released all are closed but the one to
keep. Simulations that are lost on the way change nothing about that, since a release goes by the
sandboxes noted and not by the simulations that have come back.

* `Accounted.prepare`: what preparing a pass does with the sandboxes that it hands out;
* `Unreleased.release`: what a release does with them;
* `run_settles`: how a pass may end, whatever the scheduler does.
-/

namespace ScaleAdvisor

open Forest

namespace Simulation

variable {a : Algorithm} {pass : Nat} {f g : Forest}

theorem Step.becomes {s : Simulation} {phase next : Phase} (step : Step a pass s f phase g next) :
    f.Becomes g := by
  cases step with
  | begin added => exact .of_deeds (.single (deed_edit (e := .create (.node (s.node pass))) added))
  | @call c => exact .of_deeds (deeds_run (Program.ask c) f s.view)
  | launch | again | wait | stop | finish | fail => exact .refl f

theorem SideBySide.Step.becomes {members after : List Member}
    (step : SideBySide.Step a pass f members g after) : f.Becomes g := by
  induction step with
  | head step => exact step.becomes
  | tail _ ih => exact ih

theorem SideBySide.Run.becomes {members after : List Member}
    (run : SideBySide.Run a pass f members g after) : f.Becomes g := by
  induction run with
  | refl => exact .refl _
  | step _ step ih => exact ih.trans step.becomes

end Simulation

/-- What is asked of a conductor that may lose simulations: what it does to views that are apart is
some order of the steps of the simulations, and those that it hands back agree with where their
steps have led. -/
structure Conductor.MayLose {σ : Type} (c : Conductor σ) (a : Algorithm) (ready : σ → Prop) :
    Prop where
  runAll (pass : Nat) {f : Forest} {clock : σ} {sims : List Simulation} (set : ready clock)
    (valid : f.Valid) (pending : ∀ s ∈ sims, s.stage = .pending)
    (apart : Simulation.SideBySide.Apart f sims) :
    ready (c.runAll pass f clock sims).2.1 ∧
      ∃ members, Simulation.SideBySide.Run a pass f (sims.map (·, .waiting))
          (c.runAll pass f clock sims).1 members ∧
        ∀ s' ∈ (c.runAll pass f clock sims).2.2, ∃ m ∈ members, Simulation.Ended m s'

theorem Conductor.Interleaves.mayLose {σ : Type} {c : Conductor σ} {a : Algorithm}
    {ready : σ → Prop} (interleaves : c.Interleaves a ready) : c.MayLose a ready where
  runAll := by
    intro pass f clock sims set valid pending apart
    obtain ⟨ready', members, run, ended⟩ := interleaves.runAll pass set valid pending apart
    exact ⟨ready', members, run, fun s' hs' => Simulation.SideBySide.exists_left ended hs'⟩

/-- Simulations in the hands of a conductor leave all else alone, and come back as tenants of the
sandboxes that they had. -/
theorem Conductor.MayLose.spares {σ : Type} {c : Conductor σ} {a : Algorithm} {ready : σ → Prop}
    (mayLose : c.MayLose a ready) (pass : Nat) {f : Forest} {clock : σ} {sims : List Simulation}
    (set : ready clock) (valid : f.Valid) (pending : ∀ s ∈ sims, s.stage = .pending)
    (apart : Simulation.SideBySide.Apart f sims) :
    ready (c.runAll pass f clock sims).2.1 ∧ f.Becomes (c.runAll pass f clock sims).1 ∧
      Simulation.SideBySide.Spares f (c.runAll pass f clock sims).1 sims ∧
      ∀ s' ∈ (c.runAll pass f clock sims).2.2, s'.tenant ∈ sims.map Simulation.tenant := by
  obtain ⟨ready', members, run, ended⟩ := mayLose.runAll pass set valid pending apart
  have firsts := Simulation.SideBySide.map_fst_waiting sims
  obtain ⟨spares, each⟩ := Simulation.SideBySide.run_each valid (by rwa [firsts]) run
  have kept := Simulation.SideBySide.map_fst_of_later each
  rw [firsts] at spares kept
  refine ⟨ready', run.becomes, spares, ?_⟩
  intro s' hs'
  obtain ⟨m, hm, fits⟩ := ended s' hs'
  have listed : m.1 ∈ sims := by
    rw [← kept]
    exact List.mem_map_of_mem hm
  refine List.mem_map.mpr ⟨m.1, listed, ?_⟩
  rw [Simulation.tenant, Simulation.tenant, fits.candidate, fits.view]

namespace Pass

open Simulation

variable {σ : Type}

section Release

variable {keep : Option String} {f : Forest} {r : Registry}

theorem becomes_release (r : Registry) (f : Forest) (name : String) (keepOpen : Bool) :
    f.Becomes (r.release f name keepOpen).1 := by
  rw [Registry.release]
  cases keepOpen with
  | true => exact .refl f
  | false =>
    change f.Becomes (r.closeNamed f name)
    rw [Registry.closeNamed]
    split
    · exact .close f _
    · exact .refl f

theorem becomes_releaseEach (keep : Option String) (listed : List (String × String)) (f : Forest)
    (r : Registry) : f.Becomes (releaseEach keep f r listed).1 := by
  induction listed generalizing f r with
  | nil => exact .refl f
  | cons head rest ih => exact (becomes_release r f _ _).trans (ih _ _)

/-- A release gives the base of the registry back as it was. -/
theorem base_releaseEach (keep : Option String) (listed : List (String × String)) (f : Forest)
    (r : Registry) : (releaseEach keep f r listed).2.base = r.base := by
  induction listed generalizing f r with
  | nil => rfl
  | cons head rest ih => exact ih _ _

/-- A release closes every sandbox that is listed and not to be kept. -/
theorem closed_releaseEach {sandbox : String} {v : ViewId} {listed : List (String × String)}
    (held : r.sandboxes.get? sandbox = some v) (there : v < f.views.size)
    (noted : ∃ e ∈ listed, e.2 = sandbox)
    (unspared : ∀ e ∈ listed, e.2 = sandbox → keep ≠ some e.1) :
    ((releaseEach keep f r listed).1.view v).closed = true := by
  induction listed generalizing f r with
  | nil => simp at noted
  | cons head rest ih =>
    obtain ⟨simulation, other⟩ := head
    obtain ⟨first, later⟩ := List.forall_mem_cons.mp unspared
    rw [releaseEach]
    by_cases same : other = sandbox
    · subst same
      have unkept : (keep == some simulation) = false := by simpa using first rfl
      have closing : (r.release f other (keep == some simulation)).1 = f.close v := by
        rw [Registry.release, unkept, Registry.closeNamed, held]
        rfl
      dsimp only
      rw [closing]
      exact (becomes_releaseEach keep rest _ _).closed
        (Nat.lt_of_lt_of_le there (Becomes.close f v).size_le) (closed_close f v)
    · refine ih ?_ (Nat.lt_of_lt_of_le there (becomes_release r f _ _).size_le) ?_ later
      · change (r.sandboxes.erase other).get? sandbox = some v
        rw [SortedMap.get?_erase, if_neg (by simpa using Ne.symm same), held]
      · obtain ⟨e, he, same'⟩ := noted
        obtain rfl | he := List.mem_cons.mp he
        · exact absurd same' same
        · exact ⟨e, he, same'⟩

/-- The sandbox of a tenant is closed by a release, unless it is the one to keep. -/
theorem closed_release {number : Nat} {tenants : List Tenant} (p : Pass) (w : Workspace σ)
    (housed : Housed number tenants w.registry.sandboxes p.sandboxes) {t : Tenant}
    (ht : t ∈ tenants) (held : w.registry.sandboxes.get? (sandboxName number t.1) = some t.2)
    (there : t.2 < w.forest.views.size) (unkept : keep ≠ some t.1.name) :
    ((p.release keep w).forest.view t.2).closed = true := by
  have entry := (SortedMap.mem_entries_iff _).mpr (housed.listed t ht)
  refine closed_releaseEach held there ⟨_, entry, rfl⟩ ?_
  intro e he same kept
  obtain ⟨u, -, simulation, sandbox⟩ := housed.owned e.1 e.2 ((SortedMap.mem_entries_iff _).mp he)
  have named := sandboxName_inj.mp (sandbox.symm.trans same)
  exact unkept (by rw [kept, simulation, named])

end Release

/-- The sandboxes that are handed out while a pass is prepared, one for each candidate that is come
to. -/
def handedOut (base : ViewId) (w : Workspace σ) (p : Pass) : List Candidate → List ViewId
  | [] => []
  | c :: rest =>
    (w.registry.sandboxOver w.forest (sandboxName p.number c) base).2.2 ::
      if (prepare base w p [c]).2.nothingPending then []
      else handedOut base (prepare base w p [c]).1 (prepare base w p [c]).2 rest

/-- Candidates are prepared one after the other, until nothing is found to be pending. -/
theorem prepare_cons {base : ViewId} {w : Workspace σ} {p : Pass} (c : Candidate)
    (rest : List Candidate) (something : p.nothingPending = false) :
    prepare base w p (c :: rest) =
      if (prepare base w p [c]).2.nothingPending then prepare base w p [c]
      else prepare base (prepare base w p [c]).1 (prepare base w p [c]).2 rest := by
  cases created : create (w.registry.sandboxOver w.forest (sandboxName p.number c) base).1 c
      (w.registry.sandboxOver w.forest (sandboxName p.number c) base).2.2 with
  | ok s => simp [prepare, created, something]
  | error e =>
    cases nothing : e.isNothingPending with
    | true => simp [prepare, created, nothing]
    | false => simp [prepare, created, nothing, something]

/-- Every sandbox handed out so far is that of a simulation, under whose name it is in use; or it
has been closed. -/
structure Accounted (handed : List ViewId) (w : Workspace σ) (p : Pass) : Prop where
  made : ∀ v ∈ handed, v < w.forest.views.size
  listed : ∀ s ∈ p.simulations, s.view ∈ handed
  held : ∀ s ∈ p.simulations,
    w.registry.sandboxes.get? (sandboxName p.number s.candidate) = some s.view
  kept : ∀ v ∈ handed, (∃ s ∈ p.simulations, s.view = v) ∨ (w.forest.view v).closed = true

/-- Preparing goes on from one workspace to another. -/
structure Advances (w w' : Workspace σ) : Prop where
  becomes : w.forest.Becomes w'.forest
  base : w'.registry.base = w.registry.base

theorem Advances.trans {w w' w'' : Workspace σ} (first : Advances w w') (second : Advances w' w'') :
    Advances w w'' :=
  ⟨first.becomes.trans second.becomes, second.base.trans first.base⟩

theorem advances_release (p : Pass) (keep : Option String) (w : Workspace σ) :
    Advances w (p.release keep w) :=
  ⟨becomes_releaseEach keep _ _ _, base_releaseEach keep _ _ _⟩

section Prepare

variable {number : Nat} {base : ViewId} {seen : List Candidate} {w₀ w : Workspace σ} {p : Pass}
  {c : Candidate} {handed : List ViewId} {ready : σ → Prop}

/-- The sandbox for one more candidate can be made. -/
theorem Prepared.makes (prepared : Prepared number base seen w₀ w p) (clean : w₀.Clean ready base)
    (name : String) : w.forest.Becomes (w.forest.sandbox name base).1 := by
  have there := prepared.keeps.readable clean.valid clean.base_lt clean.readable
  exact .single (.sandbox _ _ there.lt_size)

/-- The sandboxes that are in use stay so when one more is handed out. -/
theorem Accounted.stays_held (accounted : Accounted handed w p)
    (prepared : Prepared number base seen w₀ w p) (new : ∀ d ∈ seen, d.name ≠ c.name) (v : ViewId) :
    ∀ s ∈ p.simulations, (w.registry.sandboxes.insert (sandboxName p.number c) v).get?
      (sandboxName p.number s.candidate) = some s.view := by
  intro s hs
  have other : sandboxName p.number s.candidate ≠ sandboxName p.number c := by
    rw [Ne, sandboxName_inj]
    exact new _ (prepared.candidate_mem s hs)
  rw [SortedMap.get?_insert_of_ne _ _ other]
  exact accounted.held s hs

/-- A sandbox handed out is old or new. -/
theorem Accounted.made_snoc (accounted : Accounted handed w p) {f : Forest}
    (size : w.forest.views.size < f.views.size) :
    ∀ v ∈ handed ++ [w.forest.views.size], v < f.views.size := by
  rw [List.forall_mem_append, List.forall_mem_singleton]
  exact ⟨fun v hv => Nat.lt_trans (accounted.made v hv) size, size⟩

theorem size_sandbox (f : Forest) (name : String) (base : ViewId) :
    f.views.size < (f.sandbox name base).1.views.size := by
  simp [sandbox]

/-- A candidate with a simulation, in a new sandbox. -/
theorem Accounted.add (accounted : Accounted handed w p) (clean : w₀.Clean ready base)
    (prepared : Prepared number base seen w₀ w p) (new : ∀ d ∈ seen, d.name ≠ c.name)
    {s : Simulation} (tenant : s.tenant = (c, w.forest.views.size)) :
    Accounted (handed ++ [w.forest.views.size])
      { w with
        forest := (w.forest.sandbox (sandboxName p.number c) base).1
        registry := { w.registry with
          sandboxes := w.registry.sandboxes.insert (sandboxName p.number c) w.forest.views.size } }
      { p with
        sandboxes := p.sandboxes.insert c.name (sandboxName p.number c)
        simulations := p.simulations ++ [s] } := by
  have candidate : s.candidate = c := congrArg Prod.fst tenant
  have view : s.view = w.forest.views.size := congrArg Prod.snd tenant
  have made := prepared.makes clean (sandboxName p.number c)
  refine ⟨accounted.made_snoc (size_sandbox _ _ _), ?_, ?_, ?_⟩
  · rw [List.forall_mem_append, List.forall_mem_singleton, view]
    exact ⟨fun s' hs' => List.mem_append_left _ (accounted.listed s' hs'), by simp⟩
  · rw [List.forall_mem_append, List.forall_mem_singleton, candidate, view]
    exact ⟨accounted.stays_held prepared new _, SortedMap.get?_insert_self _ _ _⟩
  · rw [List.forall_mem_append, List.forall_mem_singleton]
    refine ⟨?_, .inl ⟨s, by simp, view⟩⟩
    intro v hv
    rcases accounted.kept v hv with ⟨s', hs', rfl⟩ | closed
    · exact .inl ⟨s', by simp [hs'], rfl⟩
    · exact .inr (made.closed (accounted.made v hv) closed)

/-- A candidate without a simulation, whose sandbox is closed at once. -/
theorem Accounted.skip (accounted : Accounted handed w p) (clean : w₀.Clean ready base)
    (prepared : Prepared number base seen w₀ w p) (name : String)
    (sandboxes : SortedMap String String) :
    Accounted (handed ++ [w.forest.views.size])
      { w with forest := (w.forest.sandbox name base).1.close w.forest.views.size }
      { p with sandboxes } := by
  have made := (prepared.makes clean name).trans (.close _ w.forest.views.size)
  refine ⟨accounted.made_snoc ?_, ?_, accounted.held, ?_⟩
  · exact Nat.lt_of_lt_of_le (size_sandbox w.forest name base) (Becomes.close _ _).size_le
  · exact fun s hs => List.mem_append_left _ (accounted.listed s hs)
  · rw [List.forall_mem_append, List.forall_mem_singleton]
    refine ⟨?_, .inr (closed_close _ _)⟩
    intro v hv
    rcases accounted.kept v hv with shown | closed
    · exact .inl shown
    · exact .inr (made.closed (accounted.made v hv) closed)

/-- When nothing is pending all sandboxes are given back, the new one among them. -/
theorem Accounted.giveBack (accounted : Accounted handed w p) (clean : w₀.Clean ready base)
    (prepared : Prepared number base seen w₀ w p) (new : ∀ d ∈ seen, d.name ≠ c.name) :
    let opened : Workspace σ := { w with
      forest := (w.forest.sandbox (sandboxName p.number c) base).1
      registry := { w.registry with
        sandboxes := w.registry.sandboxes.insert (sandboxName p.number c) w.forest.views.size } }
    let given : Pass := { p with
      sandboxes := p.sandboxes.insert c.name (sandboxName p.number c)
      simulations := []
      nothingPending := true }
    Advances w (given.release none opened) ∧
      ∀ v ∈ handed ++ [w.forest.views.size],
        ((given.release none opened).forest.view v).closed = true := by
  intro opened given
  have made := prepared.makes clean (sandboxName p.number c)
  have size := accounted.made_snoc (size_sandbox w.forest (sandboxName p.number c) base)
  have housed := prepared.housed.insert (prepared.new new) prepared.unmade
  rw [← prepared.numbered] at housed
  have giving := advances_release given none opened
  refine ⟨⟨made.trans giving.becomes, giving.base⟩, ?_⟩
  rw [List.forall_mem_append, List.forall_mem_singleton] at size ⊢
  constructor
  · intro v hv
    rcases accounted.kept v hv with ⟨s, hs, rfl⟩ | closed
    · exact closed_release given opened housed (t := s.tenant)
        (List.mem_append_left _ (List.mem_map_of_mem hs)) (accounted.stays_held prepared new _ s hs)
        (size.1 _ hv) nofun
    · exact giving.becomes.closed (size.1 v hv) (made.closed (accounted.made v hv) closed)
  · exact closed_release given opened housed (t := (c, w.forest.views.size))
      (List.mem_append_right _ (List.mem_singleton_self _)) (SortedMap.get?_insert_self _ _ _)
      size.2 nofun

/-- One more candidate. -/
theorem Accounted.one (accounted : Accounted handed w p) (clean : w₀.Clean ready base)
    (prepared : Prepared number base seen w₀ w p) (new : ∀ d ∈ seen, d.name ≠ c.name) :
    Advances w (prepare base w p [c]).1 ∧
      ((prepare base w p [c]).2.nothingPending = false →
        Accounted (handed ++ [w.forest.views.size])
          (prepare base w p [c]).1 (prepare base w p [c]).2) ∧
      ((prepare base w p [c]).2.nothingPending = true → ∀ v ∈ handed ++ [w.forest.views.size],
        ((prepare base w p [c]).1.forest.view v).closed = true) := by
  obtain ⟨free, -⟩ := prepared.housed.free_of_new (prepared.new new)
  rw [← prepared.numbered] at free
  have there := prepared.keeps.readable clean.valid clean.base_lt clean.readable
  have made := prepared.makes clean (sandboxName p.number c)
  rw [prepare, sandboxOver_of_free free]
  dsimp only
  split
  · rename_i s created
    obtain ⟨-, tenant⟩ := setUp_of_create prepared.valid there prepared.keeps.size
      (prepared.keeps.line_eq clean.base_lt)
      (prepared.keeps.cluster_eq clean.valid clean.base_lt) created
    rw [prepare]
    refine ⟨⟨made, rfl⟩, fun _ => accounted.add clean prepared new tenant, ?_⟩
    simp [prepared.pending]
  · split
    · obtain ⟨advances, closed⟩ := accounted.giveBack clean prepared new
      exact ⟨advances, by simp, fun _ => closed⟩
    · rw [prepare, release_new free]
      refine ⟨⟨made.trans (.close _ _), rfl⟩, fun _ => accounted.skip clean prepared _ _, ?_⟩
      simp [prepared.pending]

/-- Preparing a pass accounts for all sandboxes that it hands out. -/
theorem Accounted.prepare (accounted : Accounted handed w p) (clean : w₀.Clean ready base)
    (prepared : Prepared number base seen w₀ w p) (candidates : List Candidate)
    (distinct : ((seen ++ candidates).map Candidate.name).Nodup) :
    Advances w (Pass.prepare base w p candidates).1 ∧
      ((Pass.prepare base w p candidates).2.nothingPending = false →
        Accounted (handed ++ handedOut base w p candidates) (Pass.prepare base w p candidates).1
          (Pass.prepare base w p candidates).2) ∧
      ((Pass.prepare base w p candidates).2.nothingPending = true →
        ∀ v ∈ handed ++ handedOut base w p candidates,
          ((Pass.prepare base w p candidates).1.forest.view v).closed = true) := by
  induction candidates generalizing seen w p handed with
  | nil =>
    rw [handedOut, List.append_nil]
    refine ⟨⟨.refl _, rfl⟩, fun _ => accounted, ?_⟩
    simp [Pass.prepare, prepared.pending]
  | cons c rest ih =>
    have new : ∀ d ∈ seen, d.name ≠ c.name := by
      intro d hd same
      rw [List.map_append, List.nodup_append] at distinct
      exact distinct.2.2 d.name (List.mem_map_of_mem hd) c.name (by simp) same
    obtain ⟨free, -⟩ := prepared.housed.free_of_new (prepared.new new)
    rw [← prepared.numbered] at free
    have split : seen ++ c :: rest = (seen ++ [c]) ++ rest := by simp
    rw [split] at distinct
    obtain ⟨advances, going, ended⟩ := accounted.one clean prepared new
    have next := prepare_spec clean [c] prepared (by
      rw [List.map_append] at distinct
      exact distinct.of_append_left)
    have handed' : handedOut base w p (c :: rest) = w.forest.views.size ::
        if (Pass.prepare base w p [c]).2.nothingPending then []
        else handedOut base (Pass.prepare base w p [c]).1 (Pass.prepare base w p [c]).2 rest := by
      rw [handedOut, sandboxOver_of_free free]
    rw [prepare_cons c rest prepared.pending, handed']
    cases nothing : (Pass.prepare base w p [c]).2.nothingPending with
    | true =>
      simp only [if_true]
      refine ⟨advances, ?_, fun _ => ended nothing⟩
      simp [nothing]
    | false =>
      simp only [Bool.false_eq_true, if_false]
      rcases next with prepared' | ⟨said, -⟩
      · have rest' := ih (going nothing) prepared' distinct
        rw [List.append_assoc, List.singleton_append] at rest'
        exact ⟨advances.trans rest'.1, rest'.2⟩
      · rw [said] at nothing
        cases nothing

end Prepare

/-- What a pass has settled: no sandbox is in use any more, and all that it has handed out are
closed but the one to keep, which is laid over the base. -/
structure Settled (ready : σ → Prop) (base : ViewId) (handed : List ViewId) (kept : Option ViewId)
    (w₀ w : Workspace σ) : Prop where
  valid : w.forest.Valid
  ready : ready w.clock
  unused : w.registry.sandboxes = ∅
  keeps : w₀.Extends w
  advances : Advances w₀ w
  closed : ∀ v ∈ handed, kept = some v ∨ (w.forest.view v).closed = true
  stays : ∀ v, kept = some v → v ∈ handed ∧ w.forest.Readable v ∧
    w.forest.line v = v :: w₀.forest.line base

/-- What is left of a pass before its release. -/
structure Unreleased (ready : σ → Prop) (number : Nat) (base : ViewId) (handed : List ViewId)
    (tenants : List Tenant) (w₀ w : Workspace σ) (p : Pass) : Prop where
  valid : w.forest.Valid
  ready : ready w.clock
  keeps : w₀.Extends w
  advances : Advances w₀ w
  housed : Housed number tenants w.registry.sandboxes p.sandboxes
  names : (tenants.map (·.1.name)).Nodup
  held : ∀ t ∈ tenants, w.registry.sandboxes.get? (sandboxName number t.1) = some t.2
  rooms : ∀ t ∈ tenants, w₀.forest.views.size ≤ t.2 ∧ w.forest.Readable t.2 ∧
    w.forest.line t.2 = t.2 :: w₀.forest.line base ∧ t.2 ∈ handed
  closed : ∀ v ∈ handed, (∃ t ∈ tenants, t.2 = v) ∨ (w.forest.view v).closed = true
  made : ∀ v ∈ handed, v < w.forest.views.size
  returned : ∀ s ∈ p.simulations, s.tenant ∈ tenants

section Settle

variable {number : Nat} {base : ViewId} {w₀ w : Workspace σ} {p : Pass} {handed : List ViewId}
  {tenants : List Tenant} {ready : σ → Prop}

/-- A release settles a pass, whether a tenant stays or not. -/
theorem Unreleased.release (left : Unreleased ready number base handed tenants w₀ w p)
    (clean : w₀.Clean ready base) {keep : Option String} {kept : Option ViewId}
    (stays : ∀ t ∈ tenants, keep = some t.1.name → kept = some t.2)
    (chosen : ∀ v, kept = some v → ∃ t ∈ tenants, t.2 = v ∧ keep = some t.1.name) :
    Settled ready base handed kept w₀ (p.release keep w) := by
  obtain ⟨valid, keeps, unused, clock, same⟩ := release_spec p w keep left.valid left.housed
    fun t ht => (left.rooms t ht).1
  have advances := advances_release p keep w
  refine ⟨valid, ?_, unused, left.keeps.trans keeps, left.advances.trans advances, ?_, ?_⟩
  · rw [clock]
    exact left.ready
  · intro v hv
    rcases left.closed v hv with ⟨t, ht, rfl⟩ | closed
    · by_cases named : keep = some t.1.name
      · exact .inl (stays t ht named)
      · exact .inr (closed_release p w left.housed ht (left.held t ht) (left.made _ hv) named)
    · exact .inr (advances.becomes.closed (left.made v hv) closed)
  · intro v hkept
    obtain ⟨t, ht, rfl, named⟩ := chosen v hkept
    obtain ⟨above, readable, line, listed⟩ := left.rooms t ht
    have lineSame : (p.release keep w).forest.line t.2 = w.forest.line t.2 :=
      advances.becomes.line_eq (left.made _ listed)
    refine ⟨listed, ?_, by rw [lineSame, line]⟩
    apply readable_congr _ readable
    intro u hu
    rw [line] at hu
    obtain rfl | below := List.mem_cons.mp hu
    · exact same t ht named
    · exact keeps.same (Nat.lt_of_le_of_lt (clean.valid.le_of_mem_line below) clean.base_lt)

/-- Nobody stays. -/
theorem Unreleased.release_all (left : Unreleased ready number base handed tenants w₀ w p)
    (clean : w₀.Clean ready base) : Settled ready base handed none w₀ (p.release none w) :=
  left.release clean nofun nofun

/-- The tenant whose simulation has won stays. -/
theorem Unreleased.release_but (left : Unreleased ready number base handed tenants w₀ w p)
    (clean : w₀.Clean ready base) {name : String} {view : ViewId}
    (found : p.view? name = some view) :
    Settled ready base handed (some view) w₀ (p.release (some name) w) := by
  obtain ⟨s, hs, rfl⟩ := Option.map_eq_some_iff.mp found
  have named : s.candidate.name = name := by
    have matched := List.find?_some hs
    simpa [Simulation.name] using matched
  have listed := left.returned s (List.mem_of_find?_eq_some hs)
  refine left.release clean ?_ ?_
  · intro t ht same
    have one : t.1.name = s.tenant.1.name := (Option.some.inj same).symm.trans named.symm
    rw [List.inj_on_of_nodup_map left.names ht listed one]
    rfl
  · intro v same
    exact ⟨s.tenant, listed, Option.some.inj same, by rw [← named]; rfl⟩

variable {candidates : List Candidate} {a : Algorithm} {c : Conductor σ}

/-- What is left when all simulations have been run, or lost. -/
theorem unreleased_of_prepared (clean : w₀.Clean ready base)
    (distinct : (candidates.map Candidate.name).Nodup)
    (prepared : Prepared number base candidates w₀ w p) (accounted : Accounted handed w p)
    (advances : Advances w₀ w) (mayLose : c.MayLose a ready) {returned : List Simulation}
    (sub : ∀ s ∈ returned, s ∈ (c.runAll number w.forest w.clock p.simulations).2.2) :
    Unreleased ready number base handed (p.simulations.map Simulation.tenant) w₀
      { w with
        forest := (c.runAll number w.forest w.clock p.simulations).1
        clock := (c.runAll number w.forest w.clock p.simulations).2.1 }
      { p with simulations := returned } := by
  have set : ready w.clock := by
    rw [prepared.clock]
    exact clean.ready
  obtain ⟨ready', becomes, spares, back⟩ := mayLose.spares number set prepared.valid
    (fun s hs => (prepared.setUp s hs).fresh.stage) (prepared.apart clean)
  refine ⟨spares.valid, ready', ?_, advances.trans ⟨becomes, rfl⟩, prepared.housed, ?_, ?_, ?_,
    ?_, ?_, ?_⟩
  · refine prepared.keeps.trans ⟨Nat.le_of_eq spares.size.symm, fun {u} hu => spares.elsewhere u ?_⟩
    rintro s hs rfl
    exact Nat.not_le_of_lt hu (prepared.setUp s hs).above
  · have names := prepared.nodup_names distinct
    rw [List.map_map]
    exact names
  · intro t ht
    obtain ⟨s, hs, rfl⟩ := List.mem_map.mp ht
    have held := accounted.held s hs
    rw [prepared.numbered] at held
    exact held
  · intro t ht
    obtain ⟨s, hs, rfl⟩ := List.mem_map.mp ht
    have setUp := prepared.setUp s hs
    refine ⟨setUp.above, spares.readable setUp.fresh.readable, ?_, accounted.listed s hs⟩
    rw [spares.line]
    exact setUp.line
  · intro v hv
    rcases accounted.kept v hv with ⟨s, hs, rfl⟩ | closed
    · exact .inl ⟨s.tenant, List.mem_map_of_mem hs, rfl⟩
    · exact .inr (by rw [spares.closed]; exact closed)
  · intro v hv
    exact Nat.lt_of_lt_of_eq (accounted.made v hv) spares.size.symm
  · intro s hs
    exact back s (sub s hs)

/-- How a pass may end, whatever the scheduler does: it is settled, or has yet to be released. -/
inductive Settling (ready : σ → Prop) (number : Nat) (base : ViewId) (handed : List ViewId)
    (w₀ : Workspace σ) : Workspace σ → Except SimulationError Pass → Prop where
  | failed {w : Workspace σ} (e : SimulationError) (settled : Settled ready base handed none w₀ w) :
      Settling ready number base handed w₀ w (.error e)
  | nothing {w : Workspace σ} {p : Pass} (said : p.nothingPending = true)
      (settled : Settled ready base handed none w₀ w) :
      Settling ready number base handed w₀ w (.ok p)
  | ran {w : Workspace σ} {p : Pass} {tenants : List Tenant} (something : p.nothingPending = false)
      (left : Unreleased ready number base handed tenants w₀ w p) :
      Settling ready number base handed w₀ w (.ok p)

theorem run_settles (number : Nat) (clean : w₀.Clean ready base)
    (distinct : (candidates.map Candidate.name).Nodup) (mayLose : c.MayLose a ready) :
    Settling ready number base (handedOut base w₀ { number } candidates) w₀
      (run c number base candidates w₀).1 (run c number base candidates w₀).2 := by
  have start : Accounted [] w₀ { number } := ⟨by simp, by simp, by simp, by simp⟩
  obtain ⟨advances, going, closed⟩ := start.prepare clean (prepared_start clean.valid clean.unused)
    candidates (by rwa [List.nil_append])
  rw [run]
  dsimp only
  rcases prepare_all number clean distinct with prepared | ⟨said, -, -, clean', keeps⟩
  · rw [if_neg (by simp [prepared.pending])]
    have accounted := going prepared.pending
    split
    · have left := unreleased_of_prepared clean distinct prepared accounted advances mayLose
        (fun _ hs => hs)
      exact .failed _ (left.release_all clean)
    · refine .ran prepared.pending
        (unreleased_of_prepared clean distinct prepared accounted advances mayLose ?_)
      exact fun s hs => (List.mergeSort_perm _ _).mem_iff.mp hs
  · rw [if_pos said]
    refine .nothing said ⟨clean'.valid, clean'.ready, clean'.unused, keeps, advances, ?_, nofun⟩
    exact fun v hv => .inr (closed said v hv)

end Settle

end Pass

end ScaleAdvisor
