import ScaleAdvisor.Proofs.Search.Sandboxes

/-!
One pass, from a workspace without sandboxes to one without sandboxes again, or with the winner's
alone. The base view is never touched; each simulation has a fresh sandbox of its own over it, and
releasing closes every sandbox but the one to keep.

* `Prepared.add`, `prepare_spec`, `prepare_all`: setting up simulations;
* `Ran.release`: what is left of a pass after a release;
* `run_spec`: what a pass leaves behind, and what the outcomes of its simulations are worth.
-/

namespace ScaleAdvisor

open Forest

namespace Simulation

variable {n : Nat} {f g : Forest} {s : Simulation}

theorem Fresh.keep (fresh : Fresh f s) (valid : f.Valid) (keeps : f.Keeps n g) (h : s.view < n) :
    Fresh g s where
  stage := fresh.stage
  readable := keeps.readable valid h fresh.readable
  wanted := by rw [keeps.cluster_eq valid h, fresh.wanted]
  something := fresh.something
  silent := by rw [keeps.same h, fresh.silent]

/-- Set up in a sandbox of its own over the base. -/
structure SetUp (base : ViewId) (f₀ f : Forest) (s : Simulation) : Prop where
  fresh : Fresh f s
  above : f₀.views.size ≤ s.view
  line : f.line s.view = s.view :: f₀.line base
  contents : f.cluster s.view = f₀.cluster base
  template : s.candidate.pool.template? s.candidate.template = some s.template

variable {base : ViewId} {f₀ : Forest}

theorem SetUp.view_lt (setUp : SetUp base f₀ f s) : s.view < f.views.size :=
  setUp.fresh.readable.lt_size

theorem SetUp.keep (setUp : SetUp base f₀ f s) (valid : f.Valid) (keeps : f.Keeps f.views.size g) :
    SetUp base f₀ g s where
  fresh := setUp.fresh.keep valid keeps setUp.view_lt
  above := setUp.above
  line := by rw [keeps.line_eq setUp.view_lt, setUp.line]
  contents := by rw [keeps.cluster_eq valid setUp.view_lt, setUp.contents]
  template := setUp.template

/-- A simulation set up in a new sandbox. -/
theorem setUp_of_create {name : String} {c : Candidate} (valid : f.Valid)
    (readable : f.Readable base) (size : f₀.views.size ≤ f.views.size)
    (line : f.line base = f₀.line base) (contents : f.cluster base = f₀.cluster base)
    (created : create (f.sandbox name base).1 c f.views.size = .ok s) :
    SetUp base f₀ (f.sandbox name base).1 s ∧ s.tenant = (c, f.views.size) := by
  have there := readable_sandbox name valid readable
  obtain ⟨candidate, view, template, stage, wanted, something⟩ :=
    create_eq_ok (valid_sandbox name valid readable.lt_size) there created
  refine ⟨⟨⟨stage, ?_, ?_, something, ?_⟩, ?_, ?_, ?_, ?_⟩, by rw [tenant, candidate, view]⟩
  · rw [view]
    exact there
  · rw [view]
    exact wanted
  · rw [view, view_sandbox]
  · rw [view]
    exact size
  · rw [view, line_sandbox, line]
  · rw [view, cluster_sandbox name valid readable.lt_size, contents]
  · rw [candidate]
    exact template

/-- Setting up fails for two reasons only: no such template, or nothing pending. -/
theorem create_eq_error {v : ViewId} {c : Candidate} {e : SimulationError} (valid : f.Valid)
    (readable : f.Readable v) (failed : create f c v = .error e) :
    (c.pool.template? c.template = none ∧ e.isNothingPending = false) ∨
      ((f.cluster v).pendingKeys.keys = [] ∧ e.isNothingPending = true) := by
  unfold create at failed
  dsimp only at failed
  split at failed
  · rename_i unknown
    cases failed
    exact .inl ⟨unknown, rfl⟩
  · rw [pending_eq valid readable] at failed
    split at failed
    · rename_i h
      simp at h
    · rename_i h
      cases failed
      refine .inr ⟨?_, rfl⟩
      rw [Cluster.pendingKeys, Except.ok.inj h]
      rfl
    · simp at failed

end Simulation

namespace Pass

open Simulation

section Prepare

variable {σ : Type} {number : Nat} {base : ViewId}

/-- A pass that is being prepared: which candidates have been seen, and which of them have a
simulation and a sandbox. -/
structure Prepared (number : Nat) (base : ViewId) (seen : List Candidate) (w₀ w : Workspace σ)
    (p : Pass) : Prop where
  valid : w.forest.Valid
  keeps : w₀.Extends w
  clock : w.clock = w₀.clock
  numbered : p.number = number
  pending : p.nothingPending = false
  setUp : ∀ s ∈ p.simulations, SetUp base w₀.forest w.forest s
  housed : Housed number (p.simulations.map tenant) w.registry.sandboxes p.sandboxes
  order : (p.simulations.map (·.candidate)).Sublist seen
  complete : ∀ c ∈ seen, ∀ t, c.pool.template? c.template = some t →
    ∃ s ∈ p.simulations, s.candidate = c

theorem prepared_start {w : Workspace σ} (valid : w.forest.Valid)
    (unused : w.registry.sandboxes = ∅) : Prepared number base [] w w { number } where
  valid := valid
  keeps := .refl _ _
  clock := rfl
  numbered := rfl
  pending := rfl
  setUp := by simp
  housed := by
    rw [unused]
    exact housed_nil
  order := by simp
  complete := by simp

/-- A sandbox that is not in use is created afresh. -/
theorem sandboxOver_of_free {r : Registry} {name : String} (free : r.sandboxes.get? name = none)
    (f : Forest) (base : ViewId) :
    r.sandboxOver f name base = ((f.sandbox name base).1,
      { r with sandboxes := r.sandboxes.insert name f.views.size }, f.views.size) := by
  rw [Registry.sandboxOver, Registry.reusable?, Registry.closeNamed, free]
  rfl

/-- Releasing a sandbox that has just been created closes it again, and leaves no trace of it. -/
theorem release_new {r : Registry} {name : String} (free : r.sandboxes.get? name = none)
    (f : Forest) (v : ViewId) :
    ({ r with sandboxes := r.sandboxes.insert name v } : Registry).release f name false =
      (f.close v, r) := by
  simp [Registry.release, Registry.closeNamed, SortedMap.erase_insert_of_free free]

variable {seen : List Candidate} {w₀ w : Workspace σ} {p : Pass} {c : Candidate}

theorem Prepared.above (prepared : Prepared number base seen w₀ w p) :
    ∀ t ∈ p.simulations.map tenant, w₀.forest.views.size ≤ t.2 := by
  intro t ht
  obtain ⟨s, hs, rfl⟩ := List.mem_map.mp ht
  exact (prepared.setUp s hs).above

theorem Prepared.candidate_mem (prepared : Prepared number base seen w₀ w p) :
    ∀ s ∈ p.simulations, s.candidate ∈ seen :=
  fun _ hs => prepared.order.subset (List.mem_map_of_mem hs)

theorem Prepared.nodup_names (prepared : Prepared number base seen w₀ w p)
    (distinct : (seen.map Candidate.name).Nodup) : (p.simulations.map (·.name)).Nodup := by
  have sub := prepared.order.map Candidate.name
  rw [List.map_map] at sub
  exact sub.nodup distinct

/-- A name that no candidate seen has is not that of a simulation. -/
theorem Prepared.new (prepared : Prepared number base seen w₀ w p)
    (new : ∀ d ∈ seen, d.name ≠ c.name) : ∀ t ∈ p.simulations.map tenant, t.1.name ≠ c.name := by
  intro t ht
  obtain ⟨s, hs, rfl⟩ := List.mem_map.mp ht
  exact new s.candidate (prepared.candidate_mem s hs)

/-- A view that is yet to be made is not that of a simulation. -/
theorem Prepared.unmade (prepared : Prepared number base seen w₀ w p) :
    ∀ t ∈ p.simulations.map tenant, t.2 ≠ w.forest.views.size := by
  intro t ht
  obtain ⟨s, hs, rfl⟩ := List.mem_map.mp ht
  exact Nat.ne_of_lt (prepared.setUp s hs).view_lt

/-- A candidate without a template is passed over. -/
theorem Prepared.skip (prepared : Prepared number base seen w₀ w p) {g : Forest} (valid : g.Valid)
    (keeps : w.forest.Keeps w.forest.views.size g) (unknown : c.pool.template? c.template = none) :
    Prepared number base (seen ++ [c]) w₀ { w with forest := g } p where
  valid := valid
  keeps := prepared.keeps.next keeps
  clock := prepared.clock
  numbered := prepared.numbered
  pending := prepared.pending
  setUp s hs := (prepared.setUp s hs).keep prepared.valid keeps
  housed := prepared.housed
  order := prepared.order.trans (List.sublist_append_left _ _)
  complete := by
    rw [List.forall_mem_append, List.forall_mem_singleton, unknown]
    exact ⟨prepared.complete, by simp⟩

/-- A candidate with a simulation, in a new sandbox. -/
theorem Prepared.add (prepared : Prepared number base seen w₀ w p) (valid₀ : w₀.forest.Valid)
    (readable : w₀.forest.Readable base) (new : ∀ d ∈ seen, d.name ≠ c.name) {s : Simulation}
    (created :
      create (w.forest.sandbox (sandboxName p.number c) base).1 c w.forest.views.size = .ok s) :
    Prepared number base (seen ++ [c]) w₀
      { w with
        forest := (w.forest.sandbox (sandboxName p.number c) base).1
        registry := { w.registry with
          sandboxes := w.registry.sandboxes.insert (sandboxName p.number c) w.forest.views.size } }
      { p with
        sandboxes := p.sandboxes.insert c.name (sandboxName p.number c)
        simulations := p.simulations ++ [s] } := by
  have keeps := keeps_sandbox w.forest (sandboxName p.number c) base
  have there := prepared.keeps.readable valid₀ readable.lt_size readable
  obtain ⟨setUp, tenant⟩ := setUp_of_create prepared.valid there prepared.keeps.size
    (prepared.keeps.line_eq readable.lt_size) (prepared.keeps.cluster_eq valid₀ readable.lt_size)
    created
  have candidate : s.candidate = c := congrArg Prod.fst tenant
  refine ⟨valid_sandbox _ prepared.valid there.lt_size, prepared.keeps.next keeps, prepared.clock,
    prepared.numbered, prepared.pending, ?_, ?_, ?_, ?_⟩
  · rw [List.forall_mem_append, List.forall_mem_singleton]
    exact ⟨fun t ht => (prepared.setUp t ht).keep prepared.valid keeps, setUp⟩
  · rw [List.map_append, List.map_singleton, tenant, prepared.numbered]
    exact prepared.housed.insert (prepared.new new) prepared.unmade
  · rw [List.map_append, List.map_singleton, candidate]
    exact prepared.order.append (.refl _)
  · rw [List.forall_mem_append, List.forall_mem_singleton]
    refine ⟨?_, fun _ _ => ⟨s, by simp, candidate⟩⟩
    intro d hd t found
    obtain ⟨s', hs', same⟩ := prepared.complete d hd t found
    exact ⟨s', by simp [hs'], same⟩

/-- When nothing is pending all sandboxes are given back, the new one among them. -/
theorem Prepared.giveBack {ready : σ → Prop} (prepared : Prepared number base seen w₀ w p)
    (clean : w₀.Clean ready base) (new : ∀ d ∈ seen, d.name ≠ c.name) :
    let opened : Workspace σ := { w with
      forest := (w.forest.sandbox (sandboxName p.number c) base).1
      registry := { w.registry with
        sandboxes := w.registry.sandboxes.insert (sandboxName p.number c) w.forest.views.size } }
    let given : Pass := { p with
      sandboxes := p.sandboxes.insert c.name (sandboxName p.number c)
      simulations := []
      nothingPending := true }
    (given.release none opened).Clean ready base ∧ w₀.Extends (given.release none opened) := by
  intro opened given
  have there := prepared.keeps.readable clean.valid clean.base_lt clean.readable
  have housed := prepared.housed.insert (prepared.new new) prepared.unmade
  rw [← prepared.numbered] at housed
  have above : ∀ t ∈ p.simulations.map tenant ++ [(c, w.forest.views.size)],
      w₀.forest.views.size ≤ t.2 :=
    List.forall_mem_append.mpr ⟨prepared.above, List.forall_mem_singleton.mpr prepared.keeps.size⟩
  obtain ⟨valid, keeps, unused, clock, -⟩ := release_spec given opened none
    (valid_sandbox _ prepared.valid there.lt_size) housed above
  have since := (prepared.keeps.next (keeps_sandbox w.forest _ base)).trans keeps
  refine ⟨⟨valid, since.readable clean.valid clean.base_lt clean.readable, unused, ?_⟩, since⟩
  rw [clock]
  change ready w.clock
  rw [prepared.clock]
  exact clean.ready

/-- What preparing a pass leads to: simulations for all candidates that have a template, or the word
that nothing is pending. -/
theorem prepare_spec {ready : σ → Prop} (clean : w₀.Clean ready base) (candidates : List Candidate)
    (prepared : Prepared number base seen w₀ w p)
    (distinct : ((seen ++ candidates).map Candidate.name).Nodup) :
    Prepared number base (seen ++ candidates) w₀ (prepare base w p candidates).1
        (prepare base w p candidates).2 ∨
      ((prepare base w p candidates).2.nothingPending = true ∧
        (prepare base w p candidates).2.simulations = [] ∧
        (w₀.forest.cluster base).pendingKeys.keys = [] ∧
        (prepare base w p candidates).1.Clean ready base ∧
        w₀.Extends (prepare base w p candidates).1) := by
  induction candidates generalizing seen w p with
  | nil =>
    rw [List.append_nil]
    exact .inl prepared
  | cons c rest ih =>
    have new : ∀ d ∈ seen, d.name ≠ c.name := by
      intro d hd same
      rw [List.map_append, List.nodup_append] at distinct
      exact distinct.2.2 d.name (List.mem_map_of_mem hd) c.name (by simp) same
    obtain ⟨free, unlisted⟩ := prepared.housed.free_of_new (prepared.new new)
    rw [← prepared.numbered] at free
    have split : seen ++ c :: rest = (seen ++ [c]) ++ rest := by simp
    rw [prepare, sandboxOver_of_free free]
    rw [split] at distinct ⊢
    dsimp only
    split
    · rename_i s created
      exact ih (prepared.add clean.valid clean.readable new created) distinct
    · rename_i e failed
      have there := prepared.keeps.readable clean.valid clean.base_lt clean.readable
      have valid := valid_sandbox (sandboxName p.number c) prepared.valid there.lt_size
      have keeps := keeps_sandbox w.forest (sandboxName p.number c) base
      have readable := readable_sandbox (sandboxName p.number c) prepared.valid there
      rcases create_eq_error valid readable failed with ⟨unknown, no⟩ | ⟨none, yes⟩
      · rw [no, release_new free, SortedMap.erase_insert_of_free unlisted]
        exact ih (prepared.skip (valid_close valid _)
          (keeps.trans (keeps_close _ (by omega))) unknown) distinct
      · rw [yes]
        rw [cluster_sandbox _ prepared.valid there.lt_size,
          prepared.keeps.cluster_eq clean.valid clean.base_lt] at none
        obtain ⟨clean', since⟩ := prepared.giveBack clean new
        exact .inr ⟨rfl, rfl, none, clean', since⟩

/-- Preparing a pass from the start. -/
theorem prepare_all (number : Nat) {ready : σ → Prop} (clean : w.Clean ready base)
    {candidates : List Candidate} (distinct : (candidates.map Candidate.name).Nodup) :
    Prepared number base candidates w (prepare base w { number } candidates).1
        (prepare base w { number } candidates).2 ∨
      ((prepare base w { number } candidates).2.nothingPending = true ∧
        (prepare base w { number } candidates).2.simulations = [] ∧
        (w.forest.cluster base).pendingKeys.keys = [] ∧
        (prepare base w { number } candidates).1.Clean ready base ∧
        w.Extends (prepare base w { number } candidates).1) :=
  prepare_spec clean candidates (prepared_start clean.valid clean.unused) (by rwa [List.nil_append])

end Prepare

/-- A simulation after its pass over some contents: in its sandbox still, and if it has succeeded
the contents there are packed with its node, as its outcome tells. -/
structure Played (number : Nat) (base : ViewId) (f₀ f : Forest) (s : Simulation) : Prop where
  something : (f₀.cluster base).pendingKeys.keys ≠ []
  readable : f.Readable s.view
  above : f₀.views.size ≤ s.view
  line : f.line s.view = s.view :: f₀.line base
  template : s.candidate.pool.template? s.candidate.template = some s.template
  success : ∀ o, s.outcome? = some o → Success number (f₀.cluster base) f s o

theorem played_of_done {number : Nat} {base : ViewId} {f₀ f g : Forest} {s s' : Simulation}
    {sims : List Simulation} (valid : f.Valid) (sound : (f₀.cluster base).Sound)
    (setUp : SetUp base f₀ f s) (spares : SideBySide.Spares f g sims)
    (done : SideBySide.Done BinPack.algorithm number f g s s') : Played number base f₀ g s' where
  something := by
    rw [← setUp.contents, ← setUp.fresh.wanted]
    exact setUp.fresh.something
  readable := by
    rw [done.view]
    exact spares.readable setUp.fresh.readable
  above := by
    rw [done.view]
    exact setUp.above
  line := by rw [done.view, spares.line, setUp.line]
  template := by
    rw [done.candidate, done.template]
    exact setUp.template
  success := by
    intro o succeeded
    have success := Run.success valid (by rw [setUp.contents]; exact sound) setUp.fresh
      (done.outcome o succeeded)
    rw [setUp.contents] at success
    exact success.done done

/-- What a pass over some contents leaves behind: its simulations, each in a sandbox of its own. -/
structure Ran {σ : Type} (ready : σ → Prop) (number : Nat) (base : ViewId)
    (candidates : List Candidate) (w₀ w : Workspace σ) (p : Pass) : Prop where
  numbered : p.number = number
  pending : p.nothingPending = false
  valid : w.forest.Valid
  keeps : w₀.Extends w
  ready : ready w.clock
  played : ∀ s ∈ p.simulations, Played number base w₀.forest w.forest s
  housed : Housed number (p.simulations.map tenant) w.registry.sandboxes p.sandboxes
  eligible : ∀ s ∈ p.simulations, s.candidate ∈ candidates
  names : (p.simulations.map (·.name)).Nodup
  complete : ∀ c ∈ candidates, ∀ t, c.pool.template? c.template = some t →
    ∃ s ∈ p.simulations, s.candidate = c

section Run

variable {σ : Type} {ready : σ → Prop} {number : Nat} {base : ViewId} {candidates : List Candidate}
  {w₀ w : Workspace σ} {p : Pass}

/-- The order of the simulations does not matter. -/
theorem Ran.sort (ran : Ran ready number base candidates w₀ w p) :
    Ran ready number base candidates w₀ w { p with simulations := sortByName p.simulations } := by
  have perm : (sortByName p.simulations).Perm p.simulations := List.mergeSort_perm _ _
  have mem {s : Simulation} : s ∈ sortByName p.simulations ↔ s ∈ p.simulations := perm.mem_iff
  refine ⟨ran.numbered, ran.pending, ran.valid, ran.keeps, ran.ready, ?_, ?_, ?_, ?_, ?_⟩
  · exact fun s hs => ran.played s (mem.mp hs)
  · exact ran.housed.perm (perm.map _)
  · exact fun s hs => ran.eligible s (mem.mp hs)
  · exact (perm.map _).nodup_iff.mpr ran.names
  · intro c hc t found
    obtain ⟨s, hs, same⟩ := ran.complete c hc t found
    exact ⟨s, mem.mpr hs, same⟩

/-- A release leaves alone everything below the pass, and the sandbox of the simulation to keep. -/
theorem Ran.release (ran : Ran ready number base candidates w₀ w p) (clean : w₀.Clean ready base)
    (keep : Option String) :
    (p.release keep w).Clean ready base ∧ w₀.Extends (p.release keep w) ∧
      ∀ s ∈ p.simulations, keep = some s.name → (p.release keep w).Clean ready s.view ∧
        (p.release keep w).forest.cluster s.view = w.forest.cluster s.view := by
  have above : ∀ t ∈ p.simulations.map tenant, w₀.forest.views.size ≤ t.2 := by
    intro t ht
    obtain ⟨s, hs, rfl⟩ := List.mem_map.mp ht
    exact (ran.played s hs).above
  obtain ⟨valid, keeps, unused, clock, spares⟩ := release_spec p w keep ran.valid ran.housed above
  have set : ready (p.release keep w).clock := by
    rw [clock]
    exact ran.ready
  have since := ran.keeps.trans keeps
  refine ⟨⟨valid, since.readable clean.valid clean.base_lt clean.readable, unused, set⟩, since,
    ?_⟩
  intro s hs kept
  have top : (p.release keep w).forest.view s.view = w.forest.view s.view :=
    spares s.tenant (List.mem_map_of_mem hs) kept
  have same : ∀ u ∈ w.forest.line s.view, (p.release keep w).forest.view u = w.forest.view u := by
    rw [(ran.played s hs).line]
    intro u hu
    obtain rfl | hu := List.mem_cons.mp hu
    · exact top
    · exact keeps.same (Nat.lt_of_le_of_lt (clean.valid.le_of_mem_line hu) clean.base_lt)
  exact ⟨⟨valid, readable_congr same (ran.played s hs).readable, unused, set⟩, cluster_congr same⟩

/-- Sandboxes over one base are not laid over each other. -/
theorem Prepared.apart (prepared : Prepared number base candidates w₀ w p)
    (clean : w₀.Clean ready base) : SideBySide.Apart w.forest p.simulations := by
  have views : p.simulations.Pairwise fun s t => s.view ≠ t.view := by
    have distinct := prepared.housed.views
    rw [List.map_map] at distinct
    exact List.pairwise_map.mp distinct
  have clear {s t : Simulation} (hs : s ∈ p.simulations) (ht : t ∈ p.simulations)
      (other : s.view ≠ t.view) : s.view ∉ w.forest.line t.view := by
    rw [(prepared.setUp t ht).line]
    intro h
    obtain same | below := List.mem_cons.mp h
    · exact other same
    · have old := Nat.lt_of_le_of_lt (clean.valid.le_of_mem_line below) clean.base_lt
      exact Nat.lt_irrefl _ (Nat.lt_of_lt_of_le old (prepared.setUp s hs).above)
  exact views.imp_of_mem fun {s t} hs ht other => ⟨clear hs ht other, clear ht hs other.symm⟩

/-- Simulations that have been set up, after all their steps. -/
theorem ran_of_prepared (clean : w₀.Clean ready base) (sound : (w₀.forest.cluster base).Sound)
    (distinct : (candidates.map Candidate.name).Nodup)
    (prepared : Prepared number base candidates w₀ w p) {c : Conductor σ}
    (interleaves : c.Interleaves BinPack.algorithm ready) :
    Ran ready number base candidates w₀
      { w with
        forest := (c.runAll number w.forest w.clock p.simulations).1
        clock := (c.runAll number w.forest w.clock p.simulations).2.1 }
      { p with simulations := (c.runAll number w.forest w.clock p.simulations).2.2 } := by
  have set : ready w.clock := by
    rw [prepared.clock]
    exact clean.ready
  obtain ⟨ready', spares, done⟩ := interleaves.each number set prepared.valid
    (fun s hs => (prepared.setUp s hs).fresh.stage) (prepared.apart clean)
  generalize (c.runAll number w.forest w.clock p.simulations).1 = g at *
  generalize (c.runAll number w.forest w.clock p.simulations).2.1 = clock at *
  generalize (c.runAll number w.forest w.clock p.simulations).2.2 = returned at *
  have tenants : returned.map tenant = p.simulations.map tenant :=
    SideBySide.map_eq_of_matched done fun s s' h => by rw [tenant, tenant, h.candidate, h.view]
  have names : returned.map (·.name) = p.simulations.map (·.name) :=
    SideBySide.map_eq_of_matched done
      fun s s' h => by rw [Simulation.name, Simulation.name, h.candidate]
  refine ⟨prepared.numbered, prepared.pending, spares.valid, ?_, ready', ?_, ?_, ?_, ?_, ?_⟩
  · refine prepared.keeps.trans ⟨Nat.le_of_eq spares.size.symm, fun {u} hu => spares.elsewhere u ?_⟩
    rintro s hs rfl
    exact Nat.not_le_of_lt hu (prepared.setUp s hs).above
  · intro s' hs'
    obtain ⟨s, hs, h⟩ := SideBySide.exists_left done hs'
    exact played_of_done prepared.valid sound (prepared.setUp s hs) spares h
  · rw [tenants]
    exact prepared.housed
  · intro s' hs'
    obtain ⟨s, hs, h⟩ := SideBySide.exists_left done hs'
    rw [h.candidate]
    exact prepared.candidate_mem s hs
  · rw [names]
    exact prepared.nodup_names distinct
  · intro d hd t found
    obtain ⟨s, hs, same⟩ := prepared.complete d hd t found
    obtain ⟨s', hs', h⟩ := SideBySide.exists_right done hs
    exact ⟨s', hs', by rw [h.candidate, same]⟩

/-- How a pass may end: cancelled, with nothing to place, or with simulations that have run. -/
inductive Ending (ready : σ → Prop) (number : Nat) (base : ViewId) (candidates : List Candidate)
    (w₀ : Workspace σ) : Workspace σ → Except SimulationError Pass → Prop where
  | cancelled {w : Workspace σ} (cause : String) (clean : w.Clean ready base)
      (keeps : w₀.Extends w) : Ending ready number base candidates w₀ w (.error (.cancelled cause))
  | nothing {w : Workspace σ} {p : Pass} (said : p.nothingPending = true)
      (none : (w₀.forest.cluster base).pendingKeys.keys = []) (clean : w.Clean ready base)
      (keeps : w₀.Extends w) : Ending ready number base candidates w₀ w (.ok p)
  | ran {w : Workspace σ} {p : Pass} (ran : Ran ready number base candidates w₀ w p) :
      Ending ready number base candidates w₀ w (.ok p)

theorem run_spec (number : Nat) (clean : w₀.Clean ready base)
    (sound : (w₀.forest.cluster base).Sound) (distinct : (candidates.map Candidate.name).Nodup)
    {c : Conductor σ} (interleaves : c.Interleaves BinPack.algorithm ready) :
    Ending ready number base candidates w₀ (run c number base candidates w₀).1
      (run c number base candidates w₀).2 := by
  rw [run]
  dsimp only
  rcases prepare_all number clean distinct with prepared | ⟨said, -, none, clean', keeps⟩
  · have ran := ran_of_prepared clean sound distinct prepared interleaves
    rw [if_neg (by simp [prepared.pending])]
    split
    · obtain ⟨clean', keeps, -⟩ := ran.release clean Option.none
      exact .cancelled _ clean' keeps
    · exact .ran ran.sort
  · rw [if_pos said]
    exact .nothing said none clean' keeps

end Run

end Pass

end ScaleAdvisor
