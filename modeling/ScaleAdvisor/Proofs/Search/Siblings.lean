import Mathlib.Data.List.Sort
import ScaleAdvisor.Proofs.Search.Lineage
import ScaleAdvisor.Proofs.Simulation.Timing
import ScaleAdvisor.Proofs.Simulation.Undisturbed

/-!
The siblings of a pass. They share the base view, its counter and the scheduler's slots, and none of
this shows: unless something disturbs the pass, what a candidate comes to follows from the contents
of the base and the number of the pass, and so do the scores, in order of their names.

* `Quiet.spec`: what a pass that nothing disturbs leaves behind;
* `Told.mem_scores_iff`, `Told.sorted`: its scores, computed from the contents of the base;
* `siblings_independent`: two such passes over the same contents.
-/

namespace ScaleAdvisor.Pass

open BinPack Simulation

/-- What there is to find of the simulation of that name, if there is one. -/
def found (p : Pass) (f : Forest) (name : String) : Option Found :=
  (p.simulation? name).map (·.found f)

/-- What a candidate comes to by itself in a pass over some contents. There is nothing to find if
nothing is pending, or if the candidate has no template. -/
def alone (C : Cluster) (number : Nat) (c : Candidate) : Option Found :=
  if C.pendingKeys.keys = [] then none
  else (c.pool.template? c.template).map fun t => c.alone t number C

/-- What a conductor makes of the simulations of a pass. -/
def conducted {σ : Type} (c : Conductor σ) (number : Nat) (base : ViewId)
    (candidates : List Candidate) (w : Workspace σ) : Forest × σ × List Simulation :=
  c.runAll number (prepare base w { number } candidates).1.forest
    (prepare base w { number } candidates).1.clock
    (prepare base w { number } candidates).2.simulations

/-- A pass over a base that can be read, with candidates of distinct names; neither the whole run is
cancelled, nor is any of the simulations disturbed, if there are any. -/
structure Quiet {σ : Type} (c : Conductor σ) (number : Nat) (base : ViewId)
    (candidates : List Candidate) (w : Workspace σ) : Prop where
  clean : w.Clean (fun _ => True) base
  distinct : (candidates.map Candidate.name).Nodup
  uncancelled : (prepare base w { number } candidates).2.nothingPending = false →
    c.cause (conducted c number base candidates w).2.1 = none
  undisturbed : (prepare base w { number } candidates).2.nothingPending = false →
    c.Undisturbed algorithm number (prepare base w { number } candidates).1.forest
      (prepare base w { number } candidates).1.clock
      (prepare base w { number } candidates).2.simulations

/-- Of each candidate there is to find what it comes to by itself. -/
structure Told (C : Cluster) (number : Nat) (candidates : List Candidate) (f : Forest) (p : Pass) :
    Prop where
  sorted : p.simulations.Pairwise fun s t => s.name < t.name
  eligible : ∀ s ∈ p.simulations, s.candidate ∈ candidates
  found_eq : ∀ x ∈ candidates, p.found f x.name = alone C number x

section Quiet

variable {σ : Type} {c : Conductor σ} {number : Nat} {base : ViewId} {candidates : List Candidate}
  {w : Workspace σ}

theorem run_eq (pending : (prepare base w { number } candidates).2.nothingPending = false)
    (uncancelled : c.cause (conducted c number base candidates w).2.1 = none) :
    run c number base candidates w =
      ({ (prepare base w { number } candidates).1 with
          forest := (conducted c number base candidates w).1
          clock := (conducted c number base candidates w).2.1 },
        .ok { (prepare base w { number } candidates).2 with
          simulations := sortByName (conducted c number base candidates w).2.2 }) := by
  rw [conducted] at uncancelled
  rw [run]
  dsimp only
  rw [if_neg (by simp [pending]), uncancelled]
  rfl

/-- Sorted by name, no two of one name. -/
theorem pairwise_sortByName {sims : List Simulation} (names : (sims.map (·.name)).Nodup) :
    (sortByName sims).Pairwise fun s t => s.name < t.name := by
  have sorted : (sortByName sims).Pairwise fun s t => KeyOrder.before s.name t.name = true :=
    KeyOrder.sorted_mergeSort Simulation.name names
  exact sorted.imp fun less => of_decide_eq_true less

theorem nodup_of_pairwise {sims : List Simulation}
    (sorted : sims.Pairwise fun s t => s.name < t.name) : (sims.map (·.name)).Nodup := by
  apply List.pairwise_map.mpr
  refine sorted.imp fun {s t} less same => ?_
  rw [same] at less
  exact String.lt_irrefl _ less

section Returned

variable {w₀ : Workspace σ} {p : Pass} {g : Forest} {ended returned : List Simulation}

/-- Whoever is handed back has been set up. -/
theorem exists_of_returned (perm : ended.Perm p.simulations)
    (each : List.Forall₂ (Comes number w.forest g) ended returned) {s' : Simulation}
    (hs' : s' ∈ sortByName returned) : ∃ s ∈ p.simulations, Comes number w.forest g s s' := by
  obtain ⟨s, hs, comes⟩ := SideBySide.exists_left each ((List.mergeSort_perm _ _).mem_iff.mp hs')
  exact ⟨s, perm.mem_iff.mp hs, comes⟩

theorem sorted_returned (distinct : (candidates.map Candidate.name).Nodup)
    (prepared : Prepared number base candidates w₀ w p) (perm : ended.Perm p.simulations)
    (each : List.Forall₂ (Comes number w.forest g) ended returned) :
    (sortByName returned).Pairwise fun s t => s.name < t.name := by
  have names : returned.map (·.name) = ended.map (·.name) :=
    SideBySide.map_eq_of_matched each fun s s' h => by
      rw [Simulation.name, Simulation.name, h.candidate]
  apply pairwise_sortByName
  rw [names, (perm.map _).nodup_iff]
  exact prepared.nodup_names distinct

/-- Of a candidate that has a simulation there is to find what it comes to by itself. -/
theorem found_of_simulation (distinct : (candidates.map Candidate.name).Nodup)
    (prepared : Prepared number base candidates w₀ w p) (perm : ended.Perm p.simulations)
    (each : List.Forall₂ (Comes number w.forest g) ended returned) {s : Simulation}
    (hs : s ∈ p.simulations) :
    ({ p with simulations := sortByName returned } : Pass).found g s.candidate.name =
      alone (w₀.forest.cluster base) number s.candidate := by
  obtain ⟨s', hs', comes⟩ := SideBySide.exists_right each (perm.mem_iff.mpr hs)
  have setUp := prepared.setUp s hs
  have sorted := sorted_returned distinct prepared perm each
  have listed := simulation?_eq (p := { p with simulations := sortByName returned })
    (nodup_of_pairwise sorted) ((List.mergeSort_perm _ _).mem_iff.mpr hs')
  have named : s'.name = s.candidate.name := by rw [Simulation.name, comes.candidate]
  have something : (w₀.forest.cluster base).pendingKeys.keys ≠ [] := by
    rw [← setUp.contents, ← setUp.fresh.wanted]
    exact setUp.fresh.something
  rw [named] at listed
  rw [found, listed, alone, if_neg something, setUp.template, Option.map_some, Option.map_some,
    comes.found, setUp.contents]

/-- Nobody bears the name of a candidate without a template. -/
theorem found_of_unknown (distinct : (candidates.map Candidate.name).Nodup)
    (prepared : Prepared number base candidates w₀ w p) (perm : ended.Perm p.simulations)
    (each : List.Forall₂ (Comes number w.forest g) ended returned) {x : Candidate}
    (hx : x ∈ candidates) (unknown : x.pool.template? x.template = none) :
    ({ p with simulations := sortByName returned } : Pass).found g x.name = none := by
  apply Option.map_eq_none_iff.mpr
  apply List.find?_eq_none.mpr
  intro s' hs' same
  obtain ⟨s, hs, comes⟩ := exists_of_returned perm each hs'
  have same : s.candidate = x := by
    apply List.inj_on_of_nodup_map distinct (prepared.candidate_mem s hs) hx
    rw [← comes.candidate]
    exact beq_iff_eq.mp same
  have there := (prepared.setUp s hs).template
  rw [same, unknown] at there
  simp at there

/-- Simulations that have been set up, and handed back with nothing having disturbed them. -/
theorem told_of_prepared (distinct : (candidates.map Candidate.name).Nodup)
    (prepared : Prepared number base candidates w₀ w p) (perm : ended.Perm p.simulations)
    (each : List.Forall₂ (Comes number w.forest g) ended returned) :
    Told (w₀.forest.cluster base) number candidates g
      { p with simulations := sortByName returned } where
  sorted := sorted_returned distinct prepared perm each
  eligible s' hs' := by
    obtain ⟨s, hs, comes⟩ := exists_of_returned perm each hs'
    rw [comes.candidate]
    exact prepared.candidate_mem s hs
  found_eq x hx := by
    cases template : x.pool.template? x.template with
    | none =>
      rw [found_of_unknown distinct prepared perm each hx template, alone, template]
      simp
    | some t =>
      obtain ⟨s, hs, rfl⟩ := prepared.complete x hx t template
      exact found_of_simulation distinct prepared perm each hs

end Returned

/-- What a pass that nothing disturbs leaves behind. -/
theorem Quiet.spec (quiet : Quiet c number base candidates w)
    (sound : (w.forest.cluster base).Sound) : ∃ p, (run c number base candidates w).2 = .ok p ∧
      Told (w.forest.cluster base) number candidates
        (run c number base candidates w).1.forest p := by
  rcases prepare_all number quiet.clean quiet.distinct with prepared | ⟨said, nobody, none, -, -⟩
  · have apart := prepared.apart quiet.clean
    obtain ⟨ended, perm, each⟩ := (quiet.undisturbed prepared.pending).each prepared.valid apart
      (fun s hs => by rw [(prepared.setUp s hs).contents]; exact sound)
      (fun s hs => (prepared.setUp s hs).fresh)
    rw [run_eq prepared.pending (quiet.uncancelled prepared.pending)]
    exact ⟨_, rfl, told_of_prepared quiet.distinct prepared perm each⟩
  · refine ⟨(prepare base w { number } candidates).2, ?_, ?_, ?_, ?_⟩
    · rw [run]
      dsimp only
      rw [if_pos said]
    · simp [nobody]
    · simp [nobody]
    · intro x hx
      rw [found, simulation?, nobody, alone, if_pos none]
      rfl

/-- Where all simulations succeed nothing has disturbed the pass. -/
theorem quiet_of_succeeded {ready : σ → Prop} (interleaves : c.Interleaves algorithm ready)
    (clean : w.Clean ready base) (distinct : (candidates.map Candidate.name).Nodup)
    (uncancelled : c.cause (conducted c number base candidates w).2.1 = none)
    (all : ∀ s ∈ (conducted c number base candidates w).2.2, ∃ o, s.outcome? = some o) :
    Quiet c number base candidates w where
  clean := ⟨clean.valid, clean.readable, clean.unused, trivial⟩
  distinct := distinct
  uncancelled := fun _ => uncancelled
  undisturbed := by
    intro pending
    rcases prepare_all number clean distinct with prepared | ⟨said, -⟩
    · refine interleaves.undisturbed ?_ prepared.valid
        (fun s hs => (prepared.setUp s hs).fresh.stage) (prepared.apart clean) all
      rw [prepared.clock]
      exact clean.ready
    · simp [pending] at said

end Quiet

section Scores

variable {F : Type} [Quantity F] {C : Cluster} {number : Nat} {candidates others : List Candidate}
  {f g : Forest} {p q : Pass} {scoring : Scoring F} {o : Outcome} {y : NodeScore F}

theorem Told.alone_eq (told : Told C number candidates f p) {s : Simulation}
    (hs : s ∈ p.simulations) : alone C number s.candidate = some (s.found f) := by
  have listed : p.simulation? s.candidate.name = some s :=
    simulation?_eq (nodup_of_pairwise told.sorted) hs
  rw [← told.found_eq _ (told.eligible s hs), found, listed, Option.map_some]

/-- The outcomes of a pass are those that its candidates come to by themselves. -/
theorem Told.outcome_iff (told : Told C number candidates f p) :
    (∃ s ∈ p.simulations, s.outcome? = some o) ↔
      ∃ x ∈ candidates, (alone C number x).bind (·.outcome) = some o := by
  constructor
  · rintro ⟨s, hs, succeeded⟩
    exact ⟨s.candidate, told.eligible s hs, by rw [told.alone_eq hs]; exact succeeded⟩
  · rintro ⟨x, hx, succeeded⟩
    rw [← told.found_eq x hx, Pass.found] at succeeded
    cases found : p.simulation? x.name with
    | none => simp [found] at succeeded
    | some s =>
      rw [found] at succeeded
      exact ⟨s, List.mem_of_find?_eq_some found, succeeded⟩

theorem name_of_alone {x : Candidate} (succeeded : (alone C number x).bind (·.outcome) = some o) :
    o.name = x.name := by
  rw [alone] at succeeded
  split at succeeded
  · simp at succeeded
  · rw [Option.bind_map] at succeeded
    obtain ⟨t, -, succeeded⟩ := Option.bind_eq_some_iff.mp succeeded
    exact Candidate.name_of_alone succeeded

/-- The scores of a pass, computed from the contents of its base. -/
theorem Told.mem_scores_iff (told : Told C number candidates f p) : y ∈ p.scores scoring ↔
    ∃ x ∈ candidates, ∃ o, (alone C number x).bind (·.outcome) = some o ∧ y.name = x.name ∧
      (o.converged = true ∨ o.boundWorkloads ≠ 0) ∧
        score scoring.strategy scoring.prices scoring.weights o = .ok y := by
  rw [Pass.mem_scores_iff]
  constructor
  · rintro ⟨s, hs, o, succeeded, counts, scored⟩
    obtain ⟨x, hx, succeeded⟩ := told.outcome_iff.mp ⟨s, hs, succeeded⟩
    exact ⟨x, hx, o, succeeded, (score_eq_ok scored).1.trans (name_of_alone succeeded),
      counts, scored⟩
  · rintro ⟨x, hx, o, succeeded, -, counts, scored⟩
    obtain ⟨s, hs, succeeded⟩ := told.outcome_iff.mpr ⟨x, hx, succeeded⟩
    exact ⟨s, hs, o, succeeded, counts, scored⟩

/-- The scores of a pass are in order of their names, and no two have the same one. -/
theorem Told.sorted_scores (told : Told C number candidates f p) (scoring : Scoring F) :
    (p.scores scoring).Pairwise fun x y => x.name < y.name := by
  have named {s : Simulation} (hs : s ∈ p.simulations) {o : Outcome}
    (succeeded : s.outcome? = some o) :
      o.name = s.name := by
    have alone : (alone C number s.candidate).bind (·.outcome) = some o := by
      rw [told.alone_eq hs]
      exact succeeded
    exact name_of_alone alone
  have outcomes : p.outcomes.Pairwise fun o o' => o.name < o'.name := by
    apply List.pairwise_filterMap.mpr
    refine told.sorted.imp_of_mem fun {s t} hs ht less o ho o' ho' => ?_
    rwa [named hs ho, named ht ho']
  apply List.pairwise_filterMap.mpr
  refine (outcomes.filter _).imp fun {o o'} less y hy y' hy' => ?_
  rwa [(score_eq_ok (toOption_eq_some_iff.mp hy)).1, (score_eq_ok (toOption_eq_some_iff.mp hy')).1]

/-- Two passes with the same scores list them in the same order. -/
theorem Told.scores_eq_of_mem_iff (told : Told C number candidates f p)
    (told' : Told C number others g q) (same : ∀ y, y ∈ q.scores scoring ↔ y ∈ p.scores scoring) :
    q.scores scoring = p.scores scoring := by
  have : Std.Irrefl fun x y : NodeScore F => x.name < y.name := ⟨fun x => String.lt_irrefl x.name⟩
  have : Std.Antisymm fun x y : NodeScore F => x.name < y.name :=
    ⟨fun x y less more => absurd (String.lt_trans less more) (String.lt_irrefl x.name)⟩
  exact List.Pairwise.eq_of_mem_iff (told'.sorted_scores scoring) (told.sorted_scores scoring) same

/-- Fewer candidates score the same, unless one that is left out has a score. -/
theorem Told.scores_eq (told : Told C number candidates f p) (told' : Told C number others g q)
    (among : others ⊆ candidates)
    (unscored : ∀ x ∈ candidates, x ∉ others → ∀ y ∈ p.scores scoring, y.name ≠ x.name) :
    q.scores scoring = p.scores scoring := by
  refine told.scores_eq_of_mem_iff told' fun y => ⟨?_, ?_⟩
  · intro hy
    obtain ⟨x, hx, o, succeeded, named, counts, scored⟩ := told'.mem_scores_iff.mp hy
    exact told.mem_scores_iff.mpr ⟨x, among hx, o, succeeded, named, counts, scored⟩
  · intro hy
    obtain ⟨x, hx, o, succeeded, named, counts, scored⟩ := told.mem_scores_iff.mp hy
    have kept : x ∈ others := by
      by_contra left
      exact unscored x hx left y hy named
    exact told'.mem_scores_iff.mpr ⟨x, kept, o, succeeded, named, counts, scored⟩

end Scores

/-- Siblings do not influence each other. Take two passes of one number over bases that stand for
the same contents, where nothing disturbs either of them; whoever conducts them, their simulations
take their steps in any order and end in any order. The candidates of one pass are among those of
the other: just one, or all of them, or those that are left when some are removed. Then both passes
come to their ends, and of each candidate there is to find the same in both of them, namely what it
comes to by itself over these contents; and if nobody who is left out has a score, both passes have
the same scores, in order of their names, and the same scores can win. -/
theorem siblings_independent {σ τ : Type} {c : Conductor σ} {d : Conductor τ} {number : Nat}
    {base base' : ViewId} {candidates others : List Candidate} {w : Workspace σ} {v : Workspace τ}
    (quiet : Quiet c number base candidates w) (quiet' : Quiet d number base' others v)
    (same : v.forest.cluster base' = w.forest.cluster base) (among : others ⊆ candidates)
    (named : ∀ n ∈ (w.forest.cluster base).nodes, n.name ≠ "")
    (nonneg : NonNegative (w.forest.cluster base).runtimeClasses
      (w.forest.cluster base).workloads) :
    ∃ p q, (run c number base candidates w).2 = .ok p ∧ (run d number base' others v).2 = .ok q ∧
      (∀ x ∈ candidates, p.found (run c number base candidates w).1.forest x.name =
        alone (w.forest.cluster base) number x) ∧
      (∀ x ∈ others, q.found (run d number base' others v).1.forest x.name =
        p.found (run c number base candidates w).1.forest x.name) ∧
      ∀ {F : Type} [Quantity F] (scoring : Scoring F),
        (p.scores scoring).Pairwise (·.name < ·.name) ∧
        ((∀ x ∈ candidates, x ∉ others → ∀ y ∈ p.scores scoring, y.name ≠ x.name) →
          q.scores scoring = p.scores scoring ∧ q.ties scoring = p.ties scoring) := by
  have sound : (w.forest.cluster base).Sound :=
    ⟨Forest.keyed_cluster quiet.clean.valid, named, nonneg⟩
  obtain ⟨p, ended, told⟩ := quiet.spec sound
  obtain ⟨q, ended', told'⟩ := quiet'.spec (by rwa [same])
  rw [same] at told'
  refine ⟨p, q, ended, ended', told.found_eq, ?_,
    fun scoring => ⟨told.sorted_scores scoring, fun unscored => ?_⟩⟩
  · intro x hx
    rw [told'.found_eq x hx, told.found_eq x (among hx)]
  · have scores := told.scores_eq told' among unscored
    exact ⟨scores, by rw [ties, ties, scores]⟩

/-- A base with one workload pending, where no pass has been yet. -/
def overOneWorkload : Workspace Timeline where
  forest := baseView.1
  registry := ⟨0, ∅⟩
  clock := ScaleOut.freshClock

/-- A machine that is too small for the workload, and one that is not. -/
def smallAndLarge : List Candidate := (ScaleOut.smallThenLarge 4).pools.flatMap Candidate.ofPool

theorem clean_overOneWorkload :
    overOneWorkload.Clean (Timeline.Ready algorithm ScaleOut.standardRules.outer) 0 ∧
      (overOneWorkload.forest.cluster 0).Sound := by
  have filled : baseView.2.toOption.isSome = true := by decide +kernel
  obtain ⟨⟨⟩, filled⟩ := exists_eq_ok filled
  have loaded : baseView = (baseView.1, .ok ()) := Prod.ext rfl filled
  obtain ⟨valid, readable, contents, -, distinct⟩ :=
    Forest.loadSnapshot_newBase Forest.valid_empty loaded
  have sound := Snapshot.sound_cluster distinct (by decide) (by decide +kernel)
  rw [← contents] at sound
  exact ⟨⟨valid, readable, rfl, Timeline.ready_opened algorithm 1 none⟩, sound⟩

theorem quiet_overOneWorkload {candidates : List Candidate}
    (distinct : (candidates.map Candidate.name).Nodup)
    (uncancelled : ScaleOut.standardRules.conductor.cause
      (conducted ScaleOut.standardRules.conductor 1 0 candidates overOneWorkload).2.1 = none)
    (succeeded :
      ((conducted ScaleOut.standardRules.conductor 1 0 candidates overOneWorkload).2.2.all
        (·.outcome?.isSome)) = true) :
    Quiet ScaleOut.standardRules.conductor 1 0 candidates overOneWorkload :=
  quiet_of_succeeded (interleaves_conductor ScaleOut.standardRules algorithm)
    clean_overOneWorkload.1 distinct uncancelled fun s hs =>
      Option.isSome_iff_exists.mp (List.all_eq_true.mp succeeded s hs)

/-- The small machine is of no use, so the pass scores the same without it. -/
theorem siblings_independent_smallAndLarge : ∃ p q,
    (run ScaleOut.standardRules.conductor 1 0 smallAndLarge overOneWorkload).2 = .ok p ∧
    (run ScaleOut.standardRules.conductor 1 0 smallAndLarge.tail overOneWorkload).2 = .ok q ∧
    p.simulations.length = 2 ∧ q.simulations.length = 1 ∧
    (q.scores (ScaleOut.priced Float)).map (·.name) = ["large/large/a"] ∧
    q.scores (ScaleOut.priced Float) = p.scores (ScaleOut.priced Float) ∧
    q.ties (ScaleOut.priced Float) = p.ties (ScaleOut.priced Float) := by
  have both : Quiet ScaleOut.standardRules.conductor 1 0 smallAndLarge overOneWorkload :=
    quiet_overOneWorkload (by decide +kernel) (by decide +kernel) (by decide +kernel)
  have one : Quiet ScaleOut.standardRules.conductor 1 0 smallAndLarge.tail overOneWorkload :=
    quiet_overOneWorkload (by decide +kernel) (by decide +kernel) (by decide +kernel)
  obtain ⟨p, q, ended, ended', -, -, scored⟩ := siblings_independent both one rfl
    (List.tail_sublist _).subset clean_overOneWorkload.2.named clean_overOneWorkload.2.nonneg
  have alone : ((run ScaleOut.standardRules.conductor 1 0 smallAndLarge.tail
      overOneWorkload).2.toOption.all fun q => decide (q.simulations.length = 1) &&
        decide ((q.scores (ScaleOut.priced Float)).map (·.name) = ["large/large/a"])) = true := by
    decide +kernel
  rw [ended'] at alone
  obtain ⟨single, listed⟩ := Bool.and_eq_true_iff.mp alone
  have pending :
      (prepare 0 overOneWorkload { number := 1 } smallAndLarge).2.nothingPending = false := by
    decide +kernel
  have size : (conducted ScaleOut.standardRules.conductor 1 0 smallAndLarge
      overOneWorkload).2.2.length = 2 := by
    decide +kernel
  have idle :
    ((conducted ScaleOut.standardRules.conductor 1 0 smallAndLarge overOneWorkload).2.2.all
      fun s => s.outcome?.all fun o =>
        o.name == "large/large/a" || (!o.converged && o.boundWorkloads == 0)) = true := by
    decide +kernel
  have other : ∀ x ∈ smallAndLarge, x ∉ smallAndLarge.tail → x.name ≠ "large/large/a" := by
    decide +kernel
  have whole := ended
  rw [run_eq pending (both.uncancelled pending)] at whole
  cases whole
  refine ⟨_, q, ended, ended', (List.length_mergeSort _).trans size, of_decide_eq_true single,
    of_decide_eq_true listed, (scored _).2 ?_⟩
  intro x hx left y hy same
  obtain ⟨s, hs, o, succeeded, counts, scored⟩ := mem_scores_iff.mp hy
  have told := List.all_eq_true.mp idle s ((List.mergeSort_perm _ _).mem_iff.mp hs)
  rw [succeeded, Option.all_some, Bool.or_eq_true, beq_iff_eq] at told
  rcases told with large | useless
  · exact other x hx left (by rw [← same, (score_eq_ok scored).1, large])
  · simp only [Bool.and_eq_true, Bool.not_eq_true', beq_iff_eq] at useless
    rcases counts with converged | bound
    · simp [useless] at converged
    · exact bound useless.2

end ScaleAdvisor.Pass
