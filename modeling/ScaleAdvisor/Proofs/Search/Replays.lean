import ScaleAdvisor.Proofs.Search.Picks
import ScaleAdvisor.Proofs.Search.Siblings

/-!
Two searches side by side that start from the same contents and try the same candidates, whatever
the order in which these are listed. As long as neither is disturbed, the same picks take both
through the same turns: their passes have the same scores, so the same pick is the same winner, and
the bases that they go on from stand for the same contents.

* `Pass.told_of_whole`: what a pass leaves behind in which no simulation is cut short;
* `Twins.alike_turn`: one turn of both;
* `Twins.follow_group`, `Twins.follow_groups`: all turns of a group, and of all groups.
-/

namespace ScaleAdvisor

/-- The pool without the lists that candidates are taken from. -/
def NodePool.bare (p : NodePool) : NodePool := { p with zones := [], templates := [] }

namespace Candidate

/-- What a candidate comes down to: its pool apart from the lists there, its zone, and its
template. -/
def essence (c : Candidate) : Candidate × Option NodeTemplate :=
  ({ c with pool := c.pool.bare }, c.pool.template? c.template)

/-- The same candidates in any order, whatever the order in which their pools list them. -/
def Rearranged (xs ys : List Candidate) : Prop := (ys.map essence).Perm (xs.map essence)

variable {xs ys : List Candidate}

theorem Rearranged.symm (same : Rearranged xs ys) : Rearranged ys xs := List.Perm.symm same

theorem Rearranged.exists_mem (same : Rearranged xs ys) {x : Candidate} (hx : x ∈ xs) :
    ∃ y ∈ ys, y.essence = x.essence :=
  List.mem_map.mp ((List.Perm.mem_iff same).mpr (List.mem_map_of_mem hx))

theorem name_of_essence {x y : Candidate} (same : y.essence = x.essence) : y.name = x.name :=
  congrArg (fun e => e.1.name) same

theorem Rearranged.nodup (same : Rearranged xs ys) (distinct : (xs.map name).Nodup) :
    (ys.map name).Nodup := by
  have names := List.Perm.map (fun e => e.1.name) same
  rw [List.map_map, List.map_map] at names
  exact names.nodup_iff.mpr distinct

theorem Rearranged.isEmpty (same : Rearranged xs ys) : ys.isEmpty = xs.isEmpty := by
  have length := List.Perm.length_eq same
  rw [List.length_map, List.length_map] at length
  rw [Bool.eq_iff_iff, List.isEmpty_iff_length_eq_zero, List.isEmpty_iff_length_eq_zero, length]

/-- Who is left does not depend on the order if pools are told apart by anything but their lists. -/
theorem Rearranged.filter {keep keep' : NodePool → Bool} (same : Rearranged xs ys)
    (bare : ∀ p, keep p.bare = keep p) (agree : ∀ p, keep' p = keep p) :
    Rearranged (xs.filter fun c => keep c.pool) (ys.filter fun c => keep' c.pool) := by
  have kept (zs : List Candidate) : (zs.filter fun c => keep c.pool).map essence =
      (zs.map essence).filter fun e => keep e.1.pool := by
    rw [List.filter_map]
    simp only [Function.comp_def, essence, bare]
  simp only [agree]
  rw [Rearranged, kept, kept]
  exact List.Perm.filter _ same

end Candidate

namespace Pass

section Told

variable {σ F : Type} [Quantity F] {C : Cluster} {number : Nat} {candidates others : List Candidate}
  {f g : Forest} {p q : Pass} {scoring : Scoring F}

theorem alone_of_essence {x y : Candidate} (same : y.essence = x.essence) :
    alone C number y = alone C number x := by
  have whole (z : Candidate) : alone C number z = if C.pendingKeys.keys = [] then none
      else z.essence.2.map fun t => z.essence.1.alone t number C := rfl
  rw [whole, whole, same]

theorem Told.mem_scores_of_rearranged (told : Told C number candidates f p)
    (told' : Told C number others g q) (same : Candidate.Rearranged candidates others)
    {y : NodeScore F} (hy : y ∈ p.scores scoring) : y ∈ q.scores scoring := by
  obtain ⟨x, hx, o, succeeded, named, counts, scored⟩ := told.mem_scores_iff.mp hy
  obtain ⟨x', hx', essence⟩ := same.exists_mem hx
  rw [← alone_of_essence essence] at succeeded
  rw [← Candidate.name_of_essence essence] at named
  exact told'.mem_scores_iff.mpr ⟨x', hx', o, succeeded, named, counts, scored⟩

/-- The order of the candidates does not matter to the scores. -/
theorem Told.scores_rearranged (told : Told C number candidates f p)
    (told' : Told C number others g q) (same : Candidate.Rearranged candidates others)
    (scoring : Scoring F) : q.scores scoring = p.scores scoring :=
  told.scores_eq_of_mem_iff told' fun _ =>
    ⟨told'.mem_scores_of_rearranged told same.symm, told.mem_scores_of_rearranged told' same⟩

/-- Nor does it matter to what the simulation of a candidate comes to. -/
theorem Told.outcome_rearranged (told : Told C number candidates f p)
    (told' : Told C number others g q) (same : Candidate.Rearranged candidates others)
    {x : NodeScore F} (scored : x ∈ p.scores scoring) :
    (q.simulation? x.name).bind (·.outcome?) = (p.simulation? x.name).bind (·.outcome?) := by
  have outcome (p : Pass) (f : Forest) (name : String) :
      (p.simulation? name).bind (·.outcome?) = (p.found f name).bind (·.outcome) := by
    rw [found, Option.bind_map]
    rfl
  obtain ⟨c, hc, -, -, named, -⟩ := told.mem_scores_iff.mp scored
  obtain ⟨c', hc', essence⟩ := same.exists_mem hc
  rw [outcome q g, outcome p f, named, told.found_eq c hc, ← Candidate.name_of_essence essence,
    told'.found_eq c' hc', alone_of_essence essence]

end Told

section Whole

variable {σ : Type} {c : Conductor σ} {ready : σ → Prop} {number : Nat} {base : ViewId}
  {candidates : List Candidate} {w w' : Workspace σ} {p : Pass}

/-- What a pass leaves behind in which no simulation is cut short. -/
theorem told_of_whole (candid : c.Candid BinPack.algorithm ready) (clean : w.Clean ready base)
    (sound : (w.forest.cluster base).Sound) (distinct : (candidates.map Candidate.name).Nodup)
    (ran : run c number base candidates w = (w', .ok p)) (something : p.nothingPending = false)
    (whole : ∀ s ∈ p.simulations, ∀ e, s.error? = some e → e.isCutShort = false) :
    Told (w.forest.cluster base) number candidates w'.forest p := by
  rw [run] at ran
  dsimp only at ran
  rcases prepare_all number clean distinct with prepared | ⟨said, -⟩
  · rw [if_neg (by simp [prepared.pending])] at ran
    split at ran
    · cases ran
    · cases ran
      have ready' : ready (prepare base w { number } candidates).1.clock := by
        rw [prepared.clock]
        exact clean.ready
      refine told_of_prepared distinct prepared (.refl _) (candid.comes ready' prepared.valid
        (prepared.apart clean) (fun s hs => ?_) (fun s hs => (prepared.setUp s hs).fresh) ?_)
      · rw [(prepared.setUp s hs).contents]
        exact sound
      · exact fun s hs => whole s ((List.mergeSort_perm _ _).mem_iff.mpr hs)
  · rw [if_pos said] at ran
    cases ran
    simp [said] at something

end Whole

end Pass

/-- A plan counts nodes, in any order. -/
theorem ScaleOutPlan.build_perm {nodes nodes' : List Node} (perm : nodes'.Perm nodes)
    (winners : List Placement) (leftover : KeySet WorkloadKey) :
    build nodes' winners leftover = build nodes winners leftover := by
  simp only [build, perm.countP_eq]

namespace ScaleOut

variable {σ τ F : Type} [Quantity F]

/-- Two searches that have come to the same point. -/
structure Twins (ready : σ → Prop) (ready' : τ → Prop) (s : ScaleOut σ F) (s' : ScaleOut τ F) :
    Prop where
  poised : s.Poised ready
  poised' : s'.Poised ready'
  contents : s'.contents = s.contents
  passes : s'.passes = s.passes
  winners : s'.winners = s.winners
  perPool : s'.perPool = s.perPool
  placedInPlace : s'.placedInPlace = s.placedInPlace

variable {ready : σ → Prop} {ready' : τ → Prop} {s : ScaleOut σ F} {s' : ScaleOut τ F}
  {c : Conductor σ} {d : Conductor τ} {r r' : AdviceRequest} {scoring : Scoring F}
  {g g' : CandidateGroup} {stalled : Nat}

omit [Quantity F] in
theorem Twins.pending (twins : Twins ready ready' s s') : s'.pending = s.pending := by
  rw [twins.poised.pending, twins.poised'.pending, twins.contents]

omit [Quantity F] in
/-- The same candidates can be tried. -/
theorem Twins.eligible (twins : Twins ready ready' s s')
    (nodes : r'.snapshot.nodes.Perm r.snapshot.nodes)
    (same : Candidate.Rearranged g.candidates g'.candidates) :
    Candidate.Rearranged (s.eligible r g) (s'.eligible r' g') := by
  refine same.filter (fun p => rfl) fun p => ?_
  rw [withinQuota, withinQuota, twins.perPool]
  cases p.maxNodes with
  | none => rfl
  | some most =>
    have members : p.memberCount r'.snapshot.nodes = p.memberCount r.snapshot.nodes :=
      nodes.countP_eq _
    simp only [members]

/-- The pass of a turn that nothing disturbs. -/
structure Undelayed (c : Conductor σ) (r : AdviceRequest) (g : CandidateGroup) (ready : σ → Prop)
    (s : ScaleOut σ F) (w : Workspace σ) (p : Pass) : Prop where
  uncalled : c.cause s.workspace.clock = none
  ran : Pass.run c (s.passes + 1) s.base (s.eligible r g) s.workspace = (w, .ok p)
  something : p.nothingPending = false
  left : Pass.Ran ready (s.passes + 1) s.base (s.eligible r g) s.workspace w p
  told : Pass.Told s.contents (s.passes + 1) (s.eligible r g) w.forest p

/-- A smooth turn has a pass that nothing disturbs. -/
theorem exists_undelayed (candid : c.Candid BinPack.algorithm ready) (poised : s.Poised ready)
    (pending : s.pending.keys ≠ []) (distinct : (g.candidates.map Candidate.name).Nodup)
    {t : Turn σ F} (taken : (turn c r scoring g s stalled).Reaches t) (smooth : t.isSmooth = true) :
    ∃ w p, Undelayed c r g ready s w p := by
  have eligible : ((s.eligible r g).map Candidate.name).Nodup :=
    (List.filter_sublist.map Candidate.name).nodup distinct
  have ending :=
    Pass.run_spec (s.passes + 1) poised.clean poised.sound eligible candid.toInterleaves
  have undelayed {w : Workspace σ} {p : Pass} (uncalled : c.cause s.workspace.clock = none)
      (ran : Pass.run c (s.passes + 1) s.base (s.eligible r g) s.workspace = (w, .ok p))
      (something : p.nothingPending = false) (ended : t.pass? = some p) :
      ∃ w p, Undelayed c r g ready s w p := by
    have whole : ∀ s ∈ p.simulations, ∀ e, s.error? = some e → e.isCutShort = false := by
      intro s hs e failed
      simp only [Turn.isSmooth, ended, Bool.and_eq_true, Option.all_some,
        List.all_eq_true] at smooth
      simpa [failed] using smooth.2 s hs
    refine ⟨w, p, uncalled, ran, something, ?_,
      Pass.told_of_whole candid poised.clean poised.sound eligible ran something whole⟩
    rw [ran] at ending
    cases ending with
    | nothing said => simp [something] at said
    | ran ran => exact ran
  cases turn_course taken with
  | cancelled cause called => simp [Turn.isSmooth] at smooth
  | broken _ ran =>
    rw [ran] at ending
    cases ending with
    | cancelled => simp [Turn.isSmooth] at smooth
  | nothing _ ran said =>
    rw [ran] at ending
    cases ending with
    | ran ran => simp [ran.pending] at said
    | nothing _ none =>
      rw [poised.pending] at pending
      exact absurd none pending
  | untold uncalled ran something | exhausted uncalled ran something
  | homeless uncalled ran something
  | useless uncalled ran something | promoted uncalled ran something =>
    exact undelayed uncalled ran something rfl

section Undelayed

variable {w : Workspace σ} {p : Pass} {winner : NodeScore F}

omit [Quantity F] in
/-- If nobody is promoted the search is none the wiser. -/
theorem Undelayed.still (undelayed : Undelayed c r g ready s w p) (poised : s.Poised ready) :
    Still ready s ((s.passed w).discard p) := by
  obtain ⟨clean, keeps, -⟩ := undelayed.left.release poised.clean none
  exact still_of_extends poised clean keeps _

/-- Every winner leaves less pending, and can be promoted. -/
theorem Undelayed.promotes (undelayed : Undelayed c r g ready s w p) (poised : s.Poised ready)
    (scored : winner ∈ p.scores scoring) (next : Next) :
    ∃ view, p.view? winner.name = some view ∧
      (KeySet.ofKeys winner.unscheduled).size < s.pending.size ∧
      ∃ o, (p.simulation? winner.name).bind (·.outcome?) = some o ∧
        Promotes ready
          ⟨s, (s.passed w).promote p winner view (.ofKeys winner.unscheduled), next, some p,
            some winner, true⟩ winner o := by
  obtain ⟨view, there, less, promotes⟩ := promotes_of_score poised undelayed.left scored
  obtain ⟨o, wins, promotes⟩ := promotes ⟨s, _, next, some p, some winner, true⟩ rfl rfl rfl rfl rfl
  exact ⟨view, there, less, o, wins.outcome, promotes⟩

end Undelayed

omit [Quantity F] in
theorem Twins.still (twins : Twins ready ready' s s') {a : ScaleOut σ F} {a' : ScaleOut τ F}
    (still : Still ready s a) (still' : Still ready' s' a') (passes : a'.passes = a.passes) :
    Twins ready ready' a a' where
  poised := still.poised
  poised' := still'.poised
  contents := by rw [still'.contents, still.contents, twins.contents]
  passes := passes
  winners := by rw [still'.winners, still.winners, twins.winners]
  perPool := by rw [still'.perPool, still.perPool, twins.perPool]
  placedInPlace := by rw [still'.placedInPlace, still.placedInPlace, twins.placedInPlace]

omit [Quantity F] in
theorem Twins.promoted (twins : Twins ready ready' s s') {t : Turn σ F} {t' : Turn τ F}
    {winner : NodeScore F} {o : Outcome} (before : t.before = s) (before' : t'.before = s')
    (promotes : Promotes ready t winner o) (promotes' : Promotes ready' t' winner o)
    (passes : t'.after.passes = t.after.passes) : Twins ready ready' t.after t'.after where
  poised := promotes.poised
  poised' := promotes'.poised
  contents := by rw [promotes'.contents, promotes.contents, before, before', twins.contents]
  passes := passes
  winners := by rw [promotes'.winners, promotes.winners, before, before', twins.winners]
  perPool := by rw [promotes'.perPool, promotes.perPool, before, before', twins.perPool]
  placedInPlace := by
    rw [promotes'.placedInPlace, promotes.placedInPlace, before, before', twins.placedInPlace]

/-- Two turns that leave two searches at the same point; they have something pending, unless all has
been placed. -/
structure TwinTurns (ready : σ → Prop) (ready' : τ → Prop) (t : Turn σ F) (t' : Turn τ F) :
    Prop where
  next : t'.next = t.next
  after : Twins ready ready' t.after t'.after
  pending : t.next ≠ .finished (.ok true) → t.after.pending.keys ≠ []

/-- One turn of both. -/
theorem Twins.alike_turn (twins : Twins ready ready' s s') (pending : s.pending.keys ≠ [])
    {w : Workspace σ} {w' : Workspace τ} {p p' : Pass} (undelayed : Undelayed c r g ready s w p)
    (undelayed' : Undelayed d r' g' ready' s' w' p')
    (same : Candidate.Rearranged (s.eligible r g) (s'.eligible r' g')) :
    Choice.Alike (TwinTurns ready ready') (turn c r scoring g s stalled)
      (turn d r' scoring g' s' stalled) := by
  have told' : Pass.Told s.contents (s.passes + 1) (s'.eligible r' g') w'.forest p' := by
    rw [← twins.contents, ← twins.passes]
    exact undelayed'.told
  have scores := undelayed.told.scores_rearranged told' same scoring
  have ties : p'.ties scoring = p.ties scoring := by rw [Pass.ties, Pass.ties, scores]
  have still := twins.still (undelayed.still twins.poised) (undelayed'.still twins.poised')
    (congrArg (· + 1) twins.passes)
  rw [turn, turn, undelayed.uncalled, undelayed'.uncalled]
  dsimp only
  rw [undelayed.ran, undelayed'.ran]
  dsimp only
  rw [undelayed.something, undelayed'.something, ties]
  rcases found : p.ties scoring with e | _ | ⟨first, rest⟩
  · exact .done ⟨rfl, still, fun _ => pending⟩
  · exact .done ⟨rfl, still, fun _ => pending⟩
  · refine Choice.alike_among fun winner picked => ?_
    have scored := Pass.mem_scores_of_mem_ties found picked
    have scored' : winner ∈ p'.scores scoring := by rwa [scores]
    -- What is picked leaves the same pending in both, and so decides how both go on.
    let next : Next :=
      if (KeySet.ofKeys winner.unscheduled).isEmpty then .finished (.ok true) else .again 0
    obtain ⟨view, there, less, o, outcome, promotes⟩ :=
      undelayed.promotes twins.poised scored next
    obtain ⟨view', there', less', o', outcome', promotes'⟩ :=
      undelayed'.promotes twins.poised' scored' next
    obtain rfl : o = o' := by
      rw [undelayed.told.outcome_rearranged told' same scored, outcome] at outcome'
      exact Option.some.inj outcome'
    rw [if_pos less, if_pos less', there, there']
    refine ⟨rfl, twins.promoted rfl rfl promotes promotes' (congrArg (· + 1) twins.passes), ?_⟩
    intro unfinished nothing
    exact unfinished (if_pos (SortedMap.isEmpty_iff.mpr nothing))

/-- Two groups that have come to one answer, and left two searches at the same point. -/
structure TwinAnswers (ready : σ → Prop) (ready' : τ → Prop)
    (x : ScaleOut σ F × Except SimulationError Bool)
    (x' : ScaleOut τ F × Except SimulationError Bool) : Prop where
  answer : x'.2 = x.2
  after : Twins ready ready' x.1 x'.1
  pending : x.2 ≠ .ok true → x.1.pending.keys ≠ []

section Runs

variable (candid : c.Candid BinPack.algorithm ready) (candid' : d.Candid BinPack.algorithm ready')
  (nodes : r'.snapshot.nodes.Perm r.snapshot.nodes)

include candid candid' nodes

/-- All turns of a group. -/
theorem Twins.follow_group {s : ScaleOut σ F} {s' : ScaleOut τ F} (twins : Twins ready ready' s s')
    (pending : s.pending.keys ≠ [])
    (same : Candidate.Rearranged g.candidates g'.candidates)
    (distinct : (g.candidates.map Candidate.name).Nodup) (stalled : Nat) (picks : List Nat)
    (smooth : ∀ t ∈ groupTurns c r scoring g s stalled picks, t.isSmooth = true)
    (smooth' : ∀ t ∈ groupTurns d r' scoring g' s' stalled picks, t.isSmooth = true) :
    TwinAnswers ready ready' ((runGroup c r scoring g s stalled).follow picks)
        ((runGroup d r' scoring g' s' stalled).follow picks) ∧
      (runGroup d r' scoring g' s' stalled).unused picks =
        (runGroup c r scoring g s stalled).unused picks := by
  -- Both first turns are smooth, so both have a pass that nothing disturbs; the turns after them go
  -- on from twins again.
  have taken := (turn c r scoring g s stalled).reaches_follow picks
  have taken' := (turn d r' scoring g' s' stalled).reaches_follow picks
  obtain ⟨w, p, undelayed⟩ :=
    exists_undelayed candid twins.poised pending distinct taken (smooth _ follow_mem_groupTurns)
  obtain ⟨w', p', undelayed'⟩ := exists_undelayed candid' twins.poised' (twins.pending ▸ pending)
    (same.nodup distinct) taken' (smooth' _ follow_mem_groupTurns)
  obtain ⟨both, unused⟩ :=
    (twins.alike_turn pending undelayed undelayed' (twins.eligible nodes same)).follow picks
  obtain ⟨followed, left⟩ := @follow_runGroup _ F _ c r scoring g s stalled picks
  obtain ⟨followed', left'⟩ := @follow_runGroup _ F _ d r' scoring g' s' stalled picks
  rw [followed, followed', left, left', unused, afterTurn, afterTurn, both.next]
  cases next : ((turn c r scoring g s stalled).follow picks).next with
  | finished answer =>
    refine ⟨⟨rfl, both.after, fun unfinished => both.pending ?_⟩, rfl⟩
    rw [next]
    rintro ⟨⟩
    exact unfinished rfl
  | again again =>
    have shrinks := turn_shrinks taken next
    rw [groupTurns_of_again next] at smooth
    rw [groupTurns_of_again (both.next.trans next), unused] at smooth'
    exact Twins.follow_group both.after (both.pending (by simp [next])) same distinct again _
      (fun t ht => smooth t (List.mem_cons_of_mem _ ht))
      (fun t ht => smooth' t (List.mem_cons_of_mem _ ht))
termination_by (s.pending.size, patience - stalled)
decreasing_by exact shrinks

/-- All turns of all groups. -/
theorem Twins.follow_groups {groups groups' : List CandidateGroup}
    (same : List.Forall₂ (fun g g' => Candidate.Rearranged g.candidates g'.candidates)
      groups groups')
    (distinct : ∀ g ∈ groups, (g.candidates.map Candidate.name).Nodup)
    (twins : Twins ready ready' s s') (pending : s.pending.keys ≠ []) (noted : List ScaleOutPlan)
    (picks : List Nat) (smooth : ∀ t ∈ visitTurns c r scoring s groups picks, t.isSmooth = true)
    (smooth' : ∀ t ∈ visitTurns d r' scoring s' groups' picks, t.isSmooth = true) :
    Twins ready ready' ((runGroups c r scoring s noted groups).follow picks).1
        ((runGroups d r' scoring s' noted groups').follow picks).1 ∧
      ((runGroups d r' scoring s' noted groups').follow picks).2 =
        ((runGroups c r scoring s noted groups).follow picks).2 := by
  induction same generalizing s s' noted picks with
  | nil => exact ⟨twins, rfl⟩
  | @cons g g' rest rest' head _ ih =>
    rw [visitTurns, List.forall_mem_append] at smooth smooth'
    obtain ⟨own, others⟩ := List.forall_mem_cons.mp distinct
    obtain ⟨group, unused⟩ := Twins.follow_group candid candid' nodes twins pending head own 0 picks
      smooth.1 smooth'.1
    replace smooth := smooth.2
    replace smooth' := smooth'.2
    rw [runGroups, runGroups, Choice.follow_bind, Choice.follow_bind, unused]
    rw [unused] at smooth'
    generalize (runGroup c r scoring g s 0).follow picks = x at group smooth ⊢
    generalize (runGroup d r' scoring g' s' 0).follow picks = x' at group smooth' ⊢
    obtain ⟨middle, answer⟩ := x
    obtain ⟨middle', answer'⟩ := x'
    obtain ⟨rfl, after, unfinished⟩ := group
    dsimp only at smooth smooth' after unfinished ⊢
    rw [after.winners, twins.winners, after.pending, ScaleOutPlan.build_perm nodes]
    rcases answer' with e | _ | _
    · exact ⟨after, rfl⟩
    · exact ih others after (unfinished (by simp)) _ _ smooth smooth'
    · exact ⟨after, rfl⟩

end Runs

omit [Quantity F] in
theorem Twins.plan (twins : Twins ready ready' s s')
    (nodes : r'.snapshot.nodes.Perm r.snapshot.nodes) : s'.plan r' = s.plan r := by
  rw [ScaleOut.plan, ScaleOut.plan, twins.winners, twins.placedInPlace, twins.pending,
    ScaleOutPlan.build_perm nodes]

end ScaleOut

end ScaleAdvisor
