import ScaleAdvisor.Proofs.Search.Shares

/-!
The quotas of pools. A pool that is full has no candidate left to try, and a pass adds one node at
most; so no pool ever grows past its limit, and one that is past it already does not grow at all.

* `Tallied.turn`: a turn keeps the counts right and the pools within their limits;
* `Leads.quotasHold`: so does a run, in every plan that it makes;
* `quotas_hold`: so does a search, whatever it ends with.
-/

namespace ScaleAdvisor.ScaleOut

variable {σ F : Type} [Quantity F] {c : Conductor σ} {r : AdviceRequest} {scoring : Scoring F}

/-- With so many nodes added the pool is within its limit, or has as many nodes as it had. -/
def WithinLimit (r : AdviceRequest) (pool : NodePool) (added : Nat) : Prop :=
  ∀ most, pool.maxNodes = some most →
    pool.memberCount r.snapshot.nodes + added ≤ max most (pool.memberCount r.snapshot.nodes)

/-- With so many nodes added there is no room for one more. -/
def Full (r : AdviceRequest) (pool : NodePool) (added : Nat) : Prop :=
  ∃ most, pool.maxNodes = some most ∧ most ≤ pool.memberCount r.snapshot.nodes + added

omit [Quantity F] in
/-- How many nodes of a pool have been won so far. -/
def won (s : ScaleOut σ F) (pool : NodePool) : Nat :=
  s.winners.countP fun winner => winner.placement.pool == pool.name

/-- The counts of the pools are right, and no pool is past its limit. -/
structure Tallied (r : AdviceRequest) (s : ScaleOut σ F) : Prop where
  counts : ∀ name, s.perPool.getD name 0 = s.winners.countP fun winner =>
    winner.placement.pool == name
  limits : ∀ pool ∈ r.pools, WithinLimit r pool (s.won pool)

theorem WithinLimit.mono {pool : NodePool} {added fewer : Nat} (within : WithinLimit r pool added)
    (h : fewer ≤ added) : WithinLimit r pool fewer := by
  intro most limited
  have := within most limited
  omega

variable {g : CandidateGroup} {s : ScaleOut σ F} {stalled : Nat} {t : Turn σ F}

omit [Quantity F] in
/-- A candidate that can be tried is of a pool that is not full. -/
theorem Tallied.not_full (tallied : Tallied r s) {d : Candidate} (eligible : d ∈ s.eligible r g) :
    ¬ Full r d.pool (s.won d.pool) := by
  rintro ⟨most, limited, full⟩
  obtain ⟨-, within⟩ := List.mem_filter.mp eligible
  rw [withinQuota, limited, tallied.counts] at within
  have room := of_decide_eq_true within
  rw [won] at full
  omega

theorem Tallied.turn (tallied : Tallied r s) (faithful : c.Faithful)
    (distinct : (r.pools.map (·.name)).Nodup) (pools : ∀ d ∈ g.candidates, d.pool ∈ r.pools)
    (course : Course c r scoring g s stalled t) : Tallied r t.after := by
  rcases course.winners with ⟨winners, perPool⟩ | ⟨w, p, winner, ran, scored, -, winners, perPool⟩
  · constructor
    · rw [winners, perPool]
      exact tallied.counts
    · simp only [won, winners]
      exact tallied.limits
  · obtain ⟨d, eligible, offers⟩ := Pass.exists_offers faithful ran scored
    have named := offers.pool
    constructor
    · intro name
      rw [perPool, winners, List.countP_append, SortedMap.getD, SortedMap.get?_insert]
      by_cases same : name = winner.placement.pool
      · rw [if_pos (KeyOrder.same_iff.mpr same), same, ← tallied.counts]
        simp
      · rw [if_neg (by simpa using same), ← tallied.counts]
        simp [SortedMap.getD, Ne.symm same]
    · intro pool there most limited
      have before := tallied.limits pool there most limited
      by_cases same : winner.placement.pool = pool.name
      · -- The winner is a candidate of this pool, which had room for one more.
        have tried : d.pool = pool :=
          List.inj_on_of_nodup_map distinct (pools d (List.mem_filter.mp eligible).1) there
            (named.symm.trans same)
        have room := tallied.not_full eligible
        rw [tried] at room
        have added : t.after.won pool = s.won pool + 1 := by
          simp [won, winners, same]
        have open' : ¬ most ≤ pool.memberCount r.snapshot.nodes + s.won pool :=
          fun full => room ⟨most, limited, full⟩
        rw [added]
        omega
      · have kept : t.after.won pool = s.won pool := by
          simp [won, winners, same]
        rw [kept]
        exact before

/-- No candidate of a full pool is simulated: none is tried, none is set up, and none is handed
back. -/
def LeavesFullPools (r : AdviceRequest) (g : CandidateGroup) (t : Turn σ F) : Prop :=
  ∀ pool ∈ r.pools, Full r pool (t.before.won pool) →
    (∀ d ∈ t.before.eligible r g, d.pool ≠ pool) ∧
    (∀ sim ∈ (Pass.prepare t.before.base t.before.workspace { number := t.number }
      (t.before.eligible r g)).2.simulations, sim.candidate.pool ≠ pool) ∧
    ∀ p, t.pass? = some p → ∀ sim ∈ p.simulations, sim.candidate.pool ≠ pool

theorem Tallied.leavesFullPools (tallied : Tallied r s) (faithful : c.Faithful)
    (course : Course c r scoring g s stalled t) : LeavesFullPools r g t := by
  have before := course.before
  intro pool there full
  have tried : ∀ d ∈ t.before.eligible r g, d.pool ≠ pool := by
    rintro d eligible rfl
    rw [before] at eligible full
    exact tallied.not_full eligible full
  refine ⟨tried, ?_, ?_⟩
  · intro sim hs
    exact tried _ (Pass.mem_prepare (fun _ h => h) (by simp) sim hs).1.candidate
  · intro p ended sim hs
    obtain ⟨w, ran⟩ := course.ran ended
    have eligible := (Pass.mem_simulations faithful ran sim hs).candidate
    rw [← before] at eligible
    exact tried _ eligible

/-- What a plan adds to each pool is within its limit. -/
def PlanWithinLimits (r : AdviceRequest) (plan : ScaleOutPlan) : Prop :=
  ∀ pool ∈ r.pools, WithinLimit r pool (plan.added fun placement => placement.pool == pool.name)

/-- All limits are kept, and full pools are left alone. -/
structure QuotasHold (r : AdviceRequest) (visits : List (Visit σ F)) (result : Result σ) :
    Prop where
  plan : ∀ plan, result.outcome = .ok plan → PlanWithinLimits r plan
  partials : ∀ plan ∈ result.partials, PlanWithinLimits r plan
  leaves : ∀ v ∈ visits, ∀ t ∈ v.turns, LeavesFullPools r v.group t

omit [Quantity F] in
/-- A plan for some of the winners, in their order. -/
theorem Tallied.plan (tallied : Tallied r s) {some : List (NodeScore F)}
    (sub : some.Sublist s.winners) (leftover : KeySet WorkloadKey) :
    PlanWithinLimits r (.build r.snapshot.nodes (some.map (·.placement)) leftover) := by
  intro pool there
  rw [ScaleOutPlan.added_build, List.countP_map]
  exact (tallied.limits pool there).mono sub.countP_le

theorem Leads.quotasHold {clock : σ} {visits : List (Visit σ F)} {last : ScaleOut σ F}
    {result : Result σ} (leads : Leads c r scoring ∅ clock visits last result)
    (faithful : c.Faithful) (distinct : (r.pools.map (·.name)).Nodup) :
    QuotasHold r visits result := by
  obtain ⟨w, pending, groups, answer, opened, listed, further⟩ := leads.run.further
  have start : Tallied r (begun w pending : ScaleOut σ F) := by
    refine ⟨fun _ => rfl, ?_⟩
    intro pool there most limited
    exact Nat.le_max_right _ _
  obtain ⟨final, told⟩ := further.keeps (Tallied r) (fun _ _ => True) (LeavesFullPools r)
    (fun g hg s stalled t tallied _ course =>
      ⟨tallied.turn faithful distinct (fun _ => CandidateGroup.pool_mem (listed.subset hg)) course,
        tallied.leavesFullPools faithful course⟩) (fun _ _ _ _ => trivial) start
  refine ⟨?_, ?_, fun v hv t ht => ((told v hv).2.2 t ht).2.2⟩
  · intro plan planned
    have run := leads.run
    rw [planned] at run
    rw [run.plan_eq]
    exact final.plan (.refl _) _
  · intro plan noted
    rw [leads.partials, further.notes_eq] at noted
    obtain ⟨v, hv, rfl⟩ := List.mem_map.mp noted
    have hv := (List.mem_filter.mp hv).1
    have share : v.added.Sublist v.after.winners := by
      rw [further.added.2 v hv]
      exact List.sublist_append_right _ _
    exact (told v hv).2.1.plan share _

/-- Whatever the scheduler does and however a search ends, no pool is taken past its limit, and none
that is full is tried. -/
theorem quotas_hold {clock : σ} {result : Result σ} (faithful : c.Faithful)
    (distinct : (r.pools.map (·.name)).Nodup)
    (reached : (simulate c r scoring ∅ clock).Reaches result) :
    (Unopened r ∅ clock result ∨ ∃ visits last, Leads c r scoring ∅ clock visits last result) ∧
    ∀ visits last, Leads c r scoring ∅ clock visits last result → QuotasHold r visits result :=
  ⟨reaches_simulate_iff.mp reached, fun _ _ leads => leads.quotasHold faithful distinct⟩

/-- The small pool may have one node, and has it. -/
def smallPoolFull : AdviceRequest where
  id := "request"
  pools := (smallThenLarge 2).pools.map fun pool => { pool with maxNodes := some 1 }
  snapshot.nodes := [{
    name := "existing"
    labels := .ofList [(Label.nodePool, "small")]
    capacity := .ofCoresAndGib 2 16
    allocatable := .ofCoresAndGib 2 16
    unschedulable := true }]
  snapshot.workloads := (smallThenLarge 2).snapshot.workloads

/-- A small machine would do, but a large one is added. -/
theorem quotas_hold_smallPoolFull : ∃ result visits plan,
    (simulate standardRules.conductor smallPoolFull (priced Float) ∅ freshClock).Reaches result ∧
    result.outcome = .ok plan ∧
    plan.items.map (fun item => (item.placement.pool, item.delta)) = [("large", 1)] ∧
    QuotasHold smallPoolFull (F := Float) visits result := by
  obtain ⟨visits, last, plan, run, items⟩ := exists_planned standardRules.conductor smallPoolFull
    (priced Float) 1 ∅ freshClock (fun _ _ plan => decide
      (plan.items.map (fun item => (item.placement.pool, item.delta)) = [("large", 1)]))
    (by decide +kernel)
  have held := quotas_hold (faithful_conductor standardRules) (by decide +kernel) run.leads.reaches
  exact ⟨_, visits, plan, run.leads.reaches, rfl, of_decide_eq_true items,
    held.2 visits last run.leads⟩

end ScaleAdvisor.ScaleOut
