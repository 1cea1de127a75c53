import ScaleAdvisor.Proofs.Catalog.Fractions
import ScaleAdvisor.Proofs.Search.Lineage

/-!
No node is missed. A group is left only when none of its candidates gets anywhere, and what its last
pass could not place on a candidate's node, nobody can place there later: it has stayed pending, and
the node has stayed empty.

* `scores_eq_nil_of_ties`: a pass that has scores has a winner;
* `idle_of_exhausted`: in a pass without a winner no candidate places anything;
* `Run.complete`: whatever a run leaves over fits on no candidate's node;
* `leftover_fits_nowhere`: the same of whatever a search leaves over.
-/

namespace ScaleAdvisor

namespace BinPack

/-- A node of these labels, taints and resources takes the workload when it is empty. -/
def FitsEmpty (classes : List RuntimeClass) (w : Workload) (n : Node) : Prop :=
  admits w n = true ∧ ∀ resource, 0 < w.asks classes resource →
    w.asks classes resource ≤ n.allocatable.get resource

end BinPack

section Ties

variable {F : Type} [Quantity F]

theorem Quantity.mem_of_max? {xs : List F} {x : F} (h : max? xs = some x) : x ∈ xs := by
  have picked (a : F) (rest : List F) :
      rest.foldl (fun a b => if lt a b then b else a) a ∈ a :: rest := by
    induction rest generalizing a with
    | nil => simp
    | cons b rest ih =>
      rw [List.foldl_cons]
      split
      · exact List.mem_cons_of_mem _ (ih b)
      · obtain same | later := List.mem_cons.mp (ih a)
        · rw [same]
          exact List.mem_cons_self
        · exact List.mem_cons_of_mem _ (List.mem_cons_of_mem _ later)
  rw [max?] at h
  split at h
  · simp at h
  · rename_i a rest numbers
    have kept := picked a rest
    rw [Option.some.inj h, ← numbers] at kept
    exact (List.mem_filter.mp kept).1

/-- The best of several scores ties with itself, if its criterion is a number that does. -/
theorem scores_eq_nil_of_ties (tied : ∀ x : F, Quantity.isFinite x = true →
    Quantity.le (Quantity.abs (x - x)) tieWidth = true) {s : Selector} {p : Preference}
    {scores : List (NodeScore F)} (h : finalTies s p scores = .ok []) : False := by
  rcases scores with _ | ⟨only, _ | ⟨second, rest⟩⟩
  · simp [finalTies] at h
  · simp [finalTies] at h
  · simp only [finalTies] at h
    split at h
    · simp at h
    · rename_i top found
      obtain ⟨found, finite⟩ := Option.filter_eq_some_iff.mp found
      obtain ⟨x, hx, rfl⟩ := List.mem_map.mp (Quantity.mem_of_max? found)
      have tie := tied _ finite
      have listed := List.filter_eq_nil_iff.mp (Except.ok.inj h) x hx
      exact listed tie

theorem Pass.scores_eq_nil (tied : ∀ x : F, Quantity.isFinite x = true →
    Quantity.le (Quantity.abs (x - x)) tieWidth = true) {p : Pass} {scoring : Scoring F}
    (h : p.ties scoring = .ok []) : p.scores scoring = [] := by
  rw [Pass.ties] at h
  split at h
  · assumption
  · split at h
    · rename_i found
      cases h
      exact (scores_eq_nil_of_ties tied found).elim
    · simp at h

end Ties

namespace ScaleOut

variable {σ F : Type} [Quantity F] {ready : σ → Prop} {scoring : Scoring F}

/-- In a pass without a winner no candidate whose instance type has a price places anything. -/
theorem idle_of_exhausted {number : Nat} {base : ViewId} {candidates : List Candidate}
    {w₀ w : Workspace σ} {p : Pass} (ran : Pass.Ran ready number base candidates w₀ w p)
    (none : p.scores scoring = []) (succeed : ∀ s ∈ p.simulations, ∃ o, s.outcome? = some o)
    {c : Candidate} (hc : c ∈ candidates) {template : NodeTemplate}
    (found : c.pool.template? c.template = some template) {price : F}
    (priced : scoring.prices.price c.pool.region template.instanceType = .ok price) :
    (w₀.forest.cluster base).get? ⟨.node, (c.node template number).name⟩ = Option.none ∧
      ∀ k node, ⟨k, some node⟩ ∉
        ((w₀.forest.cluster base).addNode (c.node template number)).decisions := by
  obtain ⟨s, hs, rfl⟩ := ran.complete c hc template found
  obtain ⟨o, succeeded⟩ := succeed s hs
  have played := ran.played s hs
  obtain rfl := Option.some.inj (played.template.symm.trans found)
  obtain ⟨-, placement, node, free, -, tells⟩ := played.success o succeeded
  rw [node] at free tells
  have scored : ∃ x, score scoring.strategy scoring.prices scoring.weights o = .ok x := by
    have price? : scoring.prices.price o.placement.region o.placement.instanceType = .ok price := by
      rw [placement]
      exact priced
    rw [score, price?]
    exact ⟨_, rfl⟩
  obtain ⟨x, scored⟩ := scored
  have idle : o.boundWorkloads = 0 := by
    by_contra some
    have listed := Pass.mem_scores_iff.mpr ⟨s, hs, o, succeeded, .inr some, scored⟩
    rw [none] at listed
    simp at listed
  rw [Outcome.boundWorkloads_eq, List.length_eq_zero_iff] at idle
  refine ⟨free, ?_⟩
  intro k node hd
  have placed := (tells.assigned k).mpr ⟨node, hd⟩
  rw [idle] at placed
  simp at placed

variable {c : Conductor σ} {r : AdviceRequest} {s last : ScaleOut σ F} {turns : List (Turn σ F)}
  {visits : List (Visit σ F)} {t : Turn σ F} {C : Cluster}

/-- A group is complete only when nothing is pending. -/
theorem Visit.Ends.nothing_pending {v : Visit σ F} (ends : v.Ends ready r scoring)
    (complete : v.answer = .ok true) : v.after.pending.keys = [] := by
  obtain ⟨t, -, after, next, fate⟩ := ends
  rw [complete] at next
  rw [← after]
  cases fate with
  | stopped e still finished => simp [finished] at next
  | exhausted still ran pass ties finished => simp [finished] at next
  | nothing still none => exact none
  | promoted wins promotes finished =>
    rw [finished] at next
    split at next
    · exact SortedMap.isEmpty_iff.mp ‹_›
    · simp at next

/-- A group that is left has been exhausted. -/
theorem Visit.Ends.exhausted {v : Visit σ F} (ends : v.Ends ready r scoring)
    (left : v.answer = .ok false) : ∃ t w p, v.turns.getLast? = some t ∧ t.pass? = some p ∧
      Pass.Ran ready t.number t.before.base (t.before.eligible r v.group) t.before.workspace w p ∧
      p.ties scoring = .ok [] := by
  obtain ⟨t, final, -, next, fate⟩ := ends
  rw [left] at next
  cases fate with
  | stopped e still finished => simp [finished] at next
  | nothing still none finished => simp [finished] at next
  | exhausted still ran pass ties => exact ⟨t, _, _, final, pass, ran, ties⟩
  | promoted wins promotes finished =>
    rw [finished] at next
    split at next <;> simp at next

theorem Visit.Ends.why {v : Visit σ F} (ends : v.Ends ready r scoring) {e : SimulationError}
    (failed : v.answer = .error e) : e ≠ .noScalingAdvice := by
  obtain ⟨t, -, -, next, fate⟩ := ends
  rw [failed] at next
  cases fate with
  | stopped e' still finished why =>
    rw [finished] at next
    cases next
    exact why
  | nothing still none finished => simp [finished] at next
  | exhausted still ran pass ties finished => simp [finished] at next
  | promoted wins promotes finished =>
    rw [finished] at next
    split at next <;> simp at next

/-- As long as something is pending, no group is passed over, and none is left before it is
exhausted. -/
theorem Visits.all_left {groups : List CandidateGroup} {answer : Except SimulationError Unit}
    (run : Visits c r scoring s groups visits last answer)
    (ends : ∀ v ∈ visits, v.Ends ready r scoring) (well : answer = .ok ())
    (pending : last.pending.keys ≠ []) : visits.map (·.group) = groups ∧
    ∀ v ∈ visits, v.answer = .ok false := by
  induction run with
  | done => simp
  | failed => simp at well
  | complete group => exact absurd ((ends _ List.mem_cons_self).nothing_pending rfl) pending
  | next group further ih =>
    obtain ⟨all, left⟩ := ih (fun v hv => ends v (by simp [hv])) well pending
    refine ⟨by rw [List.map_cons, all], ?_⟩
    intro v hv
    obtain rfl | hv := List.mem_cons.mp hv
    · rfl
    · exact left v hv

/-- A search fails with the failure of one of its groups. -/
theorem Visits.exists_error {groups : List CandidateGroup} {answer : Except SimulationError Unit}
    {e : SimulationError} (run : Visits c r scoring s groups visits last answer)
    (failed : answer = .error e) : ∃ v ∈ visits, v.answer = .error e := by
  induction run with
  | done => simp at failed
  | failed group =>
    cases failed
    exact ⟨_, List.mem_cons_self, rfl⟩
  | complete => simp at failed
  | next group further ih =>
    obtain ⟨v, hv, same⟩ := ih failed
    exact ⟨v, List.mem_cons_of_mem _ hv, same⟩

theorem Visits.error_ne {groups : List CandidateGroup} {e : SimulationError}
    (run : Visits c r scoring s groups visits last (.error e))
    (ends : ∀ v ∈ visits, v.Ends ready r scoring) : e ≠ .noScalingAdvice := by
  obtain ⟨v, hv, failed⟩ := run.exists_error rfl
  exact (ends v hv).why failed

/-- A run that ends with a plan, or without advice, has left all groups as long as something is left
over. -/
theorem Run.all_left {clock : σ} {outcome : Except SimulationError ScaleOutPlan}
    (run : Run c r scoring ∅ clock visits last outcome)
    (ends : ∀ v ∈ visits, v.Ends ready r scoring)
    (ended : (∃ plan, outcome = .ok plan) ∨ outcome = .error .noScalingAdvice)
    (pending : last.pending.keys ≠ []) : visits.map (·.group) = CandidateGroup.ofPools r.pools ∧
    ∀ v ∈ visits, v.answer = .ok false := by
  cases run with
  | idle opened nothing => exact absurd nothing pending
  | searched opened something further => exact further.all_left ends rfl pending
  | failed opened something further =>
    have other := further.error_ne ends
    simp [other] at ended

/-- A run in which no group fails comes to a plan, or to no advice. -/
theorem Run.eq_of_planless {clock : σ} {outcome : Except SimulationError ScaleOutPlan}
    (run : Run c r scoring ∅ clock visits last outcome) (planless : outcome.toOption.isNone = true)
    (answered : ∀ v ∈ visits, v.answer.toOption.isSome = true) :
    outcome = .error .noScalingAdvice := by
  cases run with
  | idle => simp [Except.toOption] at planless
  | searched opened something further =>
    rw [plan] at planless ⊢
    split
    · rfl
    · rename_i advice
      simp [advice, Except.toOption] at planless
  | failed opened something further =>
    obtain ⟨v, hv, failed⟩ := further.exists_error rfl
    have answered := answered v hv
    simp [failed, Except.toOption] at answered

theorem exists_group {pools : List NodePool} {pool : NodePool} (hp : pool ∈ pools) {c : Candidate}
    (hc : c ∈ Candidate.ofPool pool) : ∃ g ∈ CandidateGroup.ofPools pools, c ∈ g.candidates := by
  have listed : c ∈ (CandidateGroup.ofPriority pools pool.priority).candidates :=
    List.mem_flatMap.mpr ⟨pool, List.mem_filter.mpr ⟨hp, by simp⟩, hc⟩
  refine ⟨_, List.mem_filter.mpr ⟨List.mem_map_of_mem ?_, ?_⟩, listed⟩
  · exact KeySet.mem_keys_ofKeys.mpr (List.mem_map_of_mem hp)
  · simp [List.ne_nil_of_mem listed]

/-- With the snapshot's members and these winners the pool has room for one more node. -/
def QuotaLeft (r : AdviceRequest) (winners : List (NodeScore F)) (p : NodePool) : Prop :=
  ∀ most, p.maxNodes = some most →
    p.memberCount r.snapshot.nodes + winners.countP (·.placement.pool == p.name) < most

theorem Reached.eligible (reached : Reached ready scoring C turns s) (ht : t ∈ turns)
    {g : CandidateGroup} {c : Candidate} (hc : c ∈ g.candidates)
    (quota : QuotaLeft r s.winners c.pool) :
    c ∈ t.before.eligible r g := by
  refine List.mem_filter.mpr ⟨hc, ?_⟩
  rw [withinQuota]
  split
  · rfl
  · rename_i most limited
    have room := quota most limited
    rw [← reached.perPool] at room
    have sooner := reached.quota t ht c.pool.name
    simp only [decide_eq_true_eq]
    omega

/-- Whoever is left over at the end was pending in every pass, so a node that placed nothing in one
of them does not take it. -/
theorem Reached.not_fitsEmpty (reached : Reached ready scoring C turns s) (start : C.Sound)
    (ht : t ∈ turns)
    {n : Node} (named : n.name ≠ "") (free : t.before.contents.get? ⟨.node, n.name⟩ = none)
    (idle : ∀ k node, ⟨k, some node⟩ ∉ (t.before.contents.addNode n).decisions)
    (unbound : ∀ x ∈ C.workloads, x.nodeName ≠ some n.name) {w : Workload} (hw : w ∈ C.workloads)
    (left : w.key ∈ s.pending.keys) : ¬ BinPack.FitsEmpty C.runtimeClasses w n := by
  obtain ⟨steps, grown, -⟩ := reached.upTo t ht
  obtain ⟨later, since⟩ := reached.since t ht
  have before := (reached.told t ht).poised.sound
  rw [reached.poised.pending] at left
  obtain ⟨x, hx, pending, key⟩ := Cluster.mem_pendingKeys.mp left
  obtain rfl := List.inj_on_of_nodup_map (Cluster.nodup_workloads start.keyed)
    (reached.grown.mem_of_pending start hx pending) hw key
  have there := since.mem_of_pending before hx pending
  have saturated := Cluster.packed_saturated (before.addNode named free)
  rw [Cluster.packed_of_idle idle] at saturated
  have refused := saturated x (by rwa [Cluster.workloads_addNode free]) pending n
    ((Cluster.mem_nodes_addNode before.keyed free).mpr (.inl rfl))
  rw [Cluster.workloads_addNode free, Cluster.runtimeClasses_addNode free,
    grown.runtimeClasses start] at refused
  rintro ⟨admitted, room⟩
  refine refused ⟨admitted, ?_⟩
  intro resource asked
  have empty := grown.load_eq_of_unlisted start
    (fun m hm => Cluster.name_ne_of_free before.keyed free hm) resource
  have none : BinPack.load C.runtimeClasses C.workloads n.name resource = 0 :=
    BinPack.load_eq_zero (fun u hu => by simp [Workload.isOn, unbound u hu]) resource
  rw [grown.runtimeClasses start, none] at empty
  rw [BinPack.slack_of_load_eq_zero empty]
  exact room resource asked

/-- A search that ends without advice has promoted nobody. -/
theorem Reached.growth_eq_nil (reached : Reached ready scoring C turns s)
    (nothing : s.plan r = .error .noScalingAdvice) :
    turns.filterMap Turn.growth? = [] ∧ s.winners = [] := by
  rw [plan] at nothing
  split at nothing
  · rename_i both
    obtain ⟨nobody, nowhere⟩ := Bool.and_eq_true_iff.mp both
    have winners := List.isEmpty_iff.mp nobody
    refine ⟨?_, winners⟩
    have recorded := reached.winners
    rw [winners, List.map_nil, eq_comm, List.map_eq_nil_iff, List.filterMap_eq_nil_iff] at recorded
    rw [reached.placedInPlace, Bool.not_eq_true', List.any_eq_false] at nowhere
    apply List.filterMap_eq_nil_iff.mpr
    intro t ht
    have unrecorded := recorded t ht
    have unplaced := nowhere t ht
    rw [Turn.recorded?] at unrecorded
    rw [Turn.growth?]
    cases promoted : t.promoted? with
    | none => rfl
    | some o =>
      rw [promoted] at unrecorded unplaced
      cases uses : o.usesScaledNode with
      | true => simp [uses] at unrecorded
      | false => simp [uses] at unplaced
  · simp at nothing

/-- No simulation that was started has failed. -/
def AllSucceed (visits : List (Visit σ F)) : Prop :=
  ∀ v ∈ visits, ∀ t ∈ v.turns, ∀ p, t.pass? = some p → ∀ s ∈ p.simulations, ∃ o, s.outcome? = some o

/-- What a run has to show for the workloads that it leaves over. -/
structure Complete (r : AdviceRequest) (scoring : Scoring F) (visits : List (Visit σ F))
    (last : ScaleOut σ F) (outcome : Except SimulationError ScaleOutPlan) : Prop where
  visited : last.pending.keys ≠ [] → ∀ pool ∈ r.pools, ∀ c ∈ Candidate.ofPool pool,
    ∃ v ∈ visits, c ∈ v.group.candidates
  /-- No workload left over fits on the node that a candidate had in the last pass of its group. -/
  refused : ∀ v ∈ visits, ∀ c ∈ v.group.candidates, ∃ t, v.turns.getLast? = some t ∧
    ∀ template price, c.pool.template? c.template = some template →
      scoring.prices.price c.pool.region template.instanceType = .ok price →
      QuotaLeft r last.winners c.pool → ∀ w ∈ r.snapshot.workloads, w.key ∈ last.pending.keys →
      ¬ BinPack.FitsEmpty r.snapshot.runtimeClasses w (c.node template t.number)
  /-- Without advice, no candidate could place anything over the snapshot. -/
  nothing : outcome = .error .noScalingAdvice → (∃ w ∈ r.snapshot.workloads, w.isPending = true) ∧
    (∀ w ∈ r.snapshot.workloads, w.isPending = true → w.key ∈ last.pending.keys) ∧
    ∀ v ∈ visits, ∀ c ∈ v.group.candidates, ∃ t, v.turns.getLast? = some t ∧
      ∀ template price, c.pool.template? c.template = some template →
        scoring.prices.price c.pool.region template.instanceType = .ok price →
        QuotaLeft r ([] : List (NodeScore F)) c.pool → ∀ k node,
        ⟨k, some node⟩ ∉ (r.snapshot.cluster.addNode (c.node template t.number)).decisions

section

variable (reached : Reached ready scoring r.snapshot.cluster (visits.flatMap (·.turns)) last)
  (ends : ∀ v ∈ visits, v.Ends ready r scoring) (succeed : AllSucceed visits)
  (tied : ∀ x : F, Quantity.isFinite x = true → Quantity.le (Quantity.abs (x - x)) tieWidth = true)

include reached ends succeed tied

/-- A group that is left ends with a pass in which none of its candidates places anything. -/
theorem idle_of_left {v : Visit σ F} (hv : v ∈ visits) (left : v.answer = .ok false) {c : Candidate}
    (hc : c ∈ v.group.candidates) : ∃ t ∈ visits.flatMap (·.turns), v.turns.getLast? = some t ∧
      ∀ template price, c.pool.template? c.template = some template →
        scoring.prices.price c.pool.region template.instanceType = .ok price →
        QuotaLeft r last.winners c.pool →
        t.before.contents.get? ⟨.node, (c.node template t.number).name⟩ = none ∧
        ∀ k node, ⟨k, some node⟩ ∉
          (t.before.contents.addNode (c.node template t.number)).decisions := by
  obtain ⟨t, w, p, final, pass, ran, ties⟩ := (ends v hv).exhausted left
  have ht := List.mem_of_getLast? final
  have listed : t ∈ visits.flatMap (·.turns) := List.mem_flatMap.mpr ⟨v, hv, ht⟩
  refine ⟨t, listed, final, ?_⟩
  intro template price found priced quota
  exact idle_of_exhausted ran (Pass.scores_eq_nil tied ties) (succeed v hv t ht p pass)
    (reached.eligible listed hc quota) found priced

/-- Without advice each pass was one over the snapshot, so no node of a group that has been left
takes anything there. -/
theorem snapshot_idle_of_left (nothing : last.plan r = .error .noScalingAdvice) {v : Visit σ F}
    (hv : v ∈ visits) (left : v.answer = .ok false) {c : Candidate} (hc : c ∈ v.group.candidates) :
    ∃ t, v.turns.getLast? = some t ∧
      ∀ template price, c.pool.template? c.template = some template →
        scoring.prices.price c.pool.region template.instanceType = .ok price →
        QuotaLeft r ([] : List (NodeScore F)) c.pool → ∀ k node,
        ⟨k, some node⟩ ∉ (r.snapshot.cluster.addNode (c.node template t.number)).decisions := by
  obtain ⟨none, winners⟩ := reached.growth_eq_nil nothing
  obtain ⟨t, ht, final, idle⟩ := idle_of_left reached ends succeed tied hv left hc
  refine ⟨t, final, ?_⟩
  intro template price found priced quota
  obtain ⟨steps, grown, first⟩ := reached.upTo t ht
  rw [none, List.prefix_nil] at first
  rw [winners] at idle
  have placed := (idle template price found priced quota).2
  rwa [grown.eq_of_nil first] at placed

/-- Whoever is left over fits on no node of a group that has been left. -/
theorem not_fits_of_left (distinct : r.snapshot.Distinct) (fair : Fair r)
    (unbound : ∀ w ∈ r.snapshot.workloads, ∀ rest, w.nodeName ≠ some ("sim-p" ++ rest))
    {v : Visit σ F} (hv : v ∈ visits) (left : v.answer = .ok false) {c : Candidate}
    (hc : c ∈ v.group.candidates) : ∃ t, v.turns.getLast? = some t ∧
      ∀ template price, c.pool.template? c.template = some template →
        scoring.prices.price c.pool.region template.instanceType = .ok price →
        QuotaLeft r last.winners c.pool → ∀ w ∈ r.snapshot.workloads, w.key ∈ last.pending.keys →
        ¬ BinPack.FitsEmpty r.snapshot.runtimeClasses w (c.node template t.number) := by
  obtain ⟨t, ht, final, idle⟩ := idle_of_left reached ends succeed tied hv left hc
  refine ⟨t, final, ?_⟩
  intro template price found priced quota w hw hk
  obtain ⟨free, idle⟩ := idle template price found priced quota
  have nameless : ∀ x ∈ r.snapshot.cluster.workloads,
      x.nodeName ≠ some (c.node template t.number).name := by
    intro x hx
    have unbound := unbound x ((Snapshot.mem_workloads_cluster distinct).mp hx)
    simpa [Candidate.node, Candidate.nodeName, String.append_assoc] using unbound _
  have refused := reached.not_fitsEmpty (Snapshot.sound_cluster distinct fair.named fair.nonneg) ht
    (by simp [Candidate.node, Candidate.nodeName]) free idle nameless
    ((Snapshot.mem_workloads_cluster distinct).mpr hw) hk
  rwa [BinPack.FitsEmpty, Snapshot.asks_cluster distinct] at refused

end

/-- In a run in which no simulation fails, whatever is left over fits on no candidate's node. -/
theorem Run.complete {clock : σ} {outcome : Except SimulationError ScaleOutPlan}
    (fair : Fair r)
    (unbound : ∀ w ∈ r.snapshot.workloads, ∀ rest, w.nodeName ≠ some ("sim-p" ++ rest))
    (tied : ∀ x : F, Quantity.isFinite x = true →
      Quantity.le (Quantity.abs (x - x)) tieWidth = true)
    (interleaves : c.Interleaves BinPack.algorithm ready) (set : ready clock)
    (run : Run c r scoring ∅ clock visits last outcome) (succeed : AllSucceed visits)
    (ended : (∃ plan, outcome = .ok plan) ∨ outcome = .error .noScalingAdvice) :
    Complete r scoring visits last outcome := by
  obtain ⟨reached, ends, distinct⟩ := run.reached fair interleaves set
  have left := run.all_left ends ended
  refine ⟨?_, ?_, ?_⟩
  · intro pending pool hp c hc
    obtain ⟨g, hg, listed⟩ := exists_group hp hc
    rw [← (left pending).1] at hg
    obtain ⟨v, hv, rfl⟩ := List.mem_map.mp hg
    exact ⟨v, hv, listed⟩
  · intro v hv c hc
    by_cases pending : last.pending.keys = []
    · obtain ⟨t, final, -⟩ := ends v hv
      exact ⟨t, final, fun _ _ _ _ _ w _ hk => by simp [pending] at hk⟩
    · exact not_fits_of_left reached ends succeed tied distinct fair unbound hv
        ((left pending).2 v hv) hc
  · intro nothing
    cases run with
    | idle => simp at nothing
    | failed opened something further =>
      exact absurd (Except.error.inj nothing) (further.error_ne ends)
    | searched opened something further =>
      obtain ⟨-, -, rfl, -⟩ := opening_eq_ok set opened
      have pending : last.pending = r.snapshot.cluster.pendingKeys := by
        rw [reached.poised.pending, reached.grown.eq_of_nil (reached.growth_eq_nil nothing).1]
      rw [← pending] at something
      refine ⟨?_, ?_, ?_⟩
      · obtain ⟨k, hk⟩ := List.exists_mem_of_ne_nil _ something
        rw [pending] at hk
        obtain ⟨w, hw, waiting, -⟩ := (Snapshot.mem_pendingKeys_cluster distinct).mp hk
        exact ⟨w, hw, waiting⟩
      · intro w hw waiting
        rw [pending]
        exact (Snapshot.mem_pendingKeys_cluster distinct).mpr ⟨w, hw, waiting, rfl⟩
      · intro v hv c hc
        exact snapshot_idle_of_left reached ends succeed tied nothing hv
          ((left something).2 v hv) hc

/-- Whatever a search leaves over fits on no candidate's node, if no simulation fails on the way.
Whichever winners are picked, a search that ends with a plan or without advice has been led there by
runs, and each of them has this to show. Nodes that are tried out have names of a kind that nobody
in the snapshot may be bound to. -/
theorem leftover_fits_nowhere {clock : σ} {result : Result σ} (fair : Fair r)
    (unbound : ∀ w ∈ r.snapshot.workloads, ∀ rest, w.nodeName ≠ some ("sim-p" ++ rest))
    (tied : ∀ x : F, Quantity.isFinite x = true →
      Quantity.le (Quantity.abs (x - x)) tieWidth = true)
    (interleaves : c.Interleaves BinPack.algorithm ready) (set : ready clock)
    (reached : (simulate c r scoring ∅ clock).Reaches result)
    (ended : (∃ plan, result.outcome = .ok plan) ∨ result.outcome = .error .noScalingAdvice) :
    (∃ visits last, Leads c r scoring ∅ clock visits last result) ∧
    ∀ visits last, Leads c r scoring ∅ clock visits last result → AllSucceed visits →
      Complete r scoring visits last result.outcome := by
  refine ⟨?_, fun visits last leads succeed =>
    leads.run.complete fair unbound tied interleaves set succeed ended⟩
  rcases ended with ⟨plan, planned⟩ | nothing
  · exact exists_leads_of_plan reached planned
  · refine exists_leads reached fun e failed same => ?_
    rw [nothing] at same
    exact opening_error_ne_noScalingAdvice failed (Except.error.inj same).symm

instance (visits : List (Visit σ F)) : Decidable (AllSucceed visits) :=
  decidable_of_iff
    (∀ v ∈ visits, ∀ t ∈ v.turns, ∀ p ∈ t.pass?, ∀ s ∈ p.simulations,
      s.outcome?.isSome = true) <| by
    simp only [AllSucceed, Option.mem_def, Option.isSome_iff_exists]

theorem tied_rat (x : Rat) : Quantity.le (Quantity.abs (x - x)) tieWidth = true := by
  rw [show x - x = 0 from Rat.sub_self]
  decide +kernel

/-- Twelve cores are too many for all machines. -/
theorem leftover_fits_nowhere_smallThenLarge : ∃ result visits last,
    (simulate standardRules.conductor (smallThenLarge 12) (priced Rat) ∅ freshClock).Reaches
      result ∧
    Leads standardRules.conductor (smallThenLarge 12) (priced Rat) ∅ freshClock visits last result ∧
    result.outcome = .error .noScalingAdvice ∧ visits.map (·.group.priority) = [0, 1] ∧
    Complete (smallThenLarge 12) (priced Rat) visits last (.error .noScalingAdvice) := by
  have first :
    (firstRun standardRules.conductor (smallThenLarge 12) (priced Rat) 1 ∅ freshClock).any
      (fun run => decide (run.1.map (·.group.priority) = [0, 1]) && decide (AllSucceed run.1) &&
        run.1.all (·.answer.toOption.isSome) && run.2.2.toOption.isNone) = true := by
    decide +kernel
  obtain ⟨visits, last, outcome, run, shown⟩ := exists_run first
  obtain ⟨shown, planless⟩ := Bool.and_eq_true_iff.mp shown
  obtain ⟨shown, answered⟩ := Bool.and_eq_true_iff.mp shown
  obtain ⟨groups, succeed⟩ := Bool.and_eq_true_iff.mp shown
  obtain rfl := run.eq_of_planless planless (List.all_eq_true.mp answered)
  have complete := leftover_fits_nowhere (by decide +kernel) (by simp [smallThenLarge])
    (fun x _ => tied_rat x) (interleaves_conductor standardRules BinPack.algorithm)
    (Timeline.ready_opened BinPack.algorithm 1 none) run.leads.reaches (.inr rfl)
  exact ⟨_, visits, last, run.leads.reaches, run.leads, rfl, of_decide_eq_true groups,
    complete.2 visits last run.leads (of_decide_eq_true succeed)⟩

end ScaleOut

end ScaleAdvisor
