import Mathlib.Data.List.Induction
import Mathlib.Tactic.Tauto
import ScaleAdvisor.Proofs.Simulation.Cycle

/-!
What a scheduler remembers, said of what it has reported. It remembers a workload just when it has
given the workload up and not bound it since; so between two reports that a workload fits nowhere
there is always one that it has been bound.

* `standing_append_iff`, `Sparse.append`: what one more report changes;
* `Tells`: the reports about a row of decisions, by a scheduler that remembers;
* `Tells.recalls`: afterwards the memory is again what follows from all reports;
* `Tells.bound_or_remembered`, `Tells.has_iff`: what has become of each decision.
-/

namespace ScaleAdvisor

/-- The event reports that this workload has been bound. -/
def ViewEvent.binds (e : ViewEvent) (k : WorkloadKey) : Bool :=
  e.reason == .scheduled && e.workload == k

/-- The event reports that this workload fits nowhere. -/
def ViewEvent.givesUpOn (e : ViewEvent) (k : WorkloadKey) : Bool := e.givesUp && e.workload == k

/-- The workload has been given up on, and has not been bound since. -/
def Standing (k : WorkloadKey) (log : List ViewEvent) : Prop :=
  ∃ before e since, log = before ++ e :: since ∧ e.givesUpOn k = true ∧
    ∀ e' ∈ since, e'.binds k = false

/-- Between any two events that give the workload up there is one that binds it. -/
def Sparse (k : WorkloadKey) (log : List ViewEvent) : Prop :=
  ∀ before first between second after, log = before ++ first :: (between ++ second :: after) →
    first.givesUpOn k = true → second.givesUpOn k = true → ∃ e ∈ between, e.binds k = true

section

variable {k : WorkloadKey} {log : List ViewEvent} {e : ViewEvent}

/-- A member of a longer list is the new one, or a member of the old list. -/
theorem append_singleton_split {α : Type} {xs before after : List α} {a x : α}
    (split : xs ++ [a] = before ++ x :: after) :
    (after = [] ∧ xs = before ∧ a = x) ∨ ∃ rest, after = rest ++ [a] ∧
    xs = before ++ x :: rest := by
  obtain rfl | ⟨rest, last, rfl⟩ := List.eq_nil_or_concat after
  · obtain ⟨same, last⟩ := List.append_inj' split rfl
    exact .inl ⟨rfl, same, List.singleton_inj.mp last⟩
  · rw [List.concat_eq_append, ← List.cons_append, ← List.append_assoc] at split
    obtain ⟨same, same'⟩ := List.append_inj' split rfl
    obtain rfl := List.singleton_inj.mp same'
    exact .inr ⟨rest, List.concat_eq_append, same⟩

theorem not_standing_nil : ¬ Standing k [] := by
  rintro ⟨before, e, since, split, -⟩
  simp at split

theorem standing_append_iff :
    Standing k (log ++ [e]) ↔ e.givesUpOn k = true ∨ Standing k log ∧ e.binds k = false := by
  constructor
  · rintro ⟨before, first, since, split, up, free⟩
    rcases append_singleton_split split with ⟨rfl, rfl, rfl⟩ | ⟨rest, rfl, rfl⟩
    · exact .inl up
    · obtain ⟨earlier, last⟩ := List.forall_mem_append.mp free
      exact .inr ⟨⟨before, first, rest, rfl, up, earlier⟩, last e (by simp)⟩
  · rintro (up | ⟨⟨before, first, since, rfl, up, free⟩, unbound⟩)
    · exact ⟨log, e, [], rfl, up, by simp⟩
    · refine ⟨before, first, since ++ [e], by simp, up, ?_⟩
      exact List.forall_mem_append.mpr ⟨free, List.forall_mem_singleton.mpr unbound⟩

theorem sparse_nil : Sparse k [] := by
  intro before first between second after split
  simp at split

/-- To give up a workload anew it must have been bound since the last time. -/
theorem Sparse.append (sparse : Sparse k log) (fresh : e.givesUpOn k = true → ¬ Standing k log) :
    Sparse k (log ++ [e]) := by
  intro before first between second after split up again
  rw [← List.cons_append, ← List.append_assoc] at split
  rcases append_singleton_split split with ⟨rfl, rfl, rfl⟩ | ⟨rest, rfl, rfl⟩
  · by_contra unbound
    refine fresh again ⟨before, first, between, rfl, up, fun e' he' => ?_⟩
    cases bound : e'.binds k with
    | true => exact absurd ⟨e', he', bound⟩ unbound
    | false => rfl
  · exact sparse before first between second rest (by simp) up again

end

namespace BinPack

/-- A memory that follows from what has been reported. -/
structure Recalls (s : KeySet WorkloadKey) (log : List ViewEvent) : Prop where
  standing : ∀ k, s.has k = true ↔ Standing k log
  sparse : ∀ k, Sparse k log

/-- How many decisions bind a workload. -/
def placed (ds : List Decision) : Nat := ds.countP (·.node.isSome)

/-- How many decisions leave a workload. -/
def leftOver (ds : List Decision) : Nat := ds.countP (·.node.isNone)

theorem count_place (k : WorkloadKey) (node : String) (ds : List Decision) :
    placed (⟨k, some node⟩ :: ds) = placed ds + 1 ∧
    leftOver (⟨k, some node⟩ :: ds) = leftOver ds := by
  simp [placed, leftOver]

theorem count_leave (k : WorkloadKey) (ds : List Decision) :
    placed (⟨k, none⟩ :: ds) = placed ds ∧ leftOver (⟨k, none⟩ :: ds) = leftOver ds + 1 := by
  simp [placed, leftOver]

/-- What is reported about a row of decisions, by a scheduler that remembers some workloads at first
and others in the end. -/
inductive Tells :
    KeySet WorkloadKey → List Decision → List ViewEvent → KeySet WorkloadKey → Prop where
  | done (s : KeySet WorkloadKey) : Tells s [] [] s
  | place {s s' : KeySet WorkloadKey} {k : WorkloadKey} {node : String} {ds : List Decision}
      {e : ViewEvent} {es : List ViewEvent} (about : e.report = (.scheduled, k, some node))
      (rest : Tells (s.erase k) ds es s') : Tells s (⟨k, some node⟩ :: ds) (e :: es) s'
  | leave {s s' : KeySet WorkloadKey} {k : WorkloadKey} {ds : List Decision} {e : ViewEvent}
      {es : List ViewEvent} (unknown : s.has k = false)
      (about : e.report = (.failedScheduling, k, none)) (rest : Tells (s.add k) ds es s') :
      Tells s (⟨k, none⟩ :: ds) (e :: es) s'
  | known {s s' : KeySet WorkloadKey} {k : WorkloadKey} {ds : List Decision} {es : List ViewEvent}
      (known : s.has k = true) (rest : Tells s ds es s') : Tells s (⟨k, none⟩ :: ds) es s'

variable {s s' : KeySet WorkloadKey} {ds : List Decision} {log es : List ViewEvent} {e : ViewEvent}
  {k : WorkloadKey}

section

variable {node : Option String}

theorem binds_of_report_scheduled (about : e.report = (.scheduled, k, node)) (k' : WorkloadKey) :
    (e.binds k' = true ↔ k' = k) ∧ e.givesUpOn k' = false := by
  simp only [ViewEvent.report, Prod.mk.injEq] at about
  obtain ⟨reason, rfl, -⟩ := about
  simp [ViewEvent.binds, ViewEvent.givesUpOn, ViewEvent.givesUp, reason, @eq_comm _ k']

theorem givesUpOn_of_report_failed (about : e.report = (.failedScheduling, k, node))
    (k' : WorkloadKey) : (e.givesUpOn k' = true ↔ k' = k) ∧ e.binds k' = false := by
  simp only [ViewEvent.report, Prod.mk.injEq] at about
  obtain ⟨reason, rfl, -⟩ := about
  simp [ViewEvent.binds, ViewEvent.givesUpOn, ViewEvent.givesUp, reason, @eq_comm _ k']

end

theorem Recalls.place {node : Option String} (recalls : Recalls s log)
    (about : e.report = (.scheduled, k, node)) : Recalls (s.erase k) (log ++ [e]) where
  standing k' := by
    obtain ⟨binds, stays⟩ := binds_of_report_scheduled about k'
    rw [KeySet.has_iff, SortedMap.mem_keys_erase, ← KeySet.has_iff, recalls.standing,
      standing_append_iff, stays, ← Bool.not_eq_true, binds]
    tauto
  sparse k' := by
    refine (recalls.sparse k').append fun up => ?_
    rw [(binds_of_report_scheduled about k').2] at up
    cases up

theorem Recalls.leave {node : Option String} (recalls : Recalls s log) (unknown : s.has k = false)
    (about : e.report = (.failedScheduling, k, node)) : Recalls (s.add k) (log ++ [e]) where
  standing k' := by
    obtain ⟨up, unbound⟩ := givesUpOn_of_report_failed about k'
    rw [KeySet.has_iff, KeySet.mem_keys_add, ← KeySet.has_iff, recalls.standing,
      standing_append_iff, up, unbound]
    tauto
  sparse k' := by
    refine (recalls.sparse k').append fun up => ?_
    rw [(givesUpOn_of_report_failed about k').1.mp up, ← recalls.standing, unknown]
    exact Bool.false_ne_true

/-- To leave a workload that is not decided on later makes it one that has been left. -/
theorem left_cons_iff {held : Prop} {k' : WorkloadKey} (first : k' ∉ ds.map (·.workload)) :
    (⟨k, none⟩ ∈ ds ∨ (k = k' ∨ held) ∧ ∀ node, ⟨k, some node⟩ ∉ ds) ↔
      ⟨k, none⟩ ∈ Decision.mk k' none :: ds ∨
        held ∧ ∀ node, ⟨k, some node⟩ ∉ Decision.mk k' none :: ds := by
  by_cases same : k = k'
  · subst same
    have later (node : Option String) : ⟨k, node⟩ ∉ ds :=
      fun hd => first (List.mem_map_of_mem (f := (·.workload)) hd)
    simp [later]
  · simp [same]

namespace Tells

/-- What is remembered afterwards is what follows from all that has been reported. -/
theorem recalls (tells : Tells s ds es s') (before : Recalls s log) : Recalls s' (log ++ es) := by
  induction tells generalizing log with
  | done s => rwa [List.append_nil]
  | place about rest ih =>
    rw [List.append_cons]
    exact ih (before.place about)
  | leave unknown about rest ih =>
    rw [List.append_cons]
    exact ih (before.leave unknown about)
  | known _ _ ih => exact ih before

theorem exists_binds_cons (bound : ∃ e' ∈ es, e'.binds k = true) :
    ∃ e' ∈ e :: es, e'.binds k = true :=
  bound.imp fun _ h => ⟨List.mem_cons_of_mem _ h.1, h.2⟩

/-- A workload is forgotten only when it is bound. -/
theorem bound_or_kept (tells : Tells s ds es s') (held : s.has k = true) :
    (∃ e ∈ es, e.binds k = true) ∨ s'.has k = true := by
  induction tells with
  | done s => exact .inr held
  | @place s _ k' node _ e _ about rest ih =>
    by_cases same : k = k'
    · exact .inl ⟨e, by simp, (binds_of_report_scheduled about k).1.mpr same⟩
    · rw [KeySet.has_iff, SortedMap.mem_keys_erase, ← KeySet.has_iff] at ih
      exact (ih ⟨same, held⟩).imp_left exists_binds_cons
  | leave _ _ _ ih =>
    rw [KeySet.has_iff, KeySet.mem_keys_add, ← KeySet.has_iff] at ih
    exact (ih (.inr held)).imp_left exists_binds_cons
  | known _ _ ih => exact ih held

/-- Whoever has been decided on is bound, or remembered as fitting nowhere. -/
theorem bound_or_remembered (tells : Tells s ds es s') :
    ∀ d ∈ ds, (∃ e ∈ es, e.binds d.workload = true) ∨ s'.has d.workload = true := by
  induction tells with
  | done s => simp
  | @place s _ k node _ e _ about rest ih =>
    refine List.forall_mem_cons.mpr ⟨.inl ⟨e, by simp, ?_⟩, fun d hd => ?_⟩
    · exact (binds_of_report_scheduled about k).1.mpr rfl
    · exact (ih d hd).imp_left exists_binds_cons
  | @leave s _ k _ _ _ unknown about rest ih =>
    have added : (s.add k).has k = true := by simp [KeySet.has_iff, KeySet.mem_keys_add]
    exact List.forall_mem_cons.mpr
      ⟨(rest.bound_or_kept added).imp_left exists_binds_cons,
        fun d hd => (ih d hd).imp_left exists_binds_cons⟩
  | known known rest ih => exact List.forall_mem_cons.mpr ⟨rest.bound_or_kept known, ih⟩

/-- The bindings that are reported are those that have been decided, in their order. -/
theorem placements_eq (tells : Tells s ds es s') :
    placements es = ds.filterMap fun d => d.node.map (d.workload, ·) := by
  induction tells with
  | done s => rfl
  | @place _ _ k node _ e _ about rest ih =>
    simp only [ViewEvent.report, Prod.mk.injEq] at about
    obtain ⟨reason, rfl, named⟩ := about
    rw [SimulationProgress.placements_cons, ih]
    simp [ViewEvent.placement?, reason, named]
  | @leave _ _ k _ e _ unknown about rest ih =>
    simp only [ViewEvent.report, Prod.mk.injEq] at about
    rw [SimulationProgress.placements_cons, ih]
    simp [ViewEvent.placement?, about.1]
  | known known rest ih =>
    rw [ih]
    rfl

/-- Only who has been left is given up. -/
theorem left_of_givesUpOn (tells : Tells s ds es s') (he : e ∈ es) (up : e.givesUpOn k = true) :
    ⟨k, none⟩ ∈ ds := by
  induction tells with
  | done s => cases he
  | place about rest ih =>
    rcases List.mem_cons.mp he with rfl | he
    · rw [(binds_of_report_scheduled about k).2] at up
      cases up
    · exact List.mem_cons_of_mem _ (ih he)
  | leave unknown about rest ih =>
    rcases List.mem_cons.mp he with rfl | he
    · rw [(givesUpOn_of_report_failed about k).1.mp up]
      exact List.mem_cons_self
    · exact List.mem_cons_of_mem _ (ih he)
  | known known rest ih => exact List.mem_cons_of_mem _ (ih he)

/-- Where every workload is decided on once, those are remembered that have been left, and those
that were remembered and have not been bound. -/
theorem has_iff (tells : Tells s ds es s') (once : (ds.map (·.workload)).Nodup) :
    s'.has k = true ↔ ⟨k, none⟩ ∈ ds ∨ s.has k = true ∧ ∀ node, ⟨k, some node⟩ ∉ ds := by
  induction tells with
  | done s => simp
  | @place s _ k' node ds _ _ about rest ih =>
    rw [ih (List.nodup_cons.mp (List.map_cons .. ▸ once)).2, KeySet.has_iff,
      SortedMap.mem_keys_erase, ← KeySet.has_iff]
    refine or_congr (by simp) ?_
    constructor
    · rintro ⟨⟨other, held⟩, free⟩
      exact ⟨held, fun node' => by simp [other, free node']⟩
    · rintro ⟨held, free⟩
      refine ⟨⟨?_, held⟩, fun node' hd => free node' (by simp [hd])⟩
      rintro rfl
      exact free node (by simp)
  | @leave s _ k' ds _ _ unknown about rest ih =>
    obtain ⟨first, once⟩ := List.nodup_cons.mp (List.map_cons .. ▸ once)
    rw [ih once, KeySet.has_iff, KeySet.mem_keys_add, ← KeySet.has_iff]
    exact left_cons_iff first
  | @known s _ k' ds _ known rest ih =>
    obtain ⟨first, once⟩ := List.nodup_cons.mp (List.map_cons .. ▸ once)
    have held : s.has k = true ↔ k = k' ∨ s.has k = true := by
      refine ⟨.inr, ?_⟩
      rintro (rfl | held)
      exacts [known, held]
    rw [ih once]
    exact (or_congr_right (and_congr_left' held)).trans (left_cons_iff first)

theorem countP_scheduled (tells : Tells s ds es s') :
    es.countP (·.reason == .scheduled) = placed ds := by
  induction tells with
  | done s => rfl
  | place about rest ih =>
    simp only [ViewEvent.report, Prod.mk.injEq] at about
    rw [List.countP_cons_of_pos (by simp [about.1]), ih, (count_place _ _ _).1]
  | leave unknown about rest ih =>
    simp only [ViewEvent.report, Prod.mk.injEq] at about
    rw [List.countP_cons_of_neg (by simp [about.1]), ih, (count_leave _ _).1]
  | known known rest ih => rw [ih, (count_leave _ _).1]

end Tells

end BinPack

end ScaleAdvisor
