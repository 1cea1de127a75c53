import ScaleAdvisor.Proofs.Simulation.SideBySide

/-!
The sandboxes of a pass. Each candidate with a simulation has one to itself, named after it, and no
other one is in use; a release closes them all, except for the one to keep.

* `Housed.insert`, `Housed.free_of_new`: one sandbox more;
* `releaseEach_spec`, `release_spec`: which sandboxes a release closes.
-/

namespace ScaleAdvisor

open Forest

/-- A workspace between two passes: no sandbox is in use, and the base can be read. -/
structure Workspace.Clean {σ : Type} (ready : σ → Prop) (base : ViewId) (w : Workspace σ) :
    Prop where
  valid : w.forest.Valid
  readable : w.forest.Readable base
  unused : w.registry.sandboxes = ∅
  ready : ready w.clock

/-- The views that were there are as they were. -/
abbrev Workspace.Extends {σ : Type} (w w' : Workspace σ) : Prop :=
  w.forest.Keeps w.forest.views.size w'.forest

theorem Workspace.Extends.next {σ : Type} {w w' : Workspace σ} (first : w.Extends w') {g : Forest}
    (second : w'.forest.Keeps w'.forest.views.size g) : w.forest.Keeps w.forest.views.size g :=
  first.trans ⟨second.size, fun hu => second.same (Nat.lt_of_lt_of_le hu first.size)⟩

theorem Workspace.Clean.base_lt {σ : Type} {ready : σ → Prop} {base : ViewId} {w : Workspace σ}
    (clean : w.Clean ready base) : base < w.forest.views.size :=
  clean.readable.lt_size

/-- Who a sandbox is for: a candidate, and the view made for it. -/
abbrev Tenant := Candidate × ViewId

def Simulation.tenant (s : Simulation) : Tenant := (s.candidate, s.view)

namespace Pass

theorem sandboxName_inj {number : Nat} {c d : Candidate} :
    sandboxName number c = sandboxName number d ↔ c.name = d.name := by
  rw [sandboxName, sandboxName, String.append_left_inj, String.append_left_inj]

/-- Each tenant has a sandbox to itself, and no other one is in use. -/
structure Housed (number : Nat) (tenants : List Tenant) (inUse : SortedMap String ViewId)
    (sandboxes : SortedMap String String) : Prop where
  views : (tenants.map (·.2)).Nodup
  held : ∀ name v, inUse.get? name = some v → ∃ t ∈ tenants, name = sandboxName number t.1 ∧ v = t.2
  listed : ∀ t ∈ tenants, sandboxes.get? t.1.name = some (sandboxName number t.1)
  owned : ∀ simulation sandbox, sandboxes.get? simulation = some sandbox →
    ∃ t ∈ tenants, simulation = t.1.name ∧ sandbox = sandboxName number t.1

section Housed

variable {number : Nat} {tenants : List Tenant} {inUse : SortedMap String ViewId}
  {sandboxes : SortedMap String String} {c : Candidate} {v : ViewId}

theorem housed_nil : Housed number [] ∅ ∅ where
  views := by simp
  held := by simp
  listed := by simp
  owned := by simp

/-- The order of the tenants does not matter. -/
theorem Housed.perm (housed : Housed number tenants inUse sandboxes) {others : List Tenant}
    (perm : others.Perm tenants) : Housed number others inUse sandboxes where
  views := (perm.map _).nodup_iff.mpr housed.views
  held := by
    intro name v found
    obtain ⟨t, ht, rest⟩ := housed.held name v found
    exact ⟨t, perm.mem_iff.mpr ht, rest⟩
  listed t ht := housed.listed t (perm.mem_iff.mp ht)
  owned := by
    intro simulation sandbox found
    obtain ⟨t, ht, rest⟩ := housed.owned simulation sandbox found
    exact ⟨t, perm.mem_iff.mpr ht, rest⟩

/-- No sandbox is in use, and none is noted, for a candidate that is not yet a tenant. -/
theorem Housed.free_of_new (housed : Housed number tenants inUse sandboxes)
    (new : ∀ t ∈ tenants, t.1.name ≠ c.name) :
    inUse.get? (sandboxName number c) = none ∧ sandboxes.get? c.name = none := by
  constructor
  · cases found : inUse.get? (sandboxName number c) with
    | none => rfl
    | some v =>
      obtain ⟨t, ht, same, -⟩ := housed.held _ _ found
      exact absurd (sandboxName_inj.mp same).symm (new t ht)
  · cases found : sandboxes.get? c.name with
    | none => rfl
    | some sandbox =>
      obtain ⟨t, ht, same, -⟩ := housed.owned _ _ found
      exact absurd same.symm (new t ht)

/-- A new tenant gets a sandbox of its own. -/
theorem Housed.insert (housed : Housed number tenants inUse sandboxes)
    (new : ∀ t ∈ tenants, t.1.name ≠ c.name) (apart : ∀ t ∈ tenants, t.2 ≠ v) :
    Housed number (tenants ++ [(c, v)]) (inUse.insert (sandboxName number c) v)
      (sandboxes.insert c.name (sandboxName number c)) where
  views := by
    rw [List.map_append, List.map_singleton]
    apply List.nodup_append.mpr
    refine ⟨housed.views, by simp, ?_⟩
    rintro u hu _ hv rfl
    obtain ⟨t, ht, rfl⟩ := List.mem_map.mp hu
    exact apart t ht (List.mem_singleton.mp hv)
  held := by
    intro name u found
    rw [SortedMap.get?_insert] at found
    split at found
    · rename_i same
      exact ⟨(c, v), by simp, KeyOrder.same_iff.mp same, (Option.some.inj found).symm⟩
    · obtain ⟨t, ht, rest⟩ := housed.held name u found
      exact ⟨t, by simp [ht], rest⟩
  listed := by
    rw [List.forall_mem_append, List.forall_mem_singleton]
    refine ⟨?_, SortedMap.get?_insert_self _ _ _⟩
    intro t ht
    rw [SortedMap.get?_insert_of_ne _ _ (new t ht)]
    exact housed.listed t ht
  owned := by
    intro simulation sandbox found
    rw [SortedMap.get?_insert] at found
    split at found
    · rename_i same
      exact ⟨(c, v), by simp, KeyOrder.same_iff.mp same, (Option.some.inj found).symm⟩
    · obtain ⟨t, ht, rest⟩ := housed.owned simulation sandbox found
      exact ⟨t, by simp [ht], rest⟩

end Housed

/-- A release closes the sandboxes listed, except for the one to keep, and forgets them all. -/
theorem releaseEach_spec {n : Nat} (keep : Option String) (listed : List (String × String))
    {f : Forest} {r : Registry} (valid : f.Valid)
    (held : ∀ name v, r.sandboxes.get? name = some v → n ≤ v) :
    (releaseEach keep f r listed).1.Valid ∧ f.Keeps n (releaseEach keep f r listed).1 ∧
      (∀ name, (releaseEach keep f r listed).2.sandboxes.get? name =
        if name ∈ listed.map (·.2) then none else r.sandboxes.get? name) ∧
      ∀ u, (∀ e ∈ listed, r.sandboxes.get? e.2 = some u → keep = some e.1) →
        (releaseEach keep f r listed).1.view u = f.view u := by
  induction listed generalizing f r with
  | nil => exact ⟨valid, .refl n f, by simp [releaseEach], fun _ _ => rfl⟩
  | cons head rest ih =>
    obtain ⟨simulation, sandbox⟩ := head
    have closing : (r.closeNamed f sandbox).Valid ∧ f.Keeps n (r.closeNamed f sandbox) ∧
        ∀ u, r.sandboxes.get? sandbox ≠ some u → (r.closeNamed f sandbox).view u = f.view u := by
      unfold Registry.closeNamed
      cases found : r.sandboxes.get? sandbox with
      | none => exact ⟨valid, .refl n f, fun _ _ => rfl⟩
      | some v =>
        refine ⟨valid_close valid v, keeps_close f (held sandbox v found), ?_⟩
        intro u other
        exact view_close_of_ne f fun same => other (by rw [same])
    have step : (r.release f sandbox (keep == some simulation)).1.Valid ∧
        f.Keeps n (r.release f sandbox (keep == some simulation)).1 ∧
        ∀ u, (r.sandboxes.get? sandbox = some u → keep = some simulation) →
          (r.release f sandbox (keep == some simulation)).1.view u = f.view u := by
      unfold Registry.release
      cases kept : keep == some simulation with
      | true => exact ⟨valid, .refl n f, fun _ _ => rfl⟩
      | false =>
        refine ⟨closing.1, closing.2.1, fun u spared => closing.2.2 u ?_⟩
        intro found
        simp [spared found] at kept
    have erased (name : String) :
      (r.release f sandbox (keep == some simulation)).2.sandboxes.get? name =
        if KeyOrder.same name sandbox = true then none else r.sandboxes.get? name :=
      SortedMap.get?_erase _ _ _
    obtain ⟨valid', keeps', forgotten, spares⟩ := ih step.1 fun name v found => by
      rw [erased] at found
      split at found
      · simp at found
      · exact held name v found
    rw [releaseEach]
    refine ⟨valid', step.2.1.trans keeps', ?_, ?_⟩
    · intro name
      rw [forgotten, erased]
      by_cases same : name = sandbox
      · simp [same]
      · simp only [KeyOrder.same_iff, List.map_cons, List.mem_cons, same, false_or, if_false]
    · intro u spared
      rw [spares u fun e he found => ?_,
        step.2.2 u fun found => spared (simulation, sandbox) (by simp) found]
      rw [erased] at found
      split at found
      · simp at found
      · exact spared e (by simp [he]) found

/-- A release of the sandboxes of a pass leaves none in use, and only the view of the tenant to keep
as it was. -/
theorem release_spec {σ : Type} {n number : Nat} {tenants : List Tenant} (p : Pass)
    (w : Workspace σ) (keep : Option String) (valid : w.forest.Valid)
    (housed : Housed number tenants w.registry.sandboxes p.sandboxes)
    (above : ∀ t ∈ tenants, n ≤ t.2) : (p.release keep w).forest.Valid ∧
    w.forest.Keeps n (p.release keep w).forest ∧
      (p.release keep w).registry.sandboxes = ∅ ∧ (p.release keep w).clock = w.clock ∧
      ∀ t ∈ tenants, keep = some t.1.name →
        (p.release keep w).forest.view t.2 = w.forest.view t.2 := by
  have high (name : String) (v : ViewId) (found : w.registry.sandboxes.get? name = some v) :
    n ≤ v := by
    obtain ⟨t, ht, -, rfl⟩ := housed.held name v found
    exact above t ht
  obtain ⟨valid', keeps, forgotten, spares⟩ := releaseEach_spec keep p.sandboxes.entries valid high
  refine ⟨valid', keeps, ?_, rfl, ?_⟩
  · apply SortedMap.ext_get?
    intro name
    rw [release, forgotten]
    split
    · rfl
    · rename_i unlisted
      cases found : w.registry.sandboxes.get? name with
      | none => rfl
      | some v =>
        obtain ⟨t, ht, rfl, -⟩ := housed.held name v found
        have entry := (SortedMap.mem_entries_iff _).mpr (housed.listed t ht)
        exact absurd (List.mem_map_of_mem (f := (·.2)) entry) unlisted
  · intro t ht kept
    apply spares
    intro e he found
    obtain ⟨u, -, simulation, sandbox⟩ := housed.owned e.1 e.2 ((SortedMap.mem_entries_iff _).mp he)
    obtain ⟨t', ht', same, view⟩ := housed.held _ _ found
    obtain rfl := List.inj_on_of_nodup_map housed.views ht ht' view
    rw [kept, simulation, sandboxName_inj.mp (sandbox.symm.trans same)]

end Pass

end ScaleAdvisor
