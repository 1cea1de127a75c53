import Mathlib.Data.List.Perm.Basic
import ScaleAdvisor.Proofs.Packing.Load

/-!
What a cycle decides, said without the arithmetic of usage and of fullness. `Greedy` takes workloads
one after another: each goes to some node that it fits on beside all that is bound by then, and is
left only if it fits on none.

* `greedy_decideAll`: the decisions of the packer are such a run, whatever node it prefers;
* `Greedy.mem_after_iff`: exactly the workloads with a node in their decision are bound, each once;
* `Greedy.load_le`: no node ends with more than it had or offers, whichever is more;
* `Greedy.slack_le`: placing what asks for nothing negative leaves no node more slack;
* `Greedy.left_fits_nowhere`: what is left still fits nowhere when all else is placed.
-/

namespace ScaleAdvisor.BinPack

variable {nodes : List Node} {classes : List RuntimeClass}

/-- Workloads, those of them still to decide on, the decisions, and the workloads afterwards. -/
inductive Greedy (nodes : List Node) (classes : List RuntimeClass) :
    List Workload → List Workload → List Decision → List Workload → Prop where
  | done (ws : List Workload) : Greedy nodes classes ws [] [] ws
  | place {ws todo after : List Workload} {ds : List Decision} {w : Workload} {n : Node}
      (listed : n ∈ nodes) (room : Fits classes ws w n)
      (rest : Greedy nodes classes (bindIn w.key n.name ws) todo ds after) :
      Greedy nodes classes ws (w :: todo) (⟨w.key, some n.name⟩ :: ds) after
  | leave {ws todo after : List Workload} {ds : List Decision} {w : Workload}
      (nowhere : ∀ n ∈ nodes, ¬ Fits classes ws w n)
      (rest : Greedy nodes classes ws todo ds after) :
      Greedy nodes classes ws (w :: todo) (⟨w.key, none⟩ :: ds) after

/-- What is to be decided on is listed and pending, and keys tell workloads apart. -/
structure Undecided (ws todo : List Workload) : Prop where
  distinct : (ws.map (·.key)).Nodup
  once : (todo.map (·.key)).Nodup
  listed : ∀ w ∈ todo, w ∈ ws ∧ w.isPending = true

theorem Undecided.tail {ws todo : List Workload} {w : Workload} (h : Undecided ws (w :: todo)) :
    Undecided ws todo := by
  have once := h.once
  rw [List.map_cons, List.nodup_cons] at once
  exact ⟨h.distinct, once.2, fun u hu => h.listed u (by simp [hu])⟩

theorem Undecided.left {ws first later : List Workload} (h : Undecided ws (first ++ later)) :
    Undecided ws first :=
  ⟨h.distinct, h.once.sublist ((List.sublist_append_left _ _).map _),
    fun w hw => h.listed w (by simp [hw])⟩

theorem Undecided.key_ne {ws todo : List Workload} {w u : Workload} (h : Undecided ws (w :: todo))
    (hu : u ∈ todo) : u.key ≠ w.key := by
  have once := h.once
  rw [List.map_cons, List.nodup_cons] at once
  intro same
  apply once.1
  rw [← same]
  exact List.mem_map_of_mem hu

theorem Undecided.bind {ws todo : List Workload} {w : Workload} (h : Undecided ws (w :: todo))
    (node : String) : Undecided (bindIn w.key node ws) todo := by
  refine ⟨?_, h.tail.once, ?_⟩
  · rw [map_key_bindIn]
    exact h.distinct
  · intro u hu
    obtain ⟨listed, pending⟩ := h.tail.listed u hu
    exact ⟨mem_bindIn_of_ne listed (h.key_ne hu), pending⟩

theorem fuller_eq (a b : Float × Node) : fuller a b = a ∨ fuller a b = b := by
  unfold fuller
  split
  · exact .inr rfl
  · split
    · exact .inl rfl
    · split
      · exact .inr rfl
      · exact .inl rfl

theorem foldl_fuller_mem (first : Float × Node) (rest : List (Float × Node)) :
    rest.foldl fuller first ∈ first :: rest := by
  induction rest generalizing first with
  | nil => simp
  | cons second rest ih =>
    rw [List.foldl_cons]
    have taken := ih (fuller first second)
    rcases fuller_eq first second with same | same
    · rw [same] at taken ⊢
      obtain h | h := List.mem_cons.mp taken
      · simp [h]
      · simp [h]
    · rw [same] at taken ⊢
      exact List.mem_cons_of_mem _ taken

/-- The node chosen is one of those that fit, whichever is the fullest. -/
theorem choose_some {u : Usage} {w : Workload} {requests : Resources} {n : Node}
    (h : choose u w requests nodes = some n) : n ∈ nodes ∧ fits u w requests n = true := by
  unfold choose at h
  dsimp only at h
  split at h
  · simp at h
  · rename_i first rest listing
    have taken := foldl_fuller_mem first rest
    rw [← listing] at taken
    obtain ⟨m, hm, same⟩ := List.mem_map.mp taken
    have chosen : m = n := by
      have := Option.some.inj h
      rw [← same] at this
      exact this
    rw [← chosen]
    exact List.mem_filter.mp hm

theorem choose_none {u : Usage} {w : Workload} {requests : Resources}
    (h : choose u w requests nodes = none) {n : Node} (hn : n ∈ nodes) :
    fits u w requests n = false := by
  unfold choose at h
  dsimp only at h
  split at h
  · rename_i listing
    have empty := List.map_eq_nil_iff.mp listing
    simpa using List.filter_eq_nil_iff.mp empty n hn
  · simp at h

theorem map_workload_decideAll (u : Usage) (todo : List Workload) :
    (decideAll nodes classes u todo).map (·.workload) = todo.map (·.key) := by
  induction todo generalizing u with
  | nil => rfl
  | cons w rest ih =>
    rw [decideAll]
    cases choose u w (w.effectiveRequests classes) nodes <;> simp [ih]

/-- A decision's node is one of those to choose from. -/
theorem node_of_mem_decideAll {u : Usage} {todo : List Workload} {k : WorkloadKey} {node : String}
    (hd : ⟨k, some node⟩ ∈ decideAll nodes classes u todo) : ∃ n ∈ nodes, n.name = node := by
  induction todo generalizing u with
  | nil => cases hd
  | cons w rest ih =>
    rw [decideAll] at hd
    split at hd
    · rename_i n chosen
      rcases List.mem_cons.mp hd with same | later
      · simp only [Decision.mk.injEq, Option.some.injEq] at same
        exact ⟨n, (choose_some chosen).1, same.2.symm⟩
      · exact ih later
    · rcases List.mem_cons.mp hd with same | later
      · simp at same
      · exact ih later

/-- The packer decides greedily. -/
theorem greedy_decideAll (named : ∀ n ∈ nodes, n.name ≠ "") (todo : List Workload) (u : Usage)
    (ws : List Workload) (tracks : Tracks u classes ws) (ready : Undecided ws todo) :
    ∃ after, Greedy nodes classes ws todo (decideAll nodes classes u todo) after := by
  induction todo generalizing u ws with
  | nil => exact ⟨ws, .done ws⟩
  | cons w todo ih =>
    obtain ⟨hw, pending⟩ := ready.listed w (by simp)
    unfold decideAll
    dsimp only
    split
    · rename_i n hn
      obtain ⟨listed, room⟩ := choose_some hn
      have charged := tracks.charge ready.distinct hw pending (named n listed)
      obtain ⟨after, rest⟩ := ih _ _ charged (ready.bind n.name)
      exact ⟨after, .place listed ((fits_iff tracks).mp room) rest⟩
    · rename_i hn
      obtain ⟨after, rest⟩ := ih u ws tracks ready.tail
      refine ⟨after, .leave ?_ rest⟩
      intro n listed room
      have := choose_none hn listed
      rw [(fits_iff tracks).mpr room] at this
      exact Bool.noConfusion this

namespace Greedy

variable {ws todo after : List Workload} {ds : List Decision}

theorem map_workload (h : Greedy nodes classes ws todo ds after) :
    ds.map (·.workload) = todo.map (·.key) := by
  induction h with
  | done => rfl
  | place _ _ _ ih | leave _ _ ih => simp [ih]

theorem map_key (h : Greedy nodes classes ws todo ds after) :
    after.map (·.key) = ws.map (·.key) := by
  induction h with
  | done => rfl
  | place _ _ _ ih => rw [ih, map_key_bindIn]
  | leave _ _ ih => exact ih

/-- A run over two rows is a run over the first and then one over the second. -/
theorem append {first second : List Workload}
    (h : Greedy nodes classes ws (first ++ second) ds after) : ∃ ds₁ ds₂ mid, ds = ds₁ ++ ds₂ ∧
    Greedy nodes classes ws first ds₁ mid ∧
      Greedy nodes classes mid second ds₂ after := by
  induction first generalizing ws ds with
  | nil => exact ⟨[], ds, ws, rfl, .done ws, h⟩
  | cons w first ih =>
    rw [List.cons_append] at h
    cases h with
    | place listed room rest =>
      obtain ⟨ds₁, ds₂, mid, rfl, run, run'⟩ := ih rest
      exact ⟨_ :: ds₁, ds₂, mid, rfl, .place listed room run, run'⟩
    | leave nowhere rest =>
      obtain ⟨ds₁, ds₂, mid, rfl, run, run'⟩ := ih rest
      exact ⟨_ :: ds₁, ds₂, mid, rfl, .leave nowhere run, run'⟩

/-- Each workload is decided on once. -/
theorem nodup (h : Greedy nodes classes ws todo ds after) (ready : Undecided ws todo) :
    (ds.map (·.workload)).Nodup := by
  rw [h.map_workload]
  exact ready.once

theorem node_unique (h : Greedy nodes classes ws todo ds after) (ready : Undecided ws todo)
    {k : WorkloadKey} {a b : Option String} (ha : ⟨k, a⟩ ∈ ds) (hb : ⟨k, b⟩ ∈ ds) : a = b := by
  have same := List.inj_on_of_nodup_map (h.nodup ready) ha hb rfl
  exact (Decision.mk.inj same).2

/-- A decision's node is listed, and takes the workload. -/
theorem placed (h : Greedy nodes classes ws todo ds after) {k : WorkloadKey} {node : String}
    (hd : ⟨k, some node⟩ ∈ ds) :
    ∃ w ∈ todo, w.key = k ∧ ∃ n ∈ nodes, n.name = node ∧ admits w n = true := by
  induction h with
  | done => simp at hd
  | @place ws todo after ds w n listed room _ ih =>
    obtain same | hd := List.mem_cons.mp hd
    · cases same
      exact ⟨w, by simp, rfl, n, listed, rfl, room.1⟩
    · obtain ⟨u, hu, rest⟩ := ih hd
      exact ⟨u, by simp [hu], rest⟩
  | @leave ws todo after ds w nowhere _ ih =>
    obtain same | hd := List.mem_cons.mp hd
    · cases same
    · obtain ⟨u, hu, rest⟩ := ih hd
      exact ⟨u, by simp [hu], rest⟩

/-- The workloads afterwards: those with a node in their decision are bound to it, all others are
as they were. -/
theorem mem_after_iff (h : Greedy nodes classes ws todo ds after) (ready : Undecided ws todo)
    {x : Workload} :
    x ∈ after ↔ ∃ w ∈ ws, (∃ node, ⟨w.key, some node⟩ ∈ ds ∧ x = w.bindTo node) ∨
      ((∀ node, ⟨w.key, some node⟩ ∉ ds) ∧ x = w) := by
  induction h with
  | done => simp
  | @place ws todo after ds w n _ _ rest ih =>
    have undecided : w.key ∉ ds.map (·.workload) := by
      rw [rest.map_workload]
      intro hk
      obtain ⟨u, hu, same⟩ := List.mem_map.mp hk
      exact ready.key_ne hu same
    have only (node : Option String) : ⟨w.key, node⟩ ∉ ds := fun hd =>
      undecided (List.mem_map_of_mem (f := (·.workload)) hd)
    rw [ih (ready.bind n.name)]
    constructor
    · rintro ⟨v, hv, hx⟩
      obtain ⟨u, hu, hk, rfl⟩ | ⟨hv, hk⟩ := mem_bindIn.mp hv
      · refine ⟨u, hu, .inl ⟨n.name, by simp [hk], ?_⟩⟩
        rcases hx with ⟨node, hd, -⟩ | ⟨-, rfl⟩
        · rw [Workload.key_bindTo, hk] at hd
          exact absurd hd (only _)
        · rfl
      · refine ⟨v, hv, ?_⟩
        rcases hx with ⟨node, hd, rfl⟩ | ⟨free, rfl⟩
        · exact .inl ⟨node, by simp [hd], rfl⟩
        · refine .inr ⟨?_, rfl⟩
          intro node hd
          obtain same | hd := List.mem_cons.mp hd
          · exact hk (Decision.mk.inj same).1
          · exact free node hd
    · rintro ⟨v, hv, hx⟩
      by_cases hk : v.key = w.key
      · refine ⟨v.bindTo n.name, mem_bindIn.mpr (.inl ⟨v, hv, hk, rfl⟩), .inr ⟨?_, ?_⟩⟩
        · intro node hd
          rw [Workload.key_bindTo, hk] at hd
          exact only _ hd
        · rcases hx with ⟨node, hd, rfl⟩ | ⟨free, -⟩
          · obtain same | hd := List.mem_cons.mp hd
            · rw [Option.some.inj (Decision.mk.inj same).2]
            · rw [hk] at hd
              exact absurd hd (only _)
          · exact absurd (by simp [hk]) (free n.name)
      · refine ⟨v, mem_bindIn_of_ne hv hk, ?_⟩
        rcases hx with ⟨node, hd, rfl⟩ | ⟨free, rfl⟩
        · obtain same | hd := List.mem_cons.mp hd
          · exact absurd (Decision.mk.inj same).1 hk
          · exact .inl ⟨node, hd, rfl⟩
        · exact .inr ⟨fun node hd => free node (by simp [hd]), rfl⟩
  | @leave ws todo after ds w nowhere rest ih =>
    rw [ih ready.tail]
    have same (k : WorkloadKey) (node : String) :
        ⟨k, some node⟩ ∈ (⟨w.key, none⟩ :: ds : List Decision) ↔ ⟨k, some node⟩ ∈ ds := by
      simp
    simp only [same]

theorem slack_le (h : Greedy nodes classes ws todo ds after) (ready : Undecided ws todo)
    (named : ∀ n ∈ nodes, n.name ≠ "") (unique : (nodes.map (·.name)).Nodup)
    (nonneg : NonNegative classes ws) {n : Node} (hn : n ∈ nodes) (resource : String) :
    slack classes after n resource ≤ slack classes ws n resource := by
  induction h with
  | done => exact Int.le_refl _
  | @place ws todo after ds w m listed room _ ih =>
    obtain ⟨hw, pending⟩ := ready.listed w (by simp)
    have step := slack_bindIn_le ready.distinct nonneg hw pending (named m listed) room
      (List.inj_on_of_nodup_map unique listed hn) resource
    exact Int.le_trans (ih (ready.bind m.name) (nonneg.bindIn _ _)) step
  | leave _ _ ih => exact ih ready.tail nonneg

/-- A name that no node has is bound to no more than before. -/
theorem load_eq_of_unlisted (h : Greedy nodes classes ws todo ds after) (ready : Undecided ws todo)
    (named : ∀ n ∈ nodes, n.name ≠ "") {other : String} (unlisted : ∀ n ∈ nodes, n.name ≠ other)
    (resource : String) : load classes after other resource = load classes ws other resource := by
  induction h with
  | done => rfl
  | @place ws todo after ds w n listed _ _ ih =>
    obtain ⟨hw, pending⟩ := ready.listed w (by simp)
    have step := load_bindIn classes ready.distinct hw pending (named n listed) other resource
    rw [if_neg (unlisted n listed), Int.add_zero] at step
    rw [ih (ready.bind n.name), step]
  | leave _ _ ih => exact ih ready.tail

/-- A node that carries no more than two to the 63 above what it offers ends with no more than it
had before or offers, whichever is more. -/
theorem load_le (h : Greedy nodes classes ws todo ds after) (ready : Undecided ws todo)
    (named : ∀ n ∈ nodes, n.name ≠ "") (unique : (nodes.map (·.name)).Nodup) {n : Node}
    (hn : n ∈ nodes) (resource : String)
    (fair : load classes ws n.name resource ≤ n.allocatable.get resource + twoTo 63) :
    load classes after n.name resource ≤
      max (load classes ws n.name resource) (n.allocatable.get resource) := by
  have large : (twoTo 63 : Int) = 9223372036854775808 := rfl
  induction h with
  | done => omega
  | @place ws todo after ds w m listed room _ ih =>
    obtain ⟨hw, pending⟩ := ready.listed w (by simp)
    have later := ih (ready.bind m.name)
    have step := load_bindIn classes ready.distinct hw pending (named m listed) n.name resource
    by_cases same : m.name = n.name
    · have hm : m = n := List.inj_on_of_nodup_map unique listed hn same
      subst hm
      rw [if_pos rfl] at step
      by_cases positive : 0 < w.asks classes resource
      · have := asks_le_of_le_slack fair (room.2 resource positive)
        omega
      · omega
    · rw [if_neg same] at step
      omega
  | leave _ _ ih => exact ih ready.tail fair

/-- A workload that is left fits on no node, all other placements counted in. -/
theorem left_fits_nowhere (h : Greedy nodes classes ws todo ds after) (ready : Undecided ws todo)
    (named : ∀ n ∈ nodes, n.name ≠ "") (unique : (nodes.map (·.name)).Nodup)
    (nonneg : NonNegative classes ws) {w : Workload} (hw : w ∈ todo) (left : ⟨w.key, none⟩ ∈ ds)
    {n : Node} (hn : n ∈ nodes) : ¬ Fits classes after w n := by
  induction h with
  | done => simp at hw
  | @place ws todo after ds u m listed room rest ih =>
    obtain rfl | hw := List.mem_cons.mp hw
    · have first : ⟨w.key, some m.name⟩ ∈ (⟨w.key, some m.name⟩ :: ds : List Decision) := by simp
      exact absurd ((Greedy.place listed room rest).node_unique ready first left) (by simp)
    · have hd : ⟨w.key, none⟩ ∈ ds := by simpa using left
      exact ih (ready.bind m.name) (nonneg.bindIn _ _) hw hd
  | @leave ws todo after ds u nowhere rest ih =>
    obtain rfl | hw := List.mem_cons.mp hw
    · intro room
      exact nowhere n hn
        (room.mono fun resource => rest.slack_le ready.tail named unique nonneg hn resource)
    · have hd : ⟨w.key, none⟩ ∈ ds := by
        obtain same | hd := List.mem_cons.mp left
        · exact absurd (Decision.mk.inj same).1 (ready.key_ne hw)
        · exact hd
      exact ih ready.tail nonneg hw hd

/-- A decision's node has had room for the workload from the start. -/
theorem placed_fits (h : Greedy nodes classes ws todo ds after) (ready : Undecided ws todo)
    (named : ∀ n ∈ nodes, n.name ≠ "") (unique : (nodes.map (·.name)).Nodup)
    (nonneg : NonNegative classes ws) {k : WorkloadKey} {node : String} (hd : ⟨k, some node⟩ ∈ ds) :
    ∃ w ∈ todo, w.key = k ∧ ∃ n ∈ nodes, n.name = node ∧ Fits classes ws w n := by
  induction h with
  | done => simp at hd
  | @place ws todo after ds w n listed room _ ih =>
    obtain same | hd := List.mem_cons.mp hd
    · cases same
      exact ⟨w, by simp, rfl, n, listed, rfl, room⟩
    · obtain ⟨hw, pending⟩ := ready.listed w (by simp)
      obtain ⟨u, hu, key, m, hm, name, later⟩ := ih (ready.bind n.name) (nonneg.bindIn _ _) hd
      refine ⟨u, by simp [hu], key, m, hm, name, later.mono ?_⟩
      exact slack_bindIn_le ready.distinct nonneg hw pending (named n listed) room
        (List.inj_on_of_nodup_map unique listed hm)
  | leave _ _ ih =>
    obtain same | hd := List.mem_cons.mp hd
    · cases same
    · obtain ⟨u, hu, rest⟩ := ih ready.tail nonneg hd
      exact ⟨u, by simp [hu], rest⟩

end Greedy

theorem perm_ranked (priorities : List PriorityClass) (ws : List Workload) :
    (ranked priorities ws).Perm (ws.filter (·.isPending)) :=
  List.mergeSort_perm _ _

theorem mem_ranked {priorities : List PriorityClass} {ws : List Workload} {w : Workload} :
    w ∈ ranked priorities ws ↔ w ∈ ws ∧ w.isPending = true := by
  rw [(perm_ranked priorities ws).mem_iff, List.mem_filter]

theorem undecided_ranked (priorities : List PriorityClass) {ws : List Workload}
    (distinct : (ws.map (·.key)).Nodup) : Undecided ws (ranked priorities ws) := by
  refine ⟨distinct, ?_, fun w hw => mem_ranked.mp hw⟩
  apply ((perm_ranked priorities ws).map _).nodup_iff.mpr
  exact distinct.sublist (List.filter_sublist.map _)

/-- One cycle over a listing is a greedy run over its pending workloads. -/
theorem greedy_decisions (classes : List RuntimeClass) (named : ∀ n ∈ nodes, n.name ≠ "")
    (priorities : List PriorityClass)
    {ws : List Workload} (distinct : (ws.map (·.key)).Nodup) :
    ∃ after, Greedy nodes classes ws (ranked priorities ws)
      (decisions nodes ws priorities classes) after :=
  greedy_decideAll named _ _ _ (tracks_usageOf classes ws) (undecided_ranked priorities distinct)

/-- Where every pending workload fits nowhere, each is left. -/
theorem decisions_of_fits_nowhere (named : ∀ n ∈ nodes, n.name ≠ "")
    (priorities : List PriorityClass) {ws : List Workload} (distinct : (ws.map (·.key)).Nodup)
    (nowhere : ∀ w ∈ ws, w.isPending = true → ∀ n ∈ nodes, ¬ Fits classes ws w n) :
    decisions nodes ws priorities classes = (ranked priorities ws).map fun w => ⟨w.key, none⟩ := by
  obtain ⟨after, h⟩ := greedy_decisions classes named priorities distinct
  have all (todo : List Workload) (ds : List Decision) (after : List Workload)
      (sub : ∀ w ∈ todo, w ∈ ws ∧ w.isPending = true) (h : Greedy nodes classes ws todo ds after) :
      ds = todo.map fun w => ⟨w.key, none⟩ := by
    induction todo generalizing ds after with
    | nil =>
      cases h
      rfl
    | cons w todo ih =>
      have first := sub w (by simp)
      cases h with
      | place listed room _ => exact absurd room (nowhere w first.1 first.2 _ listed)
      | leave _ rest => rw [List.map_cons, ih _ _ (fun u hu => sub u (by simp [hu])) rest]
  exact all _ _ _ (fun w hw => mem_ranked.mp hw) h

end ScaleAdvisor.BinPack
