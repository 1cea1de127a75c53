import Mathlib.Data.List.Sort
import ScaleAdvisor.Proofs.Search.Shares

/-!
Groups as a sort of what the pools declare. Pools of one priority may be declared far apart, and
some of them offer nothing; still the groups, one after the other, are all that is declared, sorted
by priority, and where priorities are equal in the order of declaration.

* `flatMap_filter_eq_mergeSort`: to sort stably is to pick out one key after the other;
* `CandidateGroup.Grouping.unique`: what is declared is sorted into groups in one way only;
* `CandidateGroup.ofPools_grouping`: the groups that are tried are those;
* `CandidateGroup.ofPools_eq_filled`: they are what buckets hold, filled by one pool after the
  other.
-/

namespace ScaleAdvisor

section Stable

variable {α ι : Type} [LinearOrder ι] {key : α → ι} {xs ys : List α} {keys : List ι}

/-- Rows have the same items if they have the same of each key. -/
theorem mem_iff_of_filter_key (same : ∀ k, xs.filter (key · = k) = ys.filter (key · = k)) (a : α) :
    a ∈ xs ↔ a ∈ ys := by
  have listed : a ∈ xs.filter (key · = key a) ↔ a ∈ ys.filter (key · = key a) := by rw [same]
  simpa using listed

/-- Rows that ascend by their keys are the same if they have the same items of each key, in the same
order. -/
theorem eq_of_filter_key (key : α → ι) (sorted : xs.Pairwise (key · ≤ key ·))
    (sorted' : ys.Pairwise (key · ≤ key ·))
    (same : ∀ k, xs.filter (key · = k) = ys.filter (key · = k)) : xs = ys := by
  have mem := mem_iff_of_filter_key same
  induction xs generalizing ys with
  | nil => exact (List.eq_nil_iff_forall_not_mem.mpr fun a ha => by simpa using (mem a).mpr ha).symm
  | cons x xs ih =>
    cases ys with
    | nil => simpa using (mem x).mp (by simp)
    | cons y ys =>
      -- Each is the first in one of the rows, so that neither key is below the other.
      have le : key x ≤ key y := by
        obtain rfl | later := List.mem_cons.mp ((mem y).mpr (by simp))
        · exact le_refl _
        · exact List.rel_of_pairwise_cons sorted later
      have ge : key y ≤ key x := by
        obtain rfl | later := List.mem_cons.mp ((mem x).mp (by simp))
        · exact le_refl _
        · exact List.rel_of_pairwise_cons sorted' later
      have level : key y = key x := le_antisymm ge le
      have heads := same (key x)
      rw [List.filter_cons_of_pos (by simp),
        List.filter_cons_of_pos (by simpa using level)] at heads
      obtain rfl : x = y := (List.cons.inj heads).1
      have rest (k : ι) : xs.filter (key · = k) = ys.filter (key · = k) := by
        have both := same k
        rw [List.filter_cons, List.filter_cons] at both
        split at both
        · exact (List.cons.inj both).2
        · exact both
      exact congrArg _ (ih sorted.tail sorted'.tail rest (mem_iff_of_filter_key rest))

/-- Sorting leaves items of one key in their order. -/
theorem filter_mergeSort (key : α → ι) (xs : List α) (k : ι) :
    (xs.mergeSort (key · ≤ key ·)).filter (key · = k) = xs.filter (key · = k) := by
  have level : (xs.filter (key · = k)).Pairwise fun a b => decide (key a ≤ key b) = true := by
    refine List.pairwise_of_forall_mem_list fun a ha b hb => ?_
    have first : key a = k := by simpa using (List.mem_filter.mp ha).2
    have second : key b = k := by simpa using (List.mem_filter.mp hb).2
    simp [first, second]
  have kept := List.sublist_mergeSort (fun a b c => by simpa using le_trans)
    (fun a b => by simpa using le_total (key a) (key b)) level List.filter_sublist
  have part := kept.filter (key · = k)
  simp only [List.filter_filter, Bool.and_self] at part
  exact (part.eq_of_length ((List.mergeSort_perm xs _).filter _).length_eq.symm).symm

/-- In a row of distinct keys one of them gives what it is given, and no other gives anything. -/
theorem flatMap_ite_eq (distinct : keys.Nodup) (k : ι) (part : List α) :
    (keys.flatMap fun k' => if k' = k then part else []) = if k ∈ keys then part else [] := by
  induction keys with
  | nil => simp
  | cons k' keys ih =>
    obtain ⟨fresh, distinct⟩ := List.nodup_cons.mp distinct
    rw [List.flatMap_cons, ih distinct]
    by_cases here : k' = k
    · subst here
      simp [fresh]
    · simp [here, Ne.symm here]

/-- Picking out one key after the other, from the lowest on, gives an ascending row. -/
theorem pairwise_flatMap_filter (key : α → ι) (xs : List α) (ascending : keys.Pairwise (· < ·)) :
    (keys.flatMap fun k => xs.filter (key · = k)).Pairwise (key · ≤ key ·) := by
  have level {k : ι} {a : α} (ha : a ∈ xs.filter (key · = k)) : key a = k := by
    simpa using (List.mem_filter.mp ha).2
  refine List.pairwise_flatMap.mpr ⟨fun k _ => ?_, ascending.imp fun {k k'} below a ha b hb => ?_⟩
  · exact List.pairwise_of_forall_mem_list fun a ha b hb =>
      le_of_eq ((level ha).trans (level hb).symm)
  · rw [level ha, level hb]
    exact le_of_lt below

/-- It takes the items of each key that there is as they come. -/
theorem filter_flatMap_filter (key : α → ι) (xs : List α) (distinct : keys.Nodup) (k : ι) :
    (keys.flatMap fun k' => xs.filter (key · = k')).filter (key · = k) =
      if k ∈ keys then xs.filter (key · = k) else [] := by
  have picked (k' : ι) : (xs.filter (key · = k')).filter (key · = k) =
      if k' = k then xs.filter (key · = k) else [] := by
    split
    · rename_i here
      simp [here]
    · rename_i other
      simp only [List.filter_filter, List.filter_eq_nil_iff, Bool.and_eq_true, decide_eq_true_eq]
      exact fun a _ ⟨second, first⟩ => other (first.symm.trans second)
  rw [List.filter_flatMap]
  simp only [picked]
  exact flatMap_ite_eq distinct k _

/-- To sort stably is to pick out one key after the other. -/
theorem flatMap_filter_eq_mergeSort (key : α → ι) (xs : List α) (ascending : keys.Pairwise (· < ·))
    (complete : ∀ a ∈ xs, key a ∈ keys) :
    keys.flatMap (fun k => xs.filter (key · = k)) = xs.mergeSort (key · ≤ key ·) := by
  apply eq_of_filter_key key
  · exact pairwise_flatMap_filter key xs ascending
  · have sorted :
      (xs.mergeSort (key · ≤ key ·)).Pairwise fun a b => decide (key a ≤ key b) = true :=
      List.pairwise_mergeSort (fun a b c => by simpa using le_trans)
        (fun a b => by simpa using le_total (key a) (key b)) xs
    exact sorted.imp of_decide_eq_true
  · intro k
    rw [filter_mergeSort, filter_flatMap_filter key xs (ascending.imp ne_of_lt)]
    split
    · rfl
    · rename_i missing
      refine (List.filter_eq_nil_iff.mpr fun a ha level => missing ?_).symm
      exact of_decide_eq_true level ▸ complete a ha

end Stable

namespace CandidateGroup

variable {pools : List NodePool}

/-- All that the pools declare: pool by pool, template by template, zone by zone. -/
def declared (pools : List NodePool) : List Candidate :=
  pools.flatMap fun p => p.templates.flatMap fun t => p.zones.map fun zone => ⟨p, t.name, zone⟩

theorem declared_eq (pools : List NodePool) : declared pools = pools.flatMap Candidate.ofPool := rfl

theorem mem_declared_iff {c : Candidate} :
    c ∈ declared pools ↔ c.pool ∈ pools ∧ c ∈ Candidate.ofPool c.pool := by
  have pool {p : NodePool} (hc : c ∈ Candidate.ofPool p) : c.pool = p := by
    obtain ⟨t, -, hc⟩ := List.mem_flatMap.mp hc
    obtain ⟨zone, -, rfl⟩ := List.mem_map.mp hc
    rfl
  constructor
  · intro listed
    obtain ⟨p, hp, hc⟩ := List.mem_flatMap.mp listed
    obtain rfl := pool hc
    exact ⟨hp, hc⟩
  · rintro ⟨hp, hc⟩
    exact List.mem_flatMap.mpr ⟨c.pool, hp, hc⟩

/-- A group holds what is declared with its priority. -/
theorem candidates_ofPriority (pools : List NodePool) (priority : Int) :
    (ofPriority pools priority).candidates =
      (declared pools).filter (·.pool.priority = priority) := by
  have offered (p : NodePool) : (Candidate.ofPool p).filter (·.pool.priority = priority) =
      if p.priority == priority then Candidate.ofPool p else [] := by
    simp only [Candidate.ofPool, List.filter_flatMap, List.filter_map, Function.comp_def]
    by_cases level : p.priority = priority <;> simp [level]
  rw [ofPriority, declared_eq, List.filter_flatMap]
  simp only [offered]
  induction pools with
  | nil => rfl
  | cons p pools ih =>
    rw [List.flatMap_cons, ← ih, List.filter_cons]
    split <;> rfl

theorem mem_ofPools_iff {g : CandidateGroup} :
    g ∈ ofPools pools ↔ g = ofPriority pools g.priority ∧ g.candidates ≠ [] := by
  constructor
  · intro listed
    obtain ⟨made, nonempty⟩ := List.mem_filter.mp listed
    obtain ⟨priority, -, rfl⟩ := List.mem_map.mp made
    exact ⟨rfl, by simpa using nonempty⟩
  · rintro ⟨made, nonempty⟩
    refine List.mem_filter.mpr
      ⟨List.mem_map.mpr ⟨g.priority, ?_, made.symm⟩, by simpa using nonempty⟩
    obtain ⟨c, hc⟩ := List.exists_mem_of_ne_nil _ nonempty
    rw [made, candidates_ofPriority, List.mem_filter, decide_eq_true_eq, mem_declared_iff] at hc
    exact KeySet.mem_keys_ofKeys.mpr (hc.2 ▸ List.mem_map_of_mem hc.1.1)

/-- The groups are a stable sort of what the pools declare. -/
structure Grouping (pools : List NodePool) (groups : List CandidateGroup) : Prop where
  ascending : groups.Pairwise (·.priority < ·.priority)
  nonempty : ∀ g ∈ groups, g.candidates ≠ []
  /-- One after the other they are all that is declared, sorted by priority. -/
  joined : groups.flatMap (·.candidates) =
    (declared pools).mergeSort fun c d => c.pool.priority ≤ d.pool.priority
  /-- Each of them has what is declared with its priority, as often as it is declared. -/
  level : ∀ g ∈ groups, g.candidates = (declared pools).filter (·.pool.priority = g.priority)
  /-- What is declared is in one group, that of its pool's priority, and in no other. -/
  one : ∀ c ∈ declared pools, ∃ g ∈ groups, g.priority = c.pool.priority ∧ c ∈ g.candidates ∧
    ∀ g' ∈ groups, c ∈ g'.candidates → g' = g

/-- What is a group of one stable sort is one of every other. -/
theorem Grouping.subset {groups groups' : List CandidateGroup} (first : Grouping pools groups)
    (second : Grouping pools groups') {g : CandidateGroup} (listed : g ∈ groups) : g ∈ groups' := by
  obtain ⟨c, hc⟩ := List.exists_mem_of_ne_nil _ (first.nonempty g listed)
  rw [first.level g listed, List.mem_filter, decide_eq_true_eq] at hc
  obtain ⟨g', listed', level, -⟩ := second.one c hc.1
  have priority : g'.priority = g.priority := level.trans hc.2
  have candidates : g'.candidates = g.candidates := by
    rw [second.level g' listed', first.level g listed, priority]
  have same : g' = g := congr (congrArg CandidateGroup.mk priority) candidates
  exact same ▸ listed'

/-- What is declared has one stable sort only. -/
theorem Grouping.unique {groups groups' : List CandidateGroup} (first : Grouping pools groups)
    (second : Grouping pools groups') : groups = groups' := by
  have ascends {groups : List CandidateGroup} (h : Grouping pools groups) :
      groups.Pairwise fun g g' => KeyOrder.before g.priority g'.priority = true :=
    h.ascending.imp decide_eq_true
  refine KeyOrder.eq_of_sorted (·.priority) (ascends first) (ascends second) fun g => ?_
  exact ⟨first.subset second, second.subset first⟩

/-- Groups without candidates add nothing. -/
theorem flatMap_ofPools (pools : List NodePool) :
    (ofPools pools).flatMap (·.candidates) =
    (KeySet.ofKeys (pools.map (·.priority))).keys.flatMap fun k =>
      (declared pools).filter (·.pool.priority = k) := by
  have emptied (groups : List CandidateGroup) :
      (groups.filter (!·.candidates.isEmpty)).flatMap (·.candidates) =
        groups.flatMap (·.candidates) := by
    rw [List.flatMap_def, List.flatMap_def, ← List.flatten_filter_not_isEmpty (L := groups.map _),
      List.filter_map]
    rfl
  rw [ofPools, emptied, List.flatMap_map]
  simp only [candidates_ofPriority]

theorem ofPools_grouping (pools : List NodePool) : Grouping pools (ofPools pools) where
  ascending := ofPools_ascending pools
  nonempty _ listed := (mem_ofPools_iff.mp listed).2
  joined := by
    rw [flatMap_ofPools]
    refine flatMap_filter_eq_mergeSort (fun c : Candidate => c.pool.priority) _ ?_ fun c hc => ?_
    · have ascending := (KeySet.ofKeys (pools.map (·.priority))).sorted
      exact List.pairwise_map.mpr (ascending.imp of_decide_eq_true)
    · exact KeySet.mem_keys_ofKeys.mpr (List.mem_map_of_mem (mem_declared_iff.mp hc).1)
  level g listed := by
    rw [← candidates_ofPriority, ← (mem_ofPools_iff.mp listed).1]
  one c hc := by
    have here : c ∈ (ofPriority pools c.pool.priority).candidates := by
      rw [candidates_ofPriority]
      simpa using hc
    refine ⟨ofPriority pools c.pool.priority, ?_, rfl, here, fun g listed hg => ?_⟩
    · exact mem_ofPools_iff.mpr ⟨rfl, List.ne_nil_of_mem here⟩
    · have made := (mem_ofPools_iff.mp listed).1
      rw [made, candidates_ofPriority] at hg
      obtain ⟨-, level⟩ := List.mem_filter.mp hg
      rw [made, of_decide_eq_true level]

/-- A pool's candidates go into the bucket of its priority, after those that are in it. -/
def fill (buckets : SortedMap Int (List Candidate)) (p : NodePool) :
    SortedMap Int (List Candidate) :=
  buckets.insert p.priority (buckets.getD p.priority [] ++ Candidate.ofPool p)

/-- Whatever is in the buckets, a row of pools adds to each what they declare with its priority. -/
theorem get?_filled (pools : List NodePool) (buckets : SortedMap Int (List Candidate)) (k : Int) :
    (pools.foldl fill buckets).get? k = if k ∈ pools.map (·.priority) then
      some (buckets.getD k [] ++ (ofPriority pools k).candidates) else buckets.get? k := by
  induction pools generalizing buckets with
  | nil => rfl
  | cons p pools ih =>
    rw [List.foldl_cons, ih, SortedMap.getD, fill]
    by_cases here : k = p.priority
    · subst here
      by_cases again : p.priority ∈ pools.map (·.priority)
      · simp [again, ofPriority, List.append_assoc]
      · have nothing : pools.filter (·.priority == p.priority) = [] := by
          refine List.filter_eq_nil_iff.mpr fun q hq level => again ?_
          exact List.mem_map.mpr ⟨q, hq, by simpa using level⟩
        simp [again, ofPriority, nothing]
    · rw [SortedMap.get?_insert_of_ne _ _ here]
      simp [here, Ne.symm here, ofPriority, SortedMap.getD]

/-- The groups are what is in the buckets that are not empty once all pools have been put in. -/
theorem ofPools_eq_filled (pools : List NodePool) :
    ofPools pools = ((pools.foldl fill ∅).entries.filter (!·.2.isEmpty)).map fun e =>
      ⟨e.1, e.2⟩ := by
  have filled : pools.foldl fill ∅ = (KeySet.ofKeys (pools.map (·.priority))).mapValues fun k _ =>
      (ofPriority pools k).candidates := by
    apply SortedMap.ext_get?
    intro k
    have taken : k ∈ pools.map (·.priority) ↔
        ∃ u, (KeySet.ofKeys (pools.map (·.priority))).get? k = some u :=
      KeySet.mem_keys_ofKeys.symm.trans SortedMap.mem_keys_iff
    rw [get?_filled, SortedMap.get?_mapValues]
    cases held : (KeySet.ofKeys (pools.map (·.priority))).get? k with
    | none => rw [if_neg (by simp [taken, held]), SortedMap.get?_empty, Option.map_none]
    | some u =>
      rw [if_pos (taken.mpr ⟨u, held⟩), Option.map_some]
      rfl
  rw [filled, ofPools, SortedMap.keys, SortedMap.mapValues]
  simp only [List.filter_map, List.map_map]
  rfl

end CandidateGroup

end ScaleAdvisor
