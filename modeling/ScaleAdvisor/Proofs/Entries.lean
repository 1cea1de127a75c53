import Mathlib.Data.List.Basic
import Mathlib.Data.List.Nodup
import Mathlib.Data.List.Sort
import Mathlib.Tactic.Tauto
import ScaleAdvisor.SortedMap

/-!
What a sorted map lists after a write, and what a set of keys holds. A write under a key that is
taken replaces one entry; a listing that passes over the entry written does not notice the write.
Items with keys of their own are found by these in every order, and sorted by them in one way only.
-/

namespace ScaleAdvisor

section Keyed

variable {α κ : Type} [BEq κ] [LawfulBEq κ] {items others : List α} {key : α → κ}

theorem find?_key_eq_some_iff (distinct : (items.map key).Nodup) {k : κ} {a : α} :
    items.find? (key · == k) = some a ↔ a ∈ items ∧ key a = k := by
  constructor
  · intro found
    exact ⟨List.mem_of_find?_eq_some found, by simpa using List.find?_some found⟩
  · rintro ⟨ha, rfl⟩
    cases found : items.find? (key · == key a) with
    | none =>
      have unmatched := List.find?_eq_none.mp found a ha
      simp at unmatched
    | some b =>
      have same : key b = key a := by simpa using List.find?_some found
      rw [List.inj_on_of_nodup_map distinct (List.mem_of_find?_eq_some found) ha same]

theorem find?_key_perm (perm : others.Perm items) (distinct : (items.map key).Nodup) (k : κ) :
    others.find? (key · == k) = items.find? (key · == k) := by
  apply Option.ext
  intro a
  rw [find?_key_eq_some_iff distinct, find?_key_eq_some_iff ((perm.map key).nodup_iff.mpr distinct),
    perm.mem_iff]

end Keyed

namespace KeyOrder

variable {α κ ι : Type} [KeyOrder κ] [KeyOrder ι]

/-- What lies between two keys lies after the one or before the other. -/
theorem before_or_before {a c : κ} (h : before a c = true) (b : κ) :
    before a b = true ∨ before b c = true := by
  cases first : before a b with
  | true => exact .inl rfl
  | false =>
    cases second : before b a with
    | true => exact .inr (trans second h)
    | false => exact .inr (total first second ▸ h)

/-- Rows that ascend by their keys and have the same members are the same. -/
theorem eq_of_sorted (key : α → κ) {xs ys : List α}
    (sorted : xs.Pairwise fun a b => before (key a) (key b) = true)
    (sorted' : ys.Pairwise fun a b => before (key a) (key b) = true)
    (same : ∀ x, x ∈ xs ↔ x ∈ ys) : xs = ys := by
  have : Std.Irrefl fun a b : α => before (key a) (key b) = true := ⟨fun a => by simp [irrefl]⟩
  have : Std.Antisymm fun a b : α => before (key a) (key b) = true :=
    ⟨fun a b first second => by simp [asymm first] at second⟩
  exact List.Subset.antisymm_of_pairwise sorted sorted' (fun x => (same x).mp) fun x => (same x).mpr

/-- Sorting by distinct keys gives a strictly ascending row. -/
theorem sorted_mergeSort (key : α → κ) {xs : List α} (distinct : (xs.map key).Nodup) :
    (xs.mergeSort fun a b => !before (key b) (key a)).Pairwise fun a b =>
      before (key a) (key b) = true := by
  have apart : (xs.mergeSort fun a b => !before (key b) (key a)).Pairwise fun a b =>
    key a ≠ key b :=
    List.pairwise_map.mp (((List.mergeSort_perm xs _).map key).nodup_iff.mpr distinct)
  have ascending : (xs.mergeSort fun a b => !before (key b) (key a)).Pairwise fun a b =>
      (!before (key b) (key a)) = true := by
    apply List.pairwise_mergeSort
    · intro a b c hab hbc
      simp only [Bool.not_eq_true'] at hab hbc ⊢
      by_contra after
      rcases before_or_before (by simpa using after) (key b) with h | h
      · simp [h] at hbc
      · simp [h] at hab
    · intro a b
      cases h : before (key a) (key b) with
      | true => simp [asymm h]
      | false => simp
  refine (ascending.and apart).imp fun {a b} h => ?_
  cases first : before (key a) (key b) with
  | true => rfl
  | false => exact absurd (total first (by simpa using h.1)) h.2

end KeyOrder

namespace SortedMap

open KeyOrder

variable {κ α β : Type} [KeyOrder κ]

theorem contains_iff {m : SortedMap κ α} {k : κ} :
    m.contains k = true ↔ ∃ a, m.get? k = some a := by
  simp only [contains, Option.isSome_iff_exists]

theorem get?_mapValues (m : SortedMap κ α) (f : κ → α → β) (k : κ) :
    (m.mapValues f).get? k = (m.get? k).map (f k) := by
  have listed (entries : List (κ × α)) :
      find k (entries.map fun e => (e.1, f e.1 e.2)) = (find k entries).map (f k) := by
    induction entries with
    | nil => rfl
    | cons head rest ih =>
      obtain ⟨key, a⟩ := head
      by_cases hk : same k key = true
      · obtain rfl := same_iff.mp hk
        simp [find, hk]
      · simp [find, hk, ih]
  exact listed m.entries

theorem nodup_keys (m : SortedMap κ α) : m.keys.Nodup := by
  apply List.pairwise_map.mpr
  exact m.sorted.imp fun h => ne_of_before h

/-- Two entries of one key are one entry. -/
theorem pairwise_keys_ne (m : SortedMap κ α) : m.entries.Pairwise fun a b => a.1 ≠ b.1 :=
  m.sorted.imp fun h => ne_of_before h

theorem mem_keys_iff {m : SortedMap κ α} {k : κ} : k ∈ m.keys ↔ ∃ a, m.get? k = some a := by
  simp only [keys, List.mem_map]
  constructor
  · rintro ⟨⟨key, a⟩, he, rfl⟩
    exact ⟨a, (mem_entries_iff m).mp he⟩
  · rintro ⟨a, h⟩
    exact ⟨(k, a), (mem_entries_iff m).mpr h, rfl⟩

theorem mem_keys_insert {m : SortedMap κ α} {k k' : κ} {a : α} :
    k' ∈ (m.insert k a).keys ↔ k' = k ∨ k' ∈ m.keys := by
  simp only [mem_keys_iff, get?_insert]
  by_cases h : k' = k
  · simp [h]
  · simp [h, same_iff]

theorem mem_keys_erase {m : SortedMap κ α} {k k' : κ} :
    k' ∈ (m.erase k).keys ↔ k' ≠ k ∧ k' ∈ m.keys := by
  simp only [mem_keys_iff, get?_erase]
  by_cases h : k' = k
  · simp [h]
  · simp [h, same_iff]

theorem erase_of_free {m : SortedMap κ α} {k : κ} (free : m.get? k = none) : m.erase k = m := by
  apply ext_get?
  intro k'
  rw [get?_erase]
  split
  · rename_i same
    rw [same_iff.mp same, free]
  · rfl

theorem erase_insert (m : SortedMap κ α) (k : κ) (a : α) : (m.insert k a).erase k = m.erase k := by
  apply ext_get?
  intro k'
  rw [get?_erase, get?_erase, get?_insert]
  split <;> rfl

/-- A new entry can be taken out again. -/
theorem erase_insert_of_free {m : SortedMap κ α} {k : κ} {a : α} (free : m.get? k = none) :
    (m.insert k a).erase k = m := by
  rw [erase_insert, erase_of_free free]

theorem isEmpty_iff {m : SortedMap κ α} : m.isEmpty = true ↔ m.keys = [] := by
  simp [isEmpty, keys]

theorem filterMap_place (f : κ × α → Option β) (k : κ) (a : α) (entries : List (κ × α))
    (written : f (k, a) = none) (replaced : ∀ b, (k, b) ∈ entries → f (k, b) = none) :
    (place k a entries).filterMap f = entries.filterMap f := by
  induction entries with
  | nil => simp [place, written]
  | cons head rest ih =>
    obtain ⟨key, b⟩ := head
    have ih := ih fun b hb => replaced b (List.mem_cons_of_mem _ hb)
    simp only [place]
    split
    · simp [List.filterMap_cons, written]
    · split
      · simp [List.filterMap_cons, ih]
      · rename_i notFirst notLater
        have hk : k = key := total (by simpa using notFirst) (by simpa using notLater)
        subst hk
        simp [written, replaced b (by simp)]

/-- A listing that passes over what is written, and over what is replaced, stays as it was. -/
theorem filterMap_insert (m : SortedMap κ α) (f : κ × α → Option β) (k : κ) (a : α)
    (written : f (k, a) = none) (replaced : ∀ b, m.get? k = some b → f (k, b) = none) :
    (m.insert k a).entries.filterMap f = m.entries.filterMap f :=
  filterMap_place f k a m.entries written fun b hb => replaced b ((mem_entries_iff m).mp hb)

theorem place_of_taken (k : κ) (a : α) {entries : List (κ × α)}
    (h : entries.Pairwise fun a b => before a.1 b.1 = true) (taken : ∃ b, (k, b) ∈ entries) :
    place k a entries = entries.map fun e => if same e.1 k then (k, a) else e := by
  induction entries with
  | nil => simp at taken
  | cons head rest ih =>
    obtain ⟨key, b⟩ := head
    rw [List.pairwise_cons] at h
    obtain ⟨c, hc⟩ := taken
    by_cases hk : k = key
    · subst hk
      have later : ∀ e ∈ rest, (if same e.1 k then (k, a) else e) = e := by
        intro e he
        have ne := ne_of_before (h.1 e he)
        have hs : same e.1 k = false := same_eq_false_iff.mpr ne.symm
        simp [hs]
      have hs : same k k = true := same_iff.mpr rfl
      simp only [place, KeyOrder.irrefl, Bool.false_eq_true, if_false, List.map_cons, hs, if_true]
      rw [List.map_congr_left later, List.map_id']
    · have hin : (k, c) ∈ rest := by
        obtain he | hc := List.mem_cons.mp hc
        · exact absurd (Prod.mk.inj he).1 hk
        · exact hc
      have later : before key k = true := h.1 _ hin
      have hs : same key k = false := same_eq_false_iff.mpr (Ne.symm hk)
      simp only [place, asymm later, later, Bool.false_eq_true, if_false, if_true,
        List.map_cons, hs]
      rw [ih h.2 ⟨c, hin⟩]

/-- A write under a taken key changes that entry alone. -/
theorem entries_insert_of_taken (m : SortedMap κ α) {k : κ} {b : α} (a : α)
    (taken : m.get? k = some b) :
    (m.insert k a).entries = m.entries.map fun e => if same e.1 k then (k, a) else e :=
  place_of_taken k a m.sorted ⟨b, (mem_entries_iff m).mpr taken⟩

theorem mem_of_find {k : κ} {a : α} {entries : List (κ × α)} (h : find k entries = some a) :
    (k, a) ∈ entries := by
  induction entries with
  | nil => simp at h
  | cons head rest ih =>
    obtain ⟨key, b⟩ := head
    simp only [find] at h
    split at h
    · rename_i hk
      simp_all
    · exact List.mem_cons_of_mem _ (ih h)

theorem find_eq_none_iff {k : κ} {entries : List (κ × α)} :
    find k entries = none ↔ k ∉ entries.map (·.1) := by
  induction entries with
  | nil => simp
  | cons head rest ih =>
    obtain ⟨key, a⟩ := head
    rw [find, List.map_cons, List.mem_cons, not_or, ← ih]
    by_cases hk : k = key
    · simp [hk]
    · simp [hk, same_iff]

/-- With distinct keys every entry is found. -/
theorem find_eq_some_of_mem {k : κ} {a : α} {entries : List (κ × α)}
    (distinct : (entries.map (·.1)).Nodup) (listed : (k, a) ∈ entries) :
    find k entries = some a := by
  induction entries with
  | nil => simp at listed
  | cons head rest ih =>
    obtain ⟨key, b⟩ := head
    rw [List.map_cons, List.nodup_cons] at distinct
    obtain same | later := List.mem_cons.mp listed
    · obtain ⟨rfl, rfl⟩ := Prod.mk.inj same
      simp [find]
    · have apart : k ≠ key := by
        rintro rfl
        exact distinct.1 (List.mem_map.mpr ⟨_, later, rfl⟩)
      simp [find, apart, ih distinct.2 later]

/-- Of keys put in one after another, each distinct from the others, all are there. -/
theorem get?_foldl_insert (pairs : List (κ × α)) (m : SortedMap κ α) (k : κ)
    (distinct : (pairs.map (·.1)).Nodup) :
    (pairs.foldl (fun m e => m.insert e.1 e.2) m).get? k = (find k pairs).or (m.get? k) := by
  induction pairs generalizing m with
  | nil => rfl
  | cons head rest ih =>
    obtain ⟨key, a⟩ := head
    rw [List.map_cons, List.nodup_cons] at distinct
    rw [List.foldl_cons, ih _ distinct.2, get?_insert]
    by_cases hk : same k key = true
    · obtain rfl := same_iff.mp hk
      have absent : find k rest = none := find_eq_none_iff.mpr distinct.1
      simp [find, absent]
    · simp [find, hk]

theorem nodup_entries (m : SortedMap κ α) : m.entries.Nodup :=
  m.pairwise_keys_ne.imp fun apart same => apart (congrArg (·.1) same)

/-- Maps are listed alike when they have the same entries. -/
theorem perm_entries {m : SortedMap κ α} {entries : List (κ × α)}
    (distinct : (entries.map (·.1)).Nodup) (same : ∀ k a, m.get? k = some a ↔ (k, a) ∈ entries) :
    m.entries.Perm entries := by
  have nodup : entries.Nodup := List.Nodup.of_map _ distinct
  refine (List.perm_ext_iff_of_nodup m.nodup_entries nodup).mpr ?_
  rintro ⟨k, a⟩
  rw [mem_entries_iff, same]

theorem perm_insert {m : SortedMap κ α} {k : κ} (a : α) (free : m.get? k = none) :
    (m.insert k a).entries.Perm ((k, a) :: m.entries) := by
  refine perm_entries ?_ fun k' a' => ?_
  · refine List.nodup_cons.mpr ⟨fun taken => ?_, m.nodup_keys⟩
    obtain ⟨b, held⟩ := mem_keys_iff.mp taken
    simp [free] at held
  · rw [get?_insert, List.mem_cons, mem_entries_iff]
    split
    · rename_i same
      obtain rfl := same_iff.mp same
      simpa [free] using eq_comm
    · rename_i other
      have apart : k' ≠ k := fun same => other (same_iff.mpr same)
      simp [apart]

theorem perm_erase {m : SortedMap κ α} {k : κ} {a : α} (held : m.get? k = some a) :
    m.entries.Perm ((k, a) :: (m.erase k).entries) := by
  refine perm_entries ?_ fun k' a' => ?_
  · refine List.nodup_cons.mpr ⟨fun taken => ?_, (m.erase k).nodup_keys⟩
    exact (mem_keys_erase.mp taken).1 rfl
  · rw [List.mem_cons, mem_entries_iff, get?_erase]
    by_cases same : k' = k
    · subst same
      simpa [held, same_iff] using eq_comm
    · simp [same_iff, same]

theorem perm_ofList {entries : List (κ × α)} (distinct : (entries.map (·.1)).Nodup) :
    (SortedMap.ofList entries).entries.Perm entries := by
  refine perm_entries distinct fun k a => ?_
  rw [ofList, get?_foldl_insert entries ∅ k distinct, get?_empty, Option.or_none]
  exact ⟨mem_of_find, find_eq_some_of_mem distinct⟩

/-- Collecting pairs adds nothing to them. -/
theorem mem_of_mem_ofList {pairs : List (κ × α)} {e : κ × α} (h : e ∈ (ofList pairs).entries) :
    e ∈ pairs := by
  have collect (pairs : List (κ × α)) (m : SortedMap κ α)
      (h : e ∈ (pairs.foldl (fun m e => m.insert e.1 e.2) m).entries) :
      e ∈ pairs ∨ e ∈ m.entries := by
    induction pairs generalizing m with
    | nil => exact .inr h
    | cons p rest ih =>
      rcases ih _ h with later | before
      · exact .inl (List.mem_cons_of_mem _ later)
      · rcases mem_place before with rfl | before
        · exact .inl (by simp)
        · exact .inr before
  rcases collect pairs ∅ h with listed | nothing
  · exact listed
  · exact absurd nothing List.not_mem_nil

/-- The entries of a map collect to the map. -/
theorem ofList_entries (m : SortedMap κ α) : ofList m.entries = m := by
  apply ext_get?
  intro k
  rw [ofList, get?_foldl_insert _ _ _ m.nodup_keys, get?_empty, Option.or_none]
  rfl

end SortedMap

namespace KeySet

open KeyOrder

variable {κ : Type} [KeyOrder κ]

theorem has_iff {s : KeySet κ} {k : κ} : s.has k = true ↔ k ∈ s.keys := by
  rw [has, SortedMap.contains_iff, SortedMap.mem_keys_iff]

theorem mem_keys_add {s : KeySet κ} {k k' : κ} : k' ∈ (s.add k).keys ↔ k' = k ∨ k' ∈ s.keys :=
  SortedMap.mem_keys_insert

theorem mem_keys_ofKeys {ks : List κ} {k : κ} : k ∈ (KeySet.ofKeys ks).keys ↔ k ∈ ks := by
  have collect (ks : List κ) (s : KeySet κ) :
      k ∈ SortedMap.keys ((ks.map fun k => (k, ())).foldl (fun m e => m.insert e.1 e.2) s) ↔
        k ∈ ks ∨ k ∈ s.keys := by
    induction ks generalizing s with
    | nil => simp
    | cons head rest ih =>
      rw [List.map_cons, List.foldl_cons, ih, SortedMap.mem_keys_insert, List.mem_cons]
      tauto
  have empty : (∅ : SortedMap κ Unit).keys = [] := rfl
  rw [ofKeys, SortedMap.ofList, collect, empty]
  simp

/-- A set is what it holds. -/
theorem ext_mem {s t : KeySet κ} (h : ∀ k, k ∈ s.keys ↔ k ∈ t.keys) : s = t := by
  apply SortedMap.ext_get?
  intro k
  have hk := h k
  simp only [SortedMap.mem_keys_iff] at hk
  cases hs : s.get? k <;> cases ht : t.get? k <;> simp_all

theorem eq_empty_of_keys {s : KeySet κ} (none : s.keys = []) : s = ∅ :=
  ext_mem fun k => by rw [none]; rfl

theorem ofKeys_keys (s : KeySet κ) : KeySet.ofKeys s.keys = s :=
  ext_mem fun _ => mem_keys_ofKeys

theorem size_eq (s : KeySet κ) : s.size = s.keys.length := by simp [SortedMap.size, SortedMap.keys]

/-- A key listed twice counts once. -/
theorem size_ofKeys_le (ks : List κ) : (KeySet.ofKeys ks).size ≤ ks.length := by
  rw [size_eq]
  exact (SortedMap.nodup_keys _).length_le_of_subset fun _ => mem_keys_ofKeys.mp

/-- A set within another one that lacks one of its keys is smaller. -/
theorem size_lt_size {s t : KeySet κ} (sub : ∀ k ∈ s.keys, k ∈ t.keys) {k : κ}
    (held : k ∈ t.keys) (lacking : k ∉ s.keys) : s.size < t.size := by
  rw [size_eq, size_eq]
  have nodup : (k :: s.keys).Nodup := List.nodup_cons.mpr ⟨lacking, s.nodup_keys⟩
  have within : k :: s.keys ⊆ t.keys := by
    intro x hx
    obtain rfl | hx := List.mem_cons.mp hx
    · exact held
    · exact sub x hx
  have shorter := nodup.length_le_of_subset within
  rwa [List.length_cons, Nat.add_one_le_iff] at shorter

end KeySet

end ScaleAdvisor
