import ScaleAdvisor.KeyOrder

/-!
Finite maps kept as a list in ascending key order, so that a listing is a function of the contents
alone and equal contents are equal values. Main statements:

* `get?_insert`, `get?_erase`, `get?_patch`: reading after a write;
* `ext_get?`: a map is what its reads say;
* `mem_entries_iff`: the entries are the reads.
-/

namespace ScaleAdvisor

/-- Entries with strictly ascending keys. -/
structure SortedMap (κ α : Type) [KeyOrder κ] where
  entries : List (κ × α)
  sorted : entries.Pairwise (fun a b => KeyOrder.before a.1 b.1 = true)

namespace SortedMap

open KeyOrder

variable {κ α β : Type} [KeyOrder κ]

instance [DecidableEq κ] [DecidableEq α] : DecidableEq (SortedMap κ α) := fun m n =>
  if h : m.entries = n.entries then
    .isTrue (by cases m; cases n; cases h; rfl)
  else .isFalse (fun e => h (e ▸ rfl))

def empty : SortedMap κ α := ⟨[], .nil⟩

instance : EmptyCollection (SortedMap κ α) := ⟨empty⟩

instance : Inhabited (SortedMap κ α) := ⟨empty⟩

/-- The first value listed under a key. -/
def find (k : κ) : List (κ × α) → Option α
  | [] => none
  | (key, a) :: rest => if same k key then some a else find k rest

def get? (m : SortedMap κ α) (k : κ) : Option α := find k m.entries

def getD (m : SortedMap κ α) (k : κ) (fallback : α) : α := (m.get? k).getD fallback

def contains (m : SortedMap κ α) (k : κ) : Bool := (m.get? k).isSome

def isEmpty (m : SortedMap κ α) : Bool := m.entries.isEmpty

def size (m : SortedMap κ α) : Nat := m.entries.length

def keys (m : SortedMap κ α) : List κ := m.entries.map (·.1)

def values (m : SortedMap κ α) : List α := m.entries.map (·.2)

/-- Put a value at its place in ascending entries. -/
def place (k : κ) (a : α) : List (κ × α) → List (κ × α)
  | [] => [(k, a)]
  | (key, b) :: rest =>
    if before k key then (k, a) :: (key, b) :: rest
    else if before key k then (key, b) :: place k a rest
    else (k, a) :: rest

theorem mem_place {k : κ} {a : α} {entries : List (κ × α)} {e : κ × α}
    (h : e ∈ place k a entries) : e = (k, a) ∨ e ∈ entries := by
  induction entries with
  | nil => simpa [place] using h
  | cons head rest ih =>
    obtain ⟨key, b⟩ := head
    simp only [place] at h
    split at h
    · simpa using h
    · split at h
      · rcases List.mem_cons.mp h with rfl | h
        · simp
        · rcases ih h with rfl | h
          · simp
          · simp [h]
      · rcases List.mem_cons.mp h with rfl | h
        · simp
        · simp [h]

theorem sorted_place (k : κ) (a : α) {entries : List (κ × α)}
    (h : entries.Pairwise (fun a b => before a.1 b.1 = true)) :
    (place k a entries).Pairwise (fun a b => before a.1 b.1 = true) := by
  induction entries with
  | nil => simp [place]
  | cons head rest ih =>
    obtain ⟨key, b⟩ := head
    rw [List.pairwise_cons] at h
    simp only [place]
    split
    · rename_i first
      refine List.pairwise_cons.mpr ⟨?_, List.pairwise_cons.mpr h⟩
      intro e he
      rcases List.mem_cons.mp he with rfl | he
      · exact first
      · exact trans first (h.1 e he)
    · split
      · rename_i later
        refine List.pairwise_cons.mpr ⟨?_, ih h.2⟩
        intro e he
        rcases mem_place he with rfl | he
        · exact later
        · exact h.1 e he
      · rename_i notFirst notLater
        have hk : k = key := total (by simpa using notFirst) (by simpa using notLater)
        exact List.pairwise_cons.mpr ⟨fun e he => hk ▸ h.1 e he, h.2⟩

def insert (m : SortedMap κ α) (k : κ) (a : α) : SortedMap κ α :=
  ⟨place k a m.entries, sorted_place k a m.sorted⟩

def filter (m : SortedMap κ α) (keep : κ → α → Bool) : SortedMap κ α :=
  ⟨m.entries.filter (fun e => keep e.1 e.2), m.sorted.filter _⟩

def erase (m : SortedMap κ α) (k : κ) : SortedMap κ α := m.filter fun key _ => !same k key

def mapValues (m : SortedMap κ α) (f : κ → α → β) : SortedMap κ β :=
  ⟨m.entries.map (fun e => (e.1, f e.1 e.2)), List.pairwise_map.mpr m.sorted⟩

/-- Collect pairs; of two with one key the later stays. -/
def ofList (pairs : List (κ × α)) : SortedMap κ α := pairs.foldl (fun m e => m.insert e.1 e.2) ∅

@[simp]
theorem find_nil (k : κ) : find k ([] : List (κ × α)) = none := rfl

theorem find_eq_none_of_before {k : κ} {entries : List (κ × α)}
    (h : ∀ e ∈ entries, before k e.1 = true) : find k entries = none := by
  induction entries with
  | nil => rfl
  | cons head rest ih =>
    have first := h head (by simp)
    simp [find, same, first, ih fun e he => h e (by simp [he])]

theorem find_place (k : κ) (a : α) {entries : List (κ × α)}
    (h : entries.Pairwise (fun a b => before a.1 b.1 = true)) (k' : κ) :
    find k' (place k a entries) = if same k' k then some a else find k' entries := by
  induction entries with
  | nil => simp [place, find]
  | cons head rest ih =>
    obtain ⟨key, b⟩ := head
    rw [List.pairwise_cons] at h
    simp only [place]
    split
    · simp [find]
    · split
      · rename_i later
        simp only [find, ih h.2]
        by_cases hk : same k' key = true
        · have hne : same k' k = false := by
            rw [same_iff] at hk
            cases hs : same k' k
            · rfl
            · exact absurd ((same_iff.mp hs).symm.trans hk) (ne_of_before later).symm
          simp [hk, hne]
        · simp [hk]
      · rename_i notFirst notLater
        have hk : k = key := total (by simpa using notFirst) (by simpa using notLater)
        subst hk
        by_cases hs : same k' k = true <;> simp [find, hs]

@[simp]
theorem get?_empty (k : κ) : (∅ : SortedMap κ α).get? k = none := rfl

theorem get?_insert (m : SortedMap κ α) (k : κ) (a : α) (k' : κ) :
    (m.insert k a).get? k' = if same k' k then some a else m.get? k' :=
  find_place k a m.sorted k'

@[simp]
theorem get?_insert_self (m : SortedMap κ α) (k : κ) (a : α) : (m.insert k a).get? k = some a := by
  simp [get?_insert]

theorem get?_insert_of_ne (m : SortedMap κ α) {k k' : κ} (a : α) (h : k' ≠ k) :
    (m.insert k a).get? k' = m.get? k' := by
  rw [get?_insert, if_neg]
  simpa using h

theorem find_filter_ne (k : κ) (entries : List (κ × α)) (k' : κ) :
    find k' (entries.filter fun e => !same k e.1) =
      if same k' k then none else find k' entries := by
  induction entries with
  | nil => simp [find]
  | cons head rest ih =>
    obtain ⟨key, b⟩ := head
    by_cases hk : same k key = true
    · obtain rfl := same_iff.mp hk
      simp only [List.filter_cons, hk, Bool.not_true, Bool.false_eq_true, if_false, ih, find]
      by_cases hs : same k' k = true <;> simp [hs]
    · simp only [List.filter_cons, hk, Bool.not_false, if_true, find, ih]
      by_cases hs : same k' key = true
      · have : same k' k = false := by
          cases h : same k' k
          · rfl
          · exact absurd (same_iff.mpr ((same_iff.mp h).symm.trans (same_iff.mp hs))) hk
        simp [hs, this]
      · simp [hs]

theorem get?_erase (m : SortedMap κ α) (k k' : κ) :
    (m.erase k).get? k' = if same k' k then none else m.get? k' :=
  find_filter_ne k m.entries k'

theorem find_eq_some_iff {entries : List (κ × α)}
    (h : entries.Pairwise (fun a b => before a.1 b.1 = true)) {k : κ} {a : α} :
    find k entries = some a ↔ (k, a) ∈ entries := by
  induction entries with
  | nil => simp
  | cons head rest ih =>
    obtain ⟨key, b⟩ := head
    rw [List.pairwise_cons] at h
    by_cases hk : same k key = true
    · obtain rfl := same_iff.mp hk
      constructor
      · intro hf
        simp only [find, hk, if_true, Option.some.injEq] at hf
        simp [hf]
      · intro hm
        rcases List.mem_cons.mp hm with he | hm
        · simp only [Prod.mk.injEq, true_and] at he
          simp [find, hk, he]
        · exact absurd (h.1 _ hm) (by simp [KeyOrder.irrefl])
    · have hne : k ≠ key := fun e => hk (same_iff.mpr e)
      simp [find, hk, ih h.2, hne]

theorem mem_entries_iff (m : SortedMap κ α) {k : κ} {a : α} :
    (k, a) ∈ m.entries ↔ m.get? k = some a :=
  (find_eq_some_iff m.sorted).symm

theorem entries_eq_of_find_eq {l r : List (κ × α)}
    (hl : l.Pairwise (fun a b => before a.1 b.1 = true))
    (hr : r.Pairwise (fun a b => before a.1 b.1 = true))
    (h : ∀ k, find k l = find k r) : l = r := by
  induction l generalizing r with
  | nil =>
    cases r with
    | nil => rfl
    | cons head rest => simpa [find] using h head.1
  | cons head rest ih =>
    obtain ⟨k, a⟩ := head
    cases r with
    | nil => simpa [find] using h k
    | cons head' rest' =>
      obtain ⟨k', a'⟩ := head'
      rw [List.pairwise_cons] at hl hr
      have hk : k = k' := by
        refine total ?_ ?_
        · cases hb : before k k'
          · rfl
          · have none : find k ((k', a') :: rest') = none :=
              find_eq_none_of_before fun e he => by
                rcases List.mem_cons.mp he with rfl | he
                · exact hb
                · exact trans hb (hr.1 e he)
            simpa [find] using (h k).trans none
        · cases hb : before k' k
          · rfl
          · have none : find k' ((k, a) :: rest) = none :=
              find_eq_none_of_before fun e he => by
                rcases List.mem_cons.mp he with rfl | he
                · exact hb
                · exact trans hb (hl.1 e he)
            simpa [find] using (h k').symm.trans none
      subst hk
      have ha : a = a' := by simpa [find] using h k
      subst ha
      congr 1
      refine ih hl.2 hr.2 fun key => ?_
      by_cases hs : same key k = true
      · obtain rfl := same_iff.mp hs
        rw [find_eq_none_of_before hl.1, find_eq_none_of_before hr.1]
      · simpa [find, hs] using h key

theorem ext_get? {m n : SortedMap κ α} (h : ∀ k, m.get? k = n.get? k) : m = n := by
  cases m with | mk l hl => cases n with | mk r hr =>
  have : l = r := entries_eq_of_find_eq hl hr h
  subst this
  rfl

/-- Entries with edits laid over them: an edit puts a value in place, or takes the key away. -/
def patchEntries : List (κ × α) → List (κ × Option α) → List (κ × α)
  | entries, [] => entries
  | [], (k, edit) :: edits => edit.toList.map (k, ·) ++ patchEntries [] edits
  | (key, b) :: rest, (k, edit) :: edits =>
    if before key k then (key, b) :: patchEntries rest ((k, edit) :: edits)
    else if before k key then edit.toList.map (k, ·) ++ patchEntries ((key, b) :: rest) edits
    else edit.toList.map (k, ·) ++ patchEntries rest edits
termination_by entries edits => entries.length + edits.length

theorem mem_patchEntries {entries : List (κ × α)} {edits : List (κ × Option α)} {e : κ × α}
    (h : e ∈ patchEntries entries edits) : (∃ b, (e.1, b) ∈ entries) ∨ ∃ b, (e.1, b) ∈ edits := by
  fun_induction patchEntries entries edits with
  | case1 entries => exact .inl ⟨e.2, h⟩
  | case2 k edit edits ih | case4 key b rest k edit edits _ _ ih
  | case5 key b rest k edit edits _ _ ih =>
    rcases List.mem_append.mp h with h | h
    · obtain ⟨a, -, rfl⟩ := List.mem_map.mp h
      exact .inr ⟨edit, by simp⟩
    · rcases ih h with ⟨b, h⟩ | ⟨b, h⟩
      · exact .inl ⟨b, by simp_all⟩
      · exact .inr ⟨b, by simp [h]⟩
  | case3 key b rest k edit edits _ ih =>
    rcases List.mem_cons.mp h with rfl | h
    · exact .inl ⟨b, by simp⟩
    · rcases ih h with ⟨b, h⟩ | ⟨b, h⟩
      · exact .inl ⟨b, by simp [h]⟩
      · exact .inr ⟨b, h⟩

theorem sorted_edit_append {k : κ} {edit : Option α} {tail : List (κ × α)}
    (first : ∀ e ∈ tail, before k e.1 = true)
    (h : tail.Pairwise (fun a b => before a.1 b.1 = true)) :
    (edit.toList.map (k, ·) ++ tail).Pairwise (fun a b => before a.1 b.1 = true) := by
  cases edit with
  | none => simpa using h
  | some a => exact List.pairwise_cons.mpr ⟨first, h⟩

theorem sorted_patchEntries {entries : List (κ × α)} {edits : List (κ × Option α)}
    (he : entries.Pairwise (fun a b => before a.1 b.1 = true))
    (hd : edits.Pairwise (fun a b => before a.1 b.1 = true)) :
    (patchEntries entries edits).Pairwise (fun a b => before a.1 b.1 = true) := by
  fun_induction patchEntries entries edits with
  | case1 entries => exact he
  | case2 k edit edits ih =>
    rw [List.pairwise_cons] at hd
    refine sorted_edit_append (fun e h => ?_) (ih .nil hd.2)
    rcases mem_patchEntries h with ⟨b, h⟩ | ⟨b, h⟩
    · simp at h
    · exact hd.1 _ h
  | case3 key b rest k edit edits hb ih =>
    rw [List.pairwise_cons] at he
    refine List.pairwise_cons.mpr ⟨fun e h => ?_, ih he.2 hd⟩
    rcases mem_patchEntries h with ⟨b, h⟩ | ⟨b, h⟩
    · exact he.1 (e.1, b) h
    · rcases List.mem_cons.mp h with h | h
      · cases h
        exact hb
      · exact trans hb ((List.pairwise_cons.mp hd).1 _ h)
  | case4 key b rest k edit edits _ hb ih =>
    rw [List.pairwise_cons] at hd
    refine sorted_edit_append (fun e h => ?_) (ih he hd.2)
    rcases mem_patchEntries h with ⟨b, h⟩ | ⟨b, h⟩
    · rcases List.mem_cons.mp h with h | h
      · cases h
        exact hb
      · exact KeyOrder.trans hb ((List.pairwise_cons.mp he).1 (e.1, b) h)
    · exact hd.1 _ h
  | case5 key b rest k edit edits h₁ h₂ ih =>
    rw [List.pairwise_cons] at hd he
    have hk : key = k := total (by simpa using h₁) (by simpa using h₂)
    refine sorted_edit_append (fun e h => ?_) (ih he.2 hd.2)
    rcases mem_patchEntries h with ⟨b, h⟩ | ⟨b, h⟩
    · exact hk ▸ he.1 (e.1, b) h
    · exact hd.1 _ h

/-- Lay edits over a map. -/
def patch (m : SortedMap κ α) (edits : SortedMap κ (Option α)) : SortedMap κ α :=
  ⟨patchEntries m.entries edits.entries, sorted_patchEntries m.sorted edits.sorted⟩

theorem find_edit_append (k : κ) (edit : Option α) (tail : List (κ × α)) (k' : κ)
    (absent : find k tail = none) :
    find k' (edit.toList.map (k, ·) ++ tail) = if same k' k then edit else find k' tail := by
  cases edit with
  | none =>
    by_cases h : same k' k = true
    · obtain rfl := same_iff.mp h
      simp [absent]
    · simp [h]
  | some a => simp [find]

theorem find_patchEntries {entries : List (κ × α)} {edits : List (κ × Option α)}
    (he : entries.Pairwise (fun a b => before a.1 b.1 = true))
    (hd : edits.Pairwise (fun a b => before a.1 b.1 = true)) (k' : κ) :
    find k' (patchEntries entries edits) = (find k' edits).getD (find k' entries) := by
  fun_induction patchEntries entries edits with
  | case1 entries => rfl
  | case2 k edit edits ih =>
    rw [List.pairwise_cons] at hd
    have absent : find k (patchEntries ([] : List (κ × α)) edits) = none :=
      find_eq_none_of_before fun e h => by
        rcases mem_patchEntries h with ⟨b, h⟩ | ⟨b, h⟩
        · simp at h
        · exact hd.1 _ h
    rw [find_edit_append _ _ _ _ absent, ih .nil hd.2]
    by_cases h : same k' k = true <;> simp [find, h]
  | case3 key b rest k edit edits hb ih =>
    rw [List.pairwise_cons] at he
    by_cases h : same k' key = true
    · obtain rfl := same_iff.mp h
      have absent : find k' ((k, edit) :: edits) = none :=
        find_eq_none_of_before fun e h => by
          rcases List.mem_cons.mp h with rfl | h
          · exact hb
          · exact trans hb ((List.pairwise_cons.mp hd).1 _ h)
      rw [absent]
      simp [find]
    · simp only [find, h, Bool.false_eq_true, if_false] at ih ⊢
      exact ih he.2 hd
  | case4 key b rest k edit edits _ hb ih =>
    rw [List.pairwise_cons] at hd
    have absent : find k (patchEntries ((key, b) :: rest) edits) = none :=
      find_eq_none_of_before fun e h => by
        rcases mem_patchEntries h with ⟨b, h⟩ | ⟨b, h⟩
        · rcases List.mem_cons.mp h with h | h
          · cases h
            exact hb
          · exact KeyOrder.trans hb ((List.pairwise_cons.mp he).1 (e.1, b) h)
        · exact hd.1 _ h
    rw [find_edit_append _ _ _ _ absent, ih he hd.2]
    by_cases h : same k' k = true <;> simp [find, h]
  | case5 key b rest k edit edits h₁ h₂ ih =>
    rw [List.pairwise_cons] at hd he
    have hk : key = k := total (by simpa using h₁) (by simpa using h₂)
    have absent : find k (patchEntries rest edits) = none :=
      find_eq_none_of_before fun e h => by
        rcases mem_patchEntries h with ⟨b, h⟩ | ⟨b, h⟩
        · exact hk ▸ he.1 (e.1, b) h
        · exact hd.1 _ h
    rw [find_edit_append _ _ _ _ absent, ih he.2 hd.2]
    by_cases h : same k' k = true <;> simp [find, h, hk]

theorem get?_patch (m : SortedMap κ α) (edits : SortedMap κ (Option α)) (k : κ) :
    (m.patch edits).get? k = (edits.get? k).getD (m.get? k) :=
  find_patchEntries m.sorted edits.sorted k

end SortedMap

/-- A set of keys, listed in ascending order. -/
abbrev KeySet (κ : Type) [KeyOrder κ] := SortedMap κ Unit

namespace KeySet

variable {κ : Type} [KeyOrder κ]

def ofKeys (ks : List κ) : KeySet κ := SortedMap.ofList (ks.map fun k => (k, ()))

def add (s : KeySet κ) (k : κ) : KeySet κ := SortedMap.insert s k ()

def has (s : KeySet κ) (k : κ) : Bool := SortedMap.contains s k

end KeySet

end ScaleAdvisor
