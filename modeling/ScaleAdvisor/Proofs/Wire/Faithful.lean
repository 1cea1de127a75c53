import ScaleAdvisor.Json.Record
import ScaleAdvisor.Proofs.Entries

/-!
Readers and writers that belong together. `Faithful` says that a reader gives back whatever the
writer has written, that it never gives a value out of range, and that every part of what is written
has a value. It is passed on from items to lists, maps and options of them, and from the fields of a
record to the record.

* `Faithful.list`, `Faithful.map`, `Faithful.nullable`, `Faithful.choice`: containers and
  enumerations;
* `Faithful.record`: records, whose fields are looked up one by one;
* `Faithful.of_field`, `Faithful.of_fieldOr`: what a field that has been read is known to be.
-/

namespace ScaleAdvisor.Json

/-- A reader and a writer of the values in a range. -/
structure Faithful {α : Type} (read : Reader α) (write : α → Json) (InRange : α → Prop) : Prop where
  read_write : ∀ {a}, InRange a → read (write a) = some a
  inRange : ∀ {v a}, read v = some a → InRange a
  readable : ∀ a, (write a).readable = true

/-- What is written of a value in range is read back as it was. And whatever is read, however it has
been put down, is in range and stays the same when it is written and read once more. -/
def Survives {α : Type} (read : Reader α) (write : α → Json) (InRange : α → Prop) : Prop :=
  (∀ a, InRange a → read (write a) = some a) ∧
    ∀ v a, read v = some a → InRange a ∧ read (write a) = some a

theorem Faithful.survives {α : Type} {read : Reader α} {write : α → Json} {InRange : α → Prop}
    (faithful : Faithful read write InRange) : Survives read write InRange := by
  refine ⟨fun _ => faithful.read_write, fun v a found => ?_⟩
  have within := faithful.inRange found
  exact ⟨within, faithful.read_write within⟩

theorem faithful_text : Faithful text? .text fun _ => True where
  read_write _ := rfl
  inRange _ := trivial
  readable _ := rfl

theorem faithful_bool : Faithful bool? .bool fun _ => True where
  read_write _ := rfl
  inRange _ := trivial
  readable _ := rfl

theorem faithful_int (low high : Int) :
    Faithful (intWithin? low high) .int fun n => low ≤ n ∧ n ≤ high where
  read_write within := if_pos within
  inRange {v n} h := by
    cases v with
    | int n' =>
      obtain ⟨within, same⟩ := Option.ite_none_right_eq_some.mp h
      exact Option.some.inj same ▸ within
    | _ => simp [intWithin?] at h
  readable _ := rfl

theorem faithful_nat (bound : Nat) : Faithful (natBelow? bound) ofNat (· < bound) where
  read_write {n} below := by
    have within : 0 ≤ (n : Int) ∧ (n : Int) < bound := by omega
    exact if_pos within
  inRange {v n} h := by
    cases v with
    | int n' =>
      obtain ⟨within, same⟩ := Option.ite_none_right_eq_some.mp h
      have := Option.some.inj same
      omega
    | _ => simp [natBelow?] at h
  readable _ := rfl

theorem readable_items {items : List Json} :
    itemsReadable items = true ↔ ∀ v ∈ items, v.readable = true := by
  induction items with
  | nil => simp [itemsReadable]
  | cons v rest ih => simp [itemsReadable, ih]

theorem readable_members {members : List (String × Json)} :
    membersReadable members = true ↔ ∀ m ∈ members, m.2.readable = true := by
  induction members with
  | nil => simp [membersReadable]
  | cons m rest ih =>
    obtain ⟨name, v⟩ := m
    simp only [membersReadable, Bool.and_eq_true, ih, List.forall_mem_cons]

section MapM

variable {α β : Type} {read : α → Option β}

/-- Items that are all read from what stands for them. -/
theorem mapM_map (write : β → α) {items : List β} (each : ∀ b ∈ items, read (write b) = some b) :
    (items.map write).mapM read = some items := by
  induction items with
  | nil => rfl
  | cons b rest ih =>
    obtain ⟨first, others⟩ := List.forall_mem_cons.mp each
    rw [List.map_cons, List.mapM_cons, first, ih others]
    rfl

/-- Each item read has been read from something. -/
theorem exists_of_mapM {items : List α} {read_items : List β}
    (h : items.mapM read = some read_items) {b : β} (hb : b ∈ read_items) :
    ∃ a ∈ items, read a = some b := by
  induction items generalizing read_items with
  | nil =>
    obtain rfl : [] = read_items := Option.some.inj h
    simp at hb
  | cons a rest ih =>
    simp only [List.mapM_cons, bind, Option.bind_eq_some_iff, pure, Option.some.injEq] at h
    obtain ⟨first, found, others, later, rfl⟩ := h
    obtain rfl | hb := List.mem_cons.mp hb
    · exact ⟨a, by simp, found⟩
    · obtain ⟨a', ha', found'⟩ := ih later hb
      exact ⟨a', by simp [ha'], found'⟩

end MapM

namespace Faithful

variable {α : Type} {read : Reader α} {write : α → Json} {InRange : α → Prop}

theorem list (items : Faithful read write InRange) :
    Faithful (list? read) (ofList write) fun as => ∀ a ∈ as, InRange a where
  read_write within := mapM_map write fun a ha => items.read_write (within a ha)
  inRange {v as} h a ha := by
    cases v with
    | array values =>
      obtain ⟨v, -, found⟩ := exists_of_mapM h ha
      exact items.inRange found
    | _ => simp [list?] at h
  readable as := by
    refine readable_items.mpr fun v hv => ?_
    obtain ⟨a, -, rfl⟩ := List.mem_map.mp hv
    exact items.readable a

theorem map (values : Faithful read write InRange) :
    Faithful (map? read) (ofMap write) fun m => ∀ e ∈ m.entries, InRange e.2 where
  read_write {m} within := by
    have each : ∀ e ∈ m.entries,
        ((read (write e.2)).map fun a => (e.1, a)) = some e := fun e he => by
      rw [values.read_write (within e he)]
      rfl
    rw [ofMap, map?, mapM_map (fun e : String × α => (e.1, write e.2)) each, Option.map_some,
      SortedMap.ofList_entries]
  inRange {v m} h e he := by
    cases v with
    | object members =>
      obtain ⟨pairs, collected, rfl⟩ := Option.map_eq_some_iff.mp h
      obtain ⟨member, -, paired⟩ := exists_of_mapM collected (SortedMap.mem_of_mem_ofList he)
      obtain ⟨a, found, rfl⟩ := Option.map_eq_some_iff.mp paired
      exact values.inRange found
    | _ => simp [map?] at h
  readable m := by
    refine readable_members.mpr fun member h => ?_
    obtain ⟨e, -, rfl⟩ := List.mem_map.mp h
    exact values.readable e.2

/-- A null can stand for nothing only where no value is written as null. -/
theorem nullable (values : Faithful read write InRange) (solid : read .null = none) :
    Faithful (nullable? read) (ofOption write) fun o => ∀ a ∈ o, InRange a where
  read_write {o} within := by
    cases o with
    | none => rfl
    | some a =>
      have found := values.read_write (within a rfl)
      have written : write a ≠ .null := fun null => by simp [null, solid] at found
      rw [ofOption, nullable?, found]
      · rfl
      · exact written
  inRange {v o} h a ha := by
    unfold nullable? at h
    split at h
    · rw [← Option.some.inj h] at ha
      simp at ha
    · obtain ⟨a', found, rfl⟩ := Option.map_eq_some_iff.mp h
      obtain rfl := Option.some.inj ha
      exact values.inRange found
  readable o := by
    cases o with
    | none => rfl
    | some a => exact values.readable a

theorem choice {choices : List (String × α)}
    (named : ∀ a, ∃ name, write a = .text name ∧ choices.lookup name = some a) :
    Faithful (choice? choices) write fun _ => True where
  read_write {a} _ := by
    obtain ⟨name, written, found⟩ := named a
    rw [written]
    exact found
  inRange _ := trivial
  readable a := by
    obtain ⟨name, written, -⟩ := named a
    rw [written]
    rfl

theorem record {read : Members → Option α} {members : α → Members}
    (read_members : ∀ {a}, InRange a → read (members a) = some a)
    (inRange : ∀ {m a}, read m = some a → InRange a)
    (readable : ∀ a, ∀ m ∈ members a, m.2.readable = true) :
    Faithful (record? read) (fun a => .object (members a)) InRange where
  read_write := read_members
  inRange {v a} h := by
    cases v with
    | object m => exact inRange h
    | _ => simp [record?] at h
  readable a := readable_members.mpr (readable a)

theorem of_field (values : Faithful read write InRange) {m : Members} {name : String} {a : α}
    (found : m.field name read = some a) : InRange a := by
  unfold Members.field at found
  split at found
  · exact values.inRange found
  · simp at found

theorem of_fieldOr (values : Faithful read write InRange) {m : Members} {name : String}
    {a absent : α} (default : InRange absent) (found : m.fieldOr name read absent = some a) :
    InRange a := by
  unfold Members.fieldOr at found
  split at found
  · exact Option.some.inj found ▸ default
  · exact values.inRange found
  · simp at found

end Faithful

end ScaleAdvisor.Json
