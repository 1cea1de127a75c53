import ScaleAdvisor.Proofs.Entries
import ScaleAdvisor.Simulation.Progress

/-!
What a reader of an event log knows. It depends on the reports in the log alone, in their order, and
not on how the log was cut into pieces for reading.

* `read_append`, `read_congr`: reading in pieces, and reading logs of the same reports;
* `get?_scheduled_read`, `mem_unscheduled_read`, `mem_givenUp_read`: what is known after reading;
* `known_of_settled`, `settled_of_known`: the reader is done just when every workload still looked
  for has been given up on.
-/

namespace ScaleAdvisor

/-- What a reader takes from an event. -/
def ViewEvent.report (e : ViewEvent) : EventReason × WorkloadKey × Option String :=
  (e.reason, e.workload, e.nodeName)

/-- The workload and the node of an event that reports a binding. -/
def ViewEvent.placement? (e : ViewEvent) : Option (WorkloadKey × String) :=
  match e.reason, e.nodeName with
  | .scheduled, some node => some (e.workload, node)
  | _, _ => none

/-- The event reports that its workload fits nowhere. -/
def ViewEvent.givesUp (e : ViewEvent) : Bool := e.reason == .failedScheduling

/-- The bindings that a log reports, in its order. -/
def placements (log : List ViewEvent) : List (WorkloadKey × String) := log.filterMap (·.placement?)

namespace SimulationProgress

variable {p : SimulationProgress} {log : List ViewEvent} {k : WorkloadKey}

theorem note_congr (p : SimulationProgress) {e e' : ViewEvent} (same : e.report = e'.report) :
    p.note e = p.note e' := by
  simp only [ViewEvent.report, Prod.mk.injEq] at same
  obtain ⟨reason, workload, node⟩ := same
  simp only [note, reason, workload, node]

theorem note_cursor (p : SimulationProgress) (e : ViewEvent) (cursor : Nat) :
    note { p with cursor } e = { p.note e with cursor } := by
  unfold note
  split
  · unfold place
    split <;> rfl
  · rfl
  · rfl

theorem read_nil (p : SimulationProgress) : p.read [] = p := rfl

theorem read_cons (p : SimulationProgress) (e : ViewEvent) (rest : List ViewEvent) :
    p.read (e :: rest) = ({ p.note e with cursor := p.cursor + 1 } : SimulationProgress).read
      rest := by
  have count : p.cursor + (rest.length + 1) = p.cursor + 1 + rest.length := by omega
  unfold read
  rw [List.foldl_cons, note_cursor, List.length_cons, count]

theorem read_append (p : SimulationProgress) (log more : List ViewEvent) :
    p.read (log ++ more) = (p.read log).read more := by
  induction log generalizing p with
  | nil => rfl
  | cons e rest ih => rw [List.cons_append, read_cons, read_cons, ih]

theorem cursor_read (p : SimulationProgress) (log : List ViewEvent) :
    (p.read log).cursor = p.cursor + log.length := by
  induction log generalizing p with
  | nil => rfl
  | cons e rest ih =>
    rw [read_cons, ih, List.length_cons, Nat.add_assoc, Nat.add_comm 1]

theorem read_congr (p : SimulationProgress) {log other : List ViewEvent}
    (same : log.map (·.report) = other.map (·.report)) : p.read log = p.read other := by
  induction log generalizing p other with
  | nil =>
    rw [List.map_eq_nil_iff.mp same.symm]
  | cons e rest ih =>
    cases other with
    | nil => simp at same
    | cons e' rest' =>
      simp only [List.map_cons, List.cons.injEq] at same
      rw [read_cons, read_cons, note_congr p same.1, ih _ same.2]

/-- Whoever has been placed is not looked for any more. -/
def Consistent (p : SimulationProgress) : Prop :=
  ∀ k node, p.scheduled.get? k = some node → k ∉ p.unscheduled.keys

theorem consistent_start (unscheduled : KeySet WorkloadKey) : Consistent { unscheduled } := by
  intro k node h
  simp at h

theorem place_of_scheduled {node : String} (h : p.scheduled.get? k = some node) (other : String) :
    p.place k other = p := by
  rw [place, if_pos (SortedMap.contains_iff.mpr ⟨node, h⟩)]

theorem place_of_not_scheduled (h : p.scheduled.get? k = none) (node : String) :
    p.place k node =
      { p with unscheduled := p.unscheduled.erase k, scheduled := p.scheduled.insert k node } := by
  rw [place, if_neg]
  simp [SortedMap.contains, h]

theorem note_of_placement {e : ViewEvent} {node : String} (h : e.placement? = some (k, node)) :
    p.note e = p.place k node ∧ e.givesUp = false ∧ e.workload = k := by
  simp only [ViewEvent.placement?] at h
  split at h
  · rename_i reason named
    obtain ⟨rfl, rfl⟩ := Prod.mk.inj (Option.some.inj h)
    simp [note, ViewEvent.givesUp, reason, named]
  · simp at h

theorem note_of_no_placement {e : ViewEvent} (h : e.placement? = none) :
    p.note e = if e.givesUp then { p with givenUp := p.givenUp.add e.workload } else p := by
  simp only [ViewEvent.placement?] at h
  unfold note ViewEvent.givesUp
  cases reason : e.reason <;> cases named : e.nodeName <;> simp_all

theorem Consistent.note (consistent : p.Consistent) (e : ViewEvent) : (p.note e).Consistent := by
  cases placed : e.placement? with
  | none =>
    rw [note_of_no_placement placed]
    split
    · exact consistent
    · exact consistent
  | some at_ =>
    obtain ⟨k, node⟩ := at_
    rw [(note_of_placement placed).1]
    cases known : p.scheduled.get? k with
    | some other =>
      rw [place_of_scheduled known]
      exact consistent
    | none =>
      rw [place_of_not_scheduled known]
      intro k' node' h
      simp only [SortedMap.get?_insert] at h
      simp only [SortedMap.mem_keys_erase]
      by_cases same : k' = k
      · simp [same]
      · have earlier : p.scheduled.get? k' = some node' := by simpa [same] using h
        exact fun held => consistent k' node' earlier held.2

theorem get?_scheduled_note (e : ViewEvent) :
    (p.note e).scheduled.get? k = (p.scheduled.get? k).or
    (SortedMap.find k e.placement?.toList) := by
  cases placed : e.placement? with
  | none =>
    rw [note_of_no_placement placed]
    split <;> simp
  | some at_ =>
    obtain ⟨k', node⟩ := at_
    rw [(note_of_placement placed).1]
    cases known : p.scheduled.get? k' with
    | some other =>
      rw [place_of_scheduled known]
      by_cases same : k = k'
      · simp [same, known]
      · simp [SortedMap.find, same]
    | none =>
      rw [place_of_not_scheduled known]
      simp only [SortedMap.get?_insert, Option.toList_some, SortedMap.find]
      by_cases same : k = k'
      · simp [same, known]
      · simp [same]

theorem find_append {α : Type} (k : WorkloadKey) (l r : List (WorkloadKey × α)) :
    SortedMap.find k (l ++ r) = (SortedMap.find k l).or (SortedMap.find k r) := by
  induction l with
  | nil => rfl
  | cons head rest ih =>
    obtain ⟨key, a⟩ := head
    by_cases same : KeyOrder.same k key = true <;> simp [SortedMap.find, same, ih]

theorem placements_cons (e : ViewEvent) (rest : List ViewEvent) :
    placements (e :: rest) = e.placement?.toList ++ placements rest := by
  unfold placements
  cases h : e.placement? <;> simp [h]

/-- The first binding reported of a workload counts. -/
theorem get?_scheduled_read :
    (p.read log).scheduled.get? k = (p.scheduled.get? k).or
    (SortedMap.find k (placements log)) := by
  induction log generalizing p with
  | nil => simp [read_nil, placements]
  | cons e rest ih =>
    rw [read_cons, ih, get?_scheduled_note, placements_cons, find_append, Option.or_assoc]

theorem mem_unscheduled_note (consistent : p.Consistent) (e : ViewEvent) :
    k ∈ (p.note e).unscheduled.keys ↔
      k ∈ p.unscheduled.keys ∧ k ∉ e.placement?.toList.map (·.1) := by
  cases placed : e.placement? with
  | none =>
    rw [note_of_no_placement placed]
    split <;> simp
  | some at_ =>
    obtain ⟨k', node⟩ := at_
    rw [(note_of_placement placed).1]
    cases known : p.scheduled.get? k' with
    | some other =>
      rw [place_of_scheduled known]
      have gone := consistent k' other known
      by_cases same : k = k'
      · simp [same, gone]
      · simp [same]
    | none =>
      rw [place_of_not_scheduled known]
      simp [SortedMap.mem_keys_erase, and_comm]

/-- Still looked for: all that were, but for those that a binding is reported of. -/
theorem mem_unscheduled_read (consistent : p.Consistent) :
    k ∈ (p.read log).unscheduled.keys ↔
      k ∈ p.unscheduled.keys ∧ k ∉ (placements log).map (·.1) := by
  induction log generalizing p with
  | nil => simp [read_nil, placements]
  | cons e rest ih =>
    have next : Consistent { p.note e with cursor := p.cursor + 1 } := consistent.note e
    rw [read_cons, ih next, mem_unscheduled_note consistent, placements_cons, List.map_append,
      List.mem_append]
    tauto

theorem mem_givenUp_note (e : ViewEvent) :
    k ∈ (p.note e).givenUp.keys ↔ k ∈ p.givenUp.keys ∨ (e.givesUp = true ∧ e.workload = k) := by
  cases placed : e.placement? with
  | none =>
    rw [note_of_no_placement placed]
    split
    · rename_i up
      simp only [KeySet.mem_keys_add, up, true_and]
      tauto
    · rename_i up
      simp [up]
  | some at_ =>
    obtain ⟨k', node⟩ := at_
    obtain ⟨noted, up, -⟩ := note_of_placement (p := p) placed
    rw [noted, up]
    cases known : p.scheduled.get? k' with
    | some other =>
      rw [place_of_scheduled known]
      simp
    | none =>
      rw [place_of_not_scheduled known]
      simp

/-- Given up on: all that were, and those reported to fit nowhere. -/
theorem mem_givenUp_read :
    k ∈ (p.read log).givenUp.keys ↔
      k ∈ p.givenUp.keys ∨ ∃ e ∈ log, e.givesUp = true ∧ e.workload = k := by
  induction log generalizing p with
  | nil => simp [read_nil]
  | cons e rest ih =>
    rw [read_cons, ih]
    simp only [mem_givenUp_note, List.mem_cons, exists_eq_or_imp]
    tauto

/-- Whoever is still looked for has been given up on. -/
def Known (p : SimulationProgress) : Prop := ∀ k ∈ p.unscheduled.keys, k ∈ p.givenUp.keys

theorem known_of_settled {cause : Option String} {expired : Bool}
    (h : p.verdict cause expired = .settled) : p.Known := by
  unfold verdict at h
  split at h
  · rename_i empty
    rw [SortedMap.isEmpty_iff] at empty
    intro k hk
    simp [empty] at hk
  · split at h
    · simp at h
    · split at h
      · simp at h
      · split at h
        · rename_i all
          intro k hk
          exact KeySet.has_iff.mp (List.all_eq_true.mp all k hk)
        · simp at h

theorem settled_of_known (known : p.Known) : p.verdict none false = .settled := by
  unfold verdict
  split
  · rfl
  · have all : p.unscheduled.keys.all p.givenUp.has = true :=
      List.all_eq_true.mpr fun k hk => KeySet.has_iff.mpr (known k hk)
    simp [all]

/-- From a start the reader is done just when every workload looked for is reported, one way or the
other. -/
theorem known_read_iff {unscheduled : KeySet WorkloadKey} :
    (({ unscheduled } : SimulationProgress).read log).Known ↔
      ∀ k ∈ unscheduled.keys, k ∈ (placements log).map (·.1) ∨
        ∃ e ∈ log, e.givesUp = true ∧ e.workload = k := by
  unfold Known
  constructor
  · intro known k hk
    by_cases placed : k ∈ (placements log).map (·.1)
    · exact .inl placed
    · have wanted := (mem_unscheduled_read (consistent_start unscheduled)).mpr ⟨hk, placed⟩
      obtain early | reported := mem_givenUp_read.mp (known k wanted)
      · exact absurd early
          (by simp [SortedMap.keys, EmptyCollection.emptyCollection, SortedMap.empty])
      · exact .inr reported
  · intro reported k hk
    obtain ⟨wanted, unplaced⟩ := (mem_unscheduled_read (consistent_start unscheduled)).mp hk
    rcases reported k wanted with placed | up
    · exact absurd placed unplaced
    · exact mem_givenUp_read.mpr (.inr up)

end SimulationProgress

end ScaleAdvisor
