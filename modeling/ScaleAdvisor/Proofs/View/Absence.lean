import ScaleAdvisor.Proofs.View.Lookups

/-!
What an absent key means once views may be closed. A listing fails if anything below is closed,
whereas a lookup goes down as far as the first closed view and takes what is left for empty. So a
key that reads as absent has been deleted above all that is closed, or is absent from the listing
too, or is cut off: nothing above the first closed view has touched it, and what is below can not be
seen.

* `find?_eq_join`: a lookup finds what the nearest edit above anything closed has left;
* `readsAbsent_iff`: lookups and writes take the same keys for absent;
* `absence_told_iff`: absence is what it seems just where the key is not cut off.
-/

namespace ScaleAdvisor.Forest

/-- The views from here down to the first closed one, nearest first. -/
def above (f : Forest) (v : ViewId) : List ViewId := (f.line v).takeWhile fun u => !f.isClosed u

/-- The nearest edit of a key above anything closed. -/
def firstEdit (f : Forest) (v : ViewId) (k : ObjectKey) : Option (Option Stored) :=
  (f.above v).findSome? fun u => (f.view u).edits.get? k

/-- The key has been deleted above anything closed. -/
def DeletedAbove (f : Forest) (v : ViewId) (k : ObjectKey) : Prop :=
  ∃ u ∈ f.above v, (f.view u).edits.get? k = some none

/-- Something in the line is closed, and nothing above it has touched the key. -/
def CutOff (f : Forest) (v : ViewId) (k : ObjectKey) : Prop :=
  (∃ u ∈ f.line v, f.isClosed u = true) ∧ ∀ u ∈ f.above v, (f.view u).edits.get? k = none

/-- The listing of the kind succeeds and has nothing under the key. -/
def ListedAbsent (f : Forest) (v : ViewId) (k : ObjectKey) : Prop :=
  ∃ entries, f.list v k.kind = .ok entries ∧ ∀ st, (k, st) ∉ entries

/-- One of the answers that a view gives if there is nothing under the key. -/
inductive ReadsAbsent (f : Forest) (v : ViewId) : ObjectKey → Prop
  | get {k : ObjectKey} (missing : f.get v k = .ok none) : ReadsAbsent f v k
  | create {o : ClusterObject} {g : Forest} {n : Nat} (created : f.create v o = .ok (g, n)) :
      ReadsAbsent f v o.key
  | update {o : ClusterObject} {name : String} {k : ObjectKey}
      (refused : f.update v o = .error (.notFound name k)) : ReadsAbsent f v k
  | delete {taken : ObjectKey} {name : String} {k : ObjectKey}
      (refused : f.delete v taken = .error (.notFound name k)) : ReadsAbsent f v k
  | bind {w : WorkloadKey} {node : String} {name : String} {k : ObjectKey}
      (refused : f.bind v w node = .error (.notFound name k)) : ReadsAbsent f v k

variable {f : Forest} {v : ViewId} {k : ObjectKey}

/-- A lookup finds what the nearest edit above anything closed has left. -/
theorem find?_eq_join (f : Forest) (v : ViewId) (k : ObjectKey) :
    f.find? v k = (f.firstEdit v k).join := by
  rw [find?, firstEdit, above, stack_eq]
  induction f.line v with
  | nil => rfl
  | cons u rest ih =>
    rw [List.map_cons, View.readThrough, List.takeWhile_cons, isClosed]
    cases (f.view u).closed with
    | true => rfl
    | false =>
      simp only [Bool.false_eq_true, if_false, Bool.not_false, if_true, List.findSome?_cons]
      cases (f.view u).edits.get? k with
      | some entry => rfl
      | none => exact ih

theorem firstEdit_eq_none_iff :
    f.firstEdit v k = none ↔ ∀ u ∈ f.above v, (f.view u).edits.get? k = none :=
  List.findSome?_eq_none_iff

/-- Where nothing is found, the key has been deleted or nothing has touched it. -/
theorem deleted_or_untouched (missing : f.find? v k = none) :
    f.DeletedAbove v k ∨ ∀ u ∈ f.above v, (f.view u).edits.get? k = none := by
  rw [find?_eq_join] at missing
  cases first : f.firstEdit v k with
  | none => exact .inr (firstEdit_eq_none_iff.mp first)
  | some entry =>
    rw [first, Option.join_some] at missing
    exact .inl (List.exists_of_findSome?_eq_some (missing ▸ first))

theorem find?_of_untouched (untouched : ∀ u ∈ f.above v, (f.view u).edits.get? k = none) :
    f.find? v k = none := by
  rw [find?_eq_join, firstEdit_eq_none_iff.mpr untouched, Option.join_none]

/-- What is refused for want of a key has looked this key up. -/
theorem missing_of_refused {taken : ObjectKey} {name : String} {done : Forest × Nat}
    (refused : (if (f.find? v taken).isSome then Except.ok done
      else .error (ViewError.notFound (f.name v) taken)) = .error (.notFound name k)) :
    f.find? v k = none := by
  split at refused
  · cases refused
  · rename_i missing
    cases refused
    exact Option.not_isSome_iff_eq_none.mp missing

/-- A binding misses the workload or the node. -/
theorem missing_of_bind (valid : f.Valid) (opened : (f.view v).closed = false) {w : WorkloadKey}
    {node name : String} (refused : f.bind v w node = .error (.notFound name k)) :
    f.find? v k = none := by
  cases found : f.find? v w.objectKey with
  | none =>
    rw [bind_of_missing opened node found] at refused
    cases refused
    exact found
  | some st =>
    obtain ⟨x, isWorkload, -⟩ := workload_of_find? valid found
    rcases x.pending_or_bound with pending | ⟨bound, named, nonempty⟩
    · rw [bind_of_pending valid opened node found isWorkload pending] at refused
      exact missing_of_refused refused
    · rw [bind_of_bound opened node found isWorkload named nonempty] at refused
      cases refused

/-- Behind each of these answers is a lookup that finds nothing. -/
theorem readsAbsent_iff (valid : f.Valid) (opened : (f.view v).closed = false) :
    f.ReadsAbsent v k ↔ f.find? v k = none := by
  constructor
  · intro reads
    cases reads with
    | get missing =>
      rw [get_of_open opened] at missing
      exact Except.ok.inj missing
    | create created =>
      rw [create_of_open opened] at created
      split at created
      · rename_i free
        exact Option.isNone_iff_eq_none.mp free
      · cases created
    | update refused =>
      rw [update_of_open opened] at refused
      exact missing_of_refused refused
    | delete refused =>
      rw [delete_of_open opened] at refused
      exact missing_of_refused refused
    | bind refused => exact missing_of_bind valid opened refused
  · intro missing
    apply ReadsAbsent.get
    rw [get_of_open opened, missing]

/-- A lookup and a listing that both succeed agree. -/
theorem listed_iff_found {found : Option Stored} {entries : List (ObjectKey × Stored)}
    (got : f.get v k = .ok found) (listed : f.list v k.kind = .ok entries) (st : Stored) :
    (k, st) ∈ entries ↔ found = some st := by
  have readable := readable_of_list listed
  obtain ⟨_, same, holds, -⟩ := list_eq_plain readable k.kind
  rw [listed, Except.ok.injEq] at same
  rw [get_eq_plain readable, Except.ok.injEq] at got
  rw [same, holds, got]
  exact and_iff_right rfl

/-- What a readable view does not find, its listing lacks. -/
theorem listedAbsent_of_missing (missing : f.get v k = .ok none) (readable : f.Readable v) :
    f.ListedAbsent v k := by
  obtain ⟨entries, listed, -, -⟩ := list_eq_plain readable k.kind
  refine ⟨entries, listed, ?_⟩
  intro st held
  cases (listed_iff_found missing listed st).mp held

/-- In any forest that operations can lead to, of any view that is open: a lookup and a listing that
both succeed agree on every key. And whoever is told that a key is absent, by a lookup or by a
write, can rely on it, for the listing succeeds without the key or the key has been deleted above
anything closed, just where the key is not cut off. -/
theorem absence_told_iff (past : List Move) (v : ViewId)
    (opened : (Forest.replay ∅ past).isClosed v = false) (k : ObjectKey) :
    let f := Forest.replay ∅ past
    (∀ found entries, f.get v k = .ok found → f.list v k.kind = .ok entries →
      ∀ st, (k, st) ∈ entries ↔ found = some st) ∧
    ((f.ReadsAbsent v k → f.ListedAbsent v k ∨ f.DeletedAbove v k) ↔ ¬ f.CutOff v k) := by
  intro f
  have valid : f.Valid := valid_replay valid_empty past
  refine ⟨fun found entries got listed st => listed_iff_found got listed st, ?_⟩
  rw [readsAbsent_iff valid opened]
  constructor
  · rintro told ⟨⟨u, hu, closed⟩, untouched⟩
    rcases told (find?_of_untouched untouched) with ⟨entries, listed, -⟩ | ⟨w, hw, deleted⟩
    · have readable := readable_of_list listed u hu
      rw [isClosed, readable] at closed
      cases closed
    · rw [untouched w hw] at deleted
      cases deleted
  · intro seen missing
    rcases deleted_or_untouched missing with deleted | untouched
    · exact .inr deleted
    · refine .inl (listedAbsent_of_missing ((get_of_open opened k).trans (by rw [missing])) ?_)
      -- Were anything closed, the key would be cut off.
      intro u hu
      cases closed : (f.view u).closed with
      | false => rfl
      | true => exact absurd ⟨⟨u, hu, closed⟩, untouched⟩ seen

/-- A sandbox takes a node away, and then its base is closed. -/
def takenAwayThenClosed : List Move :=
  [.base "base", .ask 0 (.edit (.create (.node worker))), .sandbox "sandbox" 0,
    .ask 1 (.edit (.delete ⟨.node, "worker"⟩)), .ask 0 .close]

/-- Nothing can be listed any more, but that the node is gone is true. -/
theorem absence_told_iff_takenAwayThenClosed :
    (Forest.replay ∅ takenAwayThenClosed).isClosed 1 = false ∧
    (Forest.replay ∅ takenAwayThenClosed).list 1 .node = .error (.closed "base") ∧
    (Forest.replay ∅ takenAwayThenClosed).ReadsAbsent 1 ⟨.node, "worker"⟩ ∧
    (Forest.replay ∅ takenAwayThenClosed).DeletedAbove 1 ⟨.node, "worker"⟩ := by
  have opened : (Forest.replay ∅ takenAwayThenClosed).isClosed 1 = false := by decide +kernel
  have unlisted : (Forest.replay ∅ takenAwayThenClosed).list 1 .node = .error (.closed "base") := by
    decide +kernel
  have reads : (Forest.replay ∅ takenAwayThenClosed).ReadsAbsent 1 ⟨.node, "worker"⟩ :=
    .get (by decide +kernel)
  have touched : ¬ (Forest.replay ∅ takenAwayThenClosed).CutOff 1 ⟨.node, "worker"⟩ := by
    unfold CutOff
    decide +kernel
  obtain ⟨-, told⟩ := absence_told_iff takenAwayThenClosed 1 opened ⟨.node, "worker"⟩
  refine ⟨opened, unlisted, reads, (told.mpr touched reads).resolve_left ?_⟩
  rintro ⟨entries, listed, -⟩
  rw [unlisted] at listed
  cases listed

/-- A sandbox has touched nothing when its base is closed. -/
def closedBelow : List Move :=
  [.base "base", .ask 0 (.edit (.create (.node worker))), .sandbox "sandbox" 0, .ask 0 .close]

/-- The node reads as absent, can be created and can not be deleted, whereas the listing says that
what is below is closed; and nobody has deleted the node. -/
theorem cutOff_closedBelow :
    (Forest.replay ∅ closedBelow).isClosed 1 = false ∧
    (Forest.replay ∅ closedBelow).get 1 ⟨.node, "worker"⟩ = .ok none ∧
    ((Forest.replay ∅ closedBelow).create 1 (.node worker)).isOk = true ∧
    (Operation.edit (.delete ⟨.node, "worker"⟩)).perform (Forest.replay ∅ closedBelow) 1 =
      (Forest.replay ∅ closedBelow, .error (.notFound "sandbox" ⟨.node, "worker"⟩)) ∧
    (Forest.replay ∅ closedBelow).list 1 .node = .error (.closed "base") ∧
    ¬ ((Forest.replay ∅ closedBelow).ListedAbsent 1 ⟨.node, "worker"⟩ ∨
      (Forest.replay ∅ closedBelow).DeletedAbove 1 ⟨.node, "worker"⟩) := by
  have unlisted : (Forest.replay ∅ closedBelow).list 1 .node = .error (.closed "base") := by
    decide +kernel
  refine ⟨by decide +kernel, by decide +kernel, by decide +kernel, rfl, unlisted, ?_⟩
  rintro (⟨entries, listed, -⟩ | deleted)
  · rw [unlisted] at listed
    cases listed
  · unfold DeletedAbove at deleted
    revert deleted
    decide +kernel

end ScaleAdvisor.Forest
