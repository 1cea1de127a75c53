import Mathlib.Data.List.Induction
import Mathlib.Data.List.Nodup
import ScaleAdvisor.Proofs.Catalog.Room
import ScaleAdvisor.Scheduling.BinPack

/-!
What nodes carry, and when a workload fits. `load` sums the requests of the workloads bound to a
node, straight from a list of workloads; a `Usage` that is charged bind by bind is another account
of the same sums, as far as words hold them. What is still free is kept in a word too: that is the
`slack` of a node.

* `load_bindIn`: binding one pending workload adds its requests to its node and to no other;
* `fits_iff`: the test of the packer reads, resource by resource, "what is asked for stays within
  the slack";
* `asks_le_of_le_slack`, `sub_load_lt_of_slack_lt`: what the slack says of what the node carries and
  offers.
-/

namespace ScaleAdvisor

/-- Bound to this node. -/
def Workload.isOn (w : Workload) (node : String) : Bool := !w.isPending && w.nodeName == some node

/-- What it asks for of one resource, its runtime class included. -/
def Workload.asks (w : Workload) (classes : List RuntimeClass) (resource : String) : Int :=
  (w.effectiveRequests classes).get resource

@[simp]
theorem Workload.key_bindTo (w : Workload) (node : String) : (w.bindTo node).key = w.key := rfl

@[simp]
theorem Workload.asks_bindTo (w : Workload) (node : String) (classes : List RuntimeClass) :
    (w.bindTo node).asks classes = w.asks classes := rfl

@[simp]
theorem Workload.nodeName_bindTo (w : Workload) (node : String) :
    (w.bindTo node).nodeName = some node :=
  rfl

theorem Workload.isPending_iff {w : Workload} :
    w.isPending = true ↔ w.nodeName = none ∨ w.nodeName = some "" := by
  unfold Workload.isPending
  cases w.nodeName <;> simp

theorem Workload.not_isPending_bindTo (w : Workload) {node : String} (named : node ≠ "") :
    (w.bindTo node).isPending = false := by
  simpa [Workload.isPending] using named

theorem Workload.isOn_bindTo (w : Workload) {node : String} (named : node ≠ "") (other : String) :
    (w.bindTo node).isOn other = decide (node = other) := by
  simp only [Workload.isOn, w.not_isPending_bindTo named, Workload.nodeName_bindTo, Bool.not_false,
    Bool.true_and]
  by_cases h : node = other <;> simp [h]

theorem Workload.isOn_of_isPending {w : Workload} (h : w.isPending = true) (node : String) :
    w.isOn node = false := by
  simp [Workload.isOn, h]

namespace BinPack

/-- What the workloads bound to a node ask for of one resource. -/
def load (classes : List RuntimeClass) : List Workload → String → String → Int
  | [], _, _ => 0
  | w :: rest, node, resource =>
    (if w.isOn node then w.asks classes resource else 0) + load classes rest node resource

/-- No workload asks for less than nothing. -/
def NonNegative (classes : List RuntimeClass) (workloads : List Workload) : Prop :=
  ∀ w ∈ workloads, ∀ resource, 0 ≤ w.asks classes resource

instance (classes : List RuntimeClass) (workloads : List Workload) :
    Decidable (NonNegative classes workloads) :=
  decidable_of_iff
    (∀ w ∈ workloads, ∀ e ∈ (w.effectiveRequests classes).amounts.entries, 0 ≤ e.2) <| by
    refine forall₂_congr fun w _ => ⟨?_, ?_⟩
    · intro h resource
      rw [Workload.asks, Resources.get, Amounts.get, SortedMap.getD]
      cases found : (w.effectiveRequests classes).amounts.get? resource with
      | none => exact Int.le_refl _
      | some amount => exact h _ ((SortedMap.mem_entries_iff _).mpr found)
    · intro h e he
      have own := h e.1
      rwa [Workload.asks, Resources.get, Amounts.get, SortedMap.getD,
        (SortedMap.mem_entries_iff _).mp he] at own

/-- The workload of a key bound to a node, all others as they are. -/
def bindIn (k : WorkloadKey) (node : String) (workloads : List Workload) : List Workload :=
  workloads.map fun w => if w.key = k then w.bindTo node else w

variable {classes : List RuntimeClass} {workloads : List Workload}

@[simp]
theorem load_nil (node resource : String) : load classes [] node resource = 0 := rfl

theorem load_cons (w : Workload) (rest : List Workload) (node resource : String) :
    load classes (w :: rest) node resource =
      (if w.isOn node then w.asks classes resource else 0) + load classes rest node resource :=
  rfl

theorem load_perm {ws us : List Workload} (h : ws.Perm us) (node resource : String) :
    load classes ws node resource = load classes us node resource := by
  induction h with
  | nil => rfl
  | cons w _ ih => rw [load_cons, load_cons, ih]
  | swap w u rest =>
    simp only [load_cons]
    omega
  | trans _ _ first second => exact first.trans second

/-- Nobody is bound to the node. -/
theorem load_eq_zero {node : String} (free : ∀ w ∈ workloads, w.isOn node = false)
    (resource : String) : load classes workloads node resource = 0 := by
  induction workloads with
  | nil => rfl
  | cons w rest ih =>
    rw [List.forall_mem_cons] at free
    rw [load_cons, ih free.2]
    simp [free.1]

theorem map_key_bindIn (k : WorkloadKey) (node : String) :
    (bindIn k node workloads).map (·.key) = workloads.map (·.key) := by
  rw [bindIn, List.map_map]
  apply List.map_congr_left
  intro w _
  simp only [Function.comp_apply]
  split <;> rfl

theorem bindIn_of_not_mem {k : WorkloadKey} (node : String) (absent : k ∉ workloads.map (·.key)) :
    bindIn k node workloads = workloads := by
  have same : ∀ w ∈ workloads, (if w.key = k then w.bindTo node else w) = w := by
    intro w hw
    rw [if_neg]
    rintro rfl
    exact absent (List.mem_map_of_mem hw)
  rw [bindIn, List.map_congr_left same, List.map_id']

theorem mem_bindIn {k : WorkloadKey} {node : String} {x : Workload} :
    x ∈ bindIn k node workloads ↔
      (∃ w ∈ workloads, w.key = k ∧ x = w.bindTo node) ∨ (x ∈ workloads ∧ x.key ≠ k) := by
  simp only [bindIn, List.mem_map]
  constructor
  · rintro ⟨w, hw, rfl⟩
    by_cases hk : w.key = k
    · exact .inl ⟨w, hw, hk, by simp [hk]⟩
    · exact .inr (by simpa [hk] using hw)
  · rintro (⟨w, hw, hk, rfl⟩ | ⟨hx, hk⟩)
    · exact ⟨w, hw, by simp [hk]⟩
    · exact ⟨x, hx, by simp [hk]⟩

theorem mem_bindIn_of_ne {k : WorkloadKey} {node : String} {w : Workload} (hw : w ∈ workloads)
    (other : w.key ≠ k) : w ∈ bindIn k node workloads :=
  mem_bindIn.mpr (.inr ⟨hw, other⟩)

theorem NonNegative.bindIn (nonneg : NonNegative classes workloads) (k : WorkloadKey)
    (node : String) : NonNegative classes (bindIn k node workloads) := by
  intro x hx resource
  obtain ⟨w, hw, -, rfl⟩ | ⟨hx, -⟩ := mem_bindIn.mp hx
  · simpa using nonneg w hw resource
  · exact nonneg x hx resource

/-- Binding a pending workload adds what it asks for to its node, and to no other one. -/
theorem load_bindIn (classes : List RuntimeClass) (distinct : (workloads.map (·.key)).Nodup)
    {w : Workload} (hw : w ∈ workloads)
    (pending : w.isPending = true) {node : String} (named : node ≠ "") (other resource : String) :
    load classes (bindIn w.key node workloads) other resource =
      load classes workloads other resource +
        if node = other then w.asks classes resource else 0 := by
  induction workloads with
  | nil => simp at hw
  | cons u rest ih =>
    rw [List.map_cons, List.nodup_cons] at distinct
    obtain rfl | hw := List.mem_cons.mp hw
    · have unchanged : BinPack.bindIn w.key node rest = rest := bindIn_of_not_mem node distinct.1
      have step : BinPack.bindIn w.key node (w :: rest) = w.bindTo node :: rest := by
        rw [BinPack.bindIn, List.map_cons, if_pos rfl, ← BinPack.bindIn, unchanged]
      rw [step, load_cons, load_cons, w.isOn_bindTo named, Workload.isOn_of_isPending pending]
      by_cases h : node = other
      · simp [h]
        omega
      · simp [h]
    · have hne : u.key ≠ w.key := by
        intro same
        apply distinct.1
        rw [same]
        exact List.mem_map_of_mem hw
      have step : BinPack.bindIn w.key node (u :: rest) = u :: BinPack.bindIn w.key node rest := by
        simp [BinPack.bindIn, hne]
      rw [step, load_cons, load_cons, ih distinct.2 hw]
      omega

/-- A usage that accounts for these workloads. -/
def Tracks (u : Usage) (classes : List RuntimeClass) (workloads : List Workload) : Prop :=
  ∀ node resource, (Usage.at u node).get resource = wrap64 (load classes workloads node resource)

theorem get_charge (u : Usage) (node : String) (requests : Resources) (other resource : String) :
    (Usage.at (Usage.charge u node requests) other).get resource =
      wrap64
        ((Usage.at u other).get resource + if node = other then requests.get resource else 0) := by
  unfold Usage.charge
  by_cases h : other = node
  · subst h
    simp [Usage.at, SortedMap.getD, Resources.get_add]
  · have hne : ¬ node = other := fun e => h e.symm
    have kept := wrap64_eq_self ((Usage.at u other).isInt64_get resource)
    simp_all [Usage.at, SortedMap.getD, SortedMap.get?_insert_of_ne _ _ h]

theorem tracks_usageOf (classes : List RuntimeClass) (workloads : List Workload) :
    Tracks (usageOf classes workloads) classes workloads := by
  -- The fold goes through the list from the front, so the induction takes workloads off the end.
  induction workloads using List.reverseRecOn with
  | nil => exact fun _ _ => rfl
  | append_singleton rest w ih =>
    intro node resource
    have sum : load classes (rest ++ [w]) node resource =
        load classes rest node resource + if w.isOn node then w.asks classes resource else 0 := by
      rw [load_perm (List.perm_append_singleton w rest), load_cons, Int.add_comm]
    have before := ih node resource
    rw [sum, ← wrap64_add_left, ← before, usageOf, List.foldl_append, ← usageOf, List.foldl_cons,
      List.foldl_nil]
    have kept := wrap64_eq_self ((Usage.at (usageOf classes rest) node).isInt64_get resource)
    cases hn : w.nodeName with
    | none => simp [Workload.isOn, hn, kept]
    | some bound =>
      cases hp : w.isPending with
      | true => simp [Workload.isOn, hp, kept]
      | false =>
        simp only [Bool.false_eq_true, if_false, get_charge, Workload.isOn, hp, hn, Bool.not_false,
          Bool.true_and, beq_iff_eq, Option.some.injEq, Workload.asks]

theorem Tracks.charge {u : Usage} (tracks : Tracks u classes workloads)
    (distinct : (workloads.map (·.key)).Nodup) {w : Workload} (hw : w ∈ workloads)
    (pending : w.isPending = true) {node : String} (named : node ≠ "") :
    Tracks (Usage.charge u node (w.effectiveRequests classes)) classes
      (bindIn w.key node workloads) := by
  intro other resource
  rw [get_charge, tracks, wrap64_add_left, load_bindIn classes distinct hw pending named]
  rfl

/-- What a word keeps of the amount that is still free on a node. -/
def slack (classes : List RuntimeClass) (workloads : List Workload) (n : Node) (resource : String) :
    Int :=
  wrap64 (n.allocatable.get resource - load classes workloads n.name resource)

/-- The node takes the workload, and what is asked for stays within what is still free. -/
def Fits (classes : List RuntimeClass) (workloads : List Workload) (w : Workload)
    (n : Node) : Prop :=
  admits w n = true ∧ ∀ resource, 0 < w.asks classes resource →
    w.asks classes resource ≤ slack classes workloads n resource

theorem fits_iff {u : Usage} (tracks : Tracks u classes workloads) {w : Workload} {n : Node} :
    fits u w (w.effectiveRequests classes) n = true ↔ Fits classes workloads w n := by
  simp only [fits, Bool.and_eq_true, hasRoom, Resources.covers_minus_iff, tracks n.name,
    wrap64_sub_right, Fits, slack, Workload.asks]

section Slack

variable {w : Workload} {n : Node} {resource : String}

/-- A node that carries no more than two to the 63 above what it offers takes no more than is
free. -/
theorem asks_le_of_le_slack
    (fair : load classes workloads n.name resource ≤ n.allocatable.get resource + twoTo 63)
    {amount : Int} (h : amount ≤ slack classes workloads n resource) :
    load classes workloads n.name resource + amount ≤ n.allocatable.get resource := by
  have large : (twoTo 63 : Int) = 9223372036854775808 := rfl
  rw [slack, wrap64_eq] at h
  omega

/-- What a node that carries nothing negative has no slack for, it has no room for. -/
theorem lt_load_of_slack_lt (nonneg : 0 ≤ load classes workloads n.name resource) {amount : Int}
    (h : slack classes workloads n resource < amount) :
    n.allocatable.get resource < load classes workloads n.name resource + amount := by
  have small := isInt64_iff.mp (n.allocatable.isInt64_get resource)
  have kept := le_wrap64 (n := n.allocatable.get resource - load classes workloads n.name resource)
    (by omega)
  rw [slack] at h
  omega

/-- Where a word holds what is free, the slack is just that. -/
theorem slack_of_fits
    (fits : IsInt64 (n.allocatable.get resource - load classes workloads n.name resource)) :
    slack classes workloads n resource =
      n.allocatable.get resource - load classes workloads n.name resource :=
  wrap64_eq_self fits

/-- A node that carries nothing has all that it offers. -/
theorem slack_of_load_eq_zero (empty : load classes workloads n.name resource = 0) :
    slack classes workloads n resource = n.allocatable.get resource := by
  rw [slack, empty, Int.sub_zero, wrap64_eq_self (n.allocatable.isInt64_get resource)]

theorem load_nonneg (nonneg : NonNegative classes workloads) (node resource : String) :
    0 ≤ load classes workloads node resource := by
  induction workloads with
  | nil => exact Int.le_refl 0
  | cons w rest ih =>
    have own := nonneg w (by simp) resource
    have others := ih fun u hu => nonneg u (by simp [hu])
    rw [load_cons]
    split <;> omega

theorem slack_bindIn (distinct : (workloads.map (·.key)).Nodup) (hw : w ∈ workloads)
    (pending : w.isPending = true) {node : String} (named : node ≠ "") :
    slack classes (bindIn w.key node workloads) n resource =
      wrap64 (slack classes workloads n resource -
        if node = n.name then w.asks classes resource else 0) := by
  rw [slack, slack, load_bindIn classes distinct hw pending named, wrap64_sub_left, Int.sub_sub]

/-- Putting a workload where it fits leaves no node more slack than before. -/
theorem slack_bindIn_le (distinct : (workloads.map (·.key)).Nodup)
    (nonneg : NonNegative classes workloads) (hw : w ∈ workloads) (pending : w.isPending = true)
    {m : Node} (named : m.name ≠ "") (room : Fits classes workloads w m)
    (unique : m.name = n.name → m = n) (resource : String) :
    slack classes (bindIn w.key m.name workloads) n resource ≤
      slack classes workloads n resource := by
  rw [slack_bindIn distinct hw pending named]
  have small := isInt64_iff.mp (isInt64_wrap64
    (n.allocatable.get resource - load classes workloads n.name resource))
  rw [← slack] at small
  by_cases same : m.name = n.name
  · obtain rfl := unique same
    have own := nonneg w hw resource
    have fits : 0 < w.asks classes resource →
        w.asks classes resource ≤ slack classes workloads m resource := room.2 resource
    rw [if_pos rfl, wrap64_eq_self (isInt64_iff.mpr (by omega))]
    omega
  · have kept := wrap64_eq_self (isInt64_iff.mpr small)
    exact Int.le_of_eq (by rw [if_neg same, Int.sub_zero, kept])

/-- Where there is more slack, more fits. -/
theorem Fits.mono {us : List Workload} (h : Fits classes us w n)
    (more : ∀ resource, slack classes us n resource ≤ slack classes workloads n resource) :
    Fits classes workloads w n :=
  ⟨h.1, fun resource positive => Int.le_trans (h.2 resource positive) (more resource)⟩

end Slack

end BinPack

end ScaleAdvisor
