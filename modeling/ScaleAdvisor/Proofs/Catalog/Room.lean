import ScaleAdvisor.Catalog.Pool

/-!
What is left for workloads. A subtraction floors at zero only the amounts that it names, lists need
not name the same resources, and amounts may be negative. Read name by name, none of this shows: a
request is covered exactly if it stays, with what is used, within what there is, and two
reservations leave what their sum leaves. What does show is a difference that no word holds.

* `Resources.covers_minus_iff`: what free amounts cover, whatever wraps;
* `Resources.covers_minus_iff_of_fits`: the same where nothing wraps;
* `NodeTemplate.get_allocatable`: what is left after both reservations;
* `NodeTemplate.covers_allocatable_iff`: the two together, on a node of a template.
-/

namespace ScaleAdvisor

namespace Resources

variable {r other : Resources} {name : String}

theorem get_of_unlisted (unlisted : ¬ other.amounts.contains name = true) : other.get name = 0 := by
  have missing : other.amounts.get? name = none := by
    simpa [SortedMap.contains] using unlisted
  rw [get, Amounts.get, SortedMap.getD, missing, Option.getD_none]

theorem nonneg_set (nonneg : ∀ name, 0 ≤ r.get name) {amount : Int} (h : 0 ≤ wrap64 amount)
    {key : String} : ∀ name, 0 ≤ (r.set key amount).get name := by
  intro name
  rw [get_set]
  split
  · exact h
  · exact nonneg name

/-- Of a single amount only its own name is asked for. -/
theorem eq_of_get_set_pos {key : String} {amount : Int}
    (positive : 0 < ((∅ : Resources).set key amount).get name) : name = key := by
  rw [get_set] at positive
  split at positive
  · assumption
  · simp at positive

/-- An amount that is not negative is as good as floored, named or not. -/
theorem get_minus_of_nonneg (nonneg : 0 ≤ r.get name) (taken : 0 ≤ other.get name) :
    (r.minus other).get name = max 0 (r.get name - other.get name) := by
  have kept := wrap64_eq_self
    (isInt64_sub_of_nonneg (r.isInt64_get name) (other.isInt64_get name) nonneg taken)
  rw [get_minus, kept]
  split
  · exact Int.max_comm _ _
  · rename_i unlisted
    rw [get_of_unlisted unlisted]
    omega

/-- What is asked for stays within what a word keeps of the difference. -/
theorem covers_minus_iff {offered used request : Resources} :
    (offered.minus used).covers request = true ↔ ∀ name, 0 < request.get name →
      request.get name ≤ wrap64 (offered.get name - used.get name) := by
  rw [covers_iff]
  apply forall_congr'
  intro name
  apply imp_congr_right
  intro positive
  rw [get_minus]
  split
  · -- A positive request is above the floor.
    omega
  · rename_i unlisted
    rw [get_of_unlisted unlisted, Int.sub_zero, wrap64_eq_self (offered.isInt64_get name)]

/-- What is used and what is asked for stay within what there is. -/
theorem covers_minus_iff_of_fits {offered used request : Resources}
    (fits : ∀ name, 0 < request.get name → IsInt64 (offered.get name - used.get name)) :
    (offered.minus used).covers request = true ↔
      ∀ name, 0 < request.get name → used.get name + request.get name ≤ offered.get name := by
  rw [covers_minus_iff]
  apply forall_congr'
  intro name
  apply imp_congr_right
  intro positive
  rw [wrap64_eq_self (fits name positive)]
  omega

end Resources

namespace NodeTemplate

variable {t : NodeTemplate} {name : String}

/-- The floor after the first reservation does not show after the second. -/
theorem get_allocatable (capacity : 0 ≤ t.capacity.get name) (kube : 0 ≤ t.kubeReserved.get name)
    (system : 0 ≤ t.systemReserved.get name) : t.allocatable.get name =
      max 0 (t.capacity.get name - t.kubeReserved.get name - t.systemReserved.get name) := by
  have first : (t.capacity.minus t.kubeReserved).get name =
      max 0 (t.capacity.get name - t.kubeReserved.get name) :=
    Resources.get_minus_of_nonneg capacity kube
  rw [allocatable, Resources.get_minus_of_nonneg (by omega) system, first]
  omega

/-- Reservations count as if they were in use. -/
theorem covers_allocatable_iff {used request : Resources}
    (capacity : ∀ name, 0 ≤ t.capacity.get name) (kube : ∀ name, 0 ≤ t.kubeReserved.get name)
    (system : ∀ name, 0 ≤ t.systemReserved.get name) (sound : ∀ name, 0 ≤ used.get name) :
    (t.allocatable.minus used).covers request = true ↔ ∀ name, 0 < request.get name →
      t.kubeReserved.get name + t.systemReserved.get name + used.get name + request.get name ≤
        t.capacity.get name := by
  have left (name : String) := get_allocatable (capacity name) (kube name) (system name)
  rw [Resources.covers_minus_iff_of_fits]
  · apply forall_congr'
    intro name
    apply imp_congr_right
    intro positive
    rw [left]
    have := sound name
    omega
  · intro name _
    refine isInt64_sub_of_nonneg (t.allocatable.isInt64_get name) (used.isInt64_get name) ?_
      (sound name)
    rw [left]
    exact Int.le_max_left 0 _

end NodeTemplate

/-- Four cores, of which more is reserved than there is, and a reservation of what the machine
lacks. -/
def overReserved : NodeTemplate where
  name := "small"
  instanceType := "small"
  capacity := .ofCoresAndGib 4 16
  kubeReserved := (∅ : Resources).set "cpu" 3000
  systemReserved := ((∅ : Resources).set "cpu" 2000).set "gpu" 1

end ScaleAdvisor
