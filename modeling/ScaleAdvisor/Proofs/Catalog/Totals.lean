import Mathlib.Algebra.BigOperators.Group.List.Basic
import Mathlib.Algebra.Ring.Int.Defs
import ScaleAdvisor.Catalog.Score

/-!
What an outcome has placed, added up resource by resource. It takes no more than the list of placed
workloads: neither their order nor their nodes matter, also where sums wrap around.

* `get_placed`: the totals of one node and of all nodes are sums over workloads;
* `get_aggregated`: the same in words of 64 bits;
* `load_perm`: the same workloads, placed otherwise, come to the same.
-/

namespace ScaleAdvisor

theorem sum_filterMap {α M : Type} [AddMonoid M] (f : α → Option M) (xs : List α) :
    (xs.filterMap f).sum = (xs.map fun x => (f x).getD 0).sum := by
  induction xs with
  | nil => rfl
  | cons x rest ih =>
    cases h : f x with
    | none => simp [h, ih]
    | some y => simp [h, ih]

/-- Sums that may be fitted at every step or once at the end. -/
structure FitsSums (fit : Int → Int) : Prop where
  zero : fit 0 = 0
  add_left : ∀ a b, fit (fit a + b) = fit (a + b)

theorem fitsSums_wrap64 : FitsSums wrap64 := ⟨wrap64_zero, wrap64_add_left⟩

theorem fitsSums_id : FitsSums id := ⟨rfl, fun _ _ => rfl⟩

variable {fit : Int → Int}

namespace FitsSums

variable (sums : FitsSums fit)

include sums

theorem fit_fit (a : Int) : fit (fit a) = fit a := by
  have step := sums.add_left a 0
  rwa [Int.add_zero, Int.add_zero] at step

theorem add_right (a b : Int) : fit (a + fit b) = fit (a + b) := by
  rw [Int.add_comm, sums.add_left, Int.add_comm]

theorem add_sum (a : Int) (bs : List Int) : fit (a + (bs.map fit).sum) = fit (a + bs.sum) := by
  induction bs generalizing a with
  | nil => rfl
  | cons b rest ih =>
    rw [List.map_cons, List.sum_cons, List.sum_cons, ← Int.add_assoc, ih, Int.add_right_comm,
      sums.add_right, Int.add_right_comm, Int.add_assoc]

end FitsSums

namespace Amounts

variable {r : Amounts} {name : String}

theorem get_add (kept : fit (r.get name) = r.get name) (other : Amounts) :
    Amounts.get (r.add fit other) name = fit (r.get name + other.get name) := by
  rw [add, get_combine]
  cases h : other.get? name <;> simp_all [get, SortedMap.getD]

theorem get_foldl_add (sums : FitsSums fit) (lists : List Amounts)
    (kept : fit (r.get name) = r.get name) :
    Amounts.get (lists.foldl (add fit) r) name =
      fit (r.get name + (lists.map (Amounts.get · name)).sum) := by
  induction lists generalizing r with
  | nil => simp [kept]
  | cons head rest ih =>
    have first := get_add kept head
    rw [List.foldl_cons, ih (by rw [first, sums.fit_fit]), first, sums.add_left, List.map_cons,
      List.sum_cons, Int.add_assoc]

theorem get_sum (sums : FitsSums fit) (lists : List Amounts) :
    Amounts.get (sum fit lists) name = fit (lists.map (Amounts.get · name)).sum := by
  have nothing : Amounts.get ∅ name = 0 := rfl
  rw [sum, get_foldl_add sums lists (by rw [nothing, sums.zero]), nothing, Int.zero_add]

end Amounts

theorem NodeAssignment.get_placed (sums : FitsSums fit) (a : NodeAssignment) (name : String) :
    Amounts.get (a.placed fit) name = fit (a.workloads.map (·.2.get name)).sum := by
  rw [placed, Amounts.get_sum sums, List.map_map]
  rfl

namespace Outcome

/-- The placed workloads with what they ask for, on the added node or elsewhere. -/
def carried (o : Outcome) : List (WorkloadKey × Resources) :=
  o.scaled.workloads ++ o.others.flatMap (·.workloads)

/-- How much of a resource the placed workloads ask for. -/
def load (o : Outcome) (name : String) : Int := (o.carried.map (·.2.get name)).sum

/-- Whatever is kept of a sum, it is the same added up by nodes or all at once. -/
theorem get_placed (sums : FitsSums fit) (o : Outcome) (name : String) :
    Amounts.get (o.placed fit) name = fit (o.load name) := by
  have scaled := o.scaled.get_placed sums name
  have others : (o.others.map (·.placed fit)).map (Amounts.get · name) =
      (o.others.map fun a => (a.workloads.map (·.2.get name)).sum).map fit := by
    rw [List.map_map, List.map_map]
    exact List.map_congr_left fun a _ => a.get_placed sums name
  rw [placed, Amounts.get_foldl_add sums _ (by rw [scaled, sums.fit_fit]), scaled, others,
    sums.add_left, sums.add_sum, load, carried, List.map_append, List.sum_append, List.map_flatMap,
    List.flatMap_def, List.sum_flatten, List.map_map]
  rfl

theorem get_aggregated (o : Outcome) (name : String) :
    o.aggregated.get name = wrap64 (o.load name) :=
  o.get_placed fitsSums_wrap64 name

variable {o o' : Outcome}

theorem load_perm (perm : o'.carried.Perm o.carried) (name : String) : o'.load name = o.load name :=
  (perm.map _).sum_eq

theorem load_of_perm_cons {k : WorkloadKey} {requests : Resources}
    (perm : o'.carried.Perm ((k, requests) :: o.carried)) (name : String) :
    o'.load name = requests.get name + o.load name := by
  rw [load, (perm.map _).sum_eq, List.map_cons, List.sum_cons, load]

end Outcome

end ScaleAdvisor
