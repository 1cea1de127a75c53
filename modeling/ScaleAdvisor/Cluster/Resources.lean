import ScaleAdvisor.SortedMap
import ScaleAdvisor.Word

/-!
Resource amounts by name: `cpu` in thousandths of a core, `memory` in bytes, everything else as
counts. A name that is not listed reads as zero, and amounts may be negative. Amounts are words of
64 bits, so sums and differences wrap around; `Amounts` are added up by any arithmetic, `Resources`
by that of words. Main statements:

* `get_add`, `get_minus`, `get_difference`: the arithmetic read name by name;
* `covers_iff`: a list covers a request when it holds every amount asked for.
-/

namespace ScaleAdvisor

/-- Whole numbers by name. -/
abbrev Amounts := SortedMap String Int

namespace Amounts

def get (r : Amounts) (name : String) : Int := r.getD name 0

/-- Every amount fits in a word. -/
def Within (r : Amounts) : Prop := ∀ e ∈ r.entries, IsInt64 e.2

/-- Combine the amount of every name that `other` lists into `r`. -/
def combine (f : Int → Int → Int) (r other : Amounts) : Amounts :=
  other.entries.foldl (fun acc e => acc.insert e.1 (f (acc.get e.1) e.2)) r

section Arithmetic

-- `fit` says what is kept of a sum or a difference.
variable (fit : Int → Int)

def add (r other : Amounts) : Amounts := combine (fun a b => fit (a + b)) r other

/-- `r` without `other`; amounts may go negative. -/
def difference (r other : Amounts) : Amounts := combine (fun a b => fit (a - b)) r other

def sum (lists : List Amounts) : Amounts := lists.foldl (add fit) ∅

end Arithmetic

theorem get_insert (r : Amounts) (name : String) (amount : Int) (other : String) :
    Amounts.get (r.insert name amount) other = if other = name then amount else r.get other := by
  simp only [get, SortedMap.getD, SortedMap.get?_insert, KeyOrder.same_iff]
  split <;> rfl

theorem get_foldl_insert (f : Int → Int → Int) (entries : List (String × Int)) (r : Amounts)
    (sorted : entries.Pairwise (fun a b => KeyOrder.before a.1 b.1 = true)) (name : String) :
    Amounts.get (entries.foldl (fun acc e => acc.insert e.1 (f (Amounts.get acc e.1) e.2)) r) name =
      match SortedMap.find name entries with
      | some amount => f (r.get name) amount
      | none => r.get name := by
  induction entries generalizing r with
  | nil => rfl
  | cons head rest ih =>
    rw [List.pairwise_cons] at sorted
    rw [List.foldl_cons, ih _ sorted.2]
    obtain ⟨key, b⟩ := head
    by_cases hk : name = key
    · subst hk
      have hnone := SortedMap.find_eq_none_of_before sorted.1
      simp [SortedMap.find, hnone, get_insert]
    · have hs : KeyOrder.same name key = false := by simpa using hk
      simp [SortedMap.find, hs, get_insert, hk]

theorem get_combine (f : Int → Int → Int) (r other : Amounts) (name : String) :
    Amounts.get (combine f r other) name =
      match other.get? name with
      | some amount => f (r.get name) amount
      | none => r.get name :=
  get_foldl_insert f other.entries r other.sorted name

namespace Within

variable {r : Amounts}

theorem isInt64_get (within : r.Within) (name : String) : IsInt64 (r.get name) := by
  rw [get, SortedMap.getD]
  cases found : r.get? name with
  | none => exact isInt64_zero
  | some amount => exact within _ ((SortedMap.mem_entries_iff r).mpr found)

theorem insert (within : r.Within) {amount : Int} (fits : IsInt64 amount) (name : String) :
    Within (r.insert name amount) := by
  intro e he
  rcases SortedMap.mem_place he with rfl | he
  · exact fits
  · exact within e he

theorem combine {f : Int → Int → Int} (within : r.Within) (fits : ∀ a b, IsInt64 (f a b))
    (other : Amounts) : Within (combine f r other) := by
  have collect (entries : List (String × Int)) : Within
      (entries.foldl (fun acc e => SortedMap.insert acc e.1 (f (Amounts.get acc e.1) e.2)) r) := by
    induction entries generalizing r with
    | nil => exact within
    | cons e rest ih => exact ih (within.insert (fits _ _) _)
  exact collect other.entries

theorem foldl_add (within : r.Within) (lists : List Amounts) :
    Within (lists.foldl (Amounts.add wrap64) r) := by
  induction lists generalizing r with
  | nil => exact within
  | cons head rest ih => exact ih (within.combine (fun _ _ => isInt64_wrap64 _) head)

end Within

theorem within_empty : Within ∅ := fun _ h => absurd h List.not_mem_nil

theorem within_sum (lists : List Amounts) : Within (sum wrap64 lists) :=
  within_empty.foldl_add lists

end Amounts

/-- Amounts of 64 bits by name. -/
structure Resources where
  amounts : Amounts
  within : amounts.Within
  deriving DecidableEq

namespace Resources

def cpu : String := "cpu"

def memory : String := "memory"

/-- Bytes of one gibibyte. -/
def gib : Int := 1024 * 1024 * 1024

def empty : Resources := ⟨∅, Amounts.within_empty⟩

instance : EmptyCollection Resources := ⟨empty⟩

instance : Inhabited Resources := ⟨empty⟩

instance : Coe Resources Amounts := ⟨amounts⟩

/-- What words keep of the amounts. -/
def ofAmounts (r : Amounts) : Resources where
  amounts := r.mapValues fun _ amount => wrap64 amount
  within e he := by
    obtain ⟨e, -, rfl⟩ := List.mem_map.mp he
    exact isInt64_wrap64 _

def get (r : Resources) (name : String) : Int := r.amounts.get name

def set (r : Resources) (name : String) (amount : Int) : Resources :=
  ⟨r.amounts.insert name (wrap64 amount), r.within.insert (isInt64_wrap64 amount) name⟩

/-- Whole cores and gibibytes. -/
def ofCoresAndGib (cores gibibytes : Int) : Resources :=
  ((∅ : Resources).set cpu (cores * 1000)).set memory (gibibytes * gib)

/-- No amount differs from zero. -/
def isZero (r : Resources) : Bool := r.amounts.values.all (· == 0)

def add (r other : Resources) : Resources :=
  ⟨Amounts.add wrap64 r other, r.within.combine (fun _ _ => isInt64_wrap64 _) other⟩

/-- `r` without `other`; amounts may go negative. -/
def difference (r other : Resources) : Resources :=
  ⟨Amounts.difference wrap64 r other, r.within.combine (fun _ _ => isInt64_wrap64 _) other⟩

/-- `r` without `other`, no amount that `other` names staying below zero. -/
def minus (r other : Resources) : Resources :=
  ⟨Amounts.combine (fun a b => max (wrap64 (a - b)) 0) r other,
    r.within.combine (fun _ _ => isInt64_max (isInt64_wrap64 _) isInt64_zero) other⟩

def sum (lists : List Resources) : Resources :=
  ⟨Amounts.sum wrap64 (lists.map (·.amounts)), Amounts.within_sum _⟩

/-- Every amount asked for is there; amounts that are not positive ask for nothing. -/
def covers (r request : Resources) : Bool :=
  request.amounts.entries.all fun e => decide (e.2 ≤ 0) || decide (e.2 ≤ r.get e.1)

theorem ofAmounts_amounts (r : Resources) : ofAmounts r.amounts = r := by
  obtain ⟨⟨entries, sorted⟩, within⟩ := r
  have kept : ∀ e ∈ entries, (e.1, wrap64 e.2) = e := by
    intro e he
    rw [wrap64_eq_self (within e he)]
  have same : entries.map (fun e => (e.1, wrap64 e.2)) = entries := by
    rw [List.map_congr_left kept, List.map_id']
  simp only [ofAmounts, SortedMap.mapValues, same]

theorem isInt64_get (r : Resources) (name : String) : IsInt64 (r.get name) :=
  r.within.isInt64_get name

@[simp]
theorem get_empty (name : String) : (∅ : Resources).get name = 0 := rfl

theorem get_set (r : Resources) (name : String) (amount : Int) (other : String) :
    (r.set name amount).get other = if other = name then wrap64 amount else r.get other :=
  Amounts.get_insert r.amounts name (wrap64 amount) other

theorem get_add (r other : Resources) (name : String) :
    (r.add other).get name = wrap64 (r.get name + other.get name) := by
  have kept := wrap64_eq_self (r.isInt64_get name)
  refine (Amounts.get_combine (fun a b => wrap64 (a + b)) r other name).trans ?_
  cases h : other.amounts.get? name <;> simp_all [get, Amounts.get, SortedMap.getD]

theorem get_difference (r other : Resources) (name : String) :
    (r.difference other).get name = wrap64 (r.get name - other.get name) := by
  have kept := wrap64_eq_self (r.isInt64_get name)
  refine (Amounts.get_combine (fun a b => wrap64 (a - b)) r other name).trans ?_
  cases h : other.amounts.get? name <;> simp_all [get, Amounts.get, SortedMap.getD]

/-- The floor holds for the names that are subtracted. -/
theorem get_minus (r other : Resources) (name : String) :
    (r.minus other).get name =
      if other.amounts.contains name then max (wrap64 (r.get name - other.get name)) 0
      else r.get name := by
  rw [get, minus, Amounts.get_combine]
  cases h : other.amounts.get? name <;>
    simp [get, Amounts.get, SortedMap.getD, SortedMap.contains, h]

theorem covers_iff {r request : Resources} :
    r.covers request = true ↔ ∀ name, 0 < request.get name → request.get name ≤ r.get name := by
  simp only [covers, List.all_eq_true, Bool.or_eq_true, decide_eq_true_eq]
  constructor
  · intro h name positive
    cases hg : request.amounts.get? name with
    | none => simp [get, Amounts.get, SortedMap.getD, hg] at positive
    | some amount =>
      have hget : request.get name = amount := by simp [get, Amounts.get, SortedMap.getD, hg]
      have := h (name, amount) ((SortedMap.mem_entries_iff _).mpr hg)
      rw [hget] at positive ⊢
      simp only at this
      omega
  · rintro h ⟨name, amount⟩ hmem
    have hget : request.get name = amount := by
      simp [get, Amounts.get, SortedMap.getD, (SortedMap.mem_entries_iff _).mp hmem]
    have := h name
    rw [hget] at this
    simp only
    omega

end Resources

end ScaleAdvisor
