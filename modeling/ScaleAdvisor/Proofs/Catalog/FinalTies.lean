import Mathlib.Data.List.Perm.Basic
import Mathlib.Tactic.Tauto
import ScaleAdvisor.Choice
import ScaleAdvisor.Proofs.Catalog.Fractions

/-!
Which scores can win. Of the scores that no other one is preferred to, those win whose criterion
lies within the width of a tie of the largest one among them. Ties in this sense are not transitive,
yet who is measured against is always the same top, so the winners depend neither on the order of
the scores nor on the losers among them.

* `mem_bestValued_iff`: the first narrowing keeps the scores that nothing is preferred to;
* `finalTie_congr`, `finalTie_of_loser`: the winners do not change with the order of the scores, nor
  when a loser goes;
* `draws_reach_final_ties`: a draw never fails, and comes out at the winners and at no other score.
-/

namespace ScaleAdvisor

open Quantity

/-- The value as a number that is to be large. -/
def Preference.worth : Preference → Int → Int
  | .higher, value => value
  | .lower, value => -value

namespace Preference

variable {p : Preference} {a b c : Int}

theorem compare_eq (p : Preference) (a b : Int) :
    p.compare a b = Ord.compare (p.worth a) (p.worth b) := by
  cases p with
  | higher => rfl
  | lower =>
    simp only [compare, worth, Int.compare_eq_ite_lt, neg_lt_neg_iff]

/-- The first value is not the better one. -/
theorem compare_ne_gt_iff : p.compare a b ≠ .gt ↔ p.worth a ≤ p.worth b := by
  rw [compare_eq, ne_eq, compare_gt_iff_gt, not_lt]

theorem worth_better (p : Preference) (a b : Int) :
    p.worth (p.better a b) = max (p.worth a) (p.worth b) := by
  simp only [better, compare_eq, beq_iff_eq, compare_lt_iff_lt]
  split
  · rename_i less
    rw [max_eq_right_of_lt less]
  · rename_i more
    rw [max_eq_left (not_lt.mp more)]

theorem worth_inj (h : p.worth a = p.worth b) : a = b := by
  cases p with
  | higher => exact h
  | lower => exact Int.neg_inj.mp h

theorem better_eq (p : Preference) (a b : Int) : p.better a b = a ∨ p.better a b = b := by
  rw [better]
  split
  · exact .inr rfl
  · exact .inl rfl

/-- The best of a row of values is one of them, and none of them is worth more. -/
theorem foldl_better (p : Preference) (v : Int) (rest : List Int) :
    rest.foldl p.better v ∈ v :: rest ∧
      ∀ x ∈ v :: rest, p.worth x ≤ p.worth (rest.foldl p.better v) := by
  induction rest generalizing v with
  | nil => simp
  | cons w rest ih =>
    obtain ⟨taken, most⟩ := ih (p.better v w)
    rw [List.foldl_cons]
    have both := most _ List.mem_cons_self
    rw [worth_better] at both
    refine ⟨?_, ?_⟩
    · rcases List.mem_cons.mp taken with same | later
      · rw [same]
        rcases p.better_eq v w with first | second
        · simp [first]
        · simp [second]
      · simp [later]
    · intro x hx
      rcases List.mem_cons.mp hx with rfl | hx
      · exact (le_max_left _ _).trans both
      · rcases List.mem_cons.mp hx with rfl | hx
        · exact (le_max_right _ _).trans both
        · exact most x (List.mem_cons_of_mem _ hx)

end Preference

section

variable {F : Type}

/-- No score of the row is preferred to it. -/
def Best (p : Preference) (scores : List (NodeScore F)) (x : NodeScore F) : Prop :=
  x ∈ scores ∧ ∀ y ∈ scores, p.compare y.value x.value ≠ .gt

/-- Narrowing down compares with one of the scores, and none is worth more than it. -/
theorem exists_bestValued_eq (p : Preference) {scores : List (NodeScore F)}
    (nonempty : scores ≠ []) : ∃ x ∈ scores, (∀ y ∈ scores, p.worth y.value ≤ p.worth x.value) ∧
      bestValued p scores = scores.filter (·.value == x.value) := by
  cases scores with
  | nil => exact absurd rfl nonempty
  | cons first rest =>
    obtain ⟨taken, most⟩ := p.foldl_better first.value (rest.map (·.value))
    rw [← List.map_cons] at taken most
    obtain ⟨x, hx, value⟩ := List.mem_map.mp taken
    refine ⟨x, hx, fun y hy => ?_, ?_⟩
    · rw [value]
      exact most _ (List.mem_map_of_mem hy)
    · rw [value]
      rfl

theorem mem_bestValued_iff {p : Preference} {scores : List (NodeScore F)} {x : NodeScore F} :
    x ∈ bestValued p scores ↔ Best p scores x := by
  by_cases nonempty : scores = []
  · simp [nonempty, bestValued, Best]
  · obtain ⟨top, there, most, narrowed⟩ := exists_bestValued_eq p nonempty
    rw [narrowed, List.mem_filter, beq_iff_eq]
    simp only [Best, Preference.compare_ne_gt_iff]
    refine and_congr_right fun hx => ?_
    constructor
    · intro best y hy
      rw [best]
      exact most y hy
    · intro best
      exact Preference.worth_inj (le_antisymm (most x hx) (best top there))

theorem exists_best (p : Preference) {scores : List (NodeScore F)} (nonempty : scores ≠ []) :
    ∃ x, Best p scores x := by
  obtain ⟨x, there, most, -⟩ := exists_bestValued_eq p nonempty
  exact ⟨x, there, fun y hy => Preference.compare_ne_gt_iff.mpr (most y hy)⟩

end

/-- One of the best, with a criterion that nothing among the best exceeds. -/
def Top (s : Selector) (p : Preference) (scores : List (NodeScore Rat))
    (x : NodeScore Rat) : Prop :=
  Best p scores x ∧ ∀ y, Best p scores y → s.criterion y ≤ s.criterion x

/-- One of the best, with a criterion within a billionth of the largest among the best. -/
def FinalTie (s : Selector) (p : Preference) (scores : List (NodeScore Rat)) (x : NodeScore Rat) :
    Prop :=
  Best p scores x ∧ ∃ top, Top s p scores top ∧ |s.criterion x - s.criterion top| ≤ 1 / 10 ^ 9

/-- A draw can come out at this score. -/
def CanWin {F : Type} [Quantity F] (s : Selector) (p : Preference) (scores : List (NodeScore F))
    (x : NodeScore F) : Prop :=
  ∃ first rest, finalTies s p scores = .ok (first :: rest) ∧ (Choice.among first rest).Reaches x

section

variable {s : Selector} {p : Preference} {scores others : List (NodeScore Rat)}
  {x y : NodeScore Rat}

theorem tieWidth_eq : (tieWidth : Rat) = 1 / 10 ^ 9 := by
  decide +kernel

/-- The criterion of a top score is the largest among the best. -/
theorem max?_criterion_iff {c : Rat} :
    ((bestValued p scores).map s.criterion).max? = some c ↔
      ∃ top, Top s p scores top ∧ s.criterion top = c := by
  simp only [List.max?_eq_some_iff, List.mem_map, forall_exists_index, and_imp,
    forall_apply_eq_imp_iff₂, mem_bestValued_iff]
  constructor
  · rintro ⟨⟨top, best, rfl⟩, most⟩
    exact ⟨top, ⟨best, most⟩, rfl⟩
  · rintro ⟨top, ⟨best, most⟩, rfl⟩
    exact ⟨⟨top, best, rfl⟩, most⟩

theorem exists_top (s : Selector) (p : Preference) (nonempty : scores ≠ []) :
    ∃ top, Top s p scores top := by
  obtain ⟨x, best⟩ := exists_best p nonempty
  cases found : ((bestValued p scores).map s.criterion).max? with
  | none =>
    rw [List.max?_eq_none_iff, List.map_eq_nil_iff] at found
    have listed := mem_bestValued_iff.mpr best
    simp [found] at listed
  | some c =>
    obtain ⟨top, holds, -⟩ := max?_criterion_iff.mp found
    exact ⟨top, holds⟩

/-- All top scores have one criterion. -/
theorem Top.criterion_eq (first : Top s p scores x) (second : Top s p scores y) :
    s.criterion x = s.criterion y :=
  le_antisymm (second.2 x first.1) (first.2 y second.1)

theorem Top.finalTie (top : Top s p scores x) : FinalTie s p scores x :=
  ⟨top.1, x, top, by rw [sub_self, abs_zero]; norm_num⟩

/-- A lone score is the best, and ties with itself. -/
theorem finalTie_singleton_iff {only : NodeScore Rat} : FinalTie s p [only] x ↔ x = only := by
  have alone (y : NodeScore Rat) : Best p [only] y ↔ y = only := by
    simp only [Best, List.mem_singleton, forall_eq, Preference.compare_ne_gt_iff]
    exact ⟨fun h => h.1, fun h => ⟨h, by rw [h]⟩⟩
  constructor
  · intro h
    exact (alone x).mp h.1
  · rintro rfl
    refine Top.finalTie ⟨(alone x).mpr rfl, fun y hy => ?_⟩
    rw [(alone y).mp hy]

/-- There are final ties, and the narrowing keeps just these. -/
theorem mem_finalTies (nonempty : scores ≠ []) :
    ∃ ties, finalTies s p scores = .ok ties ∧ ∀ x, x ∈ ties ↔ FinalTie s p scores x := by
  match scores, nonempty with
  | [only], _ => exact ⟨[only], rfl, fun x => by rw [List.mem_singleton, finalTie_singleton_iff]⟩
  | first :: second :: rest, nonempty =>
    obtain ⟨top, holds⟩ := exists_top s p nonempty
    have found := max?_criterion_iff.mpr ⟨top, holds, rfl⟩
    refine ⟨(bestValued p (first :: second :: rest)).filter fun score =>
      le (Quantity.abs (s.criterion score - s.criterion top)) tieWidth, ?_, fun x => ?_⟩
    · simp only [finalTies, max?_rat, found]
      rfl
    · simp only [List.mem_filter, mem_bestValued_iff, abs_rat, tieWidth_eq]
      refine and_congr_right fun _ => ⟨fun near => ⟨top, holds, of_decide_eq_true near⟩, ?_⟩
      rintro ⟨other, holds', near⟩
      rw [holds'.criterion_eq holds] at near
      exact decide_eq_true near

/-- Who wins depends on the scores that there are, and not on their order or number. -/
theorem finalTie_congr (same : ∀ x, x ∈ scores ↔ x ∈ others) :
    FinalTie s p scores x ↔ FinalTie s p others x := by
  have best (x : NodeScore Rat) : Best p scores x ↔ Best p others x := by simp only [Best, same]
  simp only [FinalTie, Top, best]

/-- A score that does not win can go. What is best is measured against a top score, which stays. -/
theorem finalTie_of_loser (nonempty : scores ≠ []) (within : ∀ x ∈ others, x ∈ scores)
    (rest : ∀ x ∈ scores, x = y ∨ x ∈ others) (loser : ¬ FinalTie s p scores y) :
    FinalTie s p others x ↔ FinalTie s p scores x := by
  obtain ⟨top, holds⟩ := exists_top s p nonempty
  have stays {x : NodeScore Rat} (wins : FinalTie s p scores x) : x ∈ others := by
    rcases rest x wins.1.1 with rfl | listed
    · exact absurd wins loser
    · exact listed
  have kept := stays holds.finalTie
  have best {x : NodeScore Rat} : Best p others x ↔ x ∈ others ∧ Best p scores x := by
    constructor
    · rintro ⟨listed, most⟩
      refine ⟨listed, within x listed, fun z hz => Preference.compare_ne_gt_iff.mpr ?_⟩
      exact (Preference.compare_ne_gt_iff.mp (holds.1.2 z hz)).trans
        (Preference.compare_ne_gt_iff.mp (most top kept))
    · rintro ⟨listed, -, most⟩
      exact ⟨listed, fun z hz => most z (within z hz)⟩
  have tops {x : NodeScore Rat} : Top s p others x ↔ x ∈ others ∧ Top s p scores x := by
    constructor
    · rintro ⟨best', most⟩
      obtain ⟨listed, best'⟩ := best.mp best'
      exact ⟨listed, best', fun z hz => (holds.2 z hz).trans (most top (best.mpr ⟨kept, holds.1⟩))⟩
    · rintro ⟨listed, best', most⟩
      exact ⟨best.mpr ⟨listed, best'⟩, fun z hz => most z (best.mp hz).2⟩
  constructor
  · rintro ⟨best', z, top', near⟩
    exact ⟨(best.mp best').2, z, (tops.mp top').2, near⟩
  · intro wins
    obtain ⟨best', z, top', near⟩ := wins
    exact ⟨best.mpr ⟨stays ⟨best', z, top', near⟩, best'⟩, z,
      tops.mpr ⟨stays top'.finalTie, top'⟩, near⟩

theorem exists_draw (s : Selector) (p : Preference) (nonempty : scores ≠ []) :
    ∃ first rest, finalTies s p scores = .ok (first :: rest) := by
  obtain ⟨ties, narrowed, mem⟩ := mem_finalTies (s := s) (p := p) nonempty
  obtain ⟨top, holds⟩ := exists_top s p nonempty
  obtain ⟨first, rest, rfl⟩ := List.exists_cons_of_ne_nil
    (List.ne_nil_of_mem ((mem top).mpr holds.finalTie))
  exact ⟨first, rest, narrowed⟩

theorem canWin_iff (nonempty : scores ≠ []) : CanWin s p scores x ↔ FinalTie s p scores x := by
  obtain ⟨ties, narrowed, mem⟩ := mem_finalTies (s := s) (p := p) nonempty
  obtain ⟨first, rest, drawn⟩ := exists_draw s p nonempty
  obtain rfl : ties = first :: rest := Except.ok.inj (narrowed.symm.trans drawn)
  rw [← mem, ← Choice.reaches_among]
  constructor
  · rintro ⟨first', rest', drawn', reached⟩
    obtain ⟨rfl, rfl⟩ := List.cons.inj (Except.ok.inj (drawn.symm.trans drawn'))
    exact reached
  · exact fun reached => ⟨first, rest, drawn, reached⟩

/-- The draw among the scores of a pass. As long as there is a score it never fails, and it comes
out at the final ties and at nothing else: at the scores that no other one is preferred to whose
criterion is within a billionth of the largest among these. There is always one; the order of the
scores does not matter, nor does the presence of a score that cannot win; and a lone score, which is
taken without looking at it, is the only final tie. -/
theorem draws_reach_final_ties (s : Selector) (p : Preference) (nonempty : scores ≠ []) :
    (∃ first rest, finalTies s p scores = .ok (first :: rest)) ∧
    (∀ x, CanWin s p scores x ↔ FinalTie s p scores x) ∧
    (∃ x, CanWin s p scores x) ∧
    (∀ others : List (NodeScore Rat), others.Perm scores →
      ∀ x, CanWin s p others x ↔ CanWin s p scores x) ∧
    (∀ before y after, scores = before ++ y :: after → ¬ CanWin s p scores y →
      ∀ x, CanWin s p (before ++ after) x ↔ CanWin s p scores x) ∧
    ∀ only, scores = [only] → finalTies s p scores = .ok [only] ∧
      ∀ x, FinalTie s p scores x ↔ x = only := by
  obtain ⟨top, holds⟩ := exists_top s p nonempty
  refine ⟨exists_draw s p nonempty, fun x => canWin_iff nonempty,
    ⟨top, (canWin_iff nonempty).mpr holds.finalTie⟩, ?_, ?_, ?_⟩
  · intro others perm x
    have nonempty' : others ≠ [] := by
      rintro rfl
      exact nonempty perm.nil_eq.symm
    rw [canWin_iff nonempty', canWin_iff nonempty]
    exact finalTie_congr fun x => perm.mem_iff
  · intro before y after split loser x
    rw [canWin_iff nonempty] at loser
    have within : ∀ x ∈ before ++ after, x ∈ scores := by
      intro x hx
      rw [split]
      simp only [List.mem_append, List.mem_cons] at hx ⊢
      tauto
    have rest : ∀ x ∈ scores, x = y ∨ x ∈ before ++ after := by
      intro x hx
      rw [split] at hx
      simp only [List.mem_append, List.mem_cons] at hx ⊢
      tauto
    have nonempty' : before ++ after ≠ [] := by
      rcases rest top holds.1.1 with rfl | listed
      · exact absurd holds.finalTie loser
      · exact List.ne_nil_of_mem listed
    rw [canWin_iff nonempty', canWin_iff nonempty]
    exact finalTie_of_loser nonempty within rest loser
  · rintro only rfl
    exact ⟨rfl, fun x => finalTie_singleton_iff⟩

end

deriving instance DecidableEq for NodeScore

/-- A score of this value and price. -/
def priceTag (name : String) (value : Int) (price : Rat) : NodeScore Rat where
  name
  placement := ⟨"pool", name, name, "here", "a"⟩
  value
  resources := ∅
  unscheduled := []
  hourlyPrice := price
  normalizedAllocatable := 0

/-- Each of the first three prices ties with the next one, and the last one is for a lower value. -/
def priceSteps : List (NodeScore Rat) :=
  [priceTag "dear" 300 (1 + 16 / 10 ^ 10), priceTag "fair" 300 (1 + 8 / 10 ^ 10),
    priceTag "cheap" 300 1, priceTag "useless" 100 (1 / 2)]

theorem draws_reach_final_ties_priceSteps : priceSteps ≠ [] ∧
    CanWin .minPrice .higher priceSteps (priceTag "fair" 300 (1 + 8 / 10 ^ 10)) ∧
    ¬ CanWin .minPrice .higher priceSteps (priceTag "dear" 300 (1 + 16 / 10 ^ 10)) ∧
    ∀ x, CanWin .minPrice .higher (priceSteps.drop 1) x ↔
      CanWin .minPrice .higher priceSteps x := by
  have nonempty : priceSteps ≠ [] := by simp [priceSteps]
  obtain ⟨⟨first, rest, drawn⟩, -, -, -, without, -⟩ :=
    draws_reach_final_ties .minPrice .higher nonempty
  have narrowed : (finalTies .minPrice .higher priceSteps).toOption =
      some [priceTag "fair" 300 (1 + 8 / 10 ^ 10), priceTag "cheap" 300 1] := by
    decide +kernel
  rw [drawn] at narrowed
  obtain ⟨rfl, rfl⟩ := List.cons.inj (Option.some.inj narrowed)
  have loser : ¬ CanWin .minPrice .higher priceSteps (priceTag "dear" 300 (1 + 16 / 10 ^ 10)) := by
    rintro ⟨first, rest, drawn', reached⟩
    rw [Choice.reaches_among, ← Except.ok.inj (drawn.symm.trans drawn')] at reached
    simp [priceTag] at reached
  refine ⟨nonempty, ⟨_, _, drawn, Choice.reaches_among.mpr List.mem_cons_self⟩, loser, ?_⟩
  exact without [] _ _ rfl loser

end ScaleAdvisor
