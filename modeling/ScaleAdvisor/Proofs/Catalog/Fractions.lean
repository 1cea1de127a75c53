import Mathlib.Algebra.BigOperators.Group.List.Basic
import Mathlib.Data.Rat.Floor
import Mathlib.Tactic.Linarith
import ScaleAdvisor.Catalog.Score

/-!
Scores computed without rounding errors: prices, weights and units are exact fractions, sums of
amounts are kept whatever their size, and only the value of a score is rounded, halves away from
zero.

* `sum_rat`, `max?_rat`, `abs_rat`: the arithmetic of scores is that of fractions;
* `round_mono`: rounding keeps the order.
-/

namespace ScaleAdvisor

namespace ScaleOut

/-- Exact fractions. -/
instance : Quantity Rat where
  ofInt x := x
  fit := id
  lt a b := decide (a < b)
  le a b := decide (a ≤ b)
  isNumber _ := true
  isFinite _ := true
  round x := if x < 0 then -(1 / 2 - x).floor else (x + 1 / 2).floor

end ScaleOut

namespace Quantity

theorem sum_rat (xs : List Rat) : Quantity.sum xs = xs.sum := (List.sum_eq_foldl ..).symm

theorem abs_rat (x : Rat) : Quantity.abs x = |x| := by
  by_cases negative : x < 0
  · rw [abs_of_neg negative]
    exact if_pos (decide_eq_true negative)
  · rw [abs_of_nonneg (not_lt.mp negative)]
    exact if_neg fun less => negative (of_decide_eq_true less)

/-- All fractions can be compared. -/
theorem max?_rat (xs : List Rat) : Quantity.max? xs = xs.max? := by
  have larger : (fun a b : Rat => if lt a b then b else a) = max := by
    funext a b
    simp only [lt, decide_eq_true_eq]
    split
    · rename_i less
      exact (max_eq_right_of_lt less).symm
    · rename_i more
      exact (max_eq_left (not_lt.mp more)).symm
  have numbers : xs.filter isNumber = xs := List.filter_eq_self.mpr fun _ _ => rfl
  rw [max?, numbers]
  cases xs with
  | nil => rfl
  | cons x rest => rw [larger, List.max?_cons']

theorem round_of_neg {x : Rat} (negative : x < 0) : Quantity.round x = -⌊1 / 2 - x⌋ :=
  if_pos negative

theorem round_of_nonneg {x : Rat} (nonneg : 0 ≤ x) : Quantity.round x = ⌊x + 1 / 2⌋ :=
  if_neg (not_lt.mpr nonneg)

theorem round_nonneg {x : Rat} (nonneg : 0 ≤ x) : 0 ≤ Quantity.round x := by
  rw [round_of_nonneg nonneg]
  exact Int.floor_nonneg.mpr (by linarith)

theorem round_mono {x y : Rat} (h : x ≤ y) : Quantity.round x ≤ Quantity.round y := by
  by_cases negative : y < 0
  · rw [round_of_neg (lt_of_le_of_lt h negative), round_of_neg negative]
    exact neg_le_neg (Int.floor_mono (by linarith))
  · rw [not_lt] at negative
    by_cases below : x < 0
    · have down : Quantity.round x ≤ 0 := by
        rw [round_of_neg below]
        exact neg_nonpos.mpr (Int.floor_nonneg.mpr (by linarith))
      exact down.trans (round_nonneg negative)
    · rw [round_of_nonneg (not_lt.mp below), round_of_nonneg negative]
      exact Int.floor_mono (by linarith)

example : Quantity.round (5 / 2 : Rat) = 3 ∧ Quantity.round (-5 / 2 : Rat) = -3 := by decide +kernel

end Quantity

end ScaleAdvisor
