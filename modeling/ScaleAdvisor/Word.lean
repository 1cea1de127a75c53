import ScaleAdvisor.Power

/-!
Whole numbers in words of 64 bits. A sum or a difference that does not fit wraps around: what is
kept is the word that differs from it by a multiple of two to the 64.

* `wrap64_eq_self`: what fits is kept;
* `wrap64_add_left`, `wrap64_sub_right`: a sum may be wrapped at every step or once at the end.
-/

namespace ScaleAdvisor

/-- A whole number of 64 bits. -/
def IsInt64 (n : Int) : Prop := -(twoTo 63 : Int) ≤ n ∧ n ≤ twoTo 63 - 1

instance (n : Int) : Decidable (IsInt64 n) := inferInstanceAs (Decidable (_ ∧ _))

/-- What a word of 64 bits keeps of a whole number. -/
def wrap64 (n : Int) : Int := (n + twoTo 63) % twoTo 64 - twoTo 63

variable {a b n : Int}

theorem isInt64_iff : IsInt64 n ↔ -9223372036854775808 ≤ n ∧ n ≤ 9223372036854775807 := Iff.rfl

theorem wrap64_eq (n : Int) :
    wrap64 n = (n + 9223372036854775808) % 18446744073709551616 - 9223372036854775808 :=
  rfl

theorem isInt64_zero : IsInt64 0 := by decide

theorem isInt64_wrap64 (n : Int) : IsInt64 (wrap64 n) := by
  rw [isInt64_iff, wrap64_eq]
  omega

theorem isInt64_max (ha : IsInt64 a) (hb : IsInt64 b) : IsInt64 (max a b) := by
  rw [isInt64_iff] at *
  omega

/-- Of what is not negative no difference is too large. -/
theorem isInt64_sub_of_nonneg (ha : IsInt64 a) (hb : IsInt64 b) (nonneg : 0 ≤ a) (taken : 0 ≤ b) :
    IsInt64 (a - b) := by
  rw [isInt64_iff] at *
  omega

theorem wrap64_eq_self (fits : IsInt64 n) : wrap64 n = n := by
  rw [isInt64_iff] at fits
  rw [wrap64_eq]
  omega

@[simp]
theorem wrap64_zero : wrap64 0 = 0 := wrap64_eq_self isInt64_zero

theorem wrap64_add_left (a b : Int) : wrap64 (wrap64 a + b) = wrap64 (a + b) := by
  simp only [wrap64_eq]
  omega

theorem wrap64_sub_left (a b : Int) : wrap64 (wrap64 a - b) = wrap64 (a - b) := by
  simp only [wrap64_eq]
  omega

theorem wrap64_sub_right (a b : Int) : wrap64 (a - wrap64 b) = wrap64 (a - b) := by
  simp only [wrap64_eq]
  omega

/-- A number that is not too large can only wrap upwards. -/
theorem le_wrap64 (h : n ≤ 9223372036854775807) : n ≤ wrap64 n := by
  rw [wrap64_eq]
  omega

end ScaleAdvisor
