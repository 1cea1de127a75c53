/-!
Keys that a program can sort. A key type fixes a strict total order with a decidable test; every
listing of the library follows it. Text is ordered by code point, pairs lexicographically.
-/

namespace ScaleAdvisor

/-- A decidable strict total order. -/
class KeyOrder (κ : Type) where
  before : κ → κ → Bool
  irrefl : ∀ a, before a a = false
  trans : ∀ {a b c}, before a b = true → before b c = true → before a c = true
  total : ∀ {a b}, before a b = false → before b a = false → a = b

namespace KeyOrder

variable {κ ι : Type}

theorem asymm [KeyOrder κ] {a b : κ} (h : before a b = true) : before b a = false := by
  cases hba : before b a
  · rfl
  · exact absurd (trans h hba) (by simp [irrefl])

theorem ne_of_before [KeyOrder κ] {a b : κ} (h : before a b = true) : a ≠ b := by
  rintro rfl
  simp [irrefl] at h

/-- Equality read off the order. -/
def same [KeyOrder κ] (a b : κ) : Bool := !before a b && !before b a

@[simp]
theorem same_iff [KeyOrder κ] {a b : κ} : same a b = true ↔ a = b := by
  constructor
  · intro h
    simp only [same, Bool.and_eq_true, Bool.not_eq_true'] at h
    exact total h.1 h.2
  · rintro rfl
    simp [same, irrefl]

@[simp]
theorem same_eq_false_iff [KeyOrder κ] {a b : κ} : same a b = false ↔ a ≠ b := by
  rw [← Bool.not_eq_true, same_iff]

/-- The order that an injective map pulls back from its target. -/
@[reducible]
def comap [KeyOrder ι] (f : κ → ι) (injective : ∀ {a b}, f a = f b → a = b) : KeyOrder κ where
  before a b := before (f a) (f b)
  irrefl a := irrefl (f a)
  trans hab hbc := trans hab hbc
  total hab hba := injective (total hab hba)

instance : KeyOrder Nat where
  before a b := decide (a < b)
  irrefl a := by simp
  trans hab hbc := by simp_all; omega
  total hab hba := by simp_all; omega

instance : KeyOrder Int where
  before a b := decide (a < b)
  irrefl a := by simp
  trans hab hbc := by simp_all; omega
  total hab hba := by simp_all; omega

instance : KeyOrder String where
  before a b := decide (a < b)
  irrefl a := decide_eq_false (String.lt_irrefl a)
  trans hab hbc := by
    simp only [decide_eq_true_eq] at *
    exact String.lt_trans hab hbc
  total hab hba := by
    simp only [decide_eq_false_iff_not, String.not_lt] at *
    exact String.le_antisymm hba hab

instance [KeyOrder κ] [KeyOrder ι] : KeyOrder (κ × ι) where
  before a b := before a.1 b.1 || (!before b.1 a.1 && before a.2 b.2)
  irrefl a := by simp [irrefl]
  trans {a b c} hab hbc := by
    simp only [Bool.or_eq_true, Bool.and_eq_true, Bool.not_eq_true'] at *
    rcases hab with hab | ⟨hab, hab'⟩ <;> rcases hbc with hbc | ⟨hbc, hbc'⟩
    · exact .inl (trans hab hbc)
    · cases h : before b.1 c.1
      · exact .inl (total h hbc ▸ hab)
      · exact .inl (trans hab h)
    · cases h : before a.1 b.1
      · exact .inl (total h hab ▸ hbc)
      · exact .inl (trans h hbc)
    · cases h : before a.1 b.1 <;> cases h' : before b.1 c.1
      · have hab := total h hab
        have hbc := total h' hbc
        exact .inr ⟨by simp [hab, hbc, irrefl], trans hab' hbc'⟩
      · exact .inl (total h hab ▸ h')
      · exact .inl (total h' hbc ▸ h)
      · exact .inl (trans h h')
  total {a b} hab hba := by
    simp only [Bool.or_eq_false_iff, Bool.and_eq_false_iff, Bool.not_eq_false'] at *
    have first := total hab.1 hba.1
    refine Prod.ext first (total ?_ ?_)
    · rcases hab.2 with h | h
      · exact absurd h (by simp [first, irrefl])
      · exact h
    · rcases hba.2 with h | h
      · exact absurd h (by simp [first, irrefl])
      · exact h

theorem before_prod_iff [KeyOrder κ] [KeyOrder ι] {p q : κ × ι} :
    before p q = true ↔ before p.1 q.1 = true ∨ p.1 = q.1 ∧ before p.2 q.2 = true := by
  change (before p.1 q.1 || (!before q.1 p.1 && before p.2 q.2)) = true ↔ _
  cases first : before p.1 q.1 with
  | true => simp
  | false =>
    cases second : before q.1 p.1 with
    | true => simp [(ne_of_before second).symm]
    | false => simp [total first second]

end KeyOrder

end ScaleAdvisor
