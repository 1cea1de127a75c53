/-!
Computations that may choose. A computation is a tree whose branches are choices and whose leaves
are the outcomes; every choice has at least one branch. The first branches lead to one outcome, and
`outcomes` lists all.
-/

namespace ScaleAdvisor

inductive Choice (α : Type) where
  | done (a : α)
  /-- One of `extra + 1` branches. -/
  | pick (extra : Nat) (next : Fin (extra + 1) → Choice α)

namespace Choice

variable {α β : Type}

def bind : Choice α → (α → Choice β) → Choice β
  | .done a, k => k a
  | .pick extra next, k => .pick extra fun i => (next i).bind k

instance : Monad Choice where
  pure := .done
  bind := bind

/-- One of the items of a list that is not empty. -/
def among (first : α) (rest : List α) : Choice α :=
  .pick rest.length fun i => .done (first :: rest)[i]

/-- Take the first branch everywhere. -/
def first : Choice α → α
  | .done a => a
  | .pick _ next => (next 0).first

/-- Take the branches picked, counted round the choice there is; without a pick take the first. -/
def follow : Choice α → List Nat → α
  | .done a, _ => a
  | .pick _ next, [] => (next 0).follow []
  | .pick extra next, i :: picks => (next (Fin.ofNat (extra + 1) i)).follow picks

def outcomes : Choice α → List α
  | .done a => [a]
  | .pick extra next => (List.finRange (extra + 1)).flatMap fun i => (next i).outcomes

/-- A way of choosing leads to this outcome. -/
inductive Reaches : Choice α → α → Prop where
  | done (a : α) : Reaches (.done a) a
  | pick {extra : Nat} {next : Fin (extra + 1) → Choice α} {a : α} (i : Fin (extra + 1)) :
      Reaches (next i) a → Reaches (.pick extra next) a

theorem reaches_done {a b : α} : Reaches (.done a) b ↔ b = a := by
  constructor
  · rintro ⟨⟩
    rfl
  · rintro rfl
    exact .done b

theorem reaches_pick {extra : Nat} {next : Fin (extra + 1) → Choice α} {a : α} :
    Reaches (.pick extra next) a ↔ ∃ i, Reaches (next i) a := by
  constructor
  · rintro ⟨⟩
    exact ⟨_, ‹_›⟩
  · rintro ⟨i, h⟩
    exact .pick i h

theorem reaches_bind {p : Choice α} {k : α → Choice β} {b : β} :
    (p.bind k).Reaches b ↔ ∃ a, p.Reaches a ∧ (k a).Reaches b := by
  induction p with
  | done a => simp [bind, reaches_done]
  | pick extra next ih =>
    simp only [bind, reaches_pick, ih]
    constructor
    · rintro ⟨i, a, h, hk⟩
      exact ⟨a, ⟨i, h⟩, hk⟩
    · rintro ⟨a, ⟨i, h⟩, hk⟩
      exact ⟨i, a, h, hk⟩

theorem bind_bind {γ : Type} (p : Choice α) (k : α → Choice β) (l : β → Choice γ) :
    (p.bind k).bind l = p.bind fun a => (k a).bind l := by
  induction p with
  | done a => rfl
  | pick extra next ih =>
    simp only [bind]
    exact congrArg (pick extra) (funext ih)

/-- What goes on after a computation depends on its outcomes alone. -/
theorem bind_congr {p : Choice α} {k l : α → Choice β} (same : ∀ a, p.Reaches a → k a = l a) :
    p.bind k = p.bind l := by
  induction p with
  | done a => exact same a (.done a)
  | pick extra next ih =>
    simp only [bind]
    exact congrArg (pick extra) (funext fun i => ih i fun a reached => same a (.pick i reached))

theorem mem_outcomes {p : Choice α} {a : α} : a ∈ p.outcomes ↔ p.Reaches a := by
  induction p with
  | done b => simp [outcomes, reaches_done]
  | pick extra next ih => simp [outcomes, reaches_pick, ih]

theorem reaches_first (p : Choice α) : p.Reaches p.first := by
  induction p with
  | done a => exact .done a
  | pick extra next ih => exact .pick 0 (ih 0)

theorem reaches_follow (p : Choice α) (picks : List Nat) : p.Reaches (p.follow picks) := by
  induction p generalizing picks with
  | done a => exact .done a
  | pick extra next ih =>
    cases picks with
    | nil => exact .pick 0 (ih 0 [])
    | cons i picks => exact .pick _ (ih _ picks)

/-- Picks lead to every outcome. -/
theorem reaches_iff_exists_follow {p : Choice α} {a : α} :
    p.Reaches a ↔ ∃ picks, p.follow picks = a := by
  constructor
  · intro h
    induction h with
    | done a => exact ⟨[], rfl⟩
    | @pick extra next a i _ ih =>
      obtain ⟨picks, rfl⟩ := ih
      exact ⟨i :: picks, by rw [follow, Fin.ofNat_val_eq_self]⟩
  · rintro ⟨picks, rfl⟩
    exact p.reaches_follow picks

/-- What is made of an outcome takes no picks. -/
theorem follow_bind_done (p : Choice α) (f : α → β) (picks : List Nat) :
    (p.bind fun a => .done (f a)).follow picks = f (p.follow picks) := by
  induction p generalizing picks with
  | done a => rfl
  | pick extra next ih =>
    cases picks with
    | nil => exact ih 0 []
    | cons i picks => exact ih _ picks

theorem reaches_among {first : α} {rest : List α} {a : α} :
    (among first rest).Reaches a ↔ a ∈ first :: rest := by
  simp only [among, reaches_pick, reaches_done]
  constructor
  · rintro ⟨i, rfl⟩
    exact List.getElem_mem _
  · intro h
    obtain ⟨i, hi, rfl⟩ := List.mem_iff_getElem.mp h
    exact ⟨⟨i, hi⟩, rfl⟩

end Choice

end ScaleAdvisor
