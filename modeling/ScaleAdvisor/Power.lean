/-!
Powers of two and of ten, the bounds of machine words and the steps of decimal places.
-/

namespace ScaleAdvisor

/-- Two, `n` times multiplied. -/
def twoTo (n : Nat) : Nat := Nat.pow 2 n

/-- Ten, `n` times multiplied. -/
def tenTo (n : Nat) : Nat := Nat.pow 10 n

end ScaleAdvisor
