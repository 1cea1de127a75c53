import ScaleAdvisor.Word

/-!
The arithmetic of prices and scores. Programs use doubles beside amounts of 64 bits; the laws of
scoring are stated over any numbers with these operations, exact ones included.
-/

namespace ScaleAdvisor

class Quantity (F : Type) extends Add F, Sub F, Mul F, Div F, Neg F, OfScientific F where
  ofInt : Int → F
  /-- What is kept of a sum of amounts. -/
  fit : Int → Int
  lt : F → F → Bool
  le : F → F → Bool
  /-- Comparable with every other number. -/
  isNumber : F → Bool
  isFinite : F → Bool
  /-- The nearest whole number, halves away from zero. -/
  round : F → Int

namespace Quantity

variable {F : Type} [Quantity F]

def abs (x : F) : F := if lt x (ofInt 0) then -x else x

def sum (xs : List F) : F := xs.foldl (· + ·) (ofInt 0)

/-- The largest of the comparable numbers. -/
def max? (xs : List F) : Option F :=
  match xs.filter isNumber with
  | [] => none
  | x :: rest => some (rest.foldl (fun a b => if lt a b then b else a) x)

end Quantity

/-- Doubles; rounding is clamped to 64 bits, and what is not a number rounds to zero. -/
instance : Quantity Float where
  ofInt := Float.ofInt
  fit := wrap64
  lt a b := a < b
  le a b := a ≤ b
  isNumber x := !x.isNaN
  isFinite := Float.isFinite
  round x := x.round.toInt64.toInt

end ScaleAdvisor
