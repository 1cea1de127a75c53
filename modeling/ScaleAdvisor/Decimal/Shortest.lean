import ScaleAdvisor.Power

/-!
The shortest decimal of a double: the fewest digits that read back as the same number, and of
those the nearest to it. All arithmetic is on whole numbers.
-/

namespace ScaleAdvisor.Decimal

/-- The magnitude of a finite double as `mantissa * 2 ^ exponent`. -/
structure Binary where
  mantissa : Nat
  exponent : Int
  /-- The double below lies half as far away as the one above. -/
  narrowBelow : Bool
  deriving DecidableEq, Repr

def Binary.ofFloat (x : Float) : Binary :=
  let bits : Nat := x.toBits.toNat
  let field : Nat := bits / twoTo 52 % twoTo 11
  let fraction : Nat := bits % twoTo 52
  if field = 0 then ⟨fraction, -1074, false⟩
  else ⟨fraction + twoTo 52, (field : Int) - 1075, fraction == 0 && decide (1 < field)⟩

/-- A number as a quotient of whole numbers. -/
structure Ratio where
  top : Nat
  bottom : Nat

/-- `n` times a power of two. -/
def Ratio.scaled (n : Nat) (power : Int) : Ratio :=
  if 0 ≤ power then ⟨n * twoTo power.toNat, 1⟩ else ⟨n, twoTo (-power).toNat⟩

/-- Compare `n * 10 ^ p` with a quotient. -/
def compareTens (n : Nat) (p : Int) (r : Ratio) : Ordering :=
  if 0 ≤ p then compare (n * tenTo p.toNat * r.bottom) r.top
  else compare (n * r.bottom) (r.top * tenTo (-p).toNat)

/-- The greatest `n` with `n * 10 ^ p` at most the quotient. -/
def floorTens (p : Int) (r : Ratio) : Nat :=
  if 0 ≤ p then r.top / (r.bottom * tenTo p.toNat) else r.top * tenTo (-p).toNat / r.bottom

/-- How many digits stand before the point of a quotient; zeros after the point count as fewer than
none. The scaling covers every double. -/
def pointPlace (r : Ratio) : Int :=
  ((Nat.toDigits 10 (r.top * tenTo 400 / r.bottom)).length : Int) - 400

/-- The numbers that read back as one double. -/
structure Band where
  low : Ratio
  high : Ratio
  /-- The ends read back too. -/
  closed : Bool

def Band.has (band : Band) (n : Nat) (p : Int) : Bool :=
  match compareTens n p band.low, compareTens n p band.high with
  | .gt, .lt => true
  | .eq, _ => band.closed
  | _, .eq => band.closed
  | _, _ => false

/-- Of the grid `10 ^ p`, the neighbour of the value that reads back; of two the nearer, and the
upper one at equal distance. -/
def onGrid (value : Ratio) (band : Band) (p : Int) : Option Nat :=
  let below := floorTens p value
  let above := below + 1
  match band.has below p, band.has above p with
  | false, false => none
  | true, false => some below
  | false, true => some above
  | true, true =>
    -- the midpoint of the two, on a grid ten times finer, is `10 * below + 5`
    if compareTens (10 * below + 5) (p - 1) value == .gt then some below else some above

/-- Digits and the power of ten of the last one, for a magnitude that is not zero. The coarsest grid
holds only the power of ten above the value; seventeen digits always suffice. -/
def shortest (b : Binary) : Nat × Int :=
  let value := Ratio.scaled (4 * b.mantissa) (b.exponent - 2)
  let low := Ratio.scaled (4 * b.mantissa - if b.narrowBelow then 1 else 2) (b.exponent - 2)
  let high := Ratio.scaled (4 * b.mantissa + 2) (b.exponent - 2)
  let band : Band := ⟨low, high, b.mantissa % 2 == 0⟩
  let place := pointPlace value
  let grids := (List.range 18).map fun (i : Nat) => place - (i : Int)
  (grids.findSome? fun p => (onGrid value band p).map (·, p)).getD (floorTens (-1100) value, -1100)

end ScaleAdvisor.Decimal
