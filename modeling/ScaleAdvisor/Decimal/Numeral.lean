import ScaleAdvisor.Power

/-!
Reading decimal numerals as doubles. The digits form one whole number of at most 64 bits, further
digits only move the point, and a single multiplication or division by a power of ten follows.
-/

namespace ScaleAdvisor.Decimal

/-- `10 ^ n` as a double, for an `n` up to 308. -/
def tenPower (n : Nat) : Float := Float.ofScientific 1 false n

/-- The whole part of a numeral's digits that fits 64 bits, and how many digits follow it. -/
def leadingDigits (n : Nat) : List Char → Nat × Nat
  | [] => (n, 0)
  | c :: rest =>
    let next := 10 * n + (c.toNat - '0'.toNat)
    if next < twoTo 64 then leadingDigits next rest else (n, rest.length + 1)

/-- Go on with the digits behind the point, for as long as they fit 64 bits; also how many did. -/
def fractionDigits (n : Nat) : List Char → Nat × Nat
  | [] => (n, 0)
  | c :: rest =>
    let next := 10 * n + (c.toNat - '0'.toNat)
    if next < twoTo 64 then
      let (total, used) := fractionDigits next rest
      (total, used + 1)
    else (n, 0)

/-- `x * 10 ^ power`, or nothing when that is beyond the doubles. A power under -308 is divided out
in two or more steps. -/
def scaleTens (x : Float) (power : Int) : Option Float :=
  if 308 < power then
    if x == 0.0 then some x else none
  else if 0 ≤ power then
    let y := x * tenPower power.toNat
    if y.isInf then none else some y
  else
    let steps := ((-power).toNat - 1) / 308
    let rest := (-power).toNat - 308 * steps
    some ((List.range (min steps 3)).foldl (fun y _ => y / tenPower 308) x / tenPower rest)

/-- The double written by whole digits, digits behind the point and an exponent. -/
def ofParts (negative : Bool) (whole fraction : List Char) (exponent : Int) : Option Float :=
  let (head, dropped) := leadingDigits 0 whole
  let (significand, used) := fractionDigits head fraction
  (scaleTens (Float.ofNat significand) (exponent + dropped - used)).map fun x =>
    if negative then -x else x

/-- The number that a run of digits writes. -/
def natOfDigits (digits : List Char) : Nat :=
  digits.foldl (fun n c => 10 * n + (c.toNat - '0'.toNat)) 0

end ScaleAdvisor.Decimal
