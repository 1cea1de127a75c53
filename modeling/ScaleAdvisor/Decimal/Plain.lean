import ScaleAdvisor.Decimal.Shortest

/-!
A double as plain decimal text: the shortest digits that read back, never an exponent, and no point
on whole numbers.
-/

namespace ScaleAdvisor.Decimal

def zeros (n : Nat) : List Char := List.replicate n '0'

/-- Write `n * 10 ^ p` by positions. -/
def positional (n : Nat) (p : Int) : List Char :=
  let digits := Nat.toDigits 10 n
  if 0 ≤ p then digits ++ zeros p.toNat
  else
    let after := (-p).toNat
    if after < digits.length then
      digits.take (digits.length - after) ++ '.' :: digits.drop (digits.length - after)
    else '0' :: '.' :: zeros (after - digits.length) ++ digits

def plain (x : Float) : String :=
  if x.isNaN then "NaN"
  else
    let sign := if x.toBits.toNat < twoTo 63 then [] else ['-']
    let magnitude :=
      if x.isInf then ['i', 'n', 'f']
      else
        let b := Binary.ofFloat x
        if b.mantissa = 0 then ['0'] else let (n, p) := shortest b; positional n p
    String.ofList (sign ++ magnitude)

end ScaleAdvisor.Decimal
