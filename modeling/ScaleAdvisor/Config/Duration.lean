import ScaleAdvisor.Decimal.Numeral
import ScaleAdvisor.Text.Blank
import ScaleAdvisor.Text.Quoted

/-!
Durations as text: a positive whole number and one of the units `ms`, `s` and `m`, read as
milliseconds. Blanks around the text and around the number do not count. Numbers and results fit 64
bits.
-/

namespace ScaleAdvisor

/-- Why a text is no duration. -/
inductive DurationError where
  | noUnit (text : String)
  | notANumber (text : String)
  | notPositive (text : String)
  | tooLarge (text : String)
  deriving DecidableEq, Repr

def DurationError.message : DurationError → String
  | .noUnit s => "duration " ++ Text.quoted s ++ " has no unit (expected ms, s or m)"
  | .notANumber s => "invalid duration " ++ Text.quoted s
  | .notPositive s => "duration " ++ Text.quoted s ++ " must be positive"
  | .tooLarge s => "duration " ++ Text.quoted s ++ " is too large"

namespace Duration

/-- The numeral in front of the unit, and the milliseconds of the unit. -/
def splitUnit? (cs : List Char) : Option (List Char × Nat) :=
  match Text.stripEnd? ['m', 's'] cs with
  | some numeral => some (numeral, 1)
  | none =>
    match Text.stripEnd? ['s'] cs with
    | some numeral => some (numeral, 1000)
    | none => (Text.stripEnd? ['m'] cs).map (·, 60000)

/-- Digits after an optional plus sign, for a number that fits 64 bits. -/
def number? (cs : List Char) : Option Nat :=
  let digits := match cs with
    | '+' :: rest => rest
    | cs => cs
  if digits.isEmpty || !digits.all (fun c => '0' ≤ c && c ≤ '9') then none
  else
    let n := Decimal.natOfDigits digits
    if n < twoTo 64 then some n else none

/-- Milliseconds of a text without blanks at its ends. -/
def parseTrimmed (cs : List Char) : Except DurationError Nat :=
  let text := String.ofList cs
  match splitUnit? cs with
  | none => .error (.noUnit text)
  | some (numeral, unit) =>
    match number? (Text.trimChars numeral) with
    | none => .error (.notANumber text)
    | some 0 => .error (.notPositive text)
    | some n => if n * unit < twoTo 64 then .ok (n * unit) else .error (.tooLarge text)

def parse (text : String) : Except DurationError Nat := parseTrimmed (Text.trimChars text.toList)

end Duration

end ScaleAdvisor
