import ScaleAdvisor.Json.Token

/-!
The scalars of TOML text: quoted and bare text, numbers, truth values and dates. Readers take a
value off the front of a text and give what follows it. A date or a time has no value here, it is
only checked.
-/

namespace ScaleAdvisor.Toml

open Json (isDigit hexValue?)

/-- A control character other than the tab, which no text and no comment may hold. -/
def isForbidden (c : Char) : Bool := (c.toNat < 0x20 && c != '\t') || c.toNat == 0x7F

def isBareKeyChar (c : Char) : Bool := c.isAlphanum || c == '_' || c == '-'

def skipSpaces (cs : List Char) : List Char := cs.dropWhile fun c => c == ' ' || c == '\t'

/-- The number that hexadecimal digits write. -/
def hexNumber? (digits : List Char) : Option Nat :=
  digits.foldlM (fun n c => (hexValue? c).map (16 * n + ·)) 0

/-- The character of a number; surrogates and numbers beyond Unicode have none. -/
def scalarChar? (n : Nat) : Option Char := if n.isValidChar then some (Char.ofNat n) else none

def simpleEscape? : Char → Option Char
  | 'b' => some '\x08'
  | 't' => some '\t'
  | 'n' => some '\n'
  | 'f' => some '\x0c'
  | 'r' => some '\r'
  | '"' => some '"'
  | '\\' => some '\\'
  | _ => none

/-- Text between double quotes on one line, from behind the opening quote. -/
def basicText : List Char → Option (List Char × List Char)
  | [] => none
  | '"' :: rest => some ([], rest)
  | '\\' :: 'u' :: a :: b :: c :: d :: rest => do
    let ch ← scalarChar? (← hexNumber? [a, b, c, d])
    let (cs, after) ← basicText rest
    some (ch :: cs, after)
  | '\\' :: 'U' :: a :: b :: c :: d :: e :: f :: g :: h :: rest => do
    let ch ← scalarChar? (← hexNumber? [a, b, c, d, e, f, g, h])
    let (cs, after) ← basicText rest
    some (ch :: cs, after)
  | '\\' :: e :: rest => do
    let ch ← simpleEscape? e
    let (cs, after) ← basicText rest
    some (ch :: cs, after)
  | c :: rest =>
    if isForbidden c then none
    else (basicText rest).map fun (cs, after) => (c :: cs, after)

/-- Text between single quotes on one line, from behind the opening quote. -/
def literalText : List Char → Option (List Char × List Char)
  | [] => none
  | '\x27' :: rest => some ([], rest)
  | c :: rest =>
    if isForbidden c then none
    else (literalText rest).map fun (cs, after) => (c :: cs, after)

/-- Drop the line break that may follow an opening triple quote. -/
def dropFirstBreak : List Char → List Char
  | '\n' :: rest => rest
  | '\r' :: '\n' :: rest => rest
  | cs => cs

/-- Where a text in triple quotes ends: of up to five quotes in a row the last three close it. -/
def closing? (q : Char) (cs : List Char) : Option (List Char × List Char) :=
  let run := cs.takeWhile (· == q)
  if run.length < 3 || 5 < run.length then none
  else some (run.drop 3, cs.drop run.length)

/-- Drop blanks and line breaks, as a backslash at the end of a line asks for. -/
def dropBlankLines : List Char → List Char
  | ' ' :: rest => dropBlankLines rest
  | '\t' :: rest => dropBlankLines rest
  | '\n' :: rest => dropBlankLines rest
  | '\r' :: '\n' :: rest => dropBlankLines rest
  | cs => cs

/-- What follows a backslash when only blanks stand between it and the end of its line. -/
def foldedLine? (cs : List Char) : Option (List Char) :=
  match skipSpaces cs with
  | '\n' :: rest => some (dropBlankLines rest)
  | '\r' :: '\n' :: rest => some (dropBlankLines rest)
  | _ => none

/-- Text between triple double quotes. `steps` bounds the characters looked at. -/
def basicLines : (steps : Nat) → List Char → Option (List Char × List Char)
  | 0, _ => none
  | steps + 1, cs =>
    match cs with
    | [] => none
    | '"' :: rest =>
      match closing? '"' cs with
      | some found => some found
      | none =>
        if (cs.takeWhile (· == '"')).length < 3 then
          (basicLines steps rest).map fun (text, after) => ('"' :: text, after)
        else none
    | '\\' :: 'u' :: a :: b :: c :: d :: rest => do
      let ch ← scalarChar? (← hexNumber? [a, b, c, d])
      let (text, after) ← basicLines steps rest
      some (ch :: text, after)
    | '\\' :: 'U' :: a :: b :: c :: d :: e :: f :: g :: h :: rest => do
      let ch ← scalarChar? (← hexNumber? [a, b, c, d, e, f, g, h])
      let (text, after) ← basicLines steps rest
      some (ch :: text, after)
    | '\\' :: rest =>
      match foldedLine? rest with
      | some folded => basicLines steps folded
      | none =>
        match rest with
        | e :: rest => do
          let ch ← simpleEscape? e
          let (text, after) ← basicLines steps rest
          some (ch :: text, after)
        | [] => none
    | '\r' :: '\n' :: rest | '\n' :: rest =>
      (basicLines steps rest).map fun (text, after) => ('\n' :: text, after)
    | c :: rest =>
      if isForbidden c then none
      else (basicLines steps rest).map fun (text, after) => (c :: text, after)

/-- Text between triple single quotes. -/
def literalLines : List Char → Option (List Char × List Char)
  | [] => none
  | '\x27' :: rest =>
    match closing? '\x27' ('\x27' :: rest) with
    | some found => some found
    | none =>
      if (('\x27' :: rest).takeWhile (· == '\x27')).length < 3 then
        (literalLines rest).map fun (text, after) => ('\x27' :: text, after)
      else none
  | '\r' :: '\n' :: rest => (literalLines rest).map fun (text, after) => ('\n' :: text, after)
  | '\n' :: rest => (literalLines rest).map fun (text, after) => ('\n' :: text, after)
  | c :: rest =>
    if isForbidden c then none
    else (literalLines rest).map fun (text, after) => (c :: text, after)

/-- A text value with any of the four ways of quoting. -/
def quotedText? : List Char → Option (List Char × List Char)
  | '"' :: '"' :: '"' :: rest =>
    let body := dropFirstBreak rest
    basicLines (body.length + 1) body
  | '"' :: rest => basicText rest
  | '\x27' :: '\x27' :: '\x27' :: rest => literalLines (dropFirstBreak rest)
  | '\x27' :: rest => literalText rest
  | _ => none

/-- Digits with single underscores between them; gives the digits alone. -/
def groupedDigits? (accept : Char → Bool) : List Char → Option (List Char)
  | [] => none
  | [c] => if accept c then some [c] else none
  | c :: '_' :: rest =>
    if accept c then (groupedDigits? accept rest).map (c :: ·) else none
  | c :: rest => if accept c then (groupedDigits? accept rest).map (c :: ·) else none

def splitSign : List Char → Bool × List Char
  | '-' :: rest => (true, rest)
  | '+' :: rest => (false, rest)
  | cs => (false, cs)

/-- Digits of a decimal whole number, which starts with a zero only when it is zero. -/
def wholeDigits? (cs : List Char) : Option (List Char) := do
  let digits ← groupedDigits? isDigit cs
  if digits.head? == some '0' && 1 < digits.length then none
  return digits

def numberInBase? (base : Nat) (cs : List Char) : Option Nat := do
  let accept (c : Char) : Bool := (hexValue? c).any (· < base)
  let digits ← groupedDigits? accept cs
  return digits.foldl (fun n c => base * n + (hexValue? c).getD 0) 0

def within64 (n : Int) : Option Json :=
  if -twoTo 63 ≤ n ∧ n < twoTo 63 then some (.int n) else none

def integer? : List Char → Option Json
  | '0' :: 'x' :: rest => (numberInBase? 16 rest).bind (within64 ·)
  | '0' :: 'o' :: rest => (numberInBase? 8 rest).bind (within64 ·)
  | '0' :: 'b' :: rest => (numberInBase? 2 rest).bind (within64 ·)
  | cs => do
    let (negative, rest) := splitSign cs
    let n : Int := Decimal.natOfDigits (← wholeDigits? rest)
    within64 (if negative then -n else n)

/-- The double nearest to a decimal number. -/
def nearestDouble (digits : Nat) (exponent : Int) : Float :=
  let size : Int := (Nat.toDigits 10 digits).length
  if digits = 0 || exponent + size < -400 then 0
  else if 400 < exponent + size then 1.0 / 0.0
  else if 0 ≤ exponent then Float.ofScientific digits false exponent.toNat
  else Float.ofScientific digits true (-exponent).toNat

/-- Digits of an exponent, zeros in front allowed. -/
def exponent? (cs : List Char) : Option Int := do
  let (negative, rest) := splitSign cs
  let n : Int := Decimal.natOfDigits (← groupedDigits? isDigit rest)
  return if negative then -n else n

/-- A number with a fraction, an exponent or both. -/
def decimal? (cs : List Char) : Option Json := do
  let (negative, unsigned) := splitSign cs
  let isMark (c : Char) : Bool := c == 'e' || c == 'E'
  let mantissa := unsigned.takeWhile fun c => !isMark c
  let tail := unsigned.dropWhile fun c => !isMark c
  let exponent ← match tail with
    | [] => some 0
    | _ :: rest => exponent? rest
  let wholePart := mantissa.takeWhile (· != '.')
  let whole ← wholeDigits? wholePart
  let fraction ← match mantissa.dropWhile (· != '.') with
    | [] => if tail.isEmpty then none else some []
    | _ :: rest => groupedDigits? isDigit rest
  let x := nearestDouble (Decimal.natOfDigits (whole ++ fraction)) (exponent - fraction.length)
  if negative then some (.real (-x))
  else if x.isInf then none
  else some (.real x)

def special? (cs : List Char) : Option Json :=
  let (negative, rest) := splitSign cs
  let sign (x : Float) : Json := .real (if negative then -x else x)
  if rest == ['i', 'n', 'f'] then some (sign (1.0 / 0.0))
  else if rest == ['n', 'a', 'n'] then some (sign (0.0 / 0.0))
  else none

/-- The number that exactly `count` digits at the front write. -/
def fixedDigits? (count : Nat) (cs : List Char) : Option (Nat × List Char) :=
  let digits := cs.take count
  if digits.length == count && digits.all isDigit then
    some (Decimal.natOfDigits digits, cs.drop count)
  else none

def expect? (c : Char) : List Char → Option (List Char)
  | d :: rest => if c == d then some rest else none
  | [] => none

def daysInMonth (year month : Nat) : Nat :=
  if month == 2 then
    if year % 4 == 0 && (year % 100 != 0 || year % 400 == 0) then 29 else 28
  else if month == 4 || month == 6 || month == 9 || month == 11 then 30
  else 31

def skipDate? (cs : List Char) : Option (List Char) := do
  let (year, cs) ← fixedDigits? 4 cs
  let (month, cs) ← fixedDigits? 2 (← expect? '-' cs)
  let (day, cs) ← fixedDigits? 2 (← expect? '-' cs)
  if 1 ≤ month && month ≤ 12 && 1 ≤ day && day ≤ daysInMonth year month then some cs else none

def skipTime? (cs : List Char) : Option (List Char) := do
  let (hour, cs) ← fixedDigits? 2 cs
  let (minute, cs) ← fixedDigits? 2 (← expect? ':' cs)
  let (second, cs) ← fixedDigits? 2 (← expect? ':' cs)
  if 23 < hour || 59 < minute || 60 < second then none
  match cs with
  | '.' :: rest => if rest.head?.any isDigit then some (rest.dropWhile isDigit) else none
  | cs => some cs

def skipOffset? : List Char → Option (List Char)
  | 'Z' :: rest | 'z' :: rest => some rest
  | '+' :: rest | '-' :: rest => do
    let (hour, cs) ← fixedDigits? 2 rest
    let (minute, cs) ← fixedDigits? 2 (← expect? ':' cs)
    if hour ≤ 23 && minute ≤ 59 then some cs else none
  | cs => some cs

/-- What follows a date, a time, or both. -/
def skipMoment? (cs : List Char) : Option (List Char) :=
  match skipDate? cs with
  | none => skipTime? cs
  | some rest =>
    match rest with
    | 'T' :: time | 't' :: time => (skipTime? time).bind skipOffset?
    | ' ' :: time =>
      if time.head?.any isDigit then (skipTime? time).bind skipOffset? else some rest
    | rest => some rest

/-- A value without quotes: a moment, a truth value or a number. -/
def bareValue? (cs : List Char) : Option (Json × List Char) :=
  match skipMoment? cs with
  | some after => some (.unreadable, after)
  | none =>
    let isPart (c : Char) : Bool := c.isAlphanum || c == '_' || c == '-' || c == '+' || c == '.'
    let word := cs.takeWhile isPart
    let found : Option Json :=
      if word == ['t', 'r', 'u', 'e'] then some (.bool true)
      else if word == ['f', 'a', 'l', 's', 'e'] then some (.bool false)
      else (integer? word).or ((decimal? word).or (special? word))
    found.map (·, cs.dropWhile isPart)

end ScaleAdvisor.Toml
