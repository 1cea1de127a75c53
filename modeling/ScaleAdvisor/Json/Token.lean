import ScaleAdvisor.Json.Value
import ScaleAdvisor.Decimal.Numeral

/-!
The tokens of JSON text. Scanning takes one token off the front; `scanOne_shorter` says that it
always consumes something, so that scanning a text ends.
-/

namespace ScaleAdvisor.Json

inductive Token where
  | openArray
  | closeArray
  | openObject
  | closeObject
  | comma
  | colon
  | text (s : String)
  /-- A scalar other than text. -/
  | scalar (v : Json)

def isSpace (c : Char) : Bool := c == ' ' || c == '\n' || c == '\r' || c == '\t'

def hexValue? (c : Char) : Option Nat :=
  if '0' ≤ c ∧ c ≤ '9' then some (c.toNat - '0'.toNat)
  else if 'a' ≤ c ∧ c ≤ 'f' then some (c.toNat - 'a'.toNat + 10)
  else if 'A' ≤ c ∧ c ≤ 'F' then some (c.toNat - 'A'.toNat + 10)
  else none

def hex4? (a b c d : Char) : Option Nat := do
  return (((← hexValue? a) * 16 + (← hexValue? b)) * 16 + (← hexValue? c)) * 16 + (← hexValue? d)

def isHighSurrogate (n : Nat) : Bool := 0xD800 ≤ n && n ≤ 0xDBFF

def isLowSurrogate (n : Nat) : Bool := 0xDC00 ≤ n && n ≤ 0xDFFF

/-- A character of a text, or a 16-bit unit written by its number. -/
inductive Piece where
  | char (c : Char)
  | code (n : Nat)

def escapedChar? : Char → Option Char
  | '"' => some '"'
  | '\\' => some '\\'
  | '/' => some '/'
  | 'b' => some '\x08'
  | 'f' => some '\x0c'
  | 'n' => some '\n'
  | 'r' => some '\r'
  | 't' => some '\t'
  | _ => none

/-- The pieces up to the closing quote, and what follows it. -/
def scanBody : List Char → Option (List Piece × List Char)
  | [] => none
  | '"' :: rest => some ([], rest)
  | '\\' :: 'u' :: a :: b :: c :: d :: rest => do
    let n ← hex4? a b c d
    let (pieces, after) ← scanBody rest
    some (.code n :: pieces, after)
  | '\\' :: e :: rest => do
    let c ← escapedChar? e
    let (pieces, after) ← scanBody rest
    some (.char c :: pieces, after)
  | c :: rest =>
    if c.toNat < 0x20 then none
    else do
      let (pieces, after) ← scanBody rest
      some (.char c :: pieces, after)

/-- The characters that pieces write; none when a surrogate stands alone. -/
def joinPieces : List Piece → Option (List Char)
  | [] => some []
  | .char c :: rest => (joinPieces rest).map (c :: ·)
  | .code n :: .code m :: rest =>
    if isHighSurrogate n then
      if isLowSurrogate m then
        (joinPieces rest).map (Char.ofNat (0x10000 + (n - 0xD800) * 0x400 + (m - 0xDC00)) :: ·)
      else none
    else if isLowSurrogate n then none
    else (joinPieces (.code m :: rest)).map (Char.ofNat n :: ·)
  | .code n :: rest =>
    if isHighSurrogate n || isLowSurrogate n then none
    else (joinPieces rest).map (Char.ofNat n :: ·)

theorem scanBody_shorter {cs : List Char} {body : List Piece} {rest : List Char}
    (h : scanBody cs = some (body, rest)) : rest.length < cs.length := by
  fun_induction scanBody cs generalizing body rest
  all_goals
    simp_all only [bind, Option.bind_eq_some_iff, Option.some.injEq, Prod.mk.injEq, reduceCtorEq,
      Prod.exists, List.length_cons]
  all_goals grind

def isDigit (c : Char) : Bool := '0' ≤ c && c ≤ '9'

/-- One or more digits. -/
def scanDigits (cs : List Char) : Option (List Char × List Char) :=
  match cs.takeWhile isDigit with
  | [] => none
  | digits => some (digits, cs.dropWhile isDigit)

/-- Digits behind a point; none when there is no point. -/
def scanFraction : List Char → Option (List Char × List Char)
  | '.' :: rest => scanDigits rest
  | cs => some ([], cs)

/-- A whole number with a sign or none. -/
def scanSigned : List Char → Option (Int × List Char)
  | '-' :: rest => (scanDigits rest).map fun (digits, after) =>
    (-(Decimal.natOfDigits digits : Int), after)
  | '+' :: rest => (scanDigits rest).map fun (digits, after) => (Decimal.natOfDigits digits, after)
  | rest => (scanDigits rest).map fun (digits, after) => (Decimal.natOfDigits digits, after)

/-- A power of ten; zero when there is no exponent. -/
def scanExponent : List Char → Option (Int × List Char)
  | 'e' :: rest => scanSigned rest
  | 'E' :: rest => scanSigned rest
  | cs => some (0, cs)

/-- The value of a numeral. Whole numbers that fit 64 bits, with or without a sign, stay exact; all
others, and minus zero, are doubles. -/
def numeral (negative : Bool) (whole fraction : List Char) (exponent : Int) (plain : Bool) : Json :=
  let n : Int := Decimal.natOfDigits whole
  if plain && !negative && n < twoTo 64 then .int n
  else if plain && negative && 0 < n && n ≤ twoTo 63 then .int (-n)
  else
    match Decimal.ofParts negative whole fraction exponent with
    | some x => .real x
    | none => .unreadable

/-- A numeral without its sign. A whole part of several digits starts with none that is zero. -/
def scanNumeral (negative : Bool) (cs : List Char) : Option (Json × List Char) := do
  let (whole, afterWhole) ← scanDigits cs
  if whole.head? == some '0' && 1 < whole.length then none
  let (fraction, afterFraction) ← scanFraction afterWhole
  let (exponent, rest) ← scanExponent afterFraction
  return (numeral negative whole fraction exponent (rest.length == afterWhole.length), rest)

theorem length_dropWhile_le (p : Char → Bool) (cs : List Char) :
    (cs.dropWhile p).length ≤ cs.length := (List.dropWhile_sublist p).length_le

theorem scanDigits_shorter {cs digits rest : List Char} (h : scanDigits cs = some (digits, rest)) :
    rest.length < cs.length := by
  cases cs with
  | nil => simp [scanDigits] at h
  | cons c cs =>
    unfold scanDigits at h
    split at h
    · simp at h
    · rename_i hne
      simp only [Option.some.injEq, Prod.mk.injEq] at h
      have hd : isDigit c = true := by
        cases hd : isDigit c
        · simp [hd] at hne
        · rfl
      rw [← h.2, List.dropWhile_cons_of_pos hd]
      exact Nat.lt_succ_of_le (length_dropWhile_le _ _)

theorem scanFraction_le {cs digits rest : List Char} (h : scanFraction cs = some (digits, rest)) :
    rest.length ≤ cs.length := by
  unfold scanFraction at h
  split at h
  · have := scanDigits_shorter h
    simp only [List.length_cons]
    omega
  · simp only [Option.some.injEq, Prod.mk.injEq] at h
    simp [h.2]

theorem scanSigned_shorter {cs rest : List Char} {n : Int} (h : scanSigned cs = some (n, rest)) :
    rest.length < cs.length := by
  unfold scanSigned at h
  split at h
  all_goals
    simp only [Option.map_eq_some_iff, Prod.exists, Prod.mk.injEq] at h
    obtain ⟨digits, after, hd, -, rfl⟩ := h
    have := scanDigits_shorter hd
    first | assumption | (simp only [List.length_cons]; omega)

theorem scanExponent_le {cs rest : List Char} {n : Int} (h : scanExponent cs = some (n, rest)) :
    rest.length ≤ cs.length := by
  unfold scanExponent at h
  split at h
  case h_3 =>
    simp only [Option.some.injEq, Prod.mk.injEq] at h
    simp [h.2]
  all_goals
    have := scanSigned_shorter h
    simp only [List.length_cons]
    omega

theorem scanNumeral_shorter {negative : Bool} {cs rest : List Char} {v : Json}
    (h : scanNumeral negative cs = some (v, rest)) : rest.length < cs.length := by
  simp only [scanNumeral, bind, pure, Option.bind_eq_some_iff, Prod.exists] at h
  obtain ⟨whole, afterWhole, hw, h⟩ := h
  split at h
  · simp at h
  · simp only [Option.bind_eq_some_iff, Prod.exists, Option.some.injEq, Prod.mk.injEq] at h
    obtain ⟨fraction, afterFraction, hf, exponent, rest', he, -, rfl⟩ := h
    have := scanDigits_shorter hw
    have := scanFraction_le hf
    have := scanExponent_le he
    omega

/-- One token off the front of a text that starts with no space. -/
def scanOne : List Char → Option (Token × List Char)
  | '[' :: rest => some (.openArray, rest)
  | ']' :: rest => some (.closeArray, rest)
  | '\x7b' :: rest => some (.openObject, rest)
  | '\x7d' :: rest => some (.closeObject, rest)
  | ',' :: rest => some (.comma, rest)
  | ':' :: rest => some (.colon, rest)
  | 'n' :: 'u' :: 'l' :: 'l' :: rest => some (.scalar .null, rest)
  | 't' :: 'r' :: 'u' :: 'e' :: rest => some (.scalar (.bool true), rest)
  | 'f' :: 'a' :: 'l' :: 's' :: 'e' :: rest => some (.scalar (.bool false), rest)
  | '"' :: rest => do
    let (body, after) ← scanBody rest
    match joinPieces body with
    | some cs => some (.text (String.ofList cs), after)
    | none => some (.scalar .unreadable, after)
  | '-' :: rest => do
    let (v, after) ← scanNumeral true rest
    some (.scalar v, after)
  | cs => do
    let (v, after) ← scanNumeral false cs
    some (.scalar v, after)

theorem scanOne_shorter {cs rest : List Char} {t : Token} (h : scanOne cs = some (t, rest)) :
    rest.length < cs.length := by
  unfold scanOne at h
  split at h
  case h_10 =>
    simp only [bind, Option.bind_eq_some_iff, Prod.exists] at h
    obtain ⟨body, after, hb, h⟩ := h
    have := scanBody_shorter hb
    split at h <;> simp_all <;> omega
  case h_11 =>
    simp only [bind, Option.bind_eq_some_iff, Prod.exists] at h
    obtain ⟨v, after, hn, h⟩ := h
    have := scanNumeral_shorter hn
    simp_all
    omega
  case h_12 =>
    simp only [bind, Option.bind_eq_some_iff, Prod.exists] at h
    obtain ⟨v, after, hn, h⟩ := h
    have := scanNumeral_shorter hn
    simp_all
  all_goals
    simp only [Option.some.injEq, Prod.mk.injEq] at h
    simp only [← h.2, List.length_cons]
    omega

/-- All tokens of a text. -/
def scan (cs : List Char) : Option (List Token) :=
  match cs with
  | [] => some []
  | c :: rest =>
    if isSpace c then scan rest
    else
      match h : scanOne (c :: rest) with
      | none => none
      | some (t, after) =>
        have : after.length < rest.length + 1 := scanOne_shorter h
        (scan after).map (t :: ·)
termination_by cs.length

end ScaleAdvisor.Json
