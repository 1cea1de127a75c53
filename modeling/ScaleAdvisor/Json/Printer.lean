import ScaleAdvisor.Json.Value
import ScaleAdvisor.Decimal.Plain

/-!
Compact JSON text: no spaces, members in their order, and only quotes, backslashes and controls
escaped.
-/

namespace ScaleAdvisor.Json

/-- Four digits of a small number in base sixteen. -/
def hex4 (n : Nat) : List Char :=
  let digits := Nat.toDigits 16 n
  List.replicate (4 - digits.length) '0' ++ digits

def escapeChar (c : Char) : List Char :=
  match c with
  | '"' => ['\\', '"']
  | '\\' => ['\\', '\\']
  | '\x08' => ['\\', 'b']
  | '\x0c' => ['\\', 'f']
  | '\n' => ['\\', 'n']
  | '\r' => ['\\', 'r']
  | '\t' => ['\\', 't']
  | c => if c.toNat < 0x20 then '\\' :: 'u' :: hex4 c.toNat else [c]

def writeText (s : String) : String :=
  String.ofList ('"' :: s.toList.flatMap escapeChar ++ ['"'])

/-- A double keeps its point, so that it is read back as a double. -/
def writeReal (x : Float) : String :=
  let digits := Decimal.plain x
  if digits.toList.contains '.' then digits else digits ++ ".0"

mutual

def write : Json → String
  | .null => "null"
  | .unreadable => "null"
  | .bool true => "true"
  | .bool false => "false"
  | .int n => toString n
  | .real x => writeReal x
  | .text s => writeText s
  | .array items => "[" ++ writeItems items ++ "]"
  | .object members => "\x7b" ++ writeMembers members ++ "\x7d"

def writeItems : List Json → String
  | [] => ""
  | [v] => v.write
  | v :: rest => v.write ++ "," ++ writeItems rest

def writeMembers : List (String × Json) → String
  | [] => ""
  | [(name, v)] => writeText name ++ ":" ++ v.write
  | (name, v) :: rest => writeText name ++ ":" ++ v.write ++ "," ++ writeMembers rest

end

end ScaleAdvisor.Json
