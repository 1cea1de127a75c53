/-!
JSON values. Members of an object keep their order and their repetitions, so that a record reader
can tell a field given twice from one given once.
-/

namespace ScaleAdvisor

inductive Json where
  | null
  | bool (b : Bool)
  | int (n : Int)
  | real (x : Float)
  | text (s : String)
  | array (items : List Json)
  | object (members : List (String × Json))
  /-- A number beyond the doubles or a text with half a surrogate pair: well formed, but without a
  value. It may stand only where nothing reads it. -/
  | unreadable
  deriving Inhabited

namespace Json

def ofNat (n : Nat) : Json := .int n

/-- Doubles without a decimal form are written as null. -/
def ofFloat (x : Float) : Json := if x.isFinite then .real x else .null

def ofOption {α : Type} (encode : α → Json) : Option α → Json
  | none => .null
  | some a => encode a

def ofList {α : Type} (encode : α → Json) (items : List α) : Json := .array (items.map encode)

/-- Put a member at its place in ascending key order, before its equals. -/
def placeMember (m : String × Json) : List (String × Json) → List (String × Json)
  | [] => [m]
  | n :: rest => if n.1 < m.1 then n :: placeMember m rest else m :: n :: rest

mutual

/-- The same value with the members of every object in ascending key order. -/
def sortMembers : Json → Json
  | .array items => .array (sortItems items)
  | .object members => .object (sortEach members)
  | v => v

def sortItems : List Json → List Json
  | [] => []
  | v :: rest => v.sortMembers :: sortItems rest

def sortEach : List (String × Json) → List (String × Json)
  | [] => []
  | (name, v) :: rest => placeMember (name, v.sortMembers) (sortEach rest)

end

mutual

/-- How many containers a value is deep. -/
def depth : Json → Nat
  | .array items => itemsDepth items + 1
  | .object members => membersDepth members + 1
  | _ => 0

def itemsDepth : List Json → Nat
  | [] => 0
  | v :: rest => max v.depth (itemsDepth rest)

def membersDepth : List (String × Json) → Nat
  | [] => 0
  | (_, v) :: rest => max v.depth (membersDepth rest)

end

mutual

/-- Nothing inside is without a value. -/
def readable : Json → Bool
  | .array items => itemsReadable items
  | .object members => membersReadable members
  | .unreadable => false
  | _ => true

def itemsReadable : List Json → Bool
  | [] => true
  | v :: rest => v.readable && itemsReadable rest

def membersReadable : List (String × Json) → Bool
  | [] => true
  | (_, v) :: rest => v.readable && membersReadable rest

end

end Json

end ScaleAdvisor
