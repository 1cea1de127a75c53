import ScaleAdvisor.SortedMap
import ScaleAdvisor.Json.Value
import ScaleAdvisor.Power

/-!
Reading records out of JSON values. A reader gives nothing when the value is not of its shape. In a
record unknown fields are passed over and a field given twice is refused; in a map the last value of
a name stands.
-/

namespace ScaleAdvisor.Json

/-- Reads one kind of value. -/
abbrev Reader (α : Type) := Json → Option α

def text? : Reader String
  | .text s => some s
  | _ => none

def bool? : Reader Bool
  | .bool b => some b
  | _ => none

/-- A whole number from `low` to `high`. -/
def intWithin? (low high : Int) : Reader Int
  | .int n => if low ≤ n ∧ n ≤ high then some n else none
  | _ => none

def int64? : Reader Int := intWithin? (-twoTo 63) (twoTo 63 - 1)

def int32? : Reader Int := intWithin? (-twoTo 31) (twoTo 31 - 1)

/-- A number from zero to below `bound`. -/
def natBelow? (bound : Nat) : Reader Nat
  | .int n => if 0 ≤ n ∧ n < bound then some n.toNat else none
  | _ => none

def nat32? : Reader Nat := natBelow? (twoTo 32)

def nat64? : Reader Nat := natBelow? (twoTo 64)

/-- A double; whole numbers count as doubles too. -/
def float? : Reader Float
  | .int n => some (Float.ofInt n)
  | .real x => some x
  | _ => none

/-- Null, or a value. -/
def nullable? {α : Type} (read : Reader α) : Reader (Option α)
  | .null => some none
  | v => (read v).map some

def list? {α : Type} (read : Reader α) : Reader (List α)
  | .array items => items.mapM read
  | _ => none

def map? {α : Type} (read : Reader α) : Reader (SortedMap String α)
  | .object members =>
    (members.mapM fun m => (read m.2).map fun a => (m.1, a)).map SortedMap.ofList
  | _ => none

def ofMap {α : Type} (encode : α → Json) (m : SortedMap String α) : Json :=
  .object (m.entries.map fun (name, a) => (name, encode a))

/-- One of a list of names, alone or with a null. -/
def choice? {α : Type} (choices : List (String × α)) : Reader α
  | .text s => choices.lookup s
  | .object [(s, .null)] => choices.lookup s
  | _ => none

/-- The members of a record. -/
abbrev Members := List (String × Json)

/-- Records are read as objects. A record may also be put down as an array of the values of its
fields, one after another; in that form it is not read here. -/
def record? {α : Type} (read : Members → Option α) : Reader α
  | .object members => read members
  | _ => none

namespace Members

/-- The value of a field that has to be there. -/
def field {α : Type} (m : Members) (name : String) (read : Reader α) : Option α :=
  match m.filter (·.1 == name) with
  | [(_, v)] => read v
  | _ => none

/-- The value of a field, or a default in its absence. -/
def fieldOr {α : Type} (m : Members) (name : String) (read : Reader α) (absent : α) : Option α :=
  match m.filter (·.1 == name) with
  | [] => some absent
  | [(_, v)] => read v
  | _ => none

/-- A field that may be absent or null. -/
def field? {α : Type} (m : Members) (name : String) (read : Reader α) : Option (Option α) :=
  m.fieldOr name (nullable? read) none

end Members

end ScaleAdvisor.Json
