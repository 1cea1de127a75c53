import ScaleAdvisor.Json.Value

/-!
The tables of a TOML document while it is read. A table knows how it came about, since a header may
open a table that only other headers have named before, and dotted keys may extend only tables that
dotted keys have made.
-/

namespace ScaleAdvisor.Toml

/-- How a table came about. -/
inductive Origin where
  /-- Named on the way to another table's header. -/
  | implied
  /-- Made by dotted keys. -/
  | dotted
  /-- Has a header of its own. -/
  | header
  deriving DecidableEq

inductive Entry where
  | value (v : Json)
  | table (origin : Origin) (members : List (String × Entry))
  /-- Tables of one name, the last one first. -/
  | tables (last : List (String × Entry)) (earlier : List (List (String × Entry)))

/-- The entries of one table. -/
abbrev Table := List (String × Entry)

namespace Table

def get? (t : Table) (key : String) : Option Entry := t.lookup key

/-- Put an entry under a key, in place of what is there. -/
def put (t : Table) (key : String) (e : Entry) : Table :=
  if t.any (·.1 == key) then t.map fun m => if m.1 == key then (key, e) else m else t ++ [(key, e)]

/-- Change the table that headers reach along a path, making what is missing on the way. Of tables
of one name the last one is meant. -/
def alter (change : Table → Option Table) : List String → Table → Option Table
  | [], t => change t
  | key :: path, t =>
    match t.get? key with
    | none => (alter change path []).map fun below => t.put key (.table .implied below)
    | some (.table origin below) =>
      (alter change path below).map fun below => t.put key (.table origin below)
    | some (.tables last earlier) =>
      (alter change path last).map fun last => t.put key (.tables last earlier)
    | some (.value _) => none

/-- Open the table of a header. -/
def openTable (key : String) (t : Table) : Option Table :=
  match t.get? key with
  | none => some (t.put key (.table .header []))
  | some (.table .implied below) => some (t.put key (.table .header below))
  | some _ => none

/-- Add a table to those of one name. -/
def pushTable (key : String) (t : Table) : Option Table :=
  match t.get? key with
  | none => some (t.put key (.tables [] []))
  | some (.tables last earlier) => some (t.put key (.tables [] (last :: earlier)))
  | some _ => none

/-- Give a new key a value; a dotted key makes tables on the way, and goes only through its like. -/
def assign (v : Json) : List String → Table → Option Table
  | [], _ => none
  | [key], t => if (t.get? key).isSome then none else some (t.put key (.value v))
  | key :: path, t =>
    match t.get? key with
    | none => (assign v path []).map fun below => t.put key (.table .dotted below)
    | some (.table .dotted below) =>
      (assign v path below).map fun below => t.put key (.table .dotted below)
    | some _ => none

end Table

mutual

def Entry.toJson : Entry → Json
  | .value v => v
  | .table _ members => .object (membersToJson members)
  | .tables last earlier => .array (tablesToJson earlier [.object (membersToJson last)])

def membersToJson : List (String × Entry) → List (String × Json)
  | [] => []
  | (key, e) :: rest => (key, e.toJson) :: membersToJson rest

/-- The tables in order, before those in `later`. -/
def tablesToJson : List (List (String × Entry)) → List Json → List Json
  | [], later => later
  | t :: earlier, later => tablesToJson earlier (.object (membersToJson t) :: later)

end

end ScaleAdvisor.Toml
