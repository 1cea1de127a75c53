import ScaleAdvisor.Json.Token

/-!
Reading JSON text. The tokens drive a machine that keeps the containers still open, innermost
first; a text is accepted when exactly one value has been completed at its end.
-/

namespace ScaleAdvisor.Json

/-- A container that is still open, its contents so far in reverse order. -/
inductive Frame where
  | array (items : List Json)
  | object (members : List (String × Json))
  /-- An object that waits for the value of a member. -/
  | member (key : String) (members : List (String × Json))

/-- What the reader may accept next. -/
inductive Reading where
  | value (opened : List Frame)
  /-- The first item of an array, or its end. -/
  | firstItem (opened : List Frame)
  /-- The name of a member; when `first`, also the end of the object. -/
  | memberName (members : List (String × Json)) (first : Bool) (opened : List Frame)
  | colon (key : String) (members : List (String × Json)) (opened : List Frame)
  /-- A comma or the end of the innermost container. -/
  | separator (opened : List Frame)
  | complete (v : Json)

/-- A value has been completed inside the open containers. -/
def Reading.finish (v : Json) : List Frame → Reading
  | [] => .complete v
  | .array items :: opened => .separator (.array (v :: items) :: opened)
  | .object members :: opened => .separator (.object members :: opened)
  | .member key members :: opened => .separator (.object ((key, v) :: members) :: opened)

/-- Accept a value's first token. -/
def Reading.start (opened : List Frame) : Token → Option Reading
  | .openArray => some (.firstItem opened)
  | .openObject => some (.memberName [] true opened)
  | .text s => some (.finish (.text s) opened)
  | .scalar v => some (.finish v opened)
  | _ => none

def Reading.next : Reading → Token → Option Reading
  | .value opened, t => start opened t
  | .firstItem opened, .closeArray => some (.finish (.array []) opened)
  | .firstItem opened, t => start (.array [] :: opened) t
  | .memberName members _ opened, .text s => some (.colon s members opened)
  | .memberName _ true opened, .closeObject => some (.finish (.object []) opened)
  | .colon key members opened, .colon => some (.value (.member key members :: opened))
  | .separator (.array items :: opened), .comma => some (.value (.array items :: opened))
  | .separator (.array items :: opened), .closeArray =>
    some (.finish (.array items.reverse) opened)
  | .separator (.object members :: opened), .comma => some (.memberName members false opened)
  | .separator (.object members :: opened), .closeObject =>
    some (.finish (.object members.reverse) opened)
  | _, _ => none

def ofTokens? (tokens : List Token) : Option Json :=
  match tokens.foldlM Reading.next (.value []) with
  | some (.complete v) => some v
  | _ => none

/-- The value of a JSON text. -/
def read? (text : String) : Option Json := (scan text.toList).bind ofTokens?

end ScaleAdvisor.Json
