import ScaleAdvisor.Toml.Scalar
import ScaleAdvisor.Toml.Table

/-!
Reading a TOML document as a JSON object. A document is a sequence of lines, each a header, a key
with its value, or nothing; a value in brackets may run over several lines.
-/

namespace ScaleAdvisor.Toml

/-- What follows a comment, up to the end of its line. -/
def skipComment (cs : List Char) : List Char :=
  match cs with
  | '#' :: rest => rest.dropWhile fun c => !isForbidden c
  | cs => cs

/-- What follows spaces, an optional comment and the end of a line or of the text. -/
def endOfLine? (cs : List Char) : Option (List Char) :=
  match skipComment (skipSpaces cs) with
  | [] => some []
  | '\n' :: rest => some rest
  | '\r' :: '\n' :: rest => some rest
  | _ => none

/-- Skip spaces, comments and line breaks inside an array. -/
def skipLines : (steps : Nat) → List Char → List Char
  | 0, cs => cs
  | steps + 1, cs =>
    match skipComment (skipSpaces cs) with
    | '\n' :: rest => skipLines steps rest
    | '\r' :: '\n' :: rest => skipLines steps rest
    | rest => rest

/-- One part of a key. -/
def keyPart? (cs : List Char) : Option (String × List Char) :=
  match cs with
  | '"' :: rest => (basicText rest).map fun (text, after) => (String.ofList text, after)
  | '\x27' :: rest => (literalText rest).map fun (text, after) => (String.ofList text, after)
  | cs =>
    match cs.takeWhile isBareKeyChar with
    | [] => none
    | name => some (String.ofList name, cs.dropWhile isBareKeyChar)

/-- A key: parts with points between them. `steps` bounds their number. -/
def key? : (steps : Nat) → List Char → Option (List String × List Char)
  | 0, _ => none
  | steps + 1, cs => do
    let (part, after) ← keyPart? (skipSpaces cs)
    match skipSpaces after with
    | '.' :: rest =>
      let (parts, after) ← key? steps rest
      some (part :: parts, after)
    | after => some ([part], after)

mutual

/-- A value; `steps` bounds the parts that it is made of. -/
def value? : (steps : Nat) → List Char → Option (Json × List Char)
  | 0, _ => none
  | steps + 1, cs =>
    match cs with
    | '[' :: rest => (items? steps rest).map fun (items, after) => (.array items, after)
    | '\x7b' :: rest =>
      match skipSpaces rest with
      | '\x7d' :: after => some (.object [], after)
      | rest => (inlineMembers? steps [] rest).map fun (t, after) =>
        (.object (membersToJson t), after)
    | '"' :: _ | '\x27' :: _ =>
      (quotedText? cs).map fun (text, after) => (.text (String.ofList text), after)
    | cs => bareValue? cs

/-- The items of an array, up to its closing bracket. -/
def items? : (steps : Nat) → List Char → Option (List Json × List Char)
  | 0, _ => none
  | steps + 1, cs =>
    match skipLines (cs.length + 1) cs with
    | ']' :: after => some ([], after)
    | cs => do
      let (v, after) ← value? steps cs
      match skipLines (after.length + 1) after with
      | ']' :: after => some ([v], after)
      | ',' :: rest =>
        let (items, after) ← items? steps rest
        some (v :: items, after)
      | _ => none

/-- The members of an inline table, up to its closing brace. -/
def inlineMembers? : (steps : Nat) → Table → List Char → Option (Table × List Char)
  | 0, _, _ => none
  | steps + 1, t, cs => do
    let (path, after) ← key? (cs.length + 1) cs
    let rest ← expect? '=' after
    let (v, after) ← value? steps (skipSpaces rest)
    let t ← t.assign v path
    match skipSpaces after with
    | '\x7d' :: after => some (t, after)
    | ',' :: rest => inlineMembers? steps t rest
    | _ => none

end

/-- A document that has been read in part: its tables, and the path of the current one. -/
structure Document where
  root : Table := []
  current : List String := []

/-- Read the line at the front of a text. -/
def Document.line? (d : Document) (cs : List Char) : Option (Document × List Char) :=
  match skipSpaces cs with
  | '[' :: '[' :: rest => do
    let (path, after) ← key? (rest.length + 1) rest
    let after ← (expect? ']' after).bind (expect? ']')
    let rest ← endOfLine? after
    let root ← d.root.alter (Table.pushTable (path.getLastD "")) path.dropLast
    some (⟨root, path⟩, rest)
  | '[' :: rest => do
    let (path, after) ← key? (rest.length + 1) rest
    let rest ← (expect? ']' after).bind endOfLine?
    let root ← d.root.alter (Table.openTable (path.getLastD "")) path.dropLast
    some (⟨root, path⟩, rest)
  | line =>
    match endOfLine? line with
    | some rest => some (d, rest)
    | none => do
      let (path, after) ← key? (line.length + 1) line
      let rest ← expect? '=' after
      let (v, after) ← value? (rest.length + 1) (skipSpaces rest)
      let rest ← endOfLine? after
      let root ← d.root.alter (Table.assign v path) d.current
      some (⟨root, d.current⟩, rest)

/-- Read line after line; every line takes something off the text. -/
def Document.lines? (d : Document) (cs : List Char) : Option Document :=
  match cs with
  | [] => some d
  | c :: rest =>
    match d.line? (c :: rest) with
    | none => none
    | some (next, after) =>
      if after.length < rest.length + 1 then next.lines? after else none
termination_by cs.length

/-- The tables of a document. -/
def read? (text : String) : Option Json :=
  let cs := match text.toList with
    | '\uFEFF' :: rest => rest
    | cs => cs
  (Document.lines? {} cs).map fun d => .object (membersToJson d.root)

end ScaleAdvisor.Toml
