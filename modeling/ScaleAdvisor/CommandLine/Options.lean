import ScaleAdvisor.SortedMap

/-!
Options on a command line. An option has a long name after two hyphens and may have a letter after
one; its value follows as the next argument, after an equals sign, or right after the letter. No
option may be given twice.
-/

namespace ScaleAdvisor.CommandLine

inductive OptionKind where
  | flag
  /-- The value may not be empty. -/
  | path
  | text
  deriving DecidableEq, Repr

structure OptionSpec where
  long : String
  short : Option Char := none
  kind : OptionKind
  deriving DecidableEq, Repr

/-- Why there is nothing to run. -/
inductive Halt where
  /-- The user asks for help. -/
  | help
  /-- The arguments are wrong. -/
  | usage
  deriving DecidableEq, Repr

/-- Options by their long names; a flag has the empty text. -/
abbrev Given := SortedMap String String

inductive Argument where
  /-- Two hyphens alone: no options follow. -/
  | separator
  | long (name : String) (value : Option String)
  | short (letter : Char) (rest : List Char)
  | plain (text : String)
  deriving DecidableEq, Repr

namespace Argument

/-- A long option, with the value after its equals sign. -/
def longOf (cs : List Char) : Argument :=
  match cs.span (· != '=') with
  | (name, '=' :: value) => .long (String.ofList name) (some (String.ofList value))
  | (name, _) => .long (String.ofList name) none

def ofText (s : String) : Argument :=
  match s.toList with
  | ['-', '-'] => .separator
  | '-' :: '-' :: cs => longOf cs
  | '-' :: c :: cs => .short c cs
  | _ => .plain s

end Argument

def OptionSpec.give (o : OptionSpec) (value : String) (given : Given) : Except Halt Given :=
  if given.contains o.long || (o.kind == .path && value.isEmpty) then .error .usage
  else .ok (given.insert o.long value)

/-- Read options up to the end of the arguments. -/
def readOptions (specs : List OptionSpec) (given : Given) : List String → Except Halt Given
  | [] => .ok given
  | argument :: rest => do
    match Argument.ofText argument with
    | .separator => if rest.isEmpty then .ok given else .error .usage
    | .plain _ => .error .usage
    | .long "help" none => .error .help
    | .long name value =>
      match specs.find? (·.long == name), value with
      | none, _ => .error .usage
      | some o, some value =>
        if o.kind == .flag then .error .usage
        else readOptions specs (← o.give value given) rest
      | some o, none =>
        if o.kind == .flag then readOptions specs (← o.give "" given) rest
        else valueFollows o rest
    | .short 'h' _ => .error .help
    | .short letter attached =>
      match specs.find? (·.short == some letter), attached with
      | none, _ => .error .usage
      | some o, [] => valueFollows o rest
      | some o, '=' :: value => readOptions specs (← o.give (String.ofList value) given) rest
      | some o, value => readOptions specs (← o.give (String.ofList value) given) rest
where
  valueFollows (o : OptionSpec) : List String → Except Halt Given
    | [] => .error .usage
    | value :: rest => do
      match Argument.ofText value with
      | .plain value => readOptions specs (← o.give value given) rest
      | _ => .error .usage

end ScaleAdvisor.CommandLine
