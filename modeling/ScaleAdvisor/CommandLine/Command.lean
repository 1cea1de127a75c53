import ScaleAdvisor.CommandLine.Options

/-!
The commands: to answer a request, and to check a configuration.
-/

namespace ScaleAdvisor.CommandLine

structure AdviseOptions where
  /-- A file, or `-` for the standard input. -/
  request : String
  pricing : String
  config : Option String := none
  /-- Takes the place of the request's own simulation strategy. -/
  strategy : Option String := none
  /-- Asks for partial plans whatever the request says. -/
  incremental : Bool := false
  deriving DecidableEq, Repr

inductive Command where
  | advise (o : AdviseOptions)
  | checkConfig (path : String)
  deriving DecidableEq, Repr

namespace Command

def logOption : OptionSpec := { long := "log-json", kind := .flag }

def configOption : OptionSpec := { long := "config", short := 'c', kind := .path }

def adviseSpecs : List OptionSpec :=
  [{ long := "request", short := 'r', kind := .path },
    { long := "pricing", short := 'p', kind := .path }, configOption,
    { long := "strategy", kind := .text }, { long := "incremental", kind := .flag }, logOption]

def checkConfigSpecs : List OptionSpec := [configOption, logOption]

def names : List String := ["advise", "check-config", "help"]

/-- An option that has to be there. -/
def required (given : Given) (name : String) : Except Halt String :=
  match given.get? name with
  | some value => .ok value
  | none => .error .usage

/-- A command by its name, with its options. -/
def ofName (name : String) (arguments : List String) : Except Halt Command :=
  match name with
  | "advise" => do
    let given ← readOptions adviseSpecs ∅ arguments
    return .advise {
      request := ← required given "request"
      pricing := ← required given "pricing"
      config := given.get? "config"
      strategy := given.get? "strategy"
      incremental := given.contains "incremental" }
  | "check-config" => do
    let given ← readOptions checkConfigSpecs ∅ arguments
    return .checkConfig (← required given "config")
  | "help" =>
    .error (if arguments.length ≤ 1 && arguments.all names.contains then .help else .usage)
  | _ => .error .usage

/-- Read the arguments. The log format may be asked for before the command's name. -/
def parse : List String → Except Halt Command
  | [] => .error .usage
  | argument :: rest =>
    match Argument.ofText argument with
    | .plain name => ofName name rest
    | .long "log-json" none =>
      match rest with
      | name :: rest =>
        match Argument.ofText name with
        | .plain name => ofName name rest
        | .long "help" none | .long "version" none | .short 'h' _ | .short 'V' _ => .error .help
        | _ => .error .usage
      | [] => .error .usage
    | .long "help" none | .long "version" none | .short 'h' _ | .short 'V' _ => .error .help
    | _ => .error .usage

/-- The request comes from the standard input. -/
def readsInput : Command → Bool
  | .advise o => o.request == "-"
  | .checkConfig _ => false

/-- The files that a command reads. -/
def files : Command → List String
  | .advise o =>
    o.config.toList ++ (if o.request == "-" then [] else [o.request]) ++ [o.pricing]
  | .checkConfig path => [path]

def usage : String :=
  "usage: advise --request FILE --pricing FILE [--config FILE] [--strategy NAME] [--incremental]\n"
    ++ "       check-config --config FILE\n" ++
  "options of both: [--log-json]"

end Command

end ScaleAdvisor.CommandLine
