import ScaleAdvisor.CommandLine.Run

/-!
The program: read the files that the command names, run it, print the answer.
-/

namespace ScaleAdvisor

open CommandLine

/-- The text of a file, if it can be read. -/
def readText (path : String) : IO (Option String) := do
  try
    return some (← IO.FS.readFile path)
  catch _ =>
    return none

partial def readAll (input : IO.FS.Stream) (text : String) : IO String := do
  let line ← input.getLine
  if line.isEmpty then return text else readAll input (text ++ line)

/-- Random digits in base sixteen. -/
def randomDigits (count : Nat) : IO String := do
  let digits ← (List.replicate count ()).mapM fun _ => do
    return Nat.digitChar (← IO.rand 0 15)
  return String.ofList digits

def freshId : IO String := do
  let parts ← [8, 4, 4, 4, 12].mapM randomDigits
  return "-".intercalate parts

/-- Open a trace log; it is made empty. -/
def openTrace (dir path : String) : IO Bool := do
  try
    IO.FS.createDirAll dir
    IO.FS.writeFile path ""
    return true
  catch _ =>
    return false

def surroundings (c : Command) : IO Surroundings := do
  let texts ← c.files.mapM fun path => do return (path, ← readText path)
  let input ← if c.readsInput then readAll (← IO.getStdin) "" else pure ""
  return {
    textOf := fun path => (texts.lookup path).join
    input
    freshId := ← freshId
    tempDir := (← IO.getEnv "TMPDIR").getD "/tmp" }

/-- Run a command, opening the trace log in between. -/
def runCommand (c : Command) : IO Report := do
  let env ← surroundings c
  match c with
  | .advise o =>
    match prepare env o with
    | .error e => return { failure := some e }
    | .ok p =>
      match p.trace env fun _ _ _ => true with
      | none => return p.answer none
      | some path =>
        let opened ← openTrace (p.settings.traceDir.getD env.tempDir) path
        return p.answer (if opened then some path else none)
  | .checkConfig _ => return c.run env fun _ _ _ => true

def printReport (r : Report) : IO UInt32 := do
  for line in r.lines do
    IO.println line
  match r.failure with
  | none => return 0
  | some e =>
    IO.eprintln ("Error: " ++ "\n\nCaused by: ".intercalate e.texts)
    return 1

end ScaleAdvisor

open ScaleAdvisor CommandLine in
def main (arguments : List String) : IO UInt32 := do
  match Command.parse arguments with
  | .error .help =>
    IO.println Command.usage
    return 0
  | .error .usage =>
    IO.eprintln Command.usage
    return 2
  | .ok c => printReport (← runCommand c)
