import ScaleAdvisor.Text.FileName

/-!
Trace logs. A request that asks for diagnostics gets a log file of its own in the trace directory;
the file is named after the request and its correlation id.
-/

namespace ScaleAdvisor.TraceLog

/-- A path below a directory. -/
def join (dir file : String) : String :=
  if dir.isEmpty || dir.endsWith "/" then dir ++ file else dir ++ "/" ++ file

def fileName (requestId correlationId : String) : String :=
  Text.fileSafe requestId ++ "-" ++ Text.fileSafe correlationId ++ ".log"

def path (dir requestId correlationId : String) : String :=
  join dir (fileName requestId correlationId)

/-- The name of a file or directory is not too long and holds no zero character. -/
def isName (step : String) : Bool := step.utf8ByteSize ≤ 255 && !step.toList.contains '\x00'

/-- Follow a path step by step, `.` staying and `..` going back; nothing when a step is no name or
leads through or to one of the plain files. -/
def resolve? (isFile : List String → Bool) (here : List String) : List String → Option (List String)
  | [] => some here
  | step :: rest =>
    if step == "" || step == "." then resolve? isFile here rest
    else if step == ".." then resolve? isFile here.dropLast rest
    else
      let next := here ++ [step]
      if isFile next || !isName step then none else resolve? isFile next rest

/-- Whether a log can be opened: its directory is there or can be made, given which paths below the
working directory are plain files, and its name is one. -/
def canOpen (isFile : List String → Bool) (dir requestId correlationId : String) : Bool :=
  let obstacle := if dir.startsWith "/" then fun _ => false else isFile
  (resolve? obstacle [] (dir.splitOn "/")).isSome && isName (fileName requestId correlationId)

end ScaleAdvisor.TraceLog
