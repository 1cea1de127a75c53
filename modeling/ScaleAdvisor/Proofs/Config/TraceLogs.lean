import ScaleAdvisor.Config.Trace

/-!
Where trace logs go. Identifiers come from outside, and dots stay in them. Still no request leads
out of the trace directory: separators do not stay, an empty identifier gets a name, and the hyphen
and the ending make the file's name more than dots.

* `Text.isFileSafe_iff`: the characters of a name;
* `fileName_isLogName`: what the names of trace logs look like;
* `steps_join`: below a directory a name is one more step;
* `stays_in_directory`: the path of a trace log.
-/

namespace ScaleAdvisor

namespace Text

/-- An ASCII letter or digit, a hyphen, an underscore or a dot. -/
def Plain (c : Char) : Prop :=
  'a' ≤ c ∧ c ≤ 'z' ∨ 'A' ≤ c ∧ c ≤ 'Z' ∨ '0' ≤ c ∧ c ≤ '9' ∨ c = '-' ∨ c = '_' ∨ c = '.'

instance (c : Char) : Decidable (Plain c) :=
  inferInstanceAs (Decidable (_ ∧ _ ∨ _ ∧ _ ∨ _ ∧ _ ∨ _ ∨ _ ∨ _))

theorem isFileSafe_iff {c : Char} : isFileSafe c = true ↔ Plain c := by
  have within (a b : Char) : (decide (a ≤ c) && decide (c ≤ b)) = true ↔ a ≤ c ∧ c ≤ b := by simp
  have lower : c.isLower = true ↔ 'a' ≤ c ∧ c ≤ 'z' := within 'a' 'z'
  have upper : c.isUpper = true ↔ 'A' ≤ c ∧ c ≤ 'Z' := decide_eq_true_iff
  have digit : c.isDigit = true ↔ '0' ≤ c ∧ c ≤ '9' := within '0' '9'
  have alphanum : c.isAlphanum = (c.isUpper || c.isLower || c.isDigit) := rfl
  simp only [isFileSafe, alphanum, Bool.or_eq_true, upper, lower, digit, beq_iff_eq,
    Plain, or_assoc]
  exact or_left_comm

theorem plain_fileSafeChar (c : Char) : Plain (fileSafeChar c) := by
  rw [fileSafeChar]
  split
  · rename_i safe
    exact isFileSafe_iff.mp safe
  · decide

variable {id : String} {c : Char}

theorem plain_of_all {cs : List Char} (all : cs.all (fun c => Plain c) = true) (hc : c ∈ cs) :
    Plain c :=
  of_decide_eq_true (List.all_eq_true.mp all c hc)

theorem plain_of_mem_fileSafe (hc : c ∈ (fileSafe id).toList) : Plain c := by
  rw [fileSafe] at hc
  split at hc
  · exact plain_of_all (by decide) hc
  · rw [String.toList_ofList] at hc
    obtain ⟨d, -, rfl⟩ := List.mem_map.mp hc
    exact plain_fileSafeChar d

theorem length_fileSafe (id : String) : id.length ≤ (fileSafe id).length := by
  rw [fileSafe]
  split
  · rename_i empty
    simp_all
  · have same : (String.ofList (id.toList.map fileSafeChar)).length = id.length := by
      rw [String.length_ofList, List.length_map, String.length_toList]
    exact Nat.le_of_eq same.symm

theorem fileSafe_ne_empty (id : String) : fileSafe id ≠ "" := by
  rw [fileSafe]
  split
  · decide
  · rename_i nonempty
    intro nothing
    simp_all

end Text

namespace TraceLog

/-- A name for the log of a request: plain characters, and at least one for each identifier in front
of the ending. -/
structure IsLogName (requestId correlationId file : String) : Prop where
  plain : ∀ c ∈ file.toList, Text.Plain c
  parts : ∃ request correlation : String, file = request ++ "-" ++ correlation ++ ".log" ∧
    (request ≠ "" ∧ requestId.length ≤ request.length) ∧
    correlation ≠ "" ∧ correlationId.length ≤ correlation.length
  not_here : file ≠ "."
  not_up : file ≠ ".."

theorem fileName_isLogName (requestId correlationId : String) :
    IsLogName requestId correlationId (fileName requestId correlationId) := by
  have hyphen : '-' ∈ (fileName requestId correlationId).toList := by
    simp [fileName]
  refine ⟨fun c hc => ?_, ⟨_, _, rfl, ?_, ?_⟩, fun here => ?_, fun up => ?_⟩
  · simp only [fileName, String.toList_append, List.mem_append] at hc
    obtain ((hc | hc) | hc) | hc := hc
    · exact Text.plain_of_mem_fileSafe hc
    · exact Text.plain_of_all (by decide) hc
    · exact Text.plain_of_mem_fileSafe hc
    · exact Text.plain_of_all (by decide) hc
  · exact ⟨Text.fileSafe_ne_empty _, Text.length_fileSafe _⟩
  · exact ⟨Text.fileSafe_ne_empty _, Text.length_fileSafe _⟩
  · rw [here] at hyphen
    revert hyphen
    decide
  · rw [up] at hyphen
    revert hyphen
    decide

/-- A step of a path: to the root, to where one is, up, or down to a name. -/
inductive Step where
  | root
  | here
  | up
  | down (name : String)
  deriving DecidableEq, Repr

/-- The step for what stands between separators. Nothing and `.` are no step. -/
def Step.ofPart? (part : List Char) : Option Step :=
  if part = [] ∨ part = ['.'] then none
  else if part = ['.', '.'] then some .up
  else some (.down (String.ofList part))

/-- A separator in front leads to the root; a `.` counts as a step only at the very start. -/
def start (path : List Char) : List Step :=
  if path.head? = some '/' then [.root]
  else if (path.splitOn '/').head? = some ['.'] then [.here]
  else []

/-- The steps of a path. -/
def stepsOf (path : List Char) : List Step :=
  start path ++ (path.splitOn '/').filterMap Step.ofPart?

def steps (path : String) : List Step := stepsOf path.toList

/-- The path without its last step; a root has nothing above it. -/
def parent? (path : List Step) : Option (List Step) :=
  match path.getLast? with
  | none | some .root => none
  | some _ => some path.dropLast

namespace IsLogName

variable {requestId correlationId file : String}

theorem single (named : IsLogName requestId correlationId file) : '/' ∉ file.toList := by
  intro inside
  have := named.plain '/' inside
  revert this
  decide

theorem down (named : IsLogName requestId correlationId file) :
    Step.ofPart? file.toList = some (.down file) := by
  have nonempty : file ≠ "" := by
    obtain ⟨request, correlation, rfl, -⟩ := named.parts
    simp
  have apart (other : List Char) (differs : file ≠ String.ofList other) : file.toList ≠ other :=
    fun same => differs (by rw [← same, String.ofList_toList])
  have up : file.toList ≠ ['.', '.'] := apart _ named.not_up
  have no_step : ¬ (file.toList = [] ∨ file.toList = ['.']) :=
    not_or.mpr ⟨apart _ nonempty, apart _ named.not_here⟩
  rw [Step.ofPart?, if_neg no_step, if_neg up, String.ofList_toList]

end IsLogName

section Below

variable {dir part : List Char}

theorem head?_parts (dir rest : List Char) :
    ((dir ++ '/' :: rest).splitOn '/').head? = (dir.splitOn '/').head? := by
  rw [List.splitOn_append_cons_self, List.head?_append]
  cases parts : dir.splitOn '/' with
  | nil => exact absurd parts (List.splitOn_ne_nil '/' dir)
  | cons first parts => rfl

/-- What is below a directory is one step more, if it is a step at all. -/
theorem stepsOf_below (single : '/' ∉ part) :
    stepsOf (dir ++ '/' :: part) = stepsOf (dir ++ ['/']) ++ (Step.ofPart? part).toList := by
  have heads : (dir ++ '/' :: part).head? = (dir ++ ['/']).head? := by
    simp [List.head?_append]
  have starts : start (dir ++ '/' :: part) = start (dir ++ ['/']) := by
    rw [start, start, heads, head?_parts, head?_parts]
  rw [stepsOf, stepsOf, starts, List.splitOn_append_cons_self, List.splitOn_append_cons_self,
    List.splitOn_eq_singleton single, List.splitOn_nil, List.filterMap_append,
    List.filterMap_append, List.append_assoc, List.append_assoc]
  have nothing : Step.ofPart? [] = none := rfl
  cases found : Step.ofPart? part <;> simp [found, nothing]

/-- A separator at the end is no step. -/
theorem stepsOf_separator (nonempty : dir ≠ []) : stepsOf (dir ++ ['/']) = stepsOf dir := by
  have heads : (dir ++ ['/']).head? = dir.head? := by
    cases dir with
    | nil => exact absurd rfl nonempty
    | cons c dir => rfl
  rw [stepsOf, stepsOf, start, start, heads, head?_parts, List.splitOn_append_cons_self,
    List.splitOn_nil, List.filterMap_append]
  simp [Step.ofPart?]

/-- A single part of its own that is a step down does not start anywhere. -/
theorem stepsOf_single {name : String} (single : '/' ∉ part)
    (down : Step.ofPart? part = some (.down name)) : stepsOf part = [.down name] := by
  have no_separator : part.head? ≠ some '/' := by
    intro first
    exact single (List.mem_of_head? first)
  have no_here : part ≠ ['.'] := by
    rintro rfl
    simp [Step.ofPart?] at down
  simp [stepsOf, start, List.splitOn_eq_singleton single, no_separator, no_here, down]

end Below

/-- A directory's path that ends in a separator needs no other. -/
theorem toList_join {dir : String} (nonempty : dir ≠ "") (file : String) :
    ∃ front, (join dir file).toList = front ++ '/' :: file.toList ∧
    stepsOf (front ++ ['/']) = steps dir := by
  by_cases separated : dir.endsWith "/" = true
  · have ends : "/".toList <:+ dir.toList := by
      simpa only [← String.endsWith_toSlice, String.Slice.endsWith_string_iff, String.copy_toSlice]
        using separated
    obtain ⟨front, ends⟩ := ends
    refine ⟨front, ?_, congrArg stepsOf ends⟩
    rw [join, separated, Bool.or_true, if_pos rfl, String.toList_append, ← ends]
    simp
  · refine ⟨dir.toList, ?_, stepsOf_separator (by simpa using nonempty)⟩
    rw [join, if_neg (by simp [nonempty, separated])]
    simp

/-- A name below a directory is one more step. -/
theorem steps_join (dir : String) {file : String} (single : '/' ∉ file.toList)
    (down : Step.ofPart? file.toList = some (.down file)) :
    steps (join dir file) = steps dir ++ [.down file] := by
  by_cases empty : dir = ""
  · subst empty
    have alone : join "" file = file := by simp [join]
    rw [alone, steps, stepsOf_single single down]
    rfl
  · obtain ⟨front, joined, same⟩ := toList_join empty file
    rw [steps, joined, stepsOf_below single, down, same]
    rfl

/-- A trace log is a plain name of its own in the trace directory: the directory's path and one more
step. -/
theorem stays_in_directory (dir requestId correlationId : String) : ∃ file,
    path dir requestId correlationId = join dir file ∧ IsLogName requestId correlationId file ∧
    steps (path dir requestId correlationId) = steps dir ++ [.down file] ∧
    parent? (steps (path dir requestId correlationId)) = some (steps dir) := by
  have named := fileName_isLogName requestId correlationId
  have below : steps (path dir requestId correlationId) =
      steps dir ++ [.down (fileName requestId correlationId)] :=
        steps_join dir named.single named.down
  refine ⟨fileName requestId correlationId, rfl, named, below, ?_⟩
  rw [below, parent?]
  simp

-- Dots and separators in both identifiers, and a directory that ends in a separator.
example : steps (path "logs/./today/" ".." "../etc") =
    [.down "logs", .down "today", .down "..-.._etc.log"] := by
  decide +kernel

end TraceLog

end ScaleAdvisor
