/-!
Identifiers as components of a file name. Letters, digits, `-`, `_` and `.` of ASCII stay; every
other character becomes `_`, so no separator gets through; an empty identifier reads `none`.
-/

namespace ScaleAdvisor.Text

def isFileSafe (c : Char) : Bool := c.isAlphanum || c == '-' || c == '_' || c == '.'

def fileSafeChar (c : Char) : Char := if isFileSafe c then c else '_'

def fileSafe (id : String) : String :=
  if id.isEmpty then "none" else String.ofList (id.toList.map fileSafeChar)

end ScaleAdvisor.Text
