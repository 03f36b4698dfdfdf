import ScriptLexer.Files.Path

/-
  Why a file operation fails.
-/

namespace ScriptLexer

inductive FileFault
  | notFound | denied | alreadyThere | notFolder | isFolder | nameTooLong
deriving DecidableEq, Repr

namespace FileFault

def number : FileFault → Nat
  | notFound => 2
  | denied => 13
  | alreadyThere => 17
  | notFolder => 20
  | isFolder => 21
  | nameTooLong => 36

def text : FileFault → String
  | notFound => "No such file or directory"
  | denied => "Permission denied"
  | alreadyThere => "File exists"
  | notFolder => "Not a directory"
  | isFolder => "Is a directory"
  | nameTooLong => "File name too long"

end FileFault

/-- The system refuses a path, the path cannot be handed to the system at all, or folders are too
many inside each other to be listed or made one by one. -/
inductive FileError
  | refused (fault : FileFault) (path : Path)
  | nulInPath
  | listingTooDeep
  | makingTooDeep
deriving DecidableEq, Repr

/-- The message on calls that are too many inside each other, and where. -/
def tooDeepMessage (place : String) : String := "maximum recursion depth exceeded" ++ place

def FileError.message : FileError → String
  | refused fault path => s!"[Errno {fault.number}] {fault.text}: {NameUnit.quoted path.units}"
  | nulInPath => "embedded null byte"
  | listingTooDeep => tooDeepMessage ""
  | makingTooDeep => tooDeepMessage " while calling a Python object"

end ScriptLexer
