import ScriptLexer.Files.Tree

/-
  Changes to a file tree that come from outside.
-/

namespace ScriptLexer

/-- What happens at a location, with the time that the entry then shows. -/
inductive Change
  | file (content : List UInt8) (modified : Int)
  | folder (modified : Int)
  | delete
deriving DecidableEq, Repr

namespace FileTree

/-- Makes the folders that are missing on the way from one folder down to another. -/
def ensureFolders (t : FileTree) (base : Location) : List FileName → FileTree
  | [] => t
  | part :: parts =>
    let l := base ++ [part]
    let t := match t.entry? l with
      | some _ => t
      | none => t.create l (.folder t.clock)
    t.ensureFolders l parts

/-- Puts an entry at a location; an old one only changes what it holds. -/
def place (t : FileTree) (l : Location) (e : Entry) : FileTree :=
  match t.entry? l with
  | some _ => t.set l e
  | none => t.create l e

/-- A change at a path below the working folder. -/
def change (t : FileTree) (path : String) (c : Change) : FileTree :=
  let parts := (Path.ofText path).parts
  let l := t.home ++ parts
  match c with
  | .file content time => (t.ensureFolders t.home parts.dropLast).place l (.file content time)
  | .folder time => (t.ensureFolders t.home parts.dropLast).place l (.folder time)
  | .delete =>
    let left := { t with
      entries := t.entries.filter (·.1 != l)
      limits := t.limits.filter (·.1 != l) }
    (left.touchFolder l.dropLast).tick

end FileTree

end ScriptLexer
