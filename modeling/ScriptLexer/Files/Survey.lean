import ScriptLexer.Files.Tree

/-
  What a command needs to see of a file system, and what it has changed there.
-/

namespace ScriptLexer

namespace Path

/-- The locations that a walk along a path visits, from the place where it starts. -/
def stations (p : Path) (home : Location) : List Location :=
  visit (if p.start = .here then home else []) p.parts
where
  visit (l : Location) : List FileName → List Location
    | [] => [l]
    | part :: parts => l :: visit (if part = ".." then l.dropLast else l ++ [part]) parts

end Path

namespace FileTree

/-- The entries of a tree that another one does not have, outer ones first. -/
def additions (old new : FileTree) : List (Location × Entry) :=
  let fresh := new.entries.filter fun (l, e) =>
    match old.entry? l, e with
    | some (.file before _), .file after _ => before != after
    | some (.folder _), .folder _ => false
    | _, _ => true
  fresh.mergeSort fun a b => locationLe a.1 b.1

end FileTree

end ScriptLexer
