import ScriptLexer.Files.Error
import ScriptLexer.Files.Room
import ScriptLexer.Text.Utf8

/-
  File trees: folders and files by location, with the times at which they were modified and what
  the system lets a command do with them. There are no links and nothing else that is neither a
  file nor a folder. Every operation looks a path up from the working folder, one component at a
  time, and answers with a new tree or the reason why it fails.
-/

namespace ScriptLexer

/-- The names from the root down to a file or folder. -/
abbrev Location := List FileName

inductive Entry
  | file (content : List UInt8) (modified : Int)
  | folder (modified : Int)
deriving DecidableEq, Repr

namespace Entry

def modified : Entry → Int
  | file _ time => time
  | folder time => time

def isFile : Entry → Bool
  | file _ _ => true
  | folder _ => false

def isFolder : Entry → Bool
  | file _ _ => false
  | folder _ => true

end Entry

/-- What the system lets a command do: read a file or list a folder, write a file or change what
lies in a folder, and go through a folder. -/
structure Access where
  read : Bool := true
  write : Bool := true
  search : Bool := true
deriving DecidableEq, Repr

/-- A tree of files, as a command finds it. `home` is the working folder, `clock` the time of the
next change; `limits` says where not everything is allowed, and `room` how deep the calls of the
command may go. -/
structure FileTree where
  home : Location
  entries : List (Location × Entry)
  clock : Int
  limits : List (Location × Access) := []
  room : Room := .behind 1
deriving DecidableEq, Repr

namespace FileTree

/-- The time that a fresh tree begins with. -/
def firstTime : Int := Int.pow 10 9

/-- Nothing but the working folder and the folders that lead to it. -/
def empty (home : Location) : FileTree :=
  { home := home
    entries := (List.range (home.length + 1)).map fun n => (home.take n, .folder firstTime)
    clock := firstTime + 1 }

def entry? (t : FileTree) (l : Location) : Option Entry := t.entries.lookup l

/-- What may be done with the entry at a location. -/
def access (t : FileTree) (l : Location) : Access := (t.limits.lookup l).getD {}

/-- The tree with a limit on what may be done at a location. -/
def limit (t : FileTree) (l : Location) (access : Access) : FileTree :=
  { t with limits := (l, access) :: t.limits.filter (·.1 != l) }

/-- Replaces what is at a location. -/
def set (t : FileTree) (l : Location) (e : Entry) : FileTree :=
  { t with entries := (l, e) :: t.entries.filter (·.1 != l) }

/-- Marks a folder as modified now. -/
def touchFolder (t : FileTree) (l : Location) : FileTree :=
  match t.entry? l with
  | some (.folder _) => t.set l (.folder t.clock)
  | _ => t

/-- Lets the clock go on. -/
def tick (t : FileTree) : FileTree := { t with clock := t.clock + 1 }

/-- Puts a new entry under its parent folder. -/
def create (t : FileTree) (l : Location) (e : Entry) : FileTree :=
  ((t.set l e).touchFolder l.dropLast).tick

/-! ## Looking up -/

/-- Where a walk along some names ends. Every folder on the way has to exist, the end need not. -/
def walk (t : FileTree) : Location → List FileName → Except FileFault Location
  | l, [] => .ok l
  | l, part :: parts =>
    match t.entry? l with
    | some (.folder _) =>
      if (t.access l).search then
        if Path.nameLimit < part.byteSize then .error .nameTooLong
        else t.walk (if part = ".." then l.dropLast else l ++ [part]) parts
      else .error .denied
    | some (.file _ _) => .error .notFolder
    | none => .error .notFound

/-- The location that a path leads to. -/
def locate (t : FileTree) (p : Path) : Except FileError Location :=
  if p.hasNul then .error .nulInPath
  else if p.isTooLong then .error (.refused .nameTooLong p)
  else match t.walk (if p.start = .here then t.home else []) p.parts with
    | .ok l => .ok l
    | .error fault => .error (.refused fault p)

/-- What a path leads to. -/
def find (t : FileTree) (p : Path) : Except FileError Entry := do
  match t.entry? (← t.locate p) with
  | some e => return e
  | none => throw (.refused .notFound p)

/-- Whether a path leads to an entry of some sort. A path that leads nowhere does not; one that has
too long a name, or goes through a folder that is barred, fails. -/
def leadsTo (t : FileTree) (p : Path) (sort : Entry → Bool) : Except FileError Bool :=
  match t.find p with
  | .ok e => .ok (sort e)
  | .error (.refused .nameTooLong q) => .error (.refused .nameTooLong q)
  | .error (.refused .denied q) => .error (.refused .denied q)
  | .error _ => .ok false

def isFile (t : FileTree) (p : Path) : Except FileError Bool := t.leadsTo p Entry.isFile

def isFolder (t : FileTree) (p : Path) : Except FileError Bool := t.leadsTo p Entry.isFolder

def modified (t : FileTree) (p : Path) : Except FileError Int := do
  return (← t.find p).modified

def read (t : FileTree) (p : Path) : Except FileError (List UInt8) := do
  let l ← t.locate p
  match t.entry? l with
  | none => throw (.refused .notFound p)
  | some e =>
    if (t.access l).read then
      match e with
      | .file content _ => return content
      | .folder _ => throw (.refused .isFolder p)
    else throw (.refused .denied p)

/-! ## Changing -/

/-- Writes a file, new or old, in a folder that exists. -/
def write (t : FileTree) (p : Path) (content : List UInt8) : Except FileError FileTree := do
  let l ← t.locate p
  match t.entry? l with
  | some (.folder _) => throw (.refused .isFolder p)
  | some (.file _ _) =>
    if (t.access l).write then return (t.set l (.file content t.clock)).tick
    else throw (.refused .denied p)
  | none =>
    if (t.access l.dropLast).write then return t.create l (.file content t.clock)
    else throw (.refused .denied p)

/-- Makes a folder in a folder that exists. -/
def makeFolder (t : FileTree) (p : Path) : Except FileError FileTree := do
  let l ← t.locate p
  match t.entry? l with
  | some _ => throw (.refused .alreadyThere p)
  | none =>
    if (t.access l.dropLast).write then return t.create l (.folder t.clock)
    else throw (.refused .denied p)

/-- Makes a folder and those above it, as far as they are missing. Folders made before a failure
stay. -/
def makeFolders (t : FileTree) (p : Path) : Except FileError Unit × FileTree :=
  go t.room.making t p
where
  /-- A folder that is already there is no failure. -/
  orFolder (t : FileTree) (p : Path) (e : FileError) : Except FileError Unit × FileTree :=
    match t.isFolder p with
    | .ok isThere => (if isThere then .ok () else .error e, t)
    | .error e => (.error e, t)
  go : Nat → FileTree → Path → Except FileError Unit × FileTree
    | room, t, p =>
      match t.makeFolder p with
      | .ok made => (.ok (), made)
      | .error (.refused .notFound q) =>
        if p.parts = [] then (.error (.refused .notFound q), t)
        else match room with
          | 0 => (.error .makingTooDeep, t)
          | room + 1 =>
            match go room t p.parent with
            | (.error e, after) => (.error e, after)
            | (.ok (), after) =>
              match after.makeFolder p with
              | .ok made => (.ok (), made)
              | .error e => orFolder after p e
      | .error e => orFolder t p e

/-! ## Listing -/

/-- The order of locations: name by name, each by its characters. -/
def locationLe : Location → Location → Bool
  | [], _ => true
  | _ :: _, [] => false
  | a :: as, b :: bs => if a = b then locationLe as bs else a < b

/-- The entries in a folder with their names, in the order in which the system has them. -/
def inside (t : FileTree) (l : Location) : List (FileName × Entry) :=
  t.entries.filterMap fun (m, e) =>
    m.getLast?.bind fun name => if m.dropLast = l then some (name, e) else none

/-- The entries that are listed in a folder: none, if it may not be listed. -/
def listed (t : FileTree) (l : Location) : List (FileName × Entry) :=
  if (t.access l).read then t.inside l else []

/-- The content of the file at a location. -/
def content? (t : FileTree) (l : Location) : Option (List UInt8) :=
  match t.entry? l with
  | some (.file content _) => some content
  | _ => none

end FileTree

end ScriptLexer
