import ScriptLexer.Toml

/-
  Tables under construction. A table can be opened by a header once; a table that dotted keys have
  made is open to more dotted keys up to the next header (`Origin`). Arrays and tables that are
  written out as values are closed from the start.
-/

namespace ScriptLexer

namespace Toml

/-- How a table came to be: on the way to another one, through dotted keys in a numbered section,
or by a header of its own. -/
inductive Origin
  | implied
  | dotted (part : Nat)
  | declared
deriving DecidableEq, Repr

/-- What stands under a key so far. An array of tables is open at its last table. -/
inductive Node
  | value (v : Toml)
  | table (origin : Origin) (members : List (String × Node))
  | tables (earlier : List (List (String × Node))) (latest : List (String × Node))

abbrev Members := List (String × Node)

namespace Members

/-- Changes what stands under a key; a new key comes last. -/
def update (f : Option Node → Option Node) (key : String) : Members → Option Members
  | [] => (f none).map fun n => [(key, n)]
  | (k, n) :: rest =>
    if k = key then (f (some n)).map fun n => (k, n) :: rest
    else (update f key rest).map ((k, n) :: ·)

/-- Changes the table at a path. Tables that are missing on the way are implied. -/
def atTable (change : Members → Option Members) : List String → Members → Option Members
  | [], members => change members
  | key :: path, members =>
    members.update (fun
      | none => (atTable change path []).map (.table .implied)
      | some (.table origin inner) => (atTable change path inner).map (.table origin)
      | some (.tables earlier latest) => (atTable change path latest).map (.tables earlier)
      | some (.value _) => none) key

/-- A table header. -/
def declare (path : List String) (key : String) (members : Members) : Option Members :=
  atTable (update (fun
    | none => some (.table .declared [])
    | some (.table .implied inner) => some (.table .declared inner)
    | _ => none) key) path members

/-- The header of one more table of an array. -/
def append (path : List String) (key : String) (members : Members) : Option Members :=
  atTable (update (fun
    | none => some (.tables [] [])
    | some (.tables earlier latest) => some (.tables (earlier ++ [latest]) [])
    | _ => none) key) path members

/-- A value under a dotted key in a numbered section. -/
def assign (part : Nat) (value : Toml) (key : String) : List String → Members → Option Members
  | [], members => members.update (fun
      | none => some (.value value)
      | some _ => none) key
  | first :: path, members =>
    members.update (fun
      | none => (assign part value key path []).map (.table (.dotted part))
      | some (.table .implied inner) =>
        (assign part value key path inner).map (.table (.dotted part))
      | some (.table (.dotted n) inner) =>
        if n = part then (assign part value key path inner).map (.table (.dotted part)) else none
      | _ => none) first

mutual

/-- The value of a finished node. -/
def finishNode : Node → Toml
  | .value v => v
  | .table _ members => .table (finish members)
  | .tables earlier latest => .array (finishTables earlier ++ [.table (finish latest)])

def finish : List (String × Node) → List (String × Toml)
  | [] => []
  | (key, node) :: members => (key, finishNode node) :: finish members

def finishTables : List (List (String × Node)) → List Toml
  | [] => []
  | members :: tables => .table (finish members) :: finishTables tables

end

end Members

end Toml

end ScriptLexer
