/-
  Depth. The interpreter allows a thousand calls inside each other, and some are open already when a
  command begins.
-/

namespace ScriptLexer

/-- How many things inside each other a command can work on: values of a configuration that is read,
arrays and objects inside the outermost one of a record, values that are shown, folders that are
listed, and folders that are made. -/
structure Room where
  config : Nat
  record : Nat
  shown : Nat
  listing : Nat
  making : Nat
deriving DecidableEq, Repr

/-- What is left of a thousand calls if `calls` are open when a command begins. -/
def Room.behind (calls : Nat) : Room :=
  { config := 990 - calls, record := 991 - calls, shown := 996 - calls, listing := 989 - calls
    making := 991 - calls }

end ScriptLexer
