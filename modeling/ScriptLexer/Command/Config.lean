import ScriptLexer.Command.Outcome

/-
  Configuration files. A command looks for one in the folder that it works on, unless it is told
  which one to take; where there is none, nothing is configured.
-/

namespace ScriptLexer

/-- The name under which a configuration file is found. -/
def configName : String := "jslex.toml"

/-- The configuration from a file that may be given, else from the folder. -/
def FileTree.config (t : FileTree) (given : Option Path) (folder : Path) : Except Failure Toml :=
  let path := given.getD (folder.join (Path.ofText configName))
  match t.isFile path with
  | .error e => .error (.file e)
  | .ok false => .ok (.table [])
  | .ok true =>
    match t.read path with
    | .error e => .error (.file e)
    | .ok bytes =>
      match Utf8.decode bytes with
      | .error e => .error (.encoding e)
      | .ok text =>
        match Toml.read t.room.config text with
        | .error fault => .error (.config fault)
        | .ok config => .ok config

end ScriptLexer
