import ScriptLexer.Command.Config
import ScriptLexer.CommandLine.Arguments
import ScriptLexer.Dump

/-
  The options of the lexing command. The command line goes before the configuration file, and the
  file before what holds without either.
-/

namespace ScriptLexer

namespace LexCommand

def helpOption : OptionSpec := { short := some "-h", long := "--help", isHelp := true }

def outputOption : OptionSpec := { short := some "-o", long := "--output", takesValue := true }

def formatOption : OptionSpec :=
  { short := some "-f", long := "--format", takesValue := true
    choices := DumpFormat.all.map DumpFormat.name }

def noCommentsOption : OptionSpec := { long := "--no-comments" }

def configOption : OptionSpec := { long := "--config", takesValue := true }

def watchOption : OptionSpec := { long := "--watch" }

def debugOption : OptionSpec := { long := "--debug" }

def verboseOption : OptionSpec := { short := some "-v", long := "--verbose" }

def usage : String :=
  "usage: jslex [-h] [-o OUTPUT] [-f \x7btext,json\x7d] [--no-comments] [--config FILE]\n" ++
  "             [--watch] [--debug] [-v]\n" ++
  "             input\n"

def details : String :=
  "Tokenize a JavaScript/TypeScript source file\n" ++
  "\n" ++
  "positional arguments:\n" ++
  "  input                 Input .js or .ts file\n" ++
  "\n" ++
  "options:\n" ++
  "  -h, --help            show this help message and exit\n" ++
  "  -o OUTPUT, --output OUTPUT\n" ++
  "                        Output file (default: stdout)\n" ++
  "  -f \x7btext,json\x7d, --format \x7btext,json\x7d\n" ++
  "                        Token output format (default: text)\n" ++
  "  --no-comments         Leave comment tokens out of the output\n" ++
  "  --config FILE         Config file (default: auto-discover jslex.toml)\n" ++
  "  --watch               Watch for changes and re-lex\n" ++
  "  --debug               Dump tokens to stderr\n" ++
  "  -v, --verbose         Enable debug logging\n"

def spec : CommandSpec :=
  { program := "jslex"
    operand := "input"
    options := [helpOption, outputOption, formatOption, noCommentsOption, configOption,
      watchOption, debugOption, verboseOption]
    usage := usage
    details := details }

end LexCommand

/-- What the lexing command is to do. -/
structure LexOptions where
  input : Path
  output : Option Path
  /-- None if the choice was set to nothing; the dump is a text then. -/
  format : Option DumpFormat
  comments : Bool
  watch : Bool
  debug : Bool
deriving DecidableEq, Repr

namespace LexOptions

/-- The format that a configuration asks for; a value that names none is refused and shown, with
`room` for what is nested in it. -/
def configuredFormat (room : Nat) (config : Toml) : Except Failure DumpFormat :=
  match (config.member? "output").bind (·.member? "format") with
  | none => .ok .text
  | some value =>
    match value.text?.bind DumpFormat.ofName? with
    | some format => .ok format
    | none =>
      match value.shown room with
      | .ok text => .error (.format text)
      | .error fault => .error (.display fault)

/-- Whether a configuration keeps comments; only a truth value says otherwise. -/
def configuredComments (config : Toml) : Bool :=
  match (config.member? "output").bind (·.member? "comments") with
  | some (.bool keep) => keep
  | _ => true

/-- The format that counts: the last choice on the command line, else the configured one. -/
def chosenFormat (settings : Settings) (configured : DumpFormat) : Option DumpFormat :=
  match (LexCommand.formatOption.values settings).getLast? with
  | some choice => choice.bind DumpFormat.ofName?
  | none => some configured

/-- The options of a command line. A configured format is checked also where it does not count. -/
def resolve (t : FileTree) (operand : String) (settings : Settings) :
    Except Failure LexOptions :=
  let input := Path.ofText operand
  let given := (LexCommand.configOption.value? settings).map Path.ofText
  match t.config given input.parent with
  | .error e => .error e
  | .ok config =>
    match configuredFormat t.room.shown config with
    | .error e => .error e
    | .ok configured =>
      .ok { input := input
            output := (LexCommand.outputOption.value? settings).map Path.ofText
            format := chosenFormat settings configured
            comments := configuredComments config && !LexCommand.noCommentsOption.isSet settings
            watch := LexCommand.watchOption.isSet settings
            debug := LexCommand.debugOption.isSet settings }

end LexOptions

end ScriptLexer
