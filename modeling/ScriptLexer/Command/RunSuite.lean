import ScriptLexer.Command.Config
import ScriptLexer.CommandLine.Arguments
import ScriptLexer.Suite.Store

/-
  The suite command: runs the cases below a folder, prints the summary, and stores it.
-/

namespace ScriptLexer

namespace SuiteCommand

def helpOption : OptionSpec := { short := some "-h", long := "--help", isHelp := true }

def nameOption : OptionSpec := { long := "--name", takesValue := true }

def summaryFolderOption : OptionSpec := { long := "--summary-dir", takesValue := true }

def endingOption : OptionSpec := { long := "--ext", takesValue := true }

def configOption : OptionSpec := { long := "--config", takesValue := true }

def verboseOption : OptionSpec := { short := some "-v", long := "--verbose" }

def usage : String :=
  "usage: jslex-suite [-h] [--name NAME] [--summary-dir DIR] [--ext EXT]\n" ++
  "                   [--config FILE] [-v]\n" ++
  "                   root\n"

def details : String :=
  "Run the lexer over a directory of fixtures and record coverage\n" ++
  "\n" ++
  "positional arguments:\n" ++
  "  root               Fixture directory\n" ++
  "\n" ++
  "options:\n" ++
  "  -h, --help         show this help message and exit\n" ++
  "  --name NAME        Suite name (default: lexer)\n" ++
  "  --summary-dir DIR  Where summaries are written (default: summary)\n" ++
  "  --ext EXT          Fixture file extension (repeatable, default: .js and .ts)\n" ++
  "  --config FILE      Config file (default: ROOT/jslex.toml)\n" ++
  "  -v, --verbose      Log every case\n"

def spec : CommandSpec :=
  { program := "jslex-suite"
    operand := "root"
    options := [helpOption, nameOption, summaryFolderOption, endingOption, configOption,
      verboseOption]
    usage := usage
    details := details }

def defaultName : String := "lexer"

def defaultEndings : List String := [".js", ".ts"]

def defaultSummaryFolder : String := "summary"

end SuiteCommand

/-- What the suite command is to do. -/
structure SuiteOptions where
  root : Path
  name : String
  endings : List String
  summaryFolder : Path
  verbose : Bool
deriving DecidableEq, Repr

namespace SuiteOptions

/-- The endings that a configuration lists, each as it is shown with `room` for what is nested in
it. -/
def configuredEndings (room : Nat) (config : Toml) : Except Failure (Option (List String)) :=
  match (config.member? "suite").bind (·.member? "extensions") with
  | some (.array items) =>
    match items.mapM (Toml.shown room) with
    | .ok endings => .ok (some endings)
    | .error fault => .error (.display fault)
  | _ => .ok none

/-- The folder that a configuration names for summaries. -/
def configuredFolder (config : Toml) : Option String :=
  match (config.member? "suite").bind (·.member? "summary_dir") with
  | some (.text folder) => some folder
  | _ => none

/-- The options of a command line under a configuration. A configured list of endings is read also
where it does not count; an ending that is set to nothing fits no case. -/
def resolve (room : Nat) (config : Toml) (root : Path) (settings : Settings) :
    Except Failure SuiteOptions :=
  let given := SuiteCommand.endingOption.values settings
  let folder := (SuiteCommand.summaryFolderOption.value? settings).orElse fun _ =>
    configuredFolder config
  match configuredEndings room config with
  | .error e => .error e
  | .ok configured =>
    .ok { root := root
          name := (SuiteCommand.nameOption.value? settings).getD SuiteCommand.defaultName
          endings := if given.isEmpty then configured.getD SuiteCommand.defaultEndings
            else given.filterMap id
          summaryFolder := Path.ofText (folder.getD SuiteCommand.defaultSummaryFolder)
          verbose := SuiteCommand.verboseOption.isSet settings }

/-- Prints the summary of results and stores it. The coverage of the run before is read before
anything is printed, and counts of more digits than are ever written end the run. -/
def conclude (o : SuiteOptions) (t : FileTree) (log : Output)
    (results : List (Location × CaseResult)) : Outcome :=
  let summary := Suite.summarize o.name results
  match Suite.previousCoverage t o.summaryFolder o.name, summary.coverage? with
  | .error e, _ => ⟨.failed e, log, t, []⟩
  | .ok _, none => ⟨.failed .quotientTooLarge, log, t, []⟩
  | .ok previous, some coverage =>
    if wholeDigitLimit < decimalLength results.length then
      ⟨.failed (.display .tooManyDigits), log, t, []⟩
    else
      let output := log ++ ⟨summary.line coverage previous ++ "\n", ""⟩
      match Suite.store t o.summaryFolder summary coverage (Suite.passing results) with
      | (.error e, t) => ⟨.failed e, output, t, []⟩
      | (.ok (), t) => ⟨.exit 0, output, t, []⟩

/-- Runs the cases and stores their summary. -/
def run (o : SuiteOptions) (t : FileTree) : Outcome :=
  match Suite.runCases t o.root o.endings with
  | .error e => ⟨.failed (.file e), {}, t, []⟩
  | .ok results =>
    let log : Output := if o.verbose then .notes (Suite.logLines o.root results) else {}
    if results.isEmpty then
      ⟨.exit 2, log ++ .note s!"error: no test cases found under {o.root.toText}", t, []⟩
    else o.conclude t log results

end SuiteOptions

namespace SuiteCommand

/-- Runs the command. -/
def run (argv : List String) (t : FileTree) : Outcome :=
  match spec.parse argv with
  | .help => ⟨.early 0, ⟨spec.helpText, ""⟩, t, []⟩
  | .refused fault => ⟨.early 2, ⟨"", spec.usageError fault⟩, t, []⟩
  | .run operand settings =>
    let root := Path.ofText operand
    match t.isFolder root with
    | .error e => ⟨.failed (.file e), {}, t, []⟩
    | .ok false => ⟨.exit 2, .note s!"error: not a directory: {root.toText}", t, []⟩
    | .ok true =>
      match t.config ((configOption.value? settings).map Path.ofText) root with
      | .error (.config .malformed) =>
        let message := (Failure.config .malformed).message
        ⟨.exit 2, .note s!"error: invalid config file: {message}", t, []⟩
      | .error e => ⟨.failed e, {}, t, []⟩
      | .ok config =>
        match SuiteOptions.resolve t.room.shown config root settings with
        | .error e => ⟨.failed e, {}, t, []⟩
        | .ok o => o.run t

end SuiteCommand

end ScriptLexer
