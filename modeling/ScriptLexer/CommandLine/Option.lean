import ScriptLexer.Text.DecimalDigit
import ScriptLexer.Text.Quoted

/-
  Options of a command line: how they are declared, and how an argument is read before its place
  is known (`CommandSpec.reading`). Long options may be cut short as long as one name remains, and
  a short one may have its value right behind it.
-/

namespace ScriptLexer

/-- An option. Its names include the dashes. -/
structure OptionSpec where
  short : Option String := none
  long : String
  takesValue : Bool := false
  /-- The values it takes; with none given it takes any. -/
  choices : List String := []
  isHelp : Bool := false
deriving DecidableEq, Repr

namespace OptionSpec

def names (o : OptionSpec) : List String := o.short.toList ++ [o.long]

/-- The option in a message. -/
def title (o : OptionSpec) : String := "/".intercalate o.names

end OptionSpec

/-- A command with its options and its one operand. -/
structure CommandSpec where
  program : String
  operand : String
  options : List OptionSpec
  /-- The lines that show how the command is called. -/
  usage : String
  /-- The rest of the help text. -/
  details : String
deriving DecidableEq, Repr

/-- How an argument reads. -/
inductive Reading
  | plain
  | separator
  | unknown
  | option (spec : OptionSpec) (name : String) (attached : Option (List Char))
deriving DecidableEq, Repr

/-- Why a command line is refused. -/
inductive UsageFault
  | ambiguous (argument : String) (candidates : List String)
  | missingValue (option : OptionSpec)
  | notAChoice (option : OptionSpec) (value : String)
  | unexpectedValue (option : OptionSpec) (value : String)
  | missingOperand (operand : String)
  | unrecognized (arguments : List String)
deriving DecidableEq, Repr

def UsageFault.message : UsageFault → String
  | ambiguous argument candidates =>
    s!"ambiguous option: {argument} could match " ++ ", ".intercalate candidates
  | missingValue option => s!"argument {option.title}: expected one argument"
  | notAChoice option value =>
    let choices := ", ".intercalate (option.choices.map quoted)
    s!"argument {option.title}: invalid choice: {quoted value} (choose from {choices})"
  | unexpectedValue option value =>
    s!"argument {option.title}: ignored explicit argument {quoted value}"
  | missingOperand operand => s!"the following arguments are required: {operand}"
  | unrecognized arguments => "unrecognized arguments: " ++ " ".intercalate arguments

/-- A negative number, whole or with a point; a line feed may follow it. -/
def isNegativeNumber (argument : List Char) : Bool :=
  let number := match argument.reverse with
    | '\n' :: rest => rest.reverse
    | _ => argument
  match number with
  | '-' :: digits =>
    let fraction := digits.dropWhile isScriptDigit
    match fraction with
    | [] => digits != []
    | '.' :: places => places != [] && places.all isScriptDigit
    | _ => false
  | _ => false

namespace CommandSpec

/-- All names with their options, in the order in which they are declared. -/
def names (c : CommandSpec) : List (String × OptionSpec) :=
  c.options.flatMap fun o => o.names.map fun name => (name, o)

/-- The options that an argument may mean which is none of the names: those whose name it begins,
or the short one that it begins with. -/
def candidates (c : CommandSpec) (argument : List Char) :
    List (String × OptionSpec × Option (List Char)) :=
  match argument with
  | '-' :: '-' :: _ =>
    let stem := argument.takeWhile (· != '=')
    let attached := if stem.length < argument.length then some (argument.drop (stem.length + 1))
      else none
    (c.names.filter fun (name, _) => stem.isPrefixOf name.toList).map fun (name, o) =>
      (name, o, attached)
  | _ =>
    c.names.filterMap fun (name, o) =>
      if name.toList = argument.take 2 then some (name, o, some (argument.drop 2))
      else if argument.isPrefixOf name.toList then some (name, o, none)
      else none

/-- How an argument reads that is not the separator. -/
def reading (c : CommandSpec) (argument : String) : Except UsageFault Reading :=
  let cs := argument.toList
  let stem := cs.takeWhile (· != '=')
  if cs.head? ≠ some '-' then .ok .plain
  else match c.names.lookup argument with
    | some o => .ok (.option o argument none)
    | none =>
      if cs = ['-'] then .ok .plain
      else match if stem.length < cs.length then c.names.lookup (String.ofList stem) else none with
        | some o => .ok (.option o (String.ofList stem) (some (cs.drop (stem.length + 1))))
        | none =>
          match c.candidates cs with
          | [(name, o, attached)] => .ok (.option o name attached)
          | [] =>
            if isNegativeNumber cs || cs.contains ' ' then .ok .plain else .ok .unknown
          | several => .error (.ambiguous argument (several.map (·.1)))

/-- How all arguments read; after the separator they are plain. -/
def readings (c : CommandSpec) : List String → Except UsageFault (List (String × Reading))
  | [] => .ok []
  | "--" :: rest => .ok (("--", .separator) :: rest.map fun argument => (argument, .plain))
  | argument :: rest => do
    let r ← c.reading argument
    return (argument, r) :: (← c.readings rest)

end CommandSpec

end ScriptLexer
