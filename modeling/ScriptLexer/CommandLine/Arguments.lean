import ScriptLexer.CommandLine.Option

/-
  Arguments: what a command line sets. Arguments are texts and are taken from left to right; what is
  missing or left over is told at the end, and a request for help ends the reading at once.
-/

namespace ScriptLexer

/-- How an option is set: by standing there, to a value, or to nothing, which is what a separator
in the place of the value means. -/
inductive Setting
  | flag
  | value (text : String)
  | nothing
deriving DecidableEq, Repr

namespace Setting

/-- The setting by a value that is attached to the option. -/
def ofAttached (text : List Char) : Setting :=
  if text = ['-', '-'] then nothing else value (String.ofList text)

/-- What an option that takes a value is set to. -/
def choice? : Setting → Option (Option String)
  | flag => none
  | value text => some (some text)
  | nothing => some none

end Setting

/-- The options of a command line in the order in which they were given. -/
abbrev Settings := List (OptionSpec × Setting)

/-- The options, the operand, and what nobody wanted. -/
structure Arguments where
  settings : Settings := []
  operand : Option String := none
  extras : List String := []
deriving DecidableEq, Repr

/-- What a command line comes to. -/
inductive CommandLine
  | run (operand : String) (settings : Settings)
  | help
  | refused (fault : UsageFault)
deriving DecidableEq, Repr

namespace CommandSpec

/-- The options in one argument, and whether the last one takes the next argument as its value. -/
abbrev Chain := Settings × Bool

/-- The option `o` with nothing attached. -/
def alone (o : OptionSpec) (next : Option String) : Except UsageFault Chain :=
  if o.takesValue then
    match next with
    | some value => .ok ([(o, .value value)], true)
    | none => .error (.missingValue o)
  else .ok ([(o, .flag)], false)

/-- The short option `o` with characters behind it: its value, or more short options. -/
def chain (c : CommandSpec) (next : Option String) (o : OptionSpec) :
    List Char → Except UsageFault Chain
  | [] => alone o next
  | letter :: more =>
    if o.takesValue then .ok ([(o, .ofAttached (letter :: more))], false)
    else match c.names.lookup (String.ofList ['-', letter]) with
      | some following => do
        let (options, takesNext) ← c.chain next following more
        return ((o, .flag) :: options, takesNext)
      | none => .error (.unexpectedValue o (String.ofList (letter :: more)))

/-- The options that an argument stands for. -/
def occurrences (c : CommandSpec) (next : Option String) (o : OptionSpec) (name : String) :
    Option (List Char) → Except UsageFault Chain
  | none => alone o next
  | some attached =>
    if o.takesValue then .ok ([(o, .ofAttached attached)], false)
    else if name.startsWith "--" || attached = [] then
      .error (.unexpectedValue o (String.ofList attached))
    else c.chain next o attached

/-- Takes the options of one argument; none is left if help is asked for. -/
def apply : Arguments → Settings → Except UsageFault (Option Arguments)
  | args, [] => .ok (some args)
  | args, (o, setting) :: more =>
    if o.isHelp then .ok none
    else
      let next := { args with settings := args.settings ++ [(o, setting)] }
      match setting with
      | .value v =>
        if o.choices = [] ∨ v ∈ o.choices then apply next more else .error (.notAChoice o v)
      | _ => apply next more

/-- The argument that may serve as a value. -/
def plainNext : List (String × Reading) → Option String
  | (argument, .plain) :: _ => some argument
  | _ => none

/-- What follows the operand; a separator right behind it is dropped. -/
def afterOperand : List (String × Reading) → List (String × Reading)
  | (_, .separator) :: rest => rest
  | rest => rest

theorem length_afterOperand_le (readings : List (String × Reading)) :
    (afterOperand readings).length ≤ readings.length := by
  fun_cases afterOperand readings <;> simp

/-- Takes arguments from left to right. Behind the separator nothing is an option any more. -/
def take (c : CommandSpec) (args : Arguments) : List (String × Reading) →
    Except UsageFault (Option Arguments)
  | [] => .ok (some args)
  | (argument, .plain) :: rest =>
    if args.operand.isNone then c.take { args with operand := some argument } (afterOperand rest)
    else c.take { args with extras := args.extras ++ [argument] } rest
  | (argument, .separator) :: rest =>
    match args.operand, rest.map (·.1) with
    | none, operand :: more =>
      .ok (some { args with operand := some operand, extras := args.extras ++ more })
    | _, more => .ok (some { args with extras := args.extras ++ argument :: more })
  | (argument, .unknown) :: rest =>
    c.take { args with extras := args.extras ++ [argument] } rest
  | (_, .option o name attached) :: rest => do
    let (options, takesNext) ← c.occurrences (plainNext rest) o name attached
    match ← apply args options with
    | none => return none
    | some args => c.take args (rest.drop (if takesNext then 1 else 0))
termination_by readings => readings.length
decreasing_by
  · exact Nat.lt_succ_of_le (length_afterOperand_le rest)
  · simp
  · simp
  · simp only [List.length_drop, List.length_cons]
    omega

/-- Reads a command line. -/
def parse (c : CommandSpec) (argv : List String) : CommandLine :=
  match c.readings argv >>= c.take {} with
  | .error fault => .refused fault
  | .ok none => .help
  | .ok (some args) =>
    match args.operand, args.extras with
    | none, _ => .refused (.missingOperand c.operand)
    | some operand, [] => .run operand args.settings
    | some _, extras => .refused (.unrecognized extras)

def helpText (c : CommandSpec) : String := c.usage ++ "\n" ++ c.details

/-- What is written about a refused command line. -/
def usageError (c : CommandSpec) (fault : UsageFault) : String :=
  s!"{c.usage}{c.program}: error: {fault.message}\n"

end CommandSpec

namespace OptionSpec

/-- What an option is set to, in order; none where it is set to nothing. -/
def values (o : OptionSpec) (settings : Settings) : List (Option String) :=
  settings.filterMap fun (p, setting) => if p = o then setting.choice? else none

/-- The value that counts, if it was given and is not empty. -/
def value? (o : OptionSpec) (settings : Settings) : Option String :=
  match (o.values settings).getLast? with
  | some (some text) => if text = "" then none else some text
  | _ => none

def isSet (o : OptionSpec) (settings : Settings) : Bool :=
  settings.any fun (p, _) => p = o

end OptionSpec

end ScriptLexer
