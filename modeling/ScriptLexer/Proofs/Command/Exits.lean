import ScriptLexer.Proofs.Command.Config
import ScriptLexer.Proofs.Command.Runs

/-
  How the lexing command ends when it neither watches nor writes a file. Unless one of a few
  failures gets through (`LexCommand.Unhandled`), it ends with an exit code of at most two, and with
  two and nothing on the first stream if its configuration cannot be used (`LexCommand.run_ends`).
  The failures that get through are of the configuration file, except when its text is no TOML, and
  of an input path that cannot be handed to the system.
-/

namespace ScriptLexer

namespace LexCommand

/-! ## What gets through -/

/-- Where a command line has the configuration looked for. -/
def configPath (operand : String) (settings : Settings) : Path :=
  FileTree.configPath ((configOption.value? settings).map Path.ofText) (Path.ofText operand).parent

/-- The configuration of a command line. -/
def configOf (t : FileTree) (operand : String) (settings : Settings) : Except Failure Toml :=
  t.config ((configOption.value? settings).map Path.ofText) (Path.ofText operand).parent

/-- The failures that end a single run without an exit code. -/
inductive Unhandled (t : FileTree) (operand : String) (settings : Settings) : Failure → Prop
  | config {e : Failure} (fails : t.ConfigFails (configPath operand settings) e)
    (beyond : e ≠ .config .malformed) : Unhandled t operand settings e
  | format {config : Toml} {fault : DisplayFault}
    (configured : configOf t operand settings = .ok config)
    (shown : LexOptions.configuredFormat t.room.shown config = .error (.display fault)) :
    Unhandled t operand settings (.display fault)
  | input {o : LexOptions} (resolve : LexOptions.resolve t operand settings = .ok o)
    (nul : (Path.ofText operand).hasNul = true) : Unhandled t operand settings (.file .nulInPath)

variable {t : FileTree} {operand : String} {settings : Settings}

theorem resolve_error_iff {e : Failure} :
    LexOptions.resolve t operand settings = .error e ↔
      configOf t operand settings = .error e ∨
        ∃ config, configOf t operand settings = .ok config ∧
          LexOptions.configuredFormat t.room.shown config = .error e := by
  unfold LexOptions.resolve
  dsimp only
  rw [show t.config _ _ = configOf t operand settings from rfl]
  cases configOf t operand settings with
  | error fault => simp
  | ok config => cases format : LexOptions.configuredFormat t.room.shown config <;> simp [format]

/-- A configured format is refused, or it cannot even be shown. -/
theorem configuredFormat_error {room : Nat} {config : Toml} {e : Failure}
    (fails : LexOptions.configuredFormat room config = .error e) :
    (∃ text, e = .format text) ∨ ∃ fault, e = .display fault := by
  unfold LexOptions.configuredFormat at fails
  split at fails
  · cases fails
  split at fails
  · cases fails
  split at fails
  · cases fails
    exact Or.inl ⟨_, rfl⟩
  · cases fails
    exact Or.inr ⟨_, rfl⟩

/-- Options that cannot be resolved end the command with two, unless the failure gets through. -/
theorem refused_of_resolve {e : Failure}
    (resolve : LexOptions.resolve t operand settings = .error e) :
    (refused e).1 = .exit 2 ∧ (refused e).2.out = "" ∧ ¬Unhandled t operand settings e ∨
      refused e = (.failed e, {}) ∧ Unhandled t operand settings e := by
  have fails := resolve_error_iff.mp resolve
  rcases fails with fails | ⟨config, configured, fails⟩
  · have fails := FileTree.config_error_iff.mp fails
    by_cases malformed : e = .config .malformed
    · subst malformed
      refine Or.inl ⟨rfl, rfl, ?_⟩
      intro through
      cases through with
      | config _ beyond => exact beyond rfl
    · refine Or.inr ⟨?_, .config fails malformed⟩
      cases fails with
      | path _ | barred _ _ | bytes _ _ => rfl
      | @text _ _ fault _ _ _ =>
        cases fault with
        | malformed => exact absurd rfl malformed
        | tooManyDigits _ | tooDeep => rfl
  · rcases configuredFormat_error fails with ⟨text, rfl⟩ | ⟨fault, rfl⟩
    · refine Or.inl ⟨rfl, rfl, ?_⟩
      intro through
      cases through with
      | config fails _ => cases fails
    · exact Or.inr ⟨rfl, .format configured fails⟩

/-- What gets through while the options are resolved is what resolving fails with. -/
theorem Unhandled.of_resolve_error {e e' : Failure}
    (resolve : LexOptions.resolve t operand settings = .error e)
    (through : Unhandled t operand settings e') : e' = e := by
  cases through with
  | config fails _ =>
    rw [resolve_error_iff.mpr (Or.inl (FileTree.config_error_iff.mpr fails))] at resolve
    exact Except.error.inj resolve
  | format configured shown =>
    rw [resolve_error_iff.mpr (Or.inr ⟨_, configured, shown⟩)] at resolve
    exact Except.error.inj resolve
  | input resolved _ =>
    rw [resolved] at resolve
    cases resolve

theorem Unhandled.of_resolve_ok {o : LexOptions} {e : Failure}
    (resolve : LexOptions.resolve t operand settings = .ok o)
    (through : Unhandled t operand settings e) :
    e = .file .nulInPath ∧ (Path.ofText operand).hasNul = true := by
  cases through with
  | config fails _ =>
    rw [resolve_error_iff.mpr (Or.inl (FileTree.config_error_iff.mpr fails))] at resolve
    cases resolve
  | format configured shown =>
    rw [resolve_error_iff.mpr (Or.inr ⟨_, configured, shown⟩)] at resolve
    cases resolve
  | input _ nul => exact ⟨rfl, nul⟩

/-! ## How a run ends -/

/-- With the dump on the first stream, a run of resolved options ends with an exit code unless the
path of the input cannot be handed to the system. -/
theorem runOnce_ends {o : LexOptions} (toStream : o.output = none) (verbose : Bool)
    (t : FileTree) :
    (o.runOnce verbose t).ending = .failed (.file .nulInPath) ∧ o.input.hasNul = true ∨
      (∃ code ≤ 2, (o.runOnce verbose t).ending = .exit code) ∧ o.input.hasNul = false := by
  have runs := o.runsOnce_runOnce verbose t
  generalize o.runOnce verbose t = outcome at runs
  by_cases nul : o.input.hasNul = true
  · have unread : t.readText o.input = .error (.file .nulInPath) := by
      rw [FileTree.readText, FileTree.read_eq_nulInPath_iff.mpr nul]
    cases runs with
    | unreadable read reported =>
      rw [unread] at read
      cases read
      contradiction
    | unhandled read _ =>
      rw [unread] at read
      cases read
      exact Or.inl ⟨rfl, nul⟩
    | unwritten read _ | done read _ =>
      rw [unread] at read
      cases read
  · refine Or.inr ⟨?_, Bool.not_eq_true _ ▸ nul⟩
    cases runs with
    | unreadable read _ => exact ⟨2, Nat.le_refl 2, rfl⟩
    | unhandled read unreported =>
      exact absurd ((FileTree.not_isUnreadable_iff read).mp unreported).2 nul
    | unwritten read emit =>
      rw [LexOptions.emit, toStream] at emit
      cases emit
    | done read emit => exact ⟨_, by split <;> decide, rfl⟩

theorem output_of_resolve {o : LexOptions}
    (resolve : LexOptions.resolve t operand settings = .ok o) :
    o.output = (outputOption.value? settings).map Path.ofText := by
  unfold LexOptions.resolve at resolve
  dsimp only at resolve
  split at resolve
  · cases resolve
  split at resolve
  · cases resolve
  · cases resolve
    rfl

/-- An accepted command line that neither watches nor names an output file. The command ends
without an exit code exactly for the failures that are not handled, and else with one of at most
two. If the options cannot be resolved, nothing goes to the first stream, and unless the failure is
not handled the exit code is two. -/
theorem run_ends {argv : List String} (accepted : spec.parse argv = .run operand settings)
    (once : watchOption.isSet settings = false) (toStream : outputOption.value? settings = none)
    (pauses : List (FileTree → FileTree)) (t : FileTree) :
    (∀ e, (run argv pauses t).ending = .failed e ↔ Unhandled t operand settings e) ∧
      ((∃ e, Unhandled t operand settings e) ∨
        ∃ code ≤ 2, (run argv pauses t).ending = .exit code) ∧
      ∀ e, LexOptions.resolve t operand settings = .error e →
        (run argv pauses t).output.out = "" ∧
          ((run argv pauses t).ending = .exit 2 ∨ Unhandled t operand settings e) := by
  rw [run_of_accepted accepted once]
  cases resolve : LexOptions.resolve t operand settings with
  | error e =>
    dsimp only
    rcases refused_of_resolve resolve with ⟨ending, out, handled⟩ | ⟨same, through⟩
    · rw [ending, out]
      refine ⟨fun e' => iff_of_false nofun fun through => ?_,
        Or.inr ⟨2, Nat.le_refl 2, rfl⟩, fun _ _ => ⟨rfl, Or.inl rfl⟩⟩
      exact handled (through.of_resolve_error resolve ▸ through)
    · rw [same]
      refine ⟨fun e' => ⟨?_, fun through' => ?_⟩, Or.inl ⟨e, through⟩, ?_⟩
      · rintro ⟨⟩
        exact through
      · rw [through'.of_resolve_error resolve]
      · rintro e' ⟨⟩
        exact ⟨rfl, Or.inr through⟩
  | ok o =>
    dsimp only
    have input : o.input = Path.ofText operand := (resolve_ok resolve).1
    have noFile : o.output = none := by rw [output_of_resolve resolve, toStream, Option.map_none]
    have ends := runOnce_ends noFile (verboseOption.isSet settings) t
    rw [input] at ends
    refine ⟨fun e => ?_, ?_, nofun⟩
    · rcases ends with ⟨ending, nul⟩ | ⟨⟨code, -, ending⟩, clean⟩
      · rw [ending]
        constructor
        · rintro ⟨⟩
          exact .input resolve nul
        · intro through
          rw [(through.of_resolve_ok resolve).1]
      · rw [ending]
        refine iff_of_false nofun fun through => ?_
        rw [(through.of_resolve_ok resolve).2] at clean
        contradiction
    · rcases ends with ⟨-, nul⟩ | ⟨exits, -⟩
      · exact Or.inl ⟨_, .input resolve nul⟩
      · exact Or.inr exits

/-- A file to be lexed, and beside it a configuration whose one byte begins no character. -/
def undecodedConfig : FileTree :=
  { home := []
    entries := [([], .folder 1), (["a.js"], .file [0x78] 1), (["jslex.toml"], .file [0xFF] 1)]
    clock := 2 }

/-- What is wrong with the bytes of a configuration is not handled, so there is no exit code. -/
theorem run_ends_undecoded_config :
    ∃ e, Utf8.decode [0xFF] = .error e ∧
      (run ["a.js"] [] undecodedConfig).ending = .failed (.encoding e) := by
  have accepted : spec.parse ["a.js"] = .run "a.js" [] := by decide +kernel
  have located : undecodedConfig.locate (configPath "a.js" []) = .ok ["jslex.toml"] := by rfl
  have read : undecodedConfig.read (configPath "a.js" []) = .ok [0xFF] :=
    FileTree.read_eq_ok_iff.mpr ⟨_, located, rfl, rfl⟩
  refine ⟨_, rfl, ?_⟩
  exact ((run_ends accepted rfl rfl [] undecodedConfig).1 _).mpr (.config (.bytes read rfl) nofun)

end LexCommand

end ScriptLexer
