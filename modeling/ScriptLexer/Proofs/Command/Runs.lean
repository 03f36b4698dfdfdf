import ScriptLexer.Command.LexFile
import ScriptLexer.Proofs.Files.Tree

/-
  Single runs of the lexing command. `LexOptions.RunsOnce` says how a run ends, by what the input
  file is and where the dump goes; `LexCommand.run_of_accepted` leads a command line back to it.
-/

namespace ScriptLexer

namespace Output

@[simp] theorem out_append (a b : Output) : (a ++ b).out = a.out ++ b.out := rfl

@[simp] theorem err_append (a b : Output) : (a ++ b).err = a.err ++ b.err := rfl

theorem empty_append (a : Output) : {} ++ a = a :=
  congr (congrArg mk (String.empty_append (s := a.out))) (String.empty_append (s := a.err))

theorem join_append (a b : List String) :
    String.join (a ++ b) = String.join a ++ String.join b := by
  induction a with
  | nil => simp
  | cons s a ih =>
    rw [List.cons_append, String.join_cons, String.join_cons, ih, String.append_assoc]

/-- Notes in two rows are notes in one. -/
theorem err_notes_append (a b : List String) :
    (notes (a ++ b)).err = (notes a).err ++ (notes b).err := by
  simp only [notes, List.map_append, join_append]

end Output

instance (e : Ending) (n : Nat) : Decidable (e = .exit n) :=
  match e with
  | .exit m => decidable_of_iff (m = n) ⟨congrArg _, fun h => by injection h⟩
  | .early _ => isFalse nofun
  | .failed _ => isFalse nofun

namespace LexOptions

/-! ## What is shown -/

theorem shownTokens_eq (o : LexOptions) (tokens : List Token) :
    o.shownTokens tokens = tokens.filter fun t => o.comments || !t.kind.isComment := by
  unfold shownTokens
  split
  · next keep => exact (List.filter_eq_self.mpr fun t _ => by rw [keep, Bool.true_or]).symm
  · next leave => simp [leave]

/-- Reports are there exactly if diagnostics are, whatever the options. -/
theorem reports_isEmpty (o : LexOptions) (verbose : Bool) (source : String) :
    (o.lexText verbose source).reports.isEmpty =
      (Scan.ofText source).diagnostics.isEmpty :=
  List.isEmpty_map

/-- A dump goes to the first stream, or to a file alone. -/
theorem emit_ok {o : LexOptions} {t after : FileTree} {dump : String} {written : Output}
    (emit : o.emit t dump = .ok (written, after)) :
    (o.output = none ∧ written = ⟨dump, ""⟩ ∧ after = t) ∨
      ∃ path l, o.output = some path ∧ written = {} ∧ t.locate path = .ok l ∧
        t.Puts after l (Utf8.encode dump) := by
  unfold LexOptions.emit at emit
  split at emit
  · next none =>
    cases emit
    exact Or.inl ⟨none, rfl, rfl⟩
  · next path some =>
    unfold FileTree.writeText at emit
    cases write : t.write path (Utf8.encode dump) with
    | error e =>
      rw [write] at emit
      contradiction
    | ok file =>
      rw [write] at emit
      cases emit
      obtain ⟨l, locate, puts⟩ := FileTree.write_ok write
      exact Or.inr ⟨path, l, some, rfl, locate, puts⟩

/-! ## One run -/

/-- How one run ends. -/
inductive RunsOnce (o : LexOptions) (verbose : Bool) (t : FileTree) : Outcome → Prop
  | unreadable {e : Failure} (read : t.readText o.input = .error e)
    (reported : e.isUnreadable = true) : RunsOnce o verbose t ⟨.exit 2, o.unreadable e, t, []⟩
  | unhandled {e : Failure} (read : t.readText o.input = .error e)
    (unreported : e.isUnreadable = false) : RunsOnce o verbose t ⟨.failed e, {}, t, []⟩
  | unwritten {source : List Char} {e : Failure} (read : t.readText o.input = .ok source)
    (emit : o.emit t (o.lexText verbose (.ofList source)).dump = .error e) :
    RunsOnce o verbose t
      ⟨.failed e, .notes (o.lexText verbose (.ofList source)).notes, t, []⟩
  | done {source : List Char} {written : Output} {after : FileTree}
    (read : t.readText o.input = .ok source)
    (emit : o.emit t (o.lexText verbose (.ofList source)).dump = .ok (written, after)) :
    RunsOnce o verbose t
      ⟨.exit (if (Scan.ofText (.ofList source)).diagnostics.isEmpty then 0 else 1),
        .notes (o.lexText verbose (.ofList source)).notes ++ written ++
          .notes (o.lexText verbose (.ofList source)).reports, after, []⟩

theorem runsOnce_runOnce (o : LexOptions) (verbose : Bool) (t : FileTree) :
    RunsOnce o verbose t (o.runOnce verbose t) := by
  unfold runOnce lexFile
  cases read : t.readText o.input with
  | error e =>
    dsimp only
    split
    · next reported => exact .unreadable read reported
    · next unreported => exact .unhandled read (Bool.not_eq_true _ ▸ unreported)
  | ok source =>
    dsimp only
    split
    · next e emit => exact .unwritten read emit
    · next written after emit =>
      rw [reports_isEmpty]
      exact .done read emit

end LexOptions

namespace LexCommand

/-! ## Command lines -/

/-- What is resolved from a command line, as far as a single run needs it. -/
theorem resolve_ok {t : FileTree} {operand : String} {settings : Settings} {o : LexOptions}
    (resolve : LexOptions.resolve t operand settings = .ok o) :
    o.input = Path.ofText operand ∧ o.watch = watchOption.isSet settings := by
  unfold LexOptions.resolve at resolve
  dsimp only at resolve
  split at resolve
  · contradiction
  split at resolve
  · contradiction
  · cases resolve
    exact ⟨rfl, rfl⟩

theorem options_of_accepted {argv : List String} {operand : String} {settings : Settings}
    (accepted : spec.parse argv = .run operand settings) (t : FileTree) :
    options argv t = match LexOptions.resolve t operand settings with
      | .error e => .error (.failed e, {})
      | .ok o => .ok (o, verboseOption.isSet settings) := by
  cases resolve : LexOptions.resolve t operand settings <;> simp only [options, accepted, resolve]

/-- An accepted command line that does not watch is refused for its options, or runs once. -/
theorem run_of_accepted {argv : List String} {operand : String} {settings : Settings}
    (accepted : spec.parse argv = .run operand settings)
    (once : watchOption.isSet settings = false) (pauses : List (FileTree → FileTree))
    (t : FileTree) :
    run argv pauses t = match LexOptions.resolve t operand settings with
      | .error e => ⟨(refused e).1, (refused e).2, t, []⟩
      | .ok o => o.runOnce (verboseOption.isSet settings) t := by
  rw [run, options_of_accepted accepted]
  cases resolve : LexOptions.resolve t operand settings with
  | error e => rfl
  | ok o =>
    dsimp only
    rw [(resolve_ok resolve).2, once]
    rfl

/-- Refused options end the command with two, if with an exit code at all. -/
theorem refused_exit {e : Failure} {code : Nat} (ends : (refused e).1 = .exit code) :
    code = 2 ∧ (refused e).2.out = "" := by
  revert ends
  fun_cases refused e <;> intro ends <;> cases ends <;> exact ⟨rfl, rfl⟩

end LexCommand

end ScriptLexer
