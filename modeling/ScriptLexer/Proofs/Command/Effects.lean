import ScriptLexer.Proofs.Command.Runs

/-
  What the lexing command does to its surroundings when it does not watch. A run that gets through
  delivers the dump to one place and reports every diagnostic (`LexOptions.Delivers`); a run that
  ends with two leaves all files and the first stream alone (`LexCommand.run_effects`).
-/

namespace ScriptLexer

namespace LexOptions

/-- The dump of a source: its tokens, without comments if they do not count, in the chosen
format. -/
def dumpOf (o : LexOptions) (source : List Char) : String :=
  ScriptLexer.dump (o.format.getD .text)
    ((Scan.ofText (.ofList source)).tokens.filter fun t => o.comments || !t.kind.isComment)

/-- The reports on a source, one for each diagnostic, also for those in comments. -/
def reportsOn (o : LexOptions) (source : List Char) : List String :=
  (Scan.ofText (.ofList source)).diagnostics.map fun d => d.report (.ofList source) o.input.toText

/-- The run hands over what there is to say about a source. The dump is all of the first stream,
or it is the content of the output file and no other file changes; the reports end the second
stream, behind what was noted on the way. -/
structure Delivers (o : LexOptions) (verbose : Bool) (t : FileTree) (source : List Char)
    (result : Outcome) : Prop where
  stream : o.output = none → result.output.out = o.dumpOf source ∧ result.tree = t
  file : ∀ path, o.output = some path → result.output.out = "" ∧ ∃ l, t.locate path = .ok l ∧
    result.tree.content? l = some (Utf8.encode (o.dumpOf source)) ∧
    ∀ m, m ≠ l → result.tree.content? m = t.content? m
  reports : result.output.err = String.join
    (((o.lexText verbose (.ofList source)).notes ++ o.reportsOn source).map (· ++ "\n"))

theorem lexText_dump (o : LexOptions) (verbose : Bool) (source : List Char) :
    (o.lexText verbose (.ofList source)).dump = o.dumpOf source := by
  rw [dumpOf, ← shownTokens_eq]
  rfl

theorem delivers_of_emit {o : LexOptions} {verbose : Bool} {t after : FileTree}
    {source : List Char} {written : Output} (ending : Ending)
    (emit : o.emit t (o.dumpOf source) = .ok (written, after)) :
    o.Delivers verbose t source
      ⟨ending, .notes (o.lexText verbose (.ofList source)).notes ++ written ++
        .notes (o.lexText verbose (.ofList source)).reports, after, []⟩ := by
  have notes (lines : List String) : (Output.notes lines).out = "" := rfl
  have err : written.err = "" := by
    rcases emit_ok emit with ⟨-, rfl, -⟩ | ⟨_, _, -, rfl, -⟩ <;> rfl
  constructor
  case stream =>
    intro none
    rcases emit_ok emit with ⟨-, rfl, rfl⟩ | ⟨path, l, some, -⟩
    · refine ⟨?_, rfl⟩
      simp only [Output.out_append, notes, String.empty_append, String.append_empty]
    · rw [none] at some
      contradiction
  case file =>
    intro path some
    rcases emit_ok emit with ⟨none, -⟩ | ⟨path', l, some', rfl, locate, puts⟩
    · rw [none] at some
      contradiction
    · obtain rfl : path' = path := Option.some.inj (some'.symm.trans some)
      obtain ⟨time, there⟩ := puts.there
      refine ⟨rfl, l, locate, ?_, puts.other⟩
      rw [FileTree.content?, there]
  case reports =>
    rw [Output.err_append, Output.err_append, err, String.append_empty,
      ← Output.err_notes_append]
    rfl

end LexOptions

/-- On an accepted command line that does not watch, an exit code of zero or one says whether the
input has diagnostics, and dump and reports are delivered; a code of two goes with an empty first
stream and no change to any file. -/
theorem LexCommand.run_effects {argv : List String} {operand : String} {settings : Settings}
    (accepted : spec.parse argv = .run operand settings)
    (once : watchOption.isSet settings = false) (pauses : List (FileTree → FileTree))
    {t : FileTree} {code : Nat} (ends : (run argv pauses t).ending = .exit code) :
    code ≤ 2 ∧
    (code = 0 ∨ code = 1 → ∃ o source, LexOptions.resolve t operand settings = .ok o ∧
      t.readText (Path.ofText operand) = .ok source ∧
      (code = 1 ↔ (Scan.ofText (.ofList source)).diagnostics ≠ []) ∧
      o.Delivers (verboseOption.isSet settings) t source (run argv pauses t)) ∧
    (code = 2 → (run argv pauses t).output.out = "" ∧ (run argv pauses t).tree = t) := by
  rw [run_of_accepted accepted once] at ends ⊢
  cases resolve : LexOptions.resolve t operand settings with
  | error e =>
    rw [resolve] at ends
    obtain ⟨rfl, silent⟩ := refused_exit ends
    exact ⟨Nat.le_refl 2, nofun, fun _ => ⟨silent, rfl⟩⟩
  | ok o =>
    rw [resolve] at ends
    dsimp only at ends ⊢
    rw [← (resolve_ok resolve).1]
    have runs := o.runsOnce_runOnce (verboseOption.isSet settings) t
    revert runs ends
    generalize o.runOnce (verboseOption.isSet settings) t = outcome
    intro ends runs
    cases runs with
    | unreadable read _ =>
      cases ends
      exact ⟨Nat.le_refl 2, nofun, fun _ => ⟨rfl, rfl⟩⟩
    | unhandled => contradiction
    | unwritten => contradiction
    | @done source written after read emit =>
      cases ends
      rw [LexOptions.lexText_dump] at emit
      refine ⟨?_, fun _ => ⟨o, source, rfl, read, ?_, LexOptions.delivers_of_emit _ emit⟩, ?_⟩
      · split <;> decide
      · rw [← List.isEmpty_eq_false_iff]
        split <;> simp_all
      · split <;> nofun

/-- A folder with one file, in which a comment is left open behind a number of old. -/
def LexCommand.openComment : FileTree :=
  { home := []
    entries := [([], .folder 1), (["a.js"], .file [0x30, 0x38, 0x2F, 0x2A] 1)]
    clock := 2 }

/-- The comment is left out of the dump and reported all the same. -/
theorem LexCommand.run_effects_open_comment :
    (run ["--no-comments", "-oout", "a.js"] [] openComment).ending = .exit 1 ∧
      ∃ (o : LexOptions) (source : List Char),
        openComment.readText (Path.ofText "a.js") = .ok source ∧
        (Scan.ofText (.ofList source)).diagnostics ≠ [] ∧
        o.Delivers false openComment source
          (run ["--no-comments", "-oout", "a.js"] [] openComment) := by
  have accepted : spec.parse ["--no-comments", "-oout", "a.js"] =
      .run "a.js" [(noCommentsOption, .flag), (outputOption, .value "out")] := by decide +kernel
  have ends : (run ["--no-comments", "-oout", "a.js"] [] openComment).ending = .exit 1 := by
    decide +kernel
  obtain ⟨-, through, -⟩ := run_effects accepted (by decide) [] ends
  obtain ⟨o, source, -, read, reported, delivers⟩ := through (Or.inr rfl)
  exact ⟨ends, o, source, read, reported.mp rfl, delivers⟩

end ScriptLexer
