import ScriptLexer.Suite.Run
import ScriptLexer.Proofs.Command.Runs
import ScriptLexer.Proofs.Cursor.Totality

/-
  A case and the lexing command on the same file. A byte-order mark in front is a blank, so the
  scan without it is the scan with it moved to the front (`Suite.startingAt_dropMark`); the result
  of the case and the exit code of the command then say the same (`Suite.runCase_iff_exit`).
-/

namespace ScriptLexer.Suite

/-- The scan of a text is that of what is left behind the mark, further on by its length. -/
theorem startingAt_dropMark (text : List Char) :
    Scan.startingAt 0 text =
      (Scan.startingAt 0 (dropMark text)).shift (text.length - (dropMark text).length) := by
  rw [Scan.startingAt_shift, Nat.zero_add]
  unfold dropMark
  split
  · next rest =>
    rw [Scan.startingAt_blank (by decide), List.length_cons, Nat.add_sub_cancel_left]
  · rw [Nat.sub_self]

theorem diagnostics_dropMark_isEmpty (text : List Char) :
    (Scan.startingAt 0 (dropMark text)).diagnostics.isEmpty =
      (Scan.startingAt 0 text).diagnostics.isEmpty := by
  rw [startingAt_dropMark text, Scan.shift, List.isEmpty_map]

theorem runCase_of_read {t : FileTree} {p : Path} {source : List Char}
    (read : t.readText p = .ok source) :
    runCase t p =
      if (Scan.ofText (.ofList source)).diagnostics.isEmpty then .passed else .failed := by
  rw [runCase, read, Scan.ofText, String.toList_ofList]
  dsimp only
  rw [diagnostics_dropMark_isEmpty]

theorem runCase_of_unread {t : FileTree} {p : Path} {e : Failure}
    (read : t.readText p = .error e) : runCase t p = .crashed := by
  rw [runCase, read]

/-- Where the command resolves its options and ends with an exit code, the case in the same file
passes, fails or crashes as the code is zero, one or two. It crashes only if the file cannot be
read as a text; on every text the lexer comes to its end. -/
theorem runCase_iff_exit {argv : List String} {t : FileTree} {o : LexOptions} {verbose : Bool}
    (resolved : LexCommand.options argv t = .ok (o, verbose)) (once : o.watch = false)
    (pauses : List (FileTree → FileTree))
    (finished : ∀ e, (LexCommand.run argv pauses t).ending ≠ .failed e) :
    ∃ code, (LexCommand.run argv pauses t).ending = .exit code ∧
      (runCase t o.input = .passed ↔ code = 0) ∧
      (runCase t o.input = .failed ↔ code = 1) ∧
      (runCase t o.input = .crashed ↔ code = 2) ∧
      (runCase t o.input = .crashed ↔
        ∃ e, t.readText o.input = .error e ∧ e.isUnreadable = true) ∧
      ∀ source, t.readText o.input = .ok source →
        ∃ tokens last, Cursor.Reaches { source := dropMark source } tokens last := by
  have run : LexCommand.run argv pauses t = o.runOnce verbose t := by
    rw [LexCommand.run, resolved]
    dsimp only
    rw [once]
    rfl
  rw [run] at finished ⊢
  have reaches (source : List Char) :
      ∃ tokens last, Cursor.Reaches { source := dropMark source } tokens last := by
    obtain ⟨last, -, unique⟩ := Cursor.reaches_iff (.ofList (dropMark source))
    rw [String.toList_ofList] at unique
    exact ⟨_, last, (unique _ _).mpr ⟨rfl, rfl⟩⟩
  have runs := o.runsOnce_runOnce verbose t
  revert runs finished
  generalize o.runOnce verbose t = outcome
  intro finished runs
  cases runs with
  | @unreadable e read reported =>
    refine ⟨2, rfl, ?_⟩
    rw [runCase_of_unread read]
    exact ⟨by decide, by decide, by decide, by simpa using ⟨e, read, reported⟩,
      fun source _ => reaches source⟩
  | unhandled => exact absurd rfl (finished _)
  | unwritten => exact absurd rfl (finished _)
  | done read emit =>
    refine ⟨_, rfl, ?_⟩
    rw [runCase_of_read read, read]
    refine ⟨?_, ?_, ?_, ?_, fun source _ => reaches source⟩ <;> split <;> simp

/-- A folder with one file: two byte-order marks, a zero, and a letter that cannot follow it. -/
def twoMarks : FileTree :=
  { home := []
    entries := [([], .folder 1),
      (["a.js"], .file [0xEF, 0xBB, 0xBF, 0xEF, 0xBB, 0xBF, 0x30, 0x61] 1)]
    clock := 2 }

theorem runCase_iff_exit_two_marks :
    (LexCommand.run ["a.js"] [] twoMarks).ending = .exit 1 ∧
      runCase twoMarks (Path.ofText "a.js") = .failed := by
  have resolved : LexCommand.options ["a.js"] twoMarks =
      .ok (⟨Path.ofText "a.js", none, some .text, true, false, false⟩, false) := by
    have accepted : LexCommand.spec.parse ["a.js"] = .run "a.js" [] := by decide +kernel
    rw [LexCommand.options_of_accepted accepted]
    rfl
  have ends : (LexCommand.run ["a.js"] [] twoMarks).ending = .exit 1 := by decide +kernel
  have finished (e : Failure) : (LexCommand.run ["a.js"] [] twoMarks).ending ≠ .failed e := by
    rw [ends]
    exact nofun
  obtain ⟨code, is, -, failed, -⟩ := runCase_iff_exit resolved rfl [] finished
  rw [ends] at is
  cases is
  exact ⟨ends, failed.mpr rfl⟩

end ScriptLexer.Suite
