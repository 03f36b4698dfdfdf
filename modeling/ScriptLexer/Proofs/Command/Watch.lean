import Mathlib.Data.List.Chain
import Mathlib.Data.List.DropRight
import ScriptLexer.Files.Change
import ScriptLexer.Proofs.Command.Config
import ScriptLexer.Proofs.Command.Effects
import ScriptLexer.Proofs.Files.WellFormed

/-
  Watching. A watch is a row of turns, each of which looks at the input file and, if that shows a
  new time, lexes it (`LexOptions.turns`). A time is tried once: if the input may not be read at the
  turn that first sees a time, it is not read as long as it shows that time. The time seen last, what
  the input held when it was first seen and what the output file holds stay in step
  (`LexOptions.Fresh`); so the output file is up to date after every turn that finds a text, if the
  turn that first saw it could read it, nobody else writes the output file, and times tell contents
  apart (`LexOptions.watchFile_fresh`).
-/

namespace ScriptLexer

/-- One turn of a watch: the files that the look saw, and what the look did. -/
structure Turn where
  before : FileTree
  look : LexOptions.Poll

/-- The time that the input showed, if it could be looked at. -/
def Turn.time? (o : LexOptions) (k : Turn) : Option Int :=
  (k.before.modified o.input).toOption

namespace FileTree

/-! ## Looking at the input -/

theorem find_of_read {t : FileTree} {p : Path} {content : List UInt8}
    (read : t.read p = .ok content) : ∃ time, t.find p = .ok (.file content time) := by
  obtain ⟨l, locate, -, holds⟩ := read_eq_ok_iff.mp read
  obtain ⟨time, there⟩ := content?_eq_some_iff.mp holds
  exact ⟨time, by rw [find_eq locate, there]⟩

theorem exists_read_of_readText {t : FileTree} {p : Path} {source : List Char}
    (read : t.readText p = .ok source) : ∃ bytes, t.read p = .ok bytes := by
  cases bytes : t.read p with
  | ok content => exact ⟨content, rfl⟩
  | error e =>
    rw [readText, bytes] at read
    contradiction

/-- Where a path leads to the same, the text is the same if it may be read. -/
theorem readText_of_find {t t' : FileTree} {p : Path} {bytes : List UInt8} {source : List Char}
    (same : t'.find p = t.find p) (readable : t'.read p = .ok bytes)
    (read : t.readText p = .ok source) : t'.readText p = .ok source := by
  obtain ⟨content, reads⟩ := exists_read_of_readText read
  obtain ⟨time, found⟩ := find_of_read reads
  obtain ⟨time', found'⟩ := find_of_read readable
  cases found'.symm.trans (same.trans found)
  rw [readText, readable]
  rwa [readText, reads] at read

/-- What can be read can be looked at. -/
theorem exists_modified_of_readText {t : FileTree} {p : Path} {source : List Char}
    (read : t.readText p = .ok source) : ∃ time, t.modified p = .ok time := by
  obtain ⟨bytes, read⟩ := exists_read_of_readText read
  obtain ⟨time, found⟩ := find_of_read read
  exact ⟨time, by rw [modified, found]; rfl⟩

/-- Why an input cannot be looked at. -/
theorem modified_error {t : FileTree} {p : Path} {e : FileError} (hidden : t.modified p = .error e) :
    (∃ fault, e = .refused fault p ∧ p.hasNul = false) ∨ e = .nulInPath ∧ p.hasNul = true := by
  cases locate : t.locate p with
  | error e' =>
    rw [modified, find, locate] at hidden
    cases hidden
    exact locate_error locate
  | ok l =>
    have clean := (locate_eq_ok_iff.mp locate).1
    rw [modified, find_eq locate] at hidden
    cases there : t.entry? l with
    | some e' =>
      rw [there] at hidden
      cases hidden
    | none =>
      rw [there] at hidden
      cases hidden
      exact .inl ⟨_, rfl, clean⟩

/-- What can be looked at is at worst barred or no text. -/
theorem isUnreadable_of_modified {t : FileTree} {p : Path} {time : Int} {e : Failure}
    (shows : t.modified p = .ok time) (read : t.readText p = .error e) :
    e.isUnreadable = true := by
  rw [← Bool.not_eq_false]
  intro other
  obtain ⟨-, nul⟩ := (not_isUnreadable_iff read).mp other
  have locate : t.locate p = .error .nulInPath := if_pos nul
  rw [modified, find, locate] at shows
  contradiction

theorem Puts.readText_other {t after : FileTree} {q : Path} {l : Location} {content : List UInt8}
    {source : List Char} (put : t.Puts after l content) (apart : t.locate q ≠ .ok l)
    (read : t.readText q = .ok source) : after.readText q = .ok source := by
  cases bytes : t.read q with
  | error e =>
    rw [readText, bytes] at read
    contradiction
  | ok content =>
    rw [readText, put.read_other apart bytes]
    rw [readText, bytes] at read
    exact read

end FileTree

namespace LexOptions

/-- What one look does, by what the input file shows. -/
inductive Looks (o : LexOptions) (verbose : Bool) (seen : Int) (t : FileTree) : Poll → Prop
  | broken (hidden : t.modified o.input = .error .nulInPath) (nul : o.input.hasNul = true) :
    Looks o verbose seen t ⟨seen, {}, t, some (.file .nulInPath)⟩
  | missing {fault : FileFault} {p : Path}
    (hidden : t.modified o.input = .error (.refused fault p)) :
    Looks o verbose seen t ⟨seen, {}, t, none⟩
  | same (shows : t.modified o.input = .ok seen) : Looks o verbose seen t ⟨seen, {}, t, none⟩
  | unreadable {time : Int} {e : Failure} (shows : t.modified o.input = .ok time)
    (fresh : time ≠ seen) (read : t.readText o.input = .error e) :
    Looks o verbose seen t ⟨time, o.unreadable e, t, none⟩
  | unwritten {time : Int} {source : List Char} {e : Failure}
    (shows : t.modified o.input = .ok time) (fresh : time ≠ seen)
    (read : t.readText o.input = .ok source) (emit : o.emit t (o.dumpOf source) = .error e) :
    Looks o verbose seen t ⟨time, .notes (o.lexText verbose (.ofList source)).notes, t, some e⟩
  | lexed {time : Int} {source : List Char} {written output : Output} {after : FileTree}
    (shows : t.modified o.input = .ok time) (fresh : time ≠ seen)
    (read : t.readText o.input = .ok source)
    (emit : o.emit t (o.dumpOf source) = .ok (written, after)) :
    Looks o verbose seen t ⟨time, output, after, none⟩

theorem looks_poll (o : LexOptions) (verbose : Bool) (seen : Int) (t : FileTree) :
    Looks o verbose seen t (o.poll verbose seen t) := by
  unfold poll lexFile
  cases shows : t.modified o.input with
  | error e =>
    rcases FileTree.modified_error shows with ⟨fault, rfl, -⟩ | ⟨rfl, nul⟩
    · exact .missing shows
    · exact .broken shows nul
  | ok time =>
    dsimp only
    split
    · next old =>
      subst old
      exact .same shows
    next fresh =>
    cases read : t.readText o.input with
    | error e =>
      dsimp only
      rw [if_pos (FileTree.isUnreadable_of_modified shows read)]
      exact .unreadable shows fresh read
    | ok source =>
      dsimp only
      rw [lexText_dump]
      split
      · next e emit => exact .unwritten shows fresh read emit
      · next written after emit => exact .lexed shows fresh read emit

/-! ## Turns -/

/-- The turns of a watch that last saw the input with the time `seen`. A failure ends them. -/
def turns (o : LexOptions) (verbose : Bool) :
    List (FileTree → FileTree) → Int → FileTree → List Turn
  | [], seen, t => [⟨t, o.poll verbose seen t⟩]
  | pause :: pauses, seen, t =>
    let look := o.poll verbose seen t
    ⟨t, look⟩ ::
      if look.failure.isSome then [] else o.turns verbose pauses look.seen (pause look.tree)

/-- The turns that could look at the input. -/
def shown (o : LexOptions) (turns : List Turn) : List Turn :=
  turns.filter fun k => (k.time? o).isSome

/-- As long as no turn fails, the watch takes one for each pause and one more. It writes what they
write and leaves the files of the last one. -/
theorem watchFrom_turns {o : LexOptions} {verbose : Bool} {pauses : List (FileTree → FileTree)}
    {seen : Int} {t : FileTree} (before : Output)
    (going : ∀ k ∈ o.turns verbose pauses seen t, k.look.failure = none) :
    (o.turns verbose pauses seen t).length = pauses.length + 1 ∧
      (o.watchFrom verbose pauses seen before t).ending = .exit 0 ∧
      (o.watchFrom verbose pauses seen before t).polls =
        ((o.turns verbose pauses seen t).map fun k => k.look.output).modifyHead (before ++ ·) ∧
      (o.turns verbose pauses seen t).getLast?.map (fun k => k.look.tree) =
        some (o.watchFrom verbose pauses seen before t).tree := by
  induction pauses generalizing seen before t with
  | nil =>
    have here : (o.poll verbose seen t).failure = none := going _ List.mem_cons_self
    rw [watchFrom.eq_def]
    dsimp only
    rw [here]
    exact ⟨rfl, rfl, rfl, rfl⟩
  | cons pause pauses ih =>
    rw [turns] at going ⊢
    have here : (o.poll verbose seen t).failure = none := going _ List.mem_cons_self
    rw [here, if_neg (by decide)] at going
    rw [watchFrom.eq_def]
    dsimp only
    rw [here, if_neg (by decide)]
    obtain ⟨count, ending, polls, last⟩ := ih {} fun k mem => going k (List.mem_cons_of_mem _ mem)
    refine ⟨by rw [List.length_cons, count, List.length_cons], ending, ?_, ?_⟩
    · have nothing : (fun a : Output => {} ++ a) = id := funext Output.empty_append
      rw [nothing, List.modifyHead_id] at polls
      exact congrArg _ polls
    · obtain ⟨k, mem, tree⟩ := Option.map_eq_some_iff.mp last
      rw [List.getLast?_cons, mem]
      exact congrArg some tree

/-! ## What stays in step -/

theorem shown_append (o : LexOptions) (front back : List Turn) :
    o.shown (front ++ back) = o.shown front ++ o.shown back :=
  List.filter_append front back

theorem shown_of_some {o : LexOptions} {k : Turn} {time : Int} (shows : k.time? o = some time) :
    o.shown [k] = [k] :=
  List.filter_cons_of_pos (by rw [shows]; rfl)

theorem shown_of_none {o : LexOptions} {k : Turn} (hidden : k.time? o = none) : o.shown [k] = [] :=
  List.filter_cons_of_neg (by rw [hidden]; decide)

/-- The turns that saw the input with the time it shows at one of them, and no other time in between.
`saw` are the turns before that could look at it. The first of them is the one that tried to read. -/
def sights (o : LexOptions) (saw : List Turn) (k : Turn) : List Turn :=
  (saw.rtakeWhile fun j => j.time? o = k.time? o) ++ [k]

/-- The watch has the output file to itself. Its input lies elsewhere, never shows the time zero,
and holds the same whenever it shows the same time twice in a row. -/
structure Undisturbed (o : LexOptions) (out : Path) (turns : List Turn) : Prop where
  apart : ∀ k ∈ turns, k.before.locate o.input ≠ k.before.locate out
  writable : ∀ k ∈ turns, ∀ content, ∃ after, k.before.write out content = .ok after
  alone : turns.IsChain fun j k => k.before.held? out = j.look.tree.held? out
  timed : ∀ k ∈ turns, k.time? o ≠ some 0
  honest : (o.shown turns).IsChain fun j k =>
    j.time? o = k.time? o → j.before.find o.input = k.before.find o.input

/-- What holds before a look, if `saw` are the turns that could look at the input. The last of them
showed the time seen. Since it is shown the input has been the same, and if the turn that saw it
first found a text, the output file holds the dump of that. -/
structure Fresh (o : LexOptions) (out : Path) (saw : List Turn) (seen : Int) (t : FileTree) :
    Prop where
  start : saw = [] → seen = 0
  time : ∀ k ∈ saw.getLast?, k.time? o = some seen
  same : ∀ j ∈ saw.rtakeWhile fun j => j.time? o = some seen,
    ∀ k ∈ saw.getLast?, j.before.find o.input = k.before.find o.input
  held : ∀ j ∈ (saw.rtakeWhile fun j => j.time? o = some seen).head?,
    ∀ source, j.before.readText o.input = .ok source →
      t.held? out = some (Utf8.encode (o.dumpOf source))

theorem fresh_start (o : LexOptions) (out : Path) (t : FileTree) : o.Fresh out [] 0 t where
  start _ := rfl
  time := nofun
  same := by simp
  held := by simp

section Step

variable {o : LexOptions} {out : Path} {saw : List Turn} {verbose : Bool} {seen time : Int}
  {t t' after : FileTree} {look : Poll}

theorem Fresh.pause (h : o.Fresh out saw seen t) (alone : t'.held? out = t.held? out) :
    o.Fresh out saw seen t' :=
  ⟨h.start, h.time, h.same, fun j mem source read => alone.trans (h.held j mem source read)⟩

theorem time?_of_shows (look : Poll) (shows : t.modified o.input = .ok time) :
    (Turn.mk t look).time? o = some time := by
  rw [Turn.time?, shows]
  rfl

theorem time?_of_error {e : FileError} (look : Poll) (hidden : t.modified o.input = .error e) :
    (Turn.mk t look).time? o = none := by
  rw [Turn.time?, hidden]
  rfl

/-- A write that is possible cannot keep a dump back. -/
theorem emit_ne_error (output : o.output = some out)
    (writable : ∀ content, ∃ after, t.write out content = .ok after) (dump : String) (e : Failure) :
    o.emit t dump ≠ .error e := by
  obtain ⟨after, write⟩ := writable (Utf8.encode dump)
  rw [LexOptions.emit, output]
  dsimp only
  rw [FileTree.writeText, write]
  exact nofun

theorem held?_of_emit {dump : String} {written : Output} (output : o.output = some out)
    (emit : o.emit t dump = .ok (written, after)) :
    after.held? out = some (Utf8.encode dump) := by
  rcases emit_ok emit with ⟨none, -⟩ | ⟨path, l, some, -, locate, puts⟩
  · rw [output] at none
    contradiction
  · obtain rfl : out = path := Option.some.inj (output.symm.trans some)
    exact puts.held?_self locate

theorem sights_eq {k : Turn} (shows : k.time? o = some time) :
    ((saw ++ [k]).rtakeWhile fun j => j.time? o = some time) = o.sights saw k := by
  rw [sights, shows]
  exact List.rtakeWhile_concat_pos _ saw k (decide_eq_true shows)

/-- At a turn with a new time, no turn before saw the input as it is. -/
theorem Fresh.sights_new {k : Turn} (h : o.Fresh out saw seen t) (shows : k.time? o = some time)
    (new : time ≠ seen) : o.sights saw k = [k] := by
  rw [sights, List.rtakeWhile_eq_nil_iff.mpr fun some same => ?_, List.nil_append]
  have last := h.time _ (List.getLast?_eq_some_getLast some)
  rw [decide_eq_true_eq, last, shows] at same
  exact new (Option.some.inj same).symm

/-- Behind a turn with a new time, the output file is what comes of that turn. -/
theorem Fresh.of_new (h : o.Fresh out saw seen t) (shows : t.modified o.input = .ok time)
    (new : time ≠ seen)
    (held : ∀ source, t.readText o.input = .ok source →
      after.held? out = some (Utf8.encode (o.dumpOf source))) :
    o.Fresh out (saw ++ [⟨t, look⟩]) time after := by
  have shows := time?_of_shows look shows
  have only := (sights_eq shows).trans (h.sights_new shows new)
  constructor
  case start => simp
  case time =>
    rw [List.getLast?_concat]
    rintro k ⟨⟩
    exact shows
  case same =>
    rw [only, List.getLast?_concat]
    rintro j mem k ⟨⟩
    rw [List.mem_singleton.mp mem]
  case held =>
    rw [only]
    rintro j ⟨⟩
    exact held

/-- Behind a turn with the time seen before, everything is as it was. -/
theorem Fresh.of_same (h : o.Fresh out saw seen t) (shows : t.modified o.input = .ok seen)
    (timed : seen ≠ 0)
    (honest : ∀ j ∈ saw.getLast?, j.before.find o.input = t.find o.input) :
    o.Fresh out (saw ++ [⟨t, look⟩]) seen t := by
  have shows := time?_of_shows look shows
  obtain ⟨front, last, rfl⟩ := (List.eq_nil_or_concat' saw).resolve_left (mt h.start timed)
  rw [List.getLast?_concat] at honest
  have here := h.time last (by rw [List.getLast?_concat]; rfl)
  have before := List.rtakeWhile_concat_pos (fun j : Turn => j.time? o = some seen) front last
    (decide_eq_true here)
  have all := List.rtakeWhile_concat_pos (fun j : Turn => j.time? o = some seen) (front ++ [last])
    ⟨t, look⟩ (decide_eq_true shows)
  constructor
  case start => simp
  case time =>
    rw [List.getLast?_concat]
    rintro k ⟨⟩
    exact shows
  case same =>
    rw [all, List.getLast?_concat]
    rintro j mem k ⟨⟩
    rcases List.mem_append.mp mem with mem | mem
    · exact (h.same j mem last (by rw [List.getLast?_concat]; rfl)).trans (honest last rfl)
    · rw [List.mem_singleton.mp mem]
  case held =>
    rw [all, List.head?_append_of_ne_nil _ (by simp [before])]
    exact h.held

/-- One look keeps the time seen, the text found first and the output file in step. -/
theorem Fresh.looked (h : o.Fresh out saw seen t) (looks : o.Looks verbose seen t look)
    (output : o.output = some out)
    (writable : ∀ content, ∃ after, t.write out content = .ok after)
    (timed : (Turn.mk t look).time? o ≠ some 0)
    (honest : ∀ j ∈ saw.getLast?, j.time? o = (Turn.mk t look).time? o →
      j.before.find o.input = t.find o.input) :
    o.Fresh out (saw ++ o.shown [⟨t, look⟩]) look.seen look.tree := by
  cases looks with
  | broken hidden | missing hidden =>
    rw [shown_of_none (time?_of_error _ hidden), List.append_nil]
    exact h
  | same shows =>
    have here := time?_of_shows ⟨seen, {}, t, none⟩ shows
    rw [shown_of_some here]
    refine h.of_same shows (fun zero => timed (zero ▸ here)) fun j mem => ?_
    exact honest j mem ((h.time j mem).trans here.symm)
  | unreadable shows new unread =>
    rw [shown_of_some (time?_of_shows _ shows)]
    refine h.of_new shows new fun source read => ?_
    rw [unread] at read
    contradiction
  | unwritten _ _ _ emit => exact absurd emit (emit_ne_error output writable _ _)
  | @lexed _ found _ _ _ shows new reads emit =>
    rw [shown_of_some (time?_of_shows _ shows)]
    refine h.of_new shows new fun source read => ?_
    obtain rfl : found = source := Except.ok.inj (reads.symm.trans read)
    exact held?_of_emit output emit

end Step

/-! ## One turn -/

/-- What a turn comes to, if `saw` are the turns before that could look at the input. If it finds a
text that could already be read when it was first seen, then the text is still there, and the output
file holds what a single run writes. If there is no text, it leaves the files alone and is no
failure. -/
structure Tends (o : LexOptions) (verbose : Bool) (out : Path) (saw : List Turn) (k : Turn) :
    Prop where
  text : ∀ source, k.before.readText o.input = .ok source →
    (∀ j ∈ (o.sights saw k).head?, ∃ bytes, j.before.read o.input = .ok bytes) →
    k.look.tree.readText o.input = .ok source ∧
    (∃ code, (o.runOnce verbose k.before).ending = .exit code) ∧
    (o.runOnce verbose k.before).tree.held? out = k.look.tree.held? out ∧
    k.look.tree.held? out = some (Utf8.encode (o.dumpOf source))
  hidden : k.time? o = none → k.look.tree = k.before ∧ k.look.output = {}
  noText : ∀ e, k.before.readText o.input = .error e → e.isUnreadable = true →
    k.look.tree = k.before ∧ k.look.failure = none
  going : o.input.hasNul = false → k.look.failure = none

/-- A turn at a time seen before leaves the files alone and writes nothing. -/
def RestsAfter (o : LexOptions) (j k : Turn) : Prop :=
  k.time? o = j.time? o → k.look.tree = k.before ∧ k.look.output = {}

section Turn

variable {o : LexOptions} {out : Path} {saw front back rest : List Turn} {verbose : Bool}
  {seen : Int} {t : FileTree} {look : Poll} {source : List Char} {j k : Turn}

/-- A single run on a text writes its dump. -/
theorem runOnce_of_text (verbose : Bool) (output : o.output = some out)
    (writable : ∀ content, ∃ after, t.write out content = .ok after)
    (read : t.readText o.input = .ok source) :
    (∃ code, (o.runOnce verbose t).ending = .exit code) ∧
      (o.runOnce verbose t).tree.held? out = some (Utf8.encode (o.dumpOf source)) := by
  have runs := o.runsOnce_runOnce verbose t
  revert runs
  generalize o.runOnce verbose t = outcome
  intro runs
  cases runs with
  | unreadable unread _ =>
    rw [unread] at read
    contradiction
  | unhandled unread _ =>
    rw [unread] at read
    contradiction
  | unwritten _ emit => exact absurd emit (emit_ne_error output writable _ _)
  | @done found _ _ reads emit =>
    obtain rfl : found = source := Except.ok.inj (reads.symm.trans read)
    rw [lexText_dump] at emit
    exact ⟨⟨_, rfl⟩, held?_of_emit output emit⟩

/-- A look does not change the text that it finds. -/
theorem Looks.readText_eq (looks : o.Looks verbose seen t look) (output : o.output = some out)
    (apart : t.locate o.input ≠ t.locate out) (read : t.readText o.input = .ok source) :
    look.tree.readText o.input = .ok source := by
  cases looks with
  | lexed _ _ _ emit =>
    rcases emit_ok emit with ⟨none, -⟩ | ⟨path, l, some, -, locate, puts⟩
    · rw [output] at none
      contradiction
    · obtain rfl : out = path := Option.some.inj (output.symm.trans some)
      rw [locate] at apart
      exact puts.readText_other apart read
  | _ => exact read

/-- Behind a look at a text that could already be read when it was first seen, the output file holds
its dump. -/
theorem Fresh.held?_of_text (after : o.Fresh out (saw ++ o.shown [⟨t, look⟩]) look.seen look.tree)
    (read : t.readText o.input = .ok source)
    (readable : ∀ j ∈ (o.sights saw ⟨t, look⟩).head?, ∃ bytes, j.before.read o.input = .ok bytes) :
    look.tree.held? out = some (Utf8.encode (o.dumpOf source)) := by
  obtain ⟨time, shows⟩ := FileTree.exists_modified_of_readText read
  have shows := time?_of_shows look shows
  obtain ⟨-, seen, same, held⟩ := after
  rw [shown_of_some shows] at seen same held
  rw [List.getLast?_concat] at seen same
  rw [sights_eq (seen _ rfl)] at same held
  have some : (o.sights saw ⟨t, look⟩).head?.isSome := by simp [sights]
  obtain ⟨first, mem⟩ := Option.isSome_iff_exists.mp some
  obtain ⟨bytes, reads⟩ := readable first mem
  have found := same first (List.mem_of_mem_head? mem) _ rfl
  exact held first mem source (FileTree.readText_of_find found reads read)

theorem Fresh.tends (after : o.Fresh out (saw ++ o.shown [⟨t, look⟩]) look.seen look.tree)
    (looks : o.Looks verbose seen t look) (output : o.output = some out)
    (apart : t.locate o.input ≠ t.locate out)
    (writable : ∀ content, ∃ after, t.write out content = .ok after) :
    o.Tends verbose out saw ⟨t, look⟩ := by
  constructor
  case text =>
    intro source read readable
    have held := after.held?_of_text read readable
    obtain ⟨ends, writes⟩ := runOnce_of_text verbose output writable read
    exact ⟨looks.readText_eq output apart read, ends, writes.trans held.symm, held⟩
  case hidden =>
    intro hidden
    have looked {time : Int} (shows : t.modified o.input = .ok time) : False := by
      rw [time?_of_shows look shows] at hidden
      contradiction
    cases looks with
    | broken | missing => exact ⟨rfl, rfl⟩
    | same shows | unreadable shows | unwritten shows | lexed shows => exact (looked shows).elim
  case noText =>
    intro e unread reported
    dsimp only at unread
    cases looks with
    | broken _ nul =>
      rw [FileTree.readText, FileTree.read_eq_nulInPath_iff.mpr nul] at unread
      cases unread
      contradiction
    | unwritten _ _ read _ | lexed _ _ read _ =>
      rw [read] at unread
      contradiction
    | _ => exact ⟨rfl, rfl⟩
  case going =>
    intro clean
    cases looks with
    | broken _ nul =>
      rw [nul] at clean
      contradiction
    | unwritten _ _ _ emit => exact absurd emit (emit_ne_error output writable _ _)
    | _ => rfl

/-- A look at a time seen before does nothing at all. -/
theorem Looks.of_same (looks : o.Looks verbose seen t look)
    (same : (Turn.mk t look).time? o = some seen) : look.tree = t ∧ look.output = {} := by
  have old {time : Int} (shows : t.modified o.input = .ok time) : time = seen := by
    rw [time?_of_shows look shows] at same
    exact Option.some.inj same
  cases looks with
  | unreadable shows fresh _ => exact absurd (old shows) fresh
  | unwritten shows fresh _ _ => exact absurd (old shows) fresh
  | lexed shows fresh _ _ => exact absurd (old shows) fresh
  | _ => exact ⟨rfl, rfl⟩

/-- A turn follows the last of those before it that could look at the input. -/
theorem Undisturbed.follows (quiet : o.Undisturbed out (front ++ k :: back))
    (mem : j ∈ (o.shown front).getLast?) (same : j.time? o = k.time? o) {time : Int}
    (shows : k.time? o = some time) : j.before.find o.input = k.before.find o.input := by
  have honest := quiet.honest
  have split : front ++ k :: back = front ++ [k] ++ back := List.append_cons front k back
  rw [split, shown_append, shown_append, shown_of_some shows] at honest
  exact (List.isChain_append.mp (List.isChain_append.mp honest).1).2.2 j mem k rfl same

/-- Between two turns, nobody touches the output file. -/
theorem Undisturbed.held?_next {pauses : List (FileTree → FileTree)}
    (quiet : o.Undisturbed out (front ++ k :: o.turns verbose pauses seen t)) :
    t.held? out = k.look.tree.held? out := by
  have alone := (List.isChain_append.mp quiet.alone).2.1
  cases pauses <;> exact (List.isChain_cons_cons.mp alone).1

/-- One turn keeps the watch in step, comes to what a turn should, and rests if it shows no other
time than the last one. -/
theorem Fresh.turn (h : o.Fresh out (o.shown front) seen t) (looks : o.Looks verbose seen t look)
    (output : o.output = some out) (quiet : o.Undisturbed out (front ++ ⟨t, look⟩ :: rest)) :
    o.Fresh out (o.shown (front ++ [⟨t, look⟩])) look.seen look.tree ∧
      o.Tends verbose out (o.shown front) ⟨t, look⟩ ∧
      ∀ j ∈ (o.shown front).getLast?, o.RestsAfter j ⟨t, look⟩ := by
  have mem : ⟨t, look⟩ ∈ front ++ ⟨t, look⟩ :: rest :=
    List.mem_append_right front List.mem_cons_self
  have writable := quiet.writable _ mem
  have honest (j : Turn) (last : j ∈ (o.shown front).getLast?)
      (same : j.time? o = (Turn.mk t look).time? o) :
      j.before.find o.input = t.find o.input :=
    quiet.follows last same (same.symm.trans (h.time j last))
  have after := h.looked looks output writable (quiet.timed _ mem) honest
  refine ⟨?_, after.tends looks output (quiet.apart _ mem) writable, fun j last same => ?_⟩
  · rw [shown_append]
    exact after
  · exact looks.of_same (same.trans (h.time j last))

end Turn

/-! ## All turns -/

section Turns

variable {o : LexOptions} {out : Path} {verbose : Bool} {front rest : List Turn} {k : Turn}

/-- Each turn of a row comes to what it should, after some others. -/
def EachTends (o : LexOptions) (verbose : Bool) (out : Path) (front turns : List Turn) : Prop :=
  ∀ middle k back, turns = middle ++ k :: back →
    o.Tends verbose out (o.shown (front ++ middle)) k

theorem EachTends.cons (tends : o.Tends verbose out (o.shown front) k)
    (each : o.EachTends verbose out (front ++ [k]) rest) :
    o.EachTends verbose out front (k :: rest) := by
  intro middle j back split
  cases middle with
  | nil =>
    cases split
    rwa [List.append_nil]
  | cons =>
    cases split
    rw [List.append_cons]
    exact each _ j back rfl

theorem isChain_shown_concat (chain : (o.shown front).IsChain o.RestsAfter)
    (rests : ∀ j ∈ (o.shown front).getLast?, o.RestsAfter j k) :
    (o.shown (front ++ [k])).IsChain o.RestsAfter := by
  rw [shown_append]
  cases shows : k.time? o with
  | some time =>
    rw [shown_of_some shows]
    refine List.isChain_append.mpr ⟨chain, .singleton k, fun j mem j' head => ?_⟩
    obtain rfl := Option.some.inj head
    exact rests j mem
  | none => rwa [shown_of_none shows, List.append_nil]

/-- What one turn keeps, all turns keep. -/
theorem Fresh.turns (output : o.output = some out) (verbose : Bool)
    (pauses : List (FileTree → FileTree)) (front : List Turn) {seen : Int} {t : FileTree}
    (h : o.Fresh out (o.shown front) seen t) (chain : (o.shown front).IsChain o.RestsAfter)
    (quiet : o.Undisturbed out (front ++ o.turns verbose pauses seen t)) :
    o.EachTends verbose out front (o.turns verbose pauses seen t) ∧
      (o.shown (front ++ o.turns verbose pauses seen t)).IsChain o.RestsAfter := by
  have none (front : List Turn) : o.EachTends verbose out front [] := by
    intro middle k back split
    cases middle <;> cases split
  induction pauses generalizing front seen t with
  | nil =>
    obtain ⟨-, tends, rests⟩ := h.turn (o.looks_poll verbose seen t) output quiet
    exact ⟨.cons tends (none _), isChain_shown_concat chain rests⟩
  | cons pause pauses ih =>
    rw [LexOptions.turns] at quiet ⊢
    obtain ⟨after, tends, rests⟩ := h.turn (o.looks_poll verbose seen t) output quiet
    have chain := isChain_shown_concat chain rests
    by_cases failed : (o.poll verbose seen t).failure.isSome
    · rw [if_pos failed]
      exact ⟨.cons tends (none _), chain⟩
    · rw [if_neg failed] at quiet ⊢
      have next := quiet.held?_next
      rw [List.append_cons] at quiet ⊢
      obtain ⟨each, chain⟩ := ih _ (after.pause next) chain quiet
      exact ⟨.cons tends each, chain⟩

end Turns

/-- After every turn of an undisturbed watch that finds a text, the output file is what a single
run would write, if the turn that first saw the text could read it. A turn does nothing if the input
shows no other time than when it was last there, and none ends the watch or writes the output file
because there is no text. -/
theorem watchFile_fresh {o : LexOptions} {out : Path} (output : o.output = some out)
    (verbose : Bool) (pauses : List (FileTree → FileTree)) (t : FileTree)
    (quiet : o.Undisturbed out (o.turns verbose pauses 0 t)) :
    (∀ front k back, o.turns verbose pauses 0 t = front ++ k :: back →
      o.Tends verbose out (o.shown front) k) ∧
    (o.shown (o.turns verbose pauses 0 t)).IsChain o.RestsAfter ∧
    (o.input.hasNul = false →
      (o.turns verbose pauses 0 t).length = pauses.length + 1 ∧
      (o.watchFile verbose pauses t).ending = .exit 0 ∧
      (o.watchFile verbose pauses t).polls =
        ((o.turns verbose pauses 0 t).map fun k => k.look.output).modifyHead
          (.note s!"Watching {o.input.toText} for changes..." ++ ·) ∧
      (o.turns verbose pauses 0 t).getLast?.map (fun k => k.look.tree) =
        some (o.watchFile verbose pauses t).tree) := by
  obtain ⟨each, rests⟩ :=
    Fresh.turns output verbose pauses [] (o.fresh_start out t) .nil quiet
  refine ⟨each, rests, fun clean => watchFrom_turns _ fun k mem => ?_⟩
  obtain ⟨front, back, split⟩ := List.append_of_mem mem
  exact (each front k back split).going clean

/-- A watch on one file that writes to another. -/
def watched : LexOptions :=
  { input := ⟨.here, ["a.js"]⟩, output := some ⟨.here, ["out"]⟩, format := some .text
    comments := true, watch := true, debug := false }

/-- A file can be written at a row of turns if nothing can be written there. -/
theorem writable_of_nothing {out : Path} {turns : List Turn}
    (nothing : ∀ k ∈ turns, (k.before.write out []).toOption.isSome) :
    ∀ k ∈ turns, ∀ content, ∃ after, k.before.write out content = .ok after := by
  intro k mem content
  have possible := nothing k mem
  cases write : k.before.write out [] with
  | ok after => exact FileTree.exists_write write content
  | error e =>
    rw [write] at possible
    contradiction

/-- The input becomes no text, goes away, and comes back. -/
def troubles : List (FileTree → FileTree) :=
  [(·.change "a.js" (.file [0xFF] 20)), (·.change "a.js" .delete),
   (·.change "a.js" (.file [0x31] 30))]

theorem watchFile_fresh_troubles :
    watched.Undisturbed ⟨.here, ["out"]⟩ (watched.turns false troubles 0 LexCommand.openComment) ∧
      (watched.watchFile false troubles LexCommand.openComment).ending = .exit 0 ∧
      ∀ front k back, watched.turns false troubles 0 LexCommand.openComment = front ++ k :: back →
        watched.Tends false ⟨.here, ["out"]⟩ (watched.shown front) k := by
  have quiet : watched.Undisturbed ⟨.here, ["out"]⟩
      (watched.turns false troubles 0 LexCommand.openComment) := by
    constructor
    case writable => exact writable_of_nothing (by decide +kernel)
    all_goals decide +kernel
  obtain ⟨each, -, ends⟩ := watchFile_fresh rfl false troubles LexCommand.openComment quiet
  exact ⟨quiet, (ends (by decide)).2.1, each⟩

/-- The input changes while it may not be read, and may be read again. -/
def barred : List (FileTree → FileTree) :=
  [fun t => (t.change "a.js" (.file [0x31] 20)).limit ["a.js"] ⟨false, true, true⟩,
   fun t => t.limit ["a.js"] {}]

/-- Where a watch is not up to date. If the input may not be read at the turn that first sees a
change, it stays unread when it may, as it shows no new time. A path with a character that ends
names ends the watch. -/
theorem watchFile_stale :
    (watched.Undisturbed ⟨.here, ["out"]⟩ (watched.turns false barred 0 LexCommand.openComment) ∧
      ∃ k ∈ watched.turns false barred 0 LexCommand.openComment,
        (k.before.readText watched.input).toOption = some ['1'] ∧
        k.look.tree.held? ⟨.here, ["out"]⟩ ≠ some (Utf8.encode (watched.dumpOf ['1']))) ∧
    (({ watched with input := ⟨.here, ["a\x00.js"]⟩ } : LexOptions).watchFile false []
      LexCommand.openComment).ending ≠ .exit 0 := by
  refine ⟨⟨?_, ?_⟩, by decide +kernel⟩
  · constructor
    case writable => exact writable_of_nothing (by decide +kernel)
    all_goals decide +kernel
  · decide +kernel

end LexOptions

end ScriptLexer
