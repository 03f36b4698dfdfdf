import ScriptLexer.Suite.Store
import ScriptLexer.Proofs.Files.Folders
import ScriptLexer.Proofs.Json.ReadBack
import ScriptLexer.Proofs.Text.Utf8

/-
  Stored summaries. The two files of a suite have paths that differ in the last name alone, so they
  are two files (`Suite.summary_ne_success`). A summary can be stored where both can be written, if
  the names of the passing cases are texts (`Suite.exists_store_iff`); if they are not, the list is
  left empty (`Suite.store_illegible`). What storing a summary leaves behind (`Suite.store_ok`) is
  what it leaves behind when it is done again (`Suite.store_again`), and the coverage is read back
  from there (`Suite.Holds.previousCoverage`).
-/

namespace ScriptLexer

/-! ## Names with an ending -/

namespace Path

theorem splitSlashes_of_not_mem {cs : List Char} (free : '/' ∉ cs) : splitSlashes cs = [cs] := by
  induction cs with
  | nil => rfl
  | cons c cs ih =>
    rw [List.mem_cons, not_or] at free
    rw [splitSlashes, if_neg (Ne.symm free.1), ih free.2]

/-- What is put behind a text goes to its last part. -/
theorem splitSlashes_append (cs : List Char) : ∃ front last, ∀ ending, '/' ∉ ending →
    splitSlashes (cs ++ ending) = front ++ [last ++ ending] := by
  induction cs with
  | nil => exact ⟨[], [], fun ending free => splitSlashes_of_not_mem free⟩
  | cons c cs ih =>
    obtain ⟨front, last, ih⟩ := ih
    by_cases slash : c = '/'
    · refine ⟨[] :: front, last, fun ending free => ?_⟩
      rw [List.cons_append, splitSlashes, if_pos slash, ih ending free, List.cons_append]
    · cases front with
      | nil =>
        refine ⟨[], c :: last, fun ending free => ?_⟩
        rw [List.cons_append, splitSlashes, if_neg slash, ih ending free]
        rfl
      | cons part front =>
        refine ⟨(c :: part) :: front, last, fun ending free => ?_⟩
        rw [List.cons_append, splitSlashes, if_neg slash, ih ending free]
        rfl

theorem takeWhile_slash_append (cs : List Char) {ending : List Char} (dot : ending.head? = some '.') :
    (cs ++ ending).takeWhile (· == '/') = cs.takeWhile (· == '/') := by
  obtain ⟨rest, rfl⟩ : ∃ rest, ending = '.' :: rest := by
    cases ending with
    | nil => contradiction
    | cons c rest => exact ⟨rest, by rw [Option.some.inj dot]⟩
  induction cs with
  | nil => rfl
  | cons c cs ih => rw [List.cons_append, List.takeWhile_cons, List.takeWhile_cons, ih]

/-- Paths that are spelled alike up to an ending of the last name. -/
theorem exists_ofText_append (name : String) : ∃ start front last, ∀ ending : List Char,
    ending.head? = some '.' → 1 < ending.length → '/' ∉ ending →
      ofText (name ++ String.ofList ending) =
        ⟨start, front ++ [.ofText (String.ofList (last ++ ending))]⟩ := by
  obtain ⟨front, last, split⟩ := splitSlashes_append name.toList
  refine ⟨(ofText name).start,
    (front.filter isPart).map fun part => FileName.ofText (String.ofList part), last,
    fun ending dot long free => ?_⟩
  have isPart : isPart (last ++ ending) = true := by
    have longer : 1 < (last ++ ending).length := by
      rw [List.length_append]
      omega
    simp only [Path.isPart, Bool.and_eq_true, bne_iff_ne]
    constructor <;>
    · intro short
      simp [short] at longer
  rw [ofText]
  simp only [String.toList_append, String.toList_ofList, takeWhile_slash_append _ dot,
    split ending free, List.filter_append, List.map_append]
  rw [List.filter_cons_of_pos isPart]
  rfl

end Path

namespace FileTree

theorem walk_of_append {t : FileTree} {l m : Location} {names more : List FileName}
    (walk : t.walk l (names ++ more) = .ok m) : ∃ k, t.walk l names = .ok k := by
  induction names generalizing l with
  | nil => exact ⟨l, rfl⟩
  | cons part parts ih =>
    rw [List.cons_append, FileTree.walk] at walk
    rw [FileTree.walk]
    split at walk
    · split at walk
      · next allowed =>
        rw [if_pos allowed]
        split at walk
        · contradiction
        · next short =>
          rw [if_neg short]
          exact ih walk
      · contradiction
    · contradiction
    · contradiction

/-- A last name that does not lead upwards is the last name of the location. -/
theorem walk_concat {t : FileTree} {l m : Location} {names : List FileName} {last : FileName}
    (named : last ≠ "..") (walk : t.walk l (names ++ [last]) = .ok m) :
    ∃ k, t.walk l names = .ok k ∧ m = k ++ [last] := by
  obtain ⟨k, front⟩ := walk_of_append walk
  rw [walk_append front, FileTree.walk] at walk
  refine ⟨k, front, ?_⟩
  split at walk
  · split at walk
    · split at walk
      · contradiction
      · exact (Except.ok.inj walk).symm
    · contradiction
  · contradiction
  · contradiction

end FileTree

namespace Suite

open FileTree

/-- Both files of a suite lie in one folder, under names that differ in their endings. -/
theorem exists_storedPaths (folder : Path) (name : String) : ∃ start front last,
    summaryPath folder name =
      ⟨start, front ++ [.ofText (String.ofList (last ++ ".json".toList))]⟩ ∧
    successPath folder name =
      ⟨start, front ++ [.ofText (String.ofList (last ++ ".success.txt".toList))]⟩ := by
  obtain ⟨start, front, last, spelled⟩ := Path.exists_ofText_append name
  have summary := spelled ".json".toList rfl (by decide) (by decide)
  have success := spelled ".success.txt".toList rfl (by decide) (by decide)
  rw [String.ofList_toList] at summary success
  rw [summaryPath, successPath, summary, success, Path.join, Path.join]
  cases start with
  | here => exact ⟨folder.start, folder.parts ++ front, last, by simp, by simp⟩
  | root | doubleRoot => exact ⟨_, front, last, rfl, rfl⟩

/-- The two files of a suite are two files. -/
theorem summary_ne_success {t : FileTree} {folder : Path} {name : String} {l m : Location}
    (summary : t.locate (summaryPath folder name) = .ok l)
    (success : t.locate (successPath folder name) = .ok m) : l ≠ m := by
  obtain ⟨start, front, last, path, path'⟩ := exists_storedPaths folder name
  rw [path] at summary
  rw [path'] at success
  have named {ending : List Char} (long : 2 < ending.length) :
      FileName.ofText (String.ofList (last ++ ending)) ≠ ".." := by
    intro up
    have length := congrArg (List.length ∘ String.toList) (FileName.ofText_injective up)
    simp at length
    omega
  obtain ⟨k, walk, rfl⟩ := walk_concat (named (by decide)) (locate_eq_ok_iff.mp summary).2.2
  obtain ⟨k', walk', rfl⟩ := walk_concat (named (by decide)) (locate_eq_ok_iff.mp success).2.2
  obtain rfl : k = k' := Except.ok.inj (walk.symm.trans walk')
  intro same
  have names := FileName.ofText_injective (List.singleton_inj.mp (List.append_cancel_left same))
  exact absurd (List.append_cancel_left (String.ofList_inj.mp names)) (by decide)

/-! ## The list of passing cases -/

/-- The names of all cases are texts. -/
def Legible (passed : List Location) : Prop :=
  ∀ names ∈ passed, ∀ name ∈ names, name.isText = true

instance (passed : List Location) : Decidable (Legible passed) :=
  inferInstanceAs (Decidable (∀ names ∈ passed, ∀ name ∈ names, name.isText = true))

/-- The list of passing cases, a line for each. -/
def successText (passed : List Location) : String :=
  String.join (passed.map fun names => NameUnit.shown (Path.joined names) ++ "\n")

theorem all_joined (names : List FileName) :
    (Path.joined names).all NameUnit.isChar = names.all FileName.isText := by
  fun_induction Path.joined names with
  | case1 => rfl
  | case2 name => rw [List.all_cons, List.all_nil, Bool.and_true, FileName.isText]
  | case3 name names _ ih =>
    rw [List.all_append, List.all_cons, ih, List.all_cons, FileName.isText, NameUnit.isChar,
      Bool.true_and]

theorem all_successUnits (passed : List Location) :
    (successUnits passed).all NameUnit.isChar = true ↔ Legible passed := by
  simp [successUnits, Legible, List.all_flatMap, all_joined, NameUnit.isChar]

theorem chars_eq_shown {units : List NameUnit} (all : units.all NameUnit.isChar = true) :
    NameUnit.chars units = (NameUnit.shown units).toList := by
  rw [NameUnit.shown, String.toList_ofList]
  induction units with
  | nil => rfl
  | cons u units ih =>
    rw [List.all_cons, Bool.and_eq_true] at all
    cases u with
    | char c => exact congrArg (c :: ·) (ih all.2)
    | byte b => cases all.1

theorem chars_append (units more : List NameUnit) :
    NameUnit.chars (units ++ more) = NameUnit.chars units ++ NameUnit.chars more :=
  List.filterMap_append

theorem chars_successUnits {passed : List Location} (legible : Legible passed) :
    NameUnit.chars (successUnits passed) = (successText passed).toList := by
  induction passed with
  | nil => rfl
  | cons names passed ih =>
    have rest : Legible passed := fun names mem => legible names (List.mem_cons_of_mem _ mem)
    have here : (Path.joined names).all NameUnit.isChar = true := by
      rw [all_joined, List.all_eq_true]
      exact legible names List.mem_cons_self
    have line : (successText (names :: passed)).toList =
        (NameUnit.shown (Path.joined names)).toList ++ ['\n'] ++ (successText passed).toList := by
      rw [successText, List.map_cons, String.join_cons, String.toList_append,
        String.toList_append]
      rfl
    rw [successUnits, List.flatMap_cons, ← successUnits, chars_append, chars_append, ih rest,
      chars_eq_shown here, line]
    rfl

/-- The list of passing cases is a text if the names of all of them are. -/
theorem textFrom_successUnits_iff {passed : List Location} {cs : List Char} :
    NameUnit.textFrom 0 (successUnits passed) = .ok cs ↔
      Legible passed ∧ cs = (successText passed).toList := by
  rw [NameUnit.textFrom_eq_ok_iff, all_successUnits]
  refine and_congr_right fun legible => ?_
  rw [chars_successUnits legible]
  exact eq_comm

/-! ## Storing -/

variable {t after : FileTree} {folder : Path} {name : String} {l m : Location}
  {record list : List UInt8} {summary : Summary} {coverage : Binary64} {passed : List Location}

/-- The two files of a suite, where they lie and what they hold. -/
structure Holds (t : FileTree) (folder : Path) (name : String) (l m : Location)
    (record list : List UInt8) : Prop where
  inFolder : t.isFolder folder = .ok true
  summary : t.locate (summaryPath folder name) = .ok l
  success : t.locate (successPath folder name) = .ok m
  record : t.content? l = some record
  list : t.content? m = some list

/-- A tree has changed at two locations at most. -/
structure Carries (t after : FileTree) (l m : Location) : Prop where
  stays : t.Stays after
  folders : t.KeepsFolders after
  other : ∀ k, k ≠ l → k ≠ m → after.content? k = t.content? k
  wellFormed : t.WellFormed → after.WellFormed
  rewritable : t.WellFormed →
    (after.access l).write = true ∧ (after.access m).write = true

theorem writeText_eq_ok_iff {p : Path} {text : String} :
    t.writeText p text = .ok after ↔ t.write p (Utf8.encode text) = .ok after := by
  rw [FileTree.writeText]
  cases t.write p (Utf8.encode text) with
  | error e => exact ⟨nofun, nofun⟩
  | ok written => rw [Except.ok.injEq, Except.ok.injEq]

/-- The text of a stored summary. -/
def recordText (summary : Summary) (coverage : Binary64) : String :=
  (summary.toJson coverage).render ++ "\n"

/-- The folder of a suite is made and its summary is written there. -/
def Begins (t made written : FileTree) (folder : Path) (summary : Summary)
    (coverage : Binary64) : Prop :=
  t.makeFolders folder = (.ok (), made) ∧
    made.write (summaryPath folder summary.name) (Utf8.encode (recordText summary coverage)) =
      .ok written

theorem store_of_begins {made written : FileTree}
    (begins : Begins t made written folder summary coverage) (passed : List Location) :
    store t folder summary coverage passed =
      writeUnits written (successPath folder summary.name) (successUnits passed) := by
  rw [Suite.store, begins.1]
  dsimp only
  rw [← recordText, writeText_eq_ok_iff.mpr begins.2]

/-- Storing a summary makes the folder and writes the two files. -/
theorem store_eq_ok_iff :
    store t folder summary coverage passed = (.ok (), after) ↔
      ∃ made written, Begins t made written folder summary coverage ∧ Legible passed ∧
        written.write (successPath folder summary.name)
          (Utf8.encode (successText passed)) = .ok after := by
  constructor
  · intro stored
    unfold Suite.store at stored
    split at stored
    · cases stored
    next made make =>
    split at stored
    · cases stored
    next written write =>
    unfold writeUnits at stored
    split at stored
    · next text =>
      obtain ⟨legible, rfl⟩ := textFrom_successUnits_iff.mp text
      rw [String.ofList_toList] at stored
      split at stored
      · cases stored
      next last write' =>
      cases stored
      exact ⟨made, written, ⟨make, writeText_eq_ok_iff.mp write⟩, legible,
        writeText_eq_ok_iff.mp write'⟩
    · split at stored <;> cases stored
  · rintro ⟨made, written, begins, legible, write'⟩
    rw [store_of_begins begins, writeUnits, textFrom_successUnits_iff.mpr ⟨legible, rfl⟩]
    dsimp only
    rw [String.ofList_toList, writeText_eq_ok_iff.mpr write']

/-- Where the two files lie once they have been written. -/
theorem holds_of_writes {made written : FileTree}
    (begins : Begins t made written folder summary coverage) {text : String}
    (write' : written.write (successPath folder summary.name) (Utf8.encode text) = .ok after) :
    ∃ l m, Holds after folder summary.name l m (Utf8.encode (recordText summary coverage))
        (Utf8.encode text) ∧ Carries t after l m := by
  obtain ⟨make, write⟩ := begins
  obtain ⟨grows, there⟩ := makeFolders_ok make
  obtain ⟨l, locate, put⟩ := write_ok write
  obtain ⟨m, locate', put'⟩ := write_ok write'
  have keeps := put.folders.trans put'.folders
  have stays := put.stays.trans put'.stays
  have summaryAt := locate_of_keepsFolders stays keeps locate
  have successAt := locate_of_keepsFolders put'.stays put'.folders locate'
  have apart := summary_ne_success summaryAt successAt
  refine ⟨l, m, ⟨?_, summaryAt, successAt, ?_, put'.content?_self⟩, ?_⟩
  · exact isFolder_of_keepsFolders stays keeps there
  · rw [put'.other l apart, put.content?_self]
  · constructor
    case stays => exact grows.stays.trans stays
    case folders => exact grows.folders.trans keeps
    case other =>
      intro k one other
      rw [put'.other k other, put.other k one, grows.files]
    case wellFormed =>
      exact fun wellFormed => ((grows.wellFormed wellFormed).write write).write write'
    case rewritable =>
      intro wellFormed
      have made := grows.wellFormed wellFormed
      rw [stays.access, put'.stays.access]
      exact ⟨made.write_allowed locate write, (made.write write).write_allowed locate' write'⟩

/-- What storing a summary leaves behind. -/
theorem store_ok (store : store t folder summary coverage passed = (.ok (), after)) :
    ∃ l m, Holds after folder summary.name l m (Utf8.encode (recordText summary coverage))
        (Utf8.encode (successText passed)) ∧ Carries t after l m := by
  obtain ⟨made, written, begins, -, write'⟩ := store_eq_ok_iff.mp store
  exact holds_of_writes begins write'

/-- The folder of a suite can be made, and then both of its files can be written. -/
def Storable (t : FileTree) (folder : Path) (name : String) : Prop :=
  ∃ made, t.makeFolders folder = (.ok (), made) ∧
    made.Writable (summaryPath folder name) ∧ made.Writable (successPath folder name)

/-- Whether the files can be written depends neither on what is written nor on the order. -/
theorem storable_iff (coverage : Binary64) (text : String) : Storable t folder summary.name ↔
    ∃ made written after, Begins t made written folder summary coverage ∧
      written.write (successPath folder summary.name) (Utf8.encode text) = .ok after := by
  have apart (made : FileTree) (l m : Location)
      (summaryAt : made.locate (summaryPath folder summary.name) = .ok l)
      (successAt : made.locate (successPath folder summary.name) = .ok m) : l ≠ m :=
    summary_ne_success summaryAt successAt
  constructor
  · rintro ⟨made, make, summaryFree, successFree⟩
    obtain ⟨written, write⟩ := exists_write_iff.mpr summaryFree
    obtain ⟨after, write'⟩ :=
      exists_write_iff.mpr ((writable_of_write write (apart made)).mpr successFree)
    exact ⟨made, written, after, ⟨make, write⟩, write'⟩
  · rintro ⟨made, written, after, ⟨make, write⟩, write'⟩
    have successFree := exists_write_iff.mp ⟨after, write'⟩
    exact ⟨made, make, exists_write_iff.mp ⟨written, write⟩,
      (writable_of_write write (apart made)).mp successFree⟩

/-- Whether a summary can be stored depends on the files of its name, and on whether the names of
the passing cases are texts. -/
theorem exists_store_iff :
    (∃ after, store t folder summary coverage passed = (.ok (), after)) ↔
      Storable t folder summary.name ∧ Legible passed := by
  simp only [store_eq_ok_iff, storable_iff coverage (successText passed)]
  constructor
  · rintro ⟨after, made, written, begins, legible, write'⟩
    exact ⟨⟨made, written, after, begins, write'⟩, legible⟩
  · rintro ⟨⟨made, written, after, begins, write'⟩, legible⟩
    exact ⟨after, made, written, begins, legible, write'⟩

/-- If some name is no text, the summary is written and the list is left empty. -/
theorem store_illegible (coverage : Binary64) (storable : Storable t folder summary.name)
    (illegible : ¬Legible passed) :
    ∃ fault after, store t folder summary coverage passed = (.error (.unencodable fault), after) ∧
      ∃ l m, Holds after folder summary.name l m (Utf8.encode (recordText summary coverage)) [] := by
  obtain ⟨made, written, after, begins, write'⟩ := (storable_iff coverage "").mp storable
  obtain ⟨l, m, holds, -⟩ := holds_of_writes begins write'
  cases text : NameUnit.textFrom 0 (successUnits passed) with
  | ok cs => exact absurd (textFrom_successUnits_iff.mp text).1 illegible
  | error fault =>
    refine ⟨fault, after, ?_, l, m, holds⟩
    rw [store_of_begins begins, writeUnits, text]
    dsimp only
    rw [writeText_eq_ok_iff.mpr write']

/-- Also where storing fails, the tree stays well-formed. -/
theorem store_wellFormed (wellFormed : t.WellFormed) (folder : Path) (summary : Summary)
    (coverage : Binary64) (passed : List Location) :
    (store t folder summary coverage passed).2.WellFormed := by
  have grows := (makes_makeFolders t folder).grows
  unfold Suite.store
  split
  · next make =>
    rw [make] at grows
    exact grows.wellFormed wellFormed
  next made make =>
  rw [make] at grows
  have made := grows.wellFormed wellFormed
  split
  · exact made
  next written write =>
  have written := made.write (writeText_eq_ok_iff.mp write)
  unfold writeUnits
  split
  · split
    · exact written
    · next write' => exact written.write (writeText_eq_ok_iff.mp write')
  · split
    · exact written
    · next write' => exact written.write (writeText_eq_ok_iff.mp write')

/-- Storing a summary where it is stored already changes no file. -/
theorem store_again
    (holds : Holds t folder summary.name l m (Utf8.encode (recordText summary coverage))
      (Utf8.encode (successText passed)))
    (rewritable : (t.access l).write = true ∧ (t.access m).write = true)
    (legible : Legible passed) :
    ∃ after, store t folder summary coverage passed = (.ok (), after) ∧ t.Grows after := by
  obtain ⟨written, write, put⟩ := write_again holds.summary rewritable.1 holds.record
  have grows := put.grows_of_same holds.record (WellFormed.write · write)
  have located := locate_of_keepsFolders grows.stays grows.folders holds.success
  have still := (grows.files m).trans holds.list
  obtain ⟨after, write', put'⟩ :=
    write_again located ((grows.stays.access m).symm ▸ rewritable.2) still
  have stored := store_eq_ok_iff.mpr
    ⟨t, written, ⟨makeFolders_again holds.inFolder, write⟩, legible, write'⟩
  exact ⟨after, stored, grows.trans (put'.grows_of_same still (WellFormed.write · write'))⟩

/-! ## Reading back -/

/-- A file of a text without carriage returns is read as that text. -/
theorem readText_of_content {p : Path} {text : String} (locate : t.locate p = .ok l)
    (readable : (t.access l).read = true) (holds : t.content? l = some (Utf8.encode text))
    (plain : '\r' ∉ text.toList) : t.readText p = .ok text.toList := by
  rw [FileTree.readText, read_eq_ok_iff.mpr ⟨l, locate, readable, holds⟩]
  dsimp only
  rw [Utf8.decode_encode]
  dsimp only
  rw [normalizeBreaks_eq_self plain]

/-- Counts that are not too long to be read. -/
structure Short (summary : Summary) : Prop where
  total : summary.total.natAbs < 10 ^ wholeDigitLimit
  success : summary.success.natAbs < 10 ^ wholeDigitLimit
  failure : summary.failure.natAbs < 10 ^ wholeDigitLimit
  crash : summary.crash.natAbs < 10 ^ wholeDigitLimit

/-- What is stored is read back as it was, whatever the room. -/
theorem read_recordText (room : Nat) (short : Short summary) (coverage : Binary64) :
    Json.read room (recordText summary coverage).toList = .ok (summary.toJson coverage) := by
  have fits : Json.Fits (room + 1) (summary.toJson coverage) := by
    rw [Summary.toJson]
    simp only [Json.Fits, Json.MembersFit]
    exact ⟨Nat.succ_pos room, trivial, short.total, short.success, short.failure, short.crash,
      trivial, trivial⟩
  rw [recordText, Json.render, String.toList_append, String.toList_ofList]
  exact Json.read_chars fits

theorem recordedCoverage_recordText (room : Nat) (short : Short summary) (coverage : Binary64) :
    recordedCoverage room (recordText summary coverage).toList = .ok coverage := by
  rw [recordedCoverage, read_recordText room short]
  rfl

/-- The coverage that has been stored is the coverage that is found, if the file may be read. -/
theorem Holds.previousCoverage
    (holds : Holds t folder summary.name l m (Utf8.encode (recordText summary coverage)) list)
    (readable : (t.access l).read = true) (short : Short summary) :
    previousCoverage t folder summary.name = .ok coverage := by
  have plain : '\r' ∉ (recordText summary coverage).toList := by
    rw [recordText, Json.render, String.toList_append, String.toList_ofList, List.mem_append,
      not_or]
    exact ⟨Json.return_not_mem_chars 0 _, by decide⟩
  rw [Suite.previousCoverage, readText_of_content holds.summary readable holds.record plain]
  exact recordedCoverage_recordText _ short coverage

end Suite

end ScriptLexer
