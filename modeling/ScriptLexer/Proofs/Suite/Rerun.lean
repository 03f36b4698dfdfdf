import ScriptLexer.Command.RunSuite
import ScriptLexer.Proofs.Command.Config
import ScriptLexer.Proofs.Command.Runs
import ScriptLexer.Proofs.Suite.Discovery
import ScriptLexer.Proofs.Suite.Store
import ScriptLexer.Proofs.Suite.Summary

/-
  Running a suite again. A run leaves behind a well-formed tree (`SuiteCommand.run_wellFormed`) and
  two more files (`SuiteOptions.Completes`). As long as these are no cases and not the configuration,
  and what is new below the root can be looked at, a second run finds the same cases with the same
  results. If the summary may be read, it finds the coverage that was stored, so it completes as
  well, prints a change of zero, and changes no file (`SuiteCommand.run_again`).
-/

namespace ScriptLexer

namespace Suite

open FileTree

variable {t after : FileTree} {root : Path} {endings : List String} {l m : Location}

/-! ## Cases -/

/-- The location is that of a case. -/
def IsCase (t : FileTree) (root : Path) (endings : List String) (k : Location) : Prop :=
  ∃ r names, t.locate root = .ok r ∧ names ∈ Cases t root endings ∧ k = r ++ names

/-- What a second tree has below the root that a first one has not can be looked at there, and is
not too many folders down. -/
def NewIsClear (t after : FileTree) (root : Path) : Prop :=
  ∀ r names e, after.locate root = .ok r → Reached after r names e → t.entry? (r ++ names) = none →
    (∃ isFile, after.isFile (casePath root names) = .ok isFile) ∧
      (e.isFolder = true → names.length < t.room.listing)

/-- The result of a case depends on what is read. -/
theorem runCase_congr {p : Path}
    (same : ∀ content, after.read p = .ok content ↔ t.read p = .ok content) :
    runCase after p = runCase t p := by
  unfold runCase FileTree.readText
  cases read : t.read p with
  | ok content => rw [(same content).mpr read]
  | error e =>
    cases read' : after.read p with
    | ok content =>
      rw [(same content).mp read'] at read
      contradiction
    | error e' => rfl

section Carried

variable (carries : Carries t after l m) {r names : Location} {e : Entry}

include carries

theorem reached_of_carries (reached : Reached after r names e) {e' : Entry}
    (there : t.entry? (r ++ names) = some e') : Reached t r names e' :=
  ⟨reached.below, there, fun n small => carries.stays.access _ ▸ reached.listed n small⟩

section Files

variable {record list : List UInt8} (holds : after.content? l = some record)
  (holds' : after.content? m = some list)

include holds holds'

/-- No file is lost. -/
theorem isSome_content?_of_carries {k : Location} {content : List UInt8}
    (there : t.content? k = some content) : ∃ content, after.content? k = some content := by
  by_cases first : k = l
  · exact ⟨record, first ▸ holds⟩
  by_cases second : k = m
  · exact ⟨list, second ▸ holds'⟩
  · exact ⟨content, (carries.other _ first second).trans there⟩

/-- Files stay files, and folders stay folders. -/
theorem isFolder_of_carries {k : Location} {e' : Entry} (before : t.entry? k = some e')
    (now : after.entry? k = some e) : e.isFolder = e'.isFolder := by
  cases e' with
  | folder time =>
    obtain ⟨time', folder⟩ := carries.folders k time before
    obtain rfl := Option.some.inj (now.symm.trans folder)
    rfl
  | file content time =>
    obtain ⟨content', there⟩ := isSome_content?_of_carries carries holds holds'
      (content?_eq_some_iff.mpr ⟨time, before⟩)
    obtain ⟨time', file⟩ := content?_eq_some_iff.mp there
    obtain rfl := Option.some.inj (now.symm.trans file)
    rfl

/-- A listing that was clear is clear if what is new is. -/
theorem clear_of_carries (wellFormed : t.WellFormed) (locate : t.locate root = .ok r)
    (clear : Clear t root r) (new : NewIsClear t after root) : Clear after root r := by
  have locate' := locate_of_keepsFolders carries.stays carries.folders locate
  have clear' (k : Location) (e : Entry) (reached : Reached after r k e) :
      (∃ isFile, after.isFile (casePath root k) = .ok isFile) ∧
        (e.isFolder = true → k.length < t.room.listing) := by
    cases there : t.entry? (r ++ k) with
    | none => exact new r k e locate' reached there
    | some e' =>
      have before := reached_of_carries carries reached there
      rw [isFolder_of_carries carries holds holds' there reached.there]
      refine ⟨?_, clear.deep k e' before⟩
      obtain ⟨isFile, look⟩ := clear.looks k e' before
      have leads := wellFormed.locate_below_congr locate there carries.stays carries.folders
      rcases wellFormed.locate_below locate there with located | ⟨fault, refused, located⟩
      · exact ⟨_, isFile_of_locate (leads.trans located)⟩
      · rw [FileTree.isFile, leadsTo, find, casePath, located] at look
        rcases refused with rfl | rfl <;> cases look
  refine ⟨fun k e reached => (clear' k e reached).1, fun k e reached => ?_, ?_⟩ <;>
    rw [carries.stays.room]
  · exact (clear' k e reached).2
  · exact clear.some

end Files

variable (wellFormed : t.WellFormed) (locate : t.locate root = .ok r)
  (apart : ¬IsCase after root endings l) (apart' : ¬IsCase after root endings m)

include locate apart apart'

/-- A case lies elsewhere. -/
theorem content?_case (mem : names ∈ Cases after root endings) :
    after.content? (r ++ names) = t.content? (r ++ names) := by
  have locate' := locate_of_keepsFolders carries.stays carries.folders locate
  exact carries.other _ (fun here => apart ⟨r, names, locate', mem, here.symm⟩)
    fun here => apart' ⟨r, names, locate', mem, here.symm⟩

variable {record list : List UInt8} (holds : after.content? l = some record)
  (holds' : after.content? m = some list)

include holds holds'

/-- Files that are no cases do not change what the cases are. -/
theorem cases_of_carries : Cases after root endings = Cases t root endings := by
  have locate' := locate_of_keepsFolders carries.stays carries.folders locate
  ext names
  constructor
  · intro mem
    have same := content?_case carries locate apart apart' mem
    obtain ⟨⟨r', content, time, located, reached⟩, ending⟩ := mem
    obtain rfl : r = r' := Except.ok.inj (locate'.symm.trans located)
    rw [content?_eq_some_iff.mpr ⟨time, reached.there⟩] at same
    obtain ⟨time', there⟩ := content?_eq_some_iff.mp same.symm
    exact ⟨⟨r, content, time', locate, reached_of_carries carries reached there⟩, ending⟩
  · rintro ⟨⟨r', content, time, located, reached⟩, ending⟩
    obtain rfl : r = r' := Except.ok.inj (locate.symm.trans located)
    obtain ⟨content', there⟩ := isSome_content?_of_carries carries holds holds'
      (content?_eq_some_iff.mpr ⟨time, reached.there⟩)
    obtain ⟨time', there⟩ := content?_eq_some_iff.mp there
    refine ⟨⟨r, content', time', locate', reached.below, there, fun n small => ?_⟩, ending⟩
    rw [carries.stays.access, reached.listed n small]

include wellFormed

/-- A run over the cases comes out as before. -/
theorem runCases_of_carries {results : List (Location × CaseResult)}
    (found : runCases t root endings = .ok results) (new : NewIsClear t after root)
    (isFolder : t.isFolder root = .ok true) : runCases after root endings = .ok results := by
  have isFolder' := isFolder_of_keepsFolders carries.stays carries.folders isFolder
  have locate' := locate_of_keepsFolders carries.stays carries.folders locate
  have wellFormed' := carries.wellFormed wellFormed
  obtain ⟨cases, discovered, rfl⟩ := runCases_eq_ok_iff.mp found
  have clear := (exists_discover_iff wellFormed isFolder locate).mp ⟨cases, discovered⟩
  obtain ⟨cases', discovered'⟩ := (exists_discover_iff wellFormed' isFolder' locate').mpr
    (clear_of_carries carries holds holds' wellFormed locate clear new)
  obtain ⟨once, mem⟩ := discover_ok wellFormed discovered
  obtain ⟨once', mem'⟩ := discover_ok wellFormed' discovered'
  have same := cases_of_carries carries locate apart apart' holds holds'
  obtain rfl : cases' = cases :=
    eq_of_sorted (discover_sorted discovered') (discover_sorted discovered) once' once
      fun k => by rw [mem', same, mem]
  refine runCases_eq_ok_iff.mpr ⟨cases', discovered', List.map_congr_left fun names case => ?_⟩
  have kept := content?_case carries locate apart apart' ((mem' names).mp case)
  obtain ⟨⟨r', content, time, located, reached⟩, -⟩ := (mem names).mp case
  obtain rfl : r = r' := Except.ok.inj (locate.symm.trans located)
  have leads := wellFormed.locate_below_congr locate reached.there carries.stays carries.folders
  have read (content : List UInt8) : after.read (casePath root names) = .ok content ↔
      t.read (casePath root names) = .ok content := by
    rw [read_eq_ok_iff, read_eq_ok_iff, casePath, leads]
    refine exists_congr fun k => and_congr_right fun located => ?_
    rcases wellFormed.locate_below locate reached.there with there | ⟨_, -, fails⟩
    · obtain rfl := Except.ok.inj (there.symm.trans located)
      rw [kept, carries.stays.access]
    · rw [fails] at located
      cases located
  rw [runCase_congr read]

end Carried

end Suite

namespace SuiteOptions

open Suite

variable {o : SuiteOptions} {t after : FileTree} {coverage previous : Binary64}

/-- The cases with their results, if they are discovered. -/
def results (o : SuiteOptions) (t : FileTree) : List (Location × CaseResult) :=
  (runCases t o.root o.endings).toOption.getD []

def summary (o : SuiteOptions) (t : FileTree) : Summary := summarize o.name (o.results t)

def log (o : SuiteOptions) (t : FileTree) : Output :=
  if o.verbose then .notes (logLines o.root (o.results t)) else {}

theorem runCases_of_found (found : (o.results t).isEmpty = false) :
    runCases t o.root o.endings = .ok (o.results t) := by
  rw [results] at found ⊢
  cases cases : runCases t o.root o.endings with
  | error e =>
    rw [cases] at found
    contradiction
  | ok results => rfl

/-- There is something to run and to store, and nothing in the way. -/
structure Completes (o : SuiteOptions) (t after : FileTree) (coverage previous : Binary64) :
    Prop where
  found : (o.results t).isEmpty = false
  short : decimalLength (o.results t).length ≤ wholeDigitLimit
  previous : previousCoverage t o.summaryFolder o.name = .ok previous
  covered : (o.summary t).coverage? = some coverage
  store : Suite.store t o.summaryFolder (o.summary t) coverage (passing (o.results t)) =
    (.ok (), after)

theorem run_of_found (found : (o.results t).isEmpty = false) :
    o.run t = o.conclude t (o.log t) (o.results t) := by
  rw [run, runCases_of_found found]
  dsimp only
  rw [found, if_neg Bool.false_ne_true]
  rfl

theorem run_of_completes (completes : o.Completes t after coverage previous) :
    o.run t =
      ⟨.exit 0, o.log t ++ ⟨(o.summary t).line coverage previous ++ "\n", ""⟩, after, []⟩ := by
  rw [run_of_found completes.found, conclude, ← SuiteOptions.summary, completes.previous,
    completes.covered]
  dsimp only
  rw [if_neg (Nat.not_lt.mpr completes.short), completes.store]

/-- How a run ends. -/
inductive Ends (o : SuiteOptions) (t : FileTree) : Outcome → Prop
  | undiscovered {e : FileError} (fails : runCases t o.root o.endings = .error e) : Ends o t
      ⟨.failed (.file e), {}, t, []⟩
  | nothing (none : runCases t o.root o.endings = .ok []) : Ends o t
      ⟨.exit 2, o.log t ++ .note s!"error: no test cases found under {o.root.toText}", t, []⟩
  | uncounted (e : Failure) : Ends o t ⟨.failed e, o.log t, t, []⟩
  | unstored {e : Failure} {coverage : Binary64} {after : FileTree} (output : Output)
    (store : Suite.store t o.summaryFolder (o.summary t) coverage (passing (o.results t)) =
      (.error e, after)) : Ends o t ⟨.failed e, output, after, []⟩
  | completed {coverage previous : Binary64} {after : FileTree}
    (completes : o.Completes t after coverage previous) : Ends o t
      ⟨.exit 0, o.log t ++ ⟨(o.summary t).line coverage previous ++ "\n", ""⟩, after, []⟩

theorem ends_conclude (found : (o.results t).isEmpty = false) :
    o.Ends t (o.conclude t (o.log t) (o.results t)) := by
  unfold conclude
  rw [← SuiteOptions.summary]
  dsimp only
  split
  · exact .uncounted _
  · exact .uncounted _
  next previous coverage recorded covered =>
  split
  · exact .uncounted _
  next short =>
  split
  · next store => exact .unstored _ store
  · next store => exact .completed ⟨found, Nat.not_lt.mp short, recorded, covered, store⟩

theorem ends_run (o : SuiteOptions) (t : FileTree) : o.Ends t (o.run t) := by
  cases cases : runCases t o.root o.endings with
  | error e =>
    rw [run, cases]
    exact .undiscovered cases
  | ok results =>
    have same : o.results t = results := by rw [SuiteOptions.results, cases]; rfl
    cases found : results.isEmpty with
    | false =>
      rw [← same] at found
      rw [run_of_found found]
      exact ends_conclude found
    | true =>
      rw [run, cases]
      dsimp only
      rw [found, if_pos rfl, ← same]
      exact .nothing (List.isEmpty_iff.mp found ▸ cases)

theorem run_wellFormed (wellFormed : t.WellFormed) (o : SuiteOptions) :
    (o.run t).tree.WellFormed := by
  have stored {coverage : Binary64} {result : Except Failure Unit × FileTree}
      (store : Suite.store t o.summaryFolder (o.summary t) coverage (passing (o.results t)) =
        result) : result.2.WellFormed :=
    store ▸ store_wellFormed wellFormed o.summaryFolder (o.summary t) coverage _
  have ends := o.ends_run t
  generalize o.run t = outcome at ends ⊢
  cases ends with
  | undiscovered | nothing | uncounted => exact wellFormed
  | unstored _ store => exact stored store
  | completed completes => exact stored completes.store

theorem exists_completes (ends : (o.run t).ending = .exit 0) :
    ∃ after coverage previous, o.Completes t after coverage previous := by
  have run := o.ends_run t
  generalize o.run t = outcome at ends run
  cases run with
  | undiscovered | nothing | uncounted | unstored => cases ends
  | completed completes => exact ⟨_, _, _, completes⟩

/-- None of the counts is greater than the number of cases. -/
theorem short_summary (completes : o.Completes t after coverage previous) :
    Short (o.summary t) := by
  have short : (o.results t).length < 10 ^ wholeDigitLimit :=
    (Nat.length_toDigits_le_iff (by decide) (by decide)).mp completes.short
  have count (r : CaseResult) : (Suite.count (o.results t) r : Int).natAbs < 10 ^ wholeDigitLimit :=
    Nat.lt_of_le_of_lt List.countP_le_length short
  exact ⟨short, count .passed, count .failed, count .crashed⟩

theorem coverage_isFinite (completes : o.Completes t after coverage previous) :
    coverage.isFinite = true :=
  Summary.coverage?_isFinite (Int.natCast_nonneg _) (Int.ofNat_le.mpr List.countP_le_length)
    completes.covered

/-- The location is that of one of the files that a run stores. -/
def IsStored (o : SuiteOptions) (t : FileTree) (l : Location) : Prop :=
  t.locate (summaryPath o.summaryFolder o.name) = .ok l ∨
    t.locate (successPath o.summaryFolder o.name) = .ok l

/-- After a run that completes, the next one does, with the coverage of the first as the one
before, and it changes no file. -/
theorem completes_again (wellFormed : t.WellFormed) (isFolder : t.isFolder o.root = .ok true)
    (completes : o.Completes t after coverage previous)
    (apart : ∀ l, o.IsStored after l → ¬IsCase after o.root o.endings l)
    (new : NewIsClear t after o.root)
    (readable : ∀ l, after.locate (summaryPath o.summaryFolder o.name) = .ok l →
      (after.access l).read = true) :
    o.results after = o.results t ∧
      ∃ again, o.Completes after again coverage coverage ∧ after.Grows again := by
  obtain ⟨l, m, holds, carries⟩ := store_ok completes.store
  obtain ⟨-, -, -, legible, -⟩ := store_eq_ok_iff.mp completes.store
  obtain ⟨r, -, locate, -⟩ := FileTree.isFolder_iff.mp isFolder
  have results : o.results after = o.results t := by
    rw [SuiteOptions.results, runCases_of_carries carries wellFormed locate
      (apart l (.inl holds.summary)) (apart m (.inr holds.success)) holds.record holds.list
      (runCases_of_found completes.found) new isFolder]
    rfl
  have summary : o.summary after = o.summary t := by rw [SuiteOptions.summary, results]; rfl
  obtain ⟨again, store, grows⟩ := store_again holds (carries.rewritable wellFormed) legible
  refine ⟨results, again, ⟨?_, ?_, ?_, ?_, ?_⟩, grows⟩
  · rw [results, completes.found]
  · rw [results]
    exact completes.short
  · exact holds.previousCoverage (readable l holds.summary) (short_summary completes)
  · rw [summary, completes.covered]
  · rw [summary, results, store]

end SuiteOptions

namespace SuiteCommand

open Suite

variable {argv : List String} {operand : String} {settings : Settings} {config : Toml}
  {o : SuiteOptions} {t : FileTree}

/-- The configuration file that a command line names. -/
def givenConfig (settings : Settings) : Option Path :=
  (configOption.value? settings).map Path.ofText

theorem resolve_ok {room : Nat} {root : Path}
    (resolved : SuiteOptions.resolve room config root settings = .ok o) : o.root = root := by
  unfold SuiteOptions.resolve at resolved
  dsimp only at resolved
  split at resolved
  · cases resolved
  · cases resolved
    rfl

/-- A command line that leads to options is their run. -/
theorem run_of_accepted (accepted : spec.parse argv = .run operand settings)
    (isFolder : t.isFolder (Path.ofText operand) = .ok true)
    (configured : t.config (givenConfig settings) (Path.ofText operand) = .ok config)
    (resolved : SuiteOptions.resolve t.room.shown config (Path.ofText operand) settings = .ok o) :
    run argv t = o.run t := by
  unfold givenConfig at configured
  simp only [run, accepted, isFolder, configured, resolved]

theorem isFolder_of_exit (accepted : spec.parse argv = .run operand settings)
    (ends : (run argv t).ending = .exit 0) : t.isFolder (Path.ofText operand) = .ok true := by
  rw [run, accepted] at ends
  dsimp only at ends
  split at ends
  · cases ends
  · cases ends
  · next isFolder => exact isFolder

/-- However the command ends, it leaves a well-formed tree. -/
theorem run_wellFormed (wellFormed : t.WellFormed) (argv : List String) :
    (run argv t).tree.WellFormed := by
  unfold run
  split
  · exact wellFormed
  · exact wellFormed
  dsimp only
  split
  · exact wellFormed
  · exact wellFormed
  split
  · exact wellFormed
  · exact wellFormed
  split
  · exact wellFormed
  · exact SuiteOptions.run_wellFormed wellFormed _

/-- A command that exits with zero is run again on the tree that it leaves, where the two files it
stores are no cases and not the configuration. Where a configuration file that is named is missing
before, looking for it finds none afterwards either; what is new below the root can be looked at,
and the summary may be read. Then the command exits with zero again, with the same counts and
coverage and a change of zero. The coverage it finds is the one that was stored, and no file
changes. -/
theorem run_again (wellFormed : t.WellFormed)
    (accepted : spec.parse argv = .run operand settings)
    (configured : t.config (givenConfig settings) (Path.ofText operand) = .ok config)
    (resolved : SuiteOptions.resolve t.room.shown config (Path.ofText operand) settings = .ok o)
    (ends : (run argv t).ending = .exit 0)
    (apart : ∀ l, o.IsStored (run argv t).tree l →
      ¬IsCase (run argv t).tree o.root o.endings l ∧
      (run argv t).tree.locate
        (FileTree.configPath (givenConfig settings) (Path.ofText operand)) ≠ .ok l)
    (missing : ∀ path, givenConfig settings = some path → t.isFile path = .ok false →
      (run argv t).tree.isFile path = .ok false)
    (new : NewIsClear t (run argv t).tree o.root)
    (readable : ∀ l, (run argv t).tree.locate (summaryPath o.summaryFolder o.name) = .ok l →
      (t.access l).read = true) :
    ∃ coverage previous, (o.summary t).coverage? = some coverage ∧
      (run argv t).output = o.log t ++ ⟨(o.summary t).line coverage previous ++ "\n", ""⟩ ∧
      (run argv (run argv t).tree).ending = .exit 0 ∧
      (run argv (run argv t).tree).output =
        o.log t ++ ⟨(o.summary t).unchangedLine coverage ++ "\n", ""⟩ ∧
      previousCoverage (run argv t).tree o.summaryFolder o.name = .ok coverage ∧
      (∀ p ∈ [summaryPath o.summaryFolder o.name, successPath o.summaryFolder o.name],
        ∃ bytes, (run argv t).tree.held? p = some bytes ∧
          (run argv (run argv t).tree).tree.held? p = some bytes) ∧
      ∀ l, (run argv (run argv t).tree).tree.content? l = (run argv t).tree.content? l := by
  have isFolder := isFolder_of_exit accepted ends
  have root := resolve_ok resolved
  have first := run_of_accepted accepted isFolder configured resolved
  rw [first] at ends
  obtain ⟨after, coverage, previous, completes⟩ := SuiteOptions.exists_completes ends
  rw [SuiteOptions.run_of_completes completes] at first
  rw [first] at apart missing new readable ⊢
  dsimp only at apart missing new readable ⊢
  obtain ⟨l, m, holds, carries⟩ := store_ok completes.store
  have isFolder' := FileTree.isFolder_of_keepsFolders carries.stays carries.folders isFolder
  have same (k : Location) (locate : after.locate
      (FileTree.configPath (givenConfig settings) (Path.ofText operand)) = .ok k) :
      after.content? k = t.content? k := by
    refine carries.other k ?_ ?_
    · rintro rfl
      exact (apart k (.inl holds.summary)).2 locate
    · rintro rfl
      exact (apart k (.inr holds.success)).2 locate
  have configured' : after.config (givenConfig settings) (Path.ofText operand) = .ok config := by
    refine FileTree.config_kept carries.stays carries.folders same ?_ configured
    cases given : givenConfig settings with
    | none =>
      rw [given] at same
      exact FileTree.missing_kept isFolder carries.stays carries.folders same
    | some path => exact missing path given
  obtain ⟨results, again, completes', grows⟩ := SuiteOptions.completes_again wellFormed
    (root ▸ isFolder) completes (fun k stored => (apart k stored).1) new
    fun k locate => (carries.stays.access k).symm ▸ readable k locate
  have second := run_of_accepted accepted isFolder' configured' (carries.stays.room ▸ resolved)
  rw [SuiteOptions.run_of_completes completes'] at second
  have line := Summary.line_of_same (s := o.summary t) (SuiteOptions.coverage_isFinite completes)
  rw [second]
  refine ⟨coverage, previous, completes.covered, rfl, rfl, ?_, completes'.previous, ?_, grows.files⟩
  · dsimp only
    rw [SuiteOptions.log, SuiteOptions.summary, results, ← line]
    rfl
  · have held {p : Path} {k : Location} {bytes : List UInt8} (locate : after.locate p = .ok k)
        (holds : after.content? k = some bytes) :
        ∃ bytes, after.held? p = some bytes ∧ again.held? p = some bytes := by
      have locate' := FileTree.locate_of_keepsFolders grows.stays grows.folders locate
      refine ⟨bytes, (FileTree.held?_eq locate).trans holds, ?_⟩
      rw [FileTree.held?_eq locate', grows.files, holds]
    simp only [List.forall_mem_cons]
    exact ⟨held holds.summary holds.record, held holds.success holds.list, List.forall_mem_nil _⟩

/-- A folder with one case. -/
def oneCase : FileTree :=
  { home := []
    entries := [([], .folder 1), (["r"], .folder 1), (["r", "a.js"], .file [0x78] 1)]
    clock := 2 }

theorem run_again_one_case :
    (run ["r"] oneCase).ending = .exit 0 ∧
      (run ["r"] (run ["r"] oneCase).tree).ending = .exit 0 ∧
      ∃ coverage, previousCoverage (run ["r"] oneCase).tree (Path.ofText "summary") "lexer" =
        .ok coverage := by
  have accepted : spec.parse ["r"] = .run "r" [] := by decide +kernel
  have ends : (run ["r"] oneCase).ending = .exit 0 := by decide +kernel
  have root : (run ["r"] oneCase).tree.locate (Path.ofText "r") = .ok ["r"] := by decide +kernel
  have summary : (run ["r"] oneCase).tree.locate (summaryPath (Path.ofText "summary") "lexer") =
      .ok ["summary", "lexer.json"] := by decide +kernel
  have success : (run ["r"] oneCase).tree.locate (successPath (Path.ofText "summary") "lexer") =
      .ok ["summary", "lexer.success.txt"] := by decide +kernel
  have config : (run ["r"] oneCase).tree.locate
      (FileTree.configPath (givenConfig []) (Path.ofText "r")) = .ok ["r", "jslex.toml"] := by
    decide +kernel
  let o : SuiteOptions :=
    ⟨Path.ofText "r", "lexer", [".js", ".ts"], Path.ofText "summary", false⟩
  have stored (l : Location) (stored : o.IsStored (run ["r"] oneCase).tree l) :
      l.head? = some "summary" := by
    rcases stored with located | located
    · rw [← Except.ok.inj (summary.symm.trans located)]
      rfl
    · rw [← Except.ok.inj (success.symm.trans located)]
      rfl
  have apart (l : Location) (isStored : o.IsStored (run ["r"] oneCase).tree l) :
      ¬IsCase (run ["r"] oneCase).tree o.root o.endings l ∧
      (run ["r"] oneCase).tree.locate
        (FileTree.configPath (givenConfig []) (Path.ofText "r")) ≠ .ok l := by
    have first := stored l isStored
    constructor
    · rintro ⟨r, names, located, -, rfl⟩
      rw [← Except.ok.inj (root.symm.trans located)] at first
      exact absurd (Option.some.inj first) (by decide)
    · intro located
      rw [← Except.ok.inj (config.symm.trans located)] at first
      exact absurd (Option.some.inj first) (by decide)
  have new : NewIsClear oneCase (run ["r"] oneCase).tree o.root := by
    intro r names e located reached free
    obtain rfl := Except.ok.inj (root.symm.trans located)
    have distinct : (run ["r"] oneCase).tree.Distinct := by
      exact (run_wellFormed (by decide) ["r"]).distinct
    have none : ∀ entry ∈ (run ["r"] oneCase).tree.entries, entry.1.head? = some "r" →
        (oneCase.entry? entry.1).isSome := by decide +kernel
    have old := none _ ((FileTree.entry?_eq_some_iff distinct).mp reached.there) rfl
    rw [free] at old
    contradiction
  obtain ⟨coverage, -, -, -, exits, -, recorded, -⟩ :=
    run_again (o := o) (by decide) accepted rfl rfl ends apart nofun new fun _ _ => rfl
  exact ⟨ends, exits, coverage, recorded⟩

/-- A folder with one case, and a configuration for other cases. -/
def lateConfig : FileTree :=
  { home := []
    entries := [([], .folder 1), (["r"], .folder 1), (["r", "a.js"], .file [0x78] 1),
      (["cfg.toml"], .file (Utf8.encode "[suite]\nextensions=[\".ts\"]\n") 1)]
    clock := 2 }

/-- A path in the folder of the summaries, to a name that is too long. -/
def longConfig : Path := ⟨.here, ["summary", ⟨List.replicate 300 (.char 'x')⟩]⟩

/-- A name that may be as long as it is. -/
def longName : FileName := ⟨List.replicate 236 (.char 'r')⟩

/-- A folder of that name with one case. -/
def longCase : FileTree :=
  { home := []
    entries := [([], .folder 1), ([longName], .folder 1), ([longName, "a.js"], .file [0x78] 1)]
    clock := 2 }

/-- The run of this case with the summaries in the same folder. The path of the root leaves and
enters the folder often enough to be almost too long. -/
def longRun : SuiteOptions :=
  { root := ⟨.here, (List.replicate 16 [longName, ".."]).flatten ++ [longName]⟩
    name := defaultName
    endings := defaultEndings
    summaryFolder := ⟨.here, [longName, "summary"]⟩
    verbose := false }

/-- A folder with one case, and a summary that may be written but not read. -/
def unreadSummary : FileTree :=
  { home := []
    entries := [([], .folder 1), (["r"], .folder 1), (["r", "a.js"], .file [0x78] 1),
      (["summary"], .folder 1), (["summary", "lexer.json"], .file [] 1)]
    clock := 2
    limits := [(["summary", "lexer.json"], ⟨false, true, true⟩)] }

/-- What a second run stumbles over. Before the folder of the summaries has been made, a path through
it leads nowhere: a configuration beyond it counts from the second run on, and a name in it is too
long only then. Summaries below the root can lie where the path from there is too long. A summary
that may not be read counts as none. -/
theorem run_again_stumbles :
    (lateConfig.WellFormed ∧
      (run ["--config", "summary/../cfg.toml", "r"] lateConfig).ending = .exit 0 ∧
      let after := (run ["--config", "summary/../cfg.toml", "r"] lateConfig).tree
      after.locate (summaryPath (Path.ofText "summary") "lexer") = .ok ["summary", "lexer.json"] ∧
        after.locate (successPath (Path.ofText "summary") "lexer") =
          .ok ["summary", "lexer.success.txt"] ∧
        after.locate (Path.ofText "summary/../cfg.toml") = .ok ["cfg.toml"] ∧
        discover lateConfig (Path.ofText "r") defaultEndings = .ok [["a.js"]] ∧
        discover after (Path.ofText "r") [".ts"] = .ok [] ∧
        (run ["--config", "summary/../cfg.toml", "r"] after).ending = .exit 2) ∧
    (oneCase.WellFormed ∧ oneCase.isFile longConfig = .ok false ∧
      (run ["r"] oneCase).ending = .exit 0 ∧
      (run ["r"] oneCase).tree.isFile longConfig = .error (.refused .nameTooLong longConfig)) ∧
    (longCase.WellFormed ∧ (longRun.run longCase).ending = .exit 0 ∧
      let summary := casePath longRun.root ["summary", "lexer.success.txt"]
      discover (longRun.run longCase).tree longRun.root longRun.endings =
        .error (.refused .nameTooLong summary)) ∧
    (unreadSummary.WellFormed ∧ (run ["r"] unreadSummary).ending = .exit 0 ∧
      (run ["r"] (run ["r"] unreadSummary).tree).output =
        ⟨"lexer: 1 / 1 (100.00% +100.00%)\n", ""⟩) := by
  refine ⟨⟨by decide, ?_, ?_, ?_, ?_, ?_, ?_, ?_⟩, ⟨by decide, ?_, ?_, ?_⟩, ⟨?_, ?_, ?_⟩,
    by decide, ?_, ?_⟩ <;> decide +kernel

end SuiteCommand

end ScriptLexer
