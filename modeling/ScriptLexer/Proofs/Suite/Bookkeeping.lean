import Mathlib.Data.Set.Card
import ScriptLexer.Proofs.Suite.Rerun

/-
  The bookkeeping of a suite. The cases are the files with one of the endings that a listing of the
  root comes to, and the counts of a summary are the sizes of sets of cases, with the list of passing
  cases in step (`Suite.tallies`). A summary is stored where its two files can be written and the
  names of the passing cases are texts, and the files then say what was counted
  (`Suite.records_of_store`). A run ends with zero exactly if nothing is in the way of that
  (`SuiteOptions.run_exit_zero_iff`). A command that ends with two has refused to run, and has
  written nothing (`SuiteCommand.run_of_refuses`). `Suite.bookkeeping` puts these together.
-/

namespace ScriptLexer

namespace Suite

open FileTree

variable {t after : FileTree} {root folder : Path} {endings : List String}

/-! ## Cases -/

/-- The cases with one of the results. -/
def CasesWith (t : FileTree) (root : Path) (endings : List String) (r : CaseResult) :
    Set Location :=
  {names ∈ Cases t root endings | runCase t (casePath root names) = r}

/-- The cases among some that come out with a result. -/
def outcome (t : FileTree) (root : Path) (cases : List Location) (r : CaseResult) :
    List Location :=
  cases.filter fun names => runCase t (casePath root names) = r

/-- The results of some cases. -/
def resultsOf (t : FileTree) (root : Path) (cases : List Location) :
    List (Location × CaseResult) :=
  cases.map fun names => (names, runCase t (casePath root names))

section Discovered

variable {cases : List Location} (wellFormed : t.WellFormed)
  (discovered : discover t root endings = .ok cases)

include wellFormed discovered

theorem cases_eq : Cases t root endings = {names | names ∈ cases} := by
  ext names
  exact ((discover_ok wellFormed discovered).2 names).symm

theorem casesWith_eq (r : CaseResult) :
    CasesWith t root endings r = {names | names ∈ outcome t root cases r} := by
  ext names
  simp [CasesWith, cases_eq wellFormed discovered, outcome]

end Discovered

/-! ## Counts -/

theorem ncard_setOf_mem {ls : List Location} (once : ls.Nodup) :
    {l | l ∈ ls}.ncard = ls.length := by
  rw [← List.coe_toFinset, Set.ncard_coe_finset, List.toFinset_card_of_nodup once]

theorem count_resultsOf (t : FileTree) (root : Path) (cases : List Location) (r : CaseResult) :
    count (resultsOf t root cases) r = (outcome t root cases r).length := by
  rw [count, resultsOf, List.countP_map, outcome, ← List.countP_eq_length_filter]
  rfl

theorem passing_resultsOf (t : FileTree) (root : Path) (cases : List Location) :
    passing (resultsOf t root cases) = outcome t root cases .passed := by
  rw [passing, resultsOf, List.filterMap_map, outcome, ← List.filterMap_eq_filter]
  congr 1
  funext names
  simp [Option.guard]

/-- Each result is one of the three. -/
theorem length_eq_counts (results : List (Location × CaseResult)) :
    results.length = count results .passed + count results .failed + count results .crashed := by
  induction results with
  | nil => rfl
  | cons result results ih =>
    obtain ⟨names, r⟩ := result
    simp only [count, List.countP_cons, List.length_cons] at ih ⊢
    cases r <;> simp <;> omega

/-- A summary and a list of passing cases that say the same about the cases. -/
structure Tallies (t : FileTree) (root : Path) (endings : List String) (s : Summary)
    (passed : List Location) : Prop where
  finite : (Cases t root endings).Finite
  total : s.total = (Cases t root endings).ncard
  success : s.success = (CasesWith t root endings .passed).ncard
  failure : s.failure = (CasesWith t root endings .failed).ncard
  crash : s.crash = (CasesWith t root endings .crashed).ncard
  sum : s.total = s.success + s.failure + s.crash
  length : s.success = passed.length
  increasing : passed.Pairwise fun l m => (casePath root l).parts < (casePath root m).parts
  passing : ∀ names, names ∈ passed ↔ names ∈ CasesWith t root endings .passed

/-- What is counted while the cases are run. -/
theorem tallies (wellFormed : t.WellFormed) {cases : List Location}
    (discovered : discover t root endings = .ok cases) (name : String) :
    Tallies t root endings (summarize name (resultsOf t root cases))
      (passing (resultsOf t root cases)) := by
  have once := (discover_ok wellFormed discovered).1
  have counted (r : CaseResult) : (count (resultsOf t root cases) r : Int) =
      (CasesWith t root endings r).ncard := by
    rw [casesWith_eq wellFormed discovered, count_resultsOf, ncard_setOf_mem]
    exact once.filter _
  have increasing := (discover_sorted discovered).increasing once
  rw [passing_resultsOf]
  refine
    { finite := ?finite
      total := ?total
      success := counted .passed
      failure := counted .failed
      crash := counted .crashed
      sum := ?sum
      length := by rw [← count_resultsOf]; rfl
      increasing := ?increasing
      passing := fun names => by rw [casesWith_eq wellFormed discovered]; rfl }
  case finite =>
    rw [cases_eq wellFormed discovered]
    exact List.finite_toSet _
  case total =>
    rw [cases_eq wellFormed discovered, ncard_setOf_mem once, ← List.length_map]
    rfl
  case sum =>
    have sum := length_eq_counts (resultsOf t root cases)
    simp only [summarize]
    omega
  case increasing =>
    exact (increasing.filter _).imp fun less => List.append_left_lt less

/-! ## Records -/

/-- The two files of a suite say what was counted. The list of passing cases has a line for each,
with the path that leads there from the root. -/
structure Records (t : FileTree) (folder : Path) (s : Summary) (coverage : Binary64)
    (passed : List Location) : Prop where
  record : t.held? (summaryPath folder s.name) = some (Utf8.encode (recordText s coverage))
  fields : s.total.natAbs < 10 ^ wholeDigitLimit →
    ∀ room, Json.read room (recordText s coverage).toList =
    .ok (.object [("name", .text s.name), ("total", .whole s.total),
      ("success", .whole s.success), ("failure", .whole s.failure), ("crash", .whole s.crash),
      ("coverage", .number coverage)])
  list : t.held? (successPath folder s.name) = some (Utf8.encode
    (String.join (passed.map fun names => Path.toText ⟨.here, names⟩ ++ "\n")))

theorem successText_eq {passed : List Location} (some : ∀ names ∈ passed, names ≠ []) :
    successText passed =
      String.join (passed.map fun names => Path.toText ⟨.here, names⟩ ++ "\n") := by
  rw [successText]
  congr 1
  refine List.map_congr_left fun names mem => ?_
  cases names with
  | nil => exact absurd rfl (some _ mem)
  | cons first rest => exact congrArg (· ++ "\n") String.empty_append.symm

/-- None of the counts is greater than the number of cases. -/
theorem Tallies.short {s : Summary} {passed : List Location}
    (tallies : Tallies t root endings s passed)
    (bound : s.total.natAbs < 10 ^ wholeDigitLimit) : Short s := by
  have sum := tallies.sum
  have success := tallies.success
  have failure := tallies.failure
  have crash := tallies.crash
  exact ⟨bound, Nat.lt_of_le_of_lt (by omega) bound, Nat.lt_of_le_of_lt (by omega) bound,
    Nat.lt_of_le_of_lt (by omega) bound⟩

theorem records_of_store {s : Summary} {coverage : Binary64} {passed : List Location}
    (tallies : Tallies t root endings s passed)
    (store : store t folder s coverage passed = (.ok (), after)) :
    Records after folder s coverage passed := by
  obtain ⟨l, m, holds, -⟩ := store_ok store
  have some (names : Location) (mem : names ∈ passed) : names ≠ [] := by
    obtain ⟨⟨⟨_, _, _, -, reached⟩, -⟩, -⟩ := (tallies.passing names).mp mem
    exact reached.below
  refine ⟨?_, fun bound room => read_recordText room (tallies.short bound) coverage, ?_⟩
  · exact held?_eq_some_iff.mpr ⟨l, holds.summary, holds.record⟩
  · rw [← successText_eq some]
    exact held?_eq_some_iff.mpr ⟨m, holds.success, holds.list⟩

end Suite

/-! ## Runs -/

namespace SuiteOptions

open Suite

variable {o : SuiteOptions} {t : FileTree}

/-- What is left of a run when its summary is stored. -/
def stored (o : SuiteOptions) (t : FileTree) (coverage : Binary64) :
    Except Failure Unit × FileTree :=
  store t o.summaryFolder (o.summary t) coverage (passing (o.results t))

theorem out_log (o : SuiteOptions) (t : FileTree) : (o.log t).out = "" := by
  unfold log
  split <;> rfl

theorem results_eq {cases : List Location} (discovered : discover t o.root o.endings = .ok cases) :
    runCases t o.root o.endings = .ok (o.results t) ∧ o.results t = resultsOf t o.root cases := by
  have found := runCases_eq_ok_iff.mpr ⟨cases, discovered, rfl⟩
  have same : o.results t = resultsOf t o.root cases := by
    rw [results, found]
    rfl
  exact ⟨same ▸ found, same⟩

/-- With a case there are results. -/
theorem results_isEmpty_of_some (wellFormed : t.WellFormed) {cases : List Location}
    (discovered : discover t o.root o.endings = .ok cases)
    (some : (Cases t o.root o.endings).Nonempty) : (o.results t).isEmpty = false := by
  rw [(results_eq discovered).2, resultsOf, List.isEmpty_map, List.isEmpty_eq_false_iff]
  rintro rfl
  obtain ⟨names, case⟩ := some
  exact List.not_mem_nil ((cases_eq wellFormed discovered).subset case)

/-- A run without cases writes nothing but notes. -/
theorem run_of_none (none : runCases t o.root o.endings = .ok []) :
    (o.run t).ending = .exit 2 ∧ (o.run t).tree = t ∧ (o.run t).output.out = "" := by
  have log : (o.log t).out = "" := o.out_log t
  unfold SuiteOptions.log results at log
  rw [none] at log
  rw [run, none]
  refine ⟨rfl, rfl, ?_⟩
  dsimp only
  rw [if_pos List.isEmpty_nil, Output.out_append]
  exact congrArg (· ++ "") log

/-- Only a run without cases ends with two. -/
theorem run_exit_two_iff :
    (o.run t).ending = .exit 2 ↔ runCases t o.root o.endings = .ok [] := by
  refine ⟨fun ends => ?_, fun none => (run_of_none none).1⟩
  have run := o.ends_run t
  generalize o.run t = outcome at ends run
  cases run with
  | nothing none => exact none
  | undiscovered | uncounted | unstored | completed => cases ends

/-- A run that ends with zero has stored its summary. -/
theorem stored_of_exit {coverage : Binary64} (covered : (o.summary t).coverage? = some coverage)
    (ends : (o.run t).ending = .exit 0) : o.stored t coverage = (.ok (), (o.run t).tree) := by
  obtain ⟨after, x, previous, completes⟩ := exists_completes ends
  obtain rfl : x = coverage := Option.some.inj (completes.covered.symm.trans covered)
  rw [run_of_completes completes]
  exact completes.store

theorem exists_summary_coverage (o : SuiteOptions) (t : FileTree) :
    ∃ coverage, (o.summary t).coverage? = some coverage := by
  have inside : (o.summary t).success ≤ (o.summary t).total :=
    Int.ofNat_le.mpr List.countP_le_length
  obtain ⟨coverage, covered, -⟩ := Summary.exists_coverage (Int.natCast_nonneg _) inside
  exact ⟨coverage, covered⟩

/-- With a coverage of the run before, a run completes where its summary can be stored. -/
theorem exists_completes_iff {previous : Binary64} (found : (o.results t).isEmpty = false)
    (recorded : previousCoverage t o.summaryFolder o.name = .ok previous) :
    ((o.results t).length < 10 ^ wholeDigitLimit ∧ Storable t o.summaryFolder o.name ∧
        Legible (passing (o.results t))) ↔
      ∃ after coverage, o.Completes t after coverage previous := by
  have short : decimalLength (o.results t).length ≤ wholeDigitLimit ↔
      (o.results t).length < 10 ^ wholeDigitLimit :=
    Nat.length_toDigits_le_iff (by decide) (by decide)
  rw [← short]
  constructor
  · rintro ⟨short, free⟩
    obtain ⟨coverage, covered⟩ := o.exists_summary_coverage t
    obtain ⟨after, store⟩ : ∃ after, o.stored t coverage = (.ok (), after) :=
      exists_store_iff.mpr free
    exact ⟨after, coverage, found, short, recorded, covered, store⟩
  · rintro ⟨after, coverage, completes⟩
    have free : Storable t o.summaryFolder (o.summary t).name ∧ Legible (passing (o.results t)) :=
      exists_store_iff.mp ⟨after, completes.store⟩
    exact ⟨completes.short, free⟩

/-- A suite with cases ends with zero exactly if the coverage of the run before can be had, the
counts can be printed, and the summary can be stored. -/
theorem run_exit_zero_iff (found : (o.results t).isEmpty = false) :
    (o.run t).ending = .exit 0 ↔
      (∃ previous, previousCoverage t o.summaryFolder o.name = .ok previous) ∧
        (o.results t).length < 10 ^ wholeDigitLimit ∧ Storable t o.summaryFolder o.name ∧
          Legible (passing (o.results t)) := by
  constructor
  · intro ends
    obtain ⟨after, coverage, previous, completes⟩ := exists_completes ends
    exact ⟨⟨previous, completes.previous⟩,
      (exists_completes_iff found completes.previous).mpr ⟨after, coverage, completes⟩⟩
  · rintro ⟨⟨previous, recorded⟩, free⟩
    obtain ⟨after, coverage, completes⟩ := (exists_completes_iff found recorded).mp free
    rw [run_of_completes completes]

end SuiteOptions

/-! ## Refusals -/

namespace SuiteCommand

open Suite

variable {argv : List String} {t : FileTree}

/-- Why the command refuses to run: its operand is no folder, the configuration is malformed, or
there are no cases. -/
inductive Refuses (argv : List String) (t : FileTree) : Prop
  | notFolder {operand : String} {settings : Settings}
    (accepted : spec.parse argv = .run operand settings)
    (isFolder : t.isFolder (Path.ofText operand) = .ok false)
  | malformed {operand : String} {settings : Settings}
    (accepted : spec.parse argv = .run operand settings)
    (isFolder : t.isFolder (Path.ofText operand) = .ok true)
    (configured : t.config (givenConfig settings) (Path.ofText operand) =
      .error (.config .malformed))
  | noCases {operand : String} {settings : Settings} {config : Toml} {o : SuiteOptions}
    (accepted : spec.parse argv = .run operand settings)
    (isFolder : t.isFolder (Path.ofText operand) = .ok true)
    (configured : t.config (givenConfig settings) (Path.ofText operand) = .ok config)
    (resolved : SuiteOptions.resolve t.room.shown config (Path.ofText operand) settings = .ok o)
    (clear : ∀ l, t.locate o.root = .ok l → Clear t o.root l)
    (none : Cases t o.root o.endings = ∅)

theorem run_of_refuses (wellFormed : t.WellFormed) (refuses : Refuses argv t) :
    (run argv t).ending = .exit 2 ∧ (run argv t).tree = t ∧ (run argv t).output.out = "" := by
  cases refuses with
  | notFolder accepted isFolder =>
    rw [run, accepted]
    dsimp only
    rw [isFolder]
    exact ⟨rfl, rfl, rfl⟩
  | malformed accepted isFolder configured =>
    unfold givenConfig at configured
    rw [run, accepted]
    dsimp only
    rw [isFolder]
    dsimp only
    rw [configured]
    exact ⟨rfl, rfl, rfl⟩
  | @noCases _ _ _ o accepted isFolder configured resolved clear none =>
    rw [run_of_accepted accepted isFolder configured resolved]
    rw [← resolve_ok resolved] at isFolder
    obtain ⟨l, -, locate, -⟩ := FileTree.isFolder_iff.mp isFolder
    obtain ⟨cases, discovered⟩ : ∃ cases, discover t o.root o.endings = .ok cases :=
      (exists_discover_iff wellFormed isFolder locate).mpr (clear l locate)
    rw [cases_eq wellFormed discovered] at none
    obtain rfl : cases = [] := List.eq_nil_iff_forall_not_mem.mpr
      (Set.eq_empty_iff_forall_notMem.mp none)
    exact SuiteOptions.run_of_none (runCases_eq_ok_iff.mpr ⟨[], discovered, rfl⟩)

theorem refuses_of_exit (wellFormed : t.WellFormed) (ends : (run argv t).ending = .exit 2) :
    Refuses argv t := by
  unfold run at ends
  split at ends
  · cases ends
  · cases ends
  next operand settings accepted =>
  dsimp only at ends
  split at ends
  · cases ends
  · next isFolder => exact .notFolder accepted isFolder
  next isFolder =>
  split at ends
  · next configured => exact .malformed accepted isFolder configured
  · cases ends
  next config configured =>
  split at ends
  · cases ends
  next o resolved =>
  obtain ⟨cases, discovered, none⟩ :=
    runCases_eq_ok_iff.mp (SuiteOptions.run_exit_two_iff.mp ends)
  obtain rfl := List.map_eq_nil_iff.mp none
  refine .noCases accepted isFolder configured resolved (fun l locate => ?_) ?_
  · rw [← resolve_ok resolved] at isFolder
    exact (exists_discover_iff wellFormed isFolder locate).mp ⟨_, discovered⟩
  · rw [cases_eq wellFormed discovered]
    exact Set.eq_empty_iff_forall_notMem.mpr fun _ => List.not_mem_nil

end SuiteCommand

/-! ## The books of a suite -/

namespace Suite

open FileTree

/-- A suite with cases is run if nothing is in the way of a listing of its root, and its summary and
its list of passing cases tally. There is a coverage, and the summary is stored exactly if its two
files can be written and the names of the passing cases are texts; the files then say what was
counted. The command ends with zero exactly if the coverage of the run before can be had, the counts
can be printed and the summary can be stored, and then it has stored it. It ends with two exactly if
it refuses to run, and then no file has changed and nothing is printed. -/
theorem bookkeeping {t : FileTree} (wellFormed : t.WellFormed) :
    (∀ o : SuiteOptions, (∀ l, t.locate o.root = .ok l → Clear t o.root l) →
      (Cases t o.root o.endings).Nonempty →
      runCases t o.root o.endings = .ok (o.results t) ∧
      (o.run t).ending ≠ .exit 2 ∧
      Tallies t o.root o.endings (o.summary t) (passing (o.results t)) ∧
      ∃ coverage, (o.summary t).coverage? = some coverage ∧
        ((∃ after, o.stored t coverage = (.ok (), after)) ↔
          Storable t o.summaryFolder o.name ∧ Legible (passing (o.results t))) ∧
        (∀ after, o.stored t coverage = (.ok (), after) →
          Records after o.summaryFolder (o.summary t) coverage (passing (o.results t))) ∧
        ((o.run t).ending = .exit 0 ↔
          (∃ previous, previousCoverage t o.summaryFolder o.name = .ok previous) ∧
            (o.results t).length < 10 ^ wholeDigitLimit ∧ Storable t o.summaryFolder o.name ∧
              Legible (passing (o.results t))) ∧
        ((o.run t).ending = .exit 0 → o.stored t coverage = (.ok (), (o.run t).tree))) ∧
    ∀ argv, ((SuiteCommand.run argv t).ending = .exit 2 ↔ SuiteCommand.Refuses argv t) ∧
      ((SuiteCommand.run argv t).ending = .exit 2 →
        (SuiteCommand.run argv t).tree = t ∧ (SuiteCommand.run argv t).output.out = "") := by
  refine ⟨fun o clear some => ?_, fun argv => ⟨⟨?_, ?_⟩, fun ends => ?_⟩⟩
  · obtain ⟨names, ⟨l, content, time, locate, reached⟩, ending⟩ := some
    obtain ⟨cases, discovered⟩ := (exists_discover_iff wellFormed
      (isFolder_of_reached wellFormed locate reached) locate).mpr (clear l locate)
    obtain ⟨ran, same⟩ := SuiteOptions.results_eq discovered
    have found := SuiteOptions.results_isEmpty_of_some wellFormed discovered
      ⟨names, ⟨l, content, time, locate, reached⟩, ending⟩
    have tallies : Tallies t o.root o.endings (o.summary t) (passing (o.results t)) := by
      rw [SuiteOptions.summary, same]
      exact tallies wellFormed discovered o.name
    obtain ⟨coverage, covered⟩ := o.exists_summary_coverage t
    refine ⟨ran, fun ends => ?_, tallies, coverage, covered, exists_store_iff,
      fun after => records_of_store tallies, SuiteOptions.run_exit_zero_iff found,
      SuiteOptions.stored_of_exit covered⟩
    rw [Except.ok.inj (ran.symm.trans (SuiteOptions.run_exit_two_iff.mp ends))] at found
    cases found
  · exact SuiteCommand.refuses_of_exit wellFormed
  · exact fun refuses => (SuiteCommand.run_of_refuses wellFormed refuses).1
  · exact (SuiteCommand.run_of_refuses wellFormed
      (SuiteCommand.refuses_of_exit wellFormed ends)).2

/-- A folder with two cases that pass, one that fails, one that is no text, and a file that is no
case. -/
def mixed : FileTree :=
  { home := []
    entries := [([], .folder 1), (["r"], .folder 1), (["r", "d"], .folder 1),
      (["r", "d", "a.js"], .file [] 1), (["r", "c.ts"], .file [0xFF] 1),
      (["r", "b.js"], .file [0x30, 0x61] 1), (["r", "a.js"], .file [0x78] 1),
      (["r", "a.txt"], .file [0x78] 1)]
    clock := 2 }

theorem bookkeeping_mixed :
    ∃ o : SuiteOptions, (o.summary mixed).total = 4 ∧
      (Cases mixed o.root o.endings).ncard = 4 ∧
      (CasesWith mixed o.root o.endings .passed).ncard = 2 ∧
      (o.run mixed).ending = .exit 0 ∧
      (o.run mixed).tree.held? (Path.ofText "summary/lexer.success.txt") =
        some (Utf8.encode "a.js\nd/a.js\n") := by
  let o : SuiteOptions :=
    ⟨Path.ofText "r", "lexer", [".js", ".ts"], Path.ofText "summary", false⟩
  have wellFormed : mixed.WellFormed := by decide
  have isFolder : mixed.isFolder o.root = .ok true := by decide +kernel
  have locate : mixed.locate o.root = .ok ["r"] := by decide +kernel
  have lists : filesBelow mixed o.root ["r"] mixed.room.listing [] =
      .ok [["c.ts"], ["b.js"], ["a.js"], ["a.txt"], ["d", "a.js"]] := by decide +kernel
  have discovered : discover mixed o.root o.endings =
      .ok [["a.js"], ["b.js"], ["c.ts"], ["d", "a.js"]] :=
    (discover_eq_ok_iff isFolder locate).mpr ⟨_, lists,
      mergeSort_of_perm (by decide +kernel) (by unfold Sorted; decide +kernel)⟩
  have clear (l : Location) (located : mixed.locate o.root = .ok l) : Clear mixed o.root l :=
    (exists_discover_iff wellFormed isFolder located).mp ⟨_, discovered⟩
  have some : (Cases mixed o.root o.endings).Nonempty :=
    ⟨["a.js"], ((discover_ok wellFormed discovered).2 _).mp List.mem_cons_self⟩
  have results : o.results mixed = ([(["a.js"], .passed), (["b.js"], .failed),
      (["c.ts"], .crashed), (["d", "a.js"], .passed)] : List (Location × CaseResult)) := by
    rw [(SuiteOptions.results_eq discovered).2]
    decide +kernel
  obtain ⟨-, -, tallies, coverage, -, -, records, exits, stored⟩ :=
    (bookkeeping wellFormed).1 o clear some
  have free : Storable mixed o.summaryFolder o.name :=
    ⟨_, rfl, ⟨["summary", "lexer.json"], by decide +kernel, by decide +kernel⟩,
      ⟨["summary", "lexer.success.txt"], by decide +kernel, by decide +kernel⟩⟩
  have legible : Legible (passing (o.results mixed)) := by
    rw [results]
    decide
  have few : (o.results mixed).length < 10 ^ wholeDigitLimit := by
    rw [results]
    have four : 4 < 10 ^ 1 := by decide
    exact Nat.lt_of_lt_of_le four (Nat.pow_le_pow_right (by decide) (by decide))
  have unread : mixed.readText (summaryPath (Path.ofText "summary") "lexer") =
      .error (.file (.refused .notFound (summaryPath (Path.ofText "summary") "lexer"))) := rfl
  have recorded : previousCoverage mixed o.summaryFolder o.name = .ok .zero := by
    rw [previousCoverage, unread]
  have ends : (o.run mixed).ending = .exit 0 :=
    exits.mpr ⟨⟨_, recorded⟩, few, free, legible⟩
  have total : (o.summary mixed).total = 4 := by rw [SuiteOptions.summary, results]; rfl
  have success : (o.summary mixed).success = 2 := by rw [SuiteOptions.summary, results]; rfl
  have list := (records _ (stored ends)).list
  have path : successPath o.summaryFolder o.name = Path.ofText "summary/lexer.success.txt" := by
    decide +kernel
  have text : String.join ((passing (o.results mixed)).map fun names =>
      Path.toText ⟨.here, names⟩ ++ "\n") = "a.js\nd/a.js\n" := by
    rw [results]
    decide +kernel
  rw [text] at list
  exact ⟨o, total, Int.ofNat.inj (tallies.total.symm.trans total),
    Int.ofNat.inj (tallies.success.symm.trans success), ends, path ▸ list⟩

/-- A folder with one case, at the end of a path that is almost too long. -/
def farCase : FileTree :=
  { home := []
    entries := [([], .folder 1), ([SuiteCommand.longName], .folder 1),
      ([SuiteCommand.longName, "abcdefghijklmnopqrst.js"], .file [0x78] 1)]
    clock := 2 }

/-- A folder with one case, whose name is no text. -/
def unspelledCase : FileTree :=
  { home := []
    entries := [([], .folder 1), (["r"], .folder 1),
      (["r", ⟨[.byte 0xFF, .char '.', .char 'j', .char 's']⟩], .file [0x78] 1)]
    clock := 2 }

/-- A folder with one case, and another one in a folder that may not be listed. -/
def unlistedCase : FileTree :=
  { home := []
    entries := [([], .folder 1), (["r"], .folder 1), (["r", "a.js"], .file [0x78] 1),
      (["r", "d"], .folder 1), (["r", "d", "a.js"], .file [0x78] 1)]
    clock := 2
    limits := [(["r", "d"], ⟨false, true, true⟩)] }

/-- What the books do not cover. The path to a case can be too long for a listing to get through. A
case that passes under a name that is no text leaves the list empty. The cases in a folder that may
not be listed do not count. -/
theorem bookkeeping_stumbles :
    (farCase.WellFormed ∧ farCase.locate SuiteCommand.longRun.root = .ok [SuiteCommand.longName] ∧
      runCases farCase SuiteCommand.longRun.root SuiteCommand.longRun.endings =
        .error (.refused .nameTooLong
          (casePath SuiteCommand.longRun.root ["abcdefghijklmnopqrst.js"]))) ∧
    (unspelledCase.WellFormed ∧ (SuiteCommand.run ["r"] unspelledCase).ending ≠ .exit 0 ∧
      Storable unspelledCase (Path.ofText "summary") "lexer" ∧
      (SuiteCommand.run ["r"] unspelledCase).tree.held?
        (successPath (Path.ofText "summary") "lexer") = some []) ∧
    (unlistedCase.WellFormed ∧
      runCases unlistedCase (Path.ofText "r") [".js"] = .ok [(["a.js"], .passed)]) := by
  refine ⟨⟨?_, ?_, ?_⟩, ⟨by decide, ?_, ⟨_, rfl, ⟨["summary", "lexer.json"], ?_, ?_⟩,
    ⟨["summary", "lexer.success.txt"], ?_, ?_⟩⟩, ?_⟩, by decide, ?_⟩ <;> decide +kernel

end Suite

end ScriptLexer
