import ScriptLexer.Proofs.Json.Complete
import ScriptLexer.Proofs.Suite.Bookkeeping

/-
  The summary of the run before. What a file records is its coverage (`Suite.Recorded`): a number
  that is finite when it is whole, or a truth value, in an object that is all of the text. A file
  that is missing or records nothing counts as zero, and only a few files cost the run
  (`Suite.CostsRun`): with bytes that are no text, with more than can be read, or with a whole
  number that is no finite number. With any other file there the run goes on, and stores its summary
  unless something is in the way of the two files (`Suite.previousCoverage_records_or_costs`).
-/

namespace ScriptLexer

theorem Json.member?_eq_some_iff {members : List (String × Json)} {key : String} {v : Json} :
    (Json.object members).member? key = some v ↔
      ∃ front back, members = front ++ (key, v) :: back ∧ ∀ m ∈ back, m.1 ≠ key := by
  rw [Json.member?, List.lookup_eq_some_iff]
  constructor
  · rintro ⟨back, front, split, others⟩
    refine ⟨front.reverse, back.reverse, ?_, fun m mem => ?_⟩
    · rw [← List.reverse_reverse members, split]
      simp
    · exact (bne_iff_ne.mp (others m (List.mem_reverse.mp mem))).symm
  · rintro ⟨front, back, rfl, others⟩
    refine ⟨back.reverse, front.reverse, by simp, fun m mem => ?_⟩
    exact bne_iff_ne.mpr (others m (List.mem_reverse.mp mem)).symm

namespace Binary64

theorem ofInt?_of_lt {n : Int} (finite : n.natAbs < overflow) {rank : Nat}
    (nearest : IsNearest rank (n.natAbs * Nat.pow 2 1074) 1) :
    ofInt? n = some (ofRank (n < 0) rank) := by
  have inside := mt (infinityRank_le_whole_iff n.natAbs).mp (Nat.not_le.mpr finite)
  have same := nearest.unique Nat.one_pos (nearestRank_isNearest _ Nat.one_pos)
  rw [← same] at inside
  unfold ofInt? ofRatio ofScaled
  rw [← same]
  exact if_pos (isFinite_ofRank_iff.mpr (Nat.not_le.mp inside))

theorem ofInt?_of_le {n : Int} (great : overflow ≤ n.natAbs) : ofInt? n = none := by
  have beyond := (infinityRank_le_whole_iff n.natAbs).mpr great
  unfold ofInt? ofRatio ofScaled
  exact if_neg (mt isFinite_ofRank_iff.mp (Nat.not_lt.mpr beyond))

end Binary64

namespace Suite

open Json (Document Overlong)
open Binary64 (overflow IsNearest)

/-! ## Coverage -/

/-- A value counts as a coverage: a number as it is, a truth value as one or zero, and a whole number
that is not beyond the finite numbers as the nearest of them. -/
inductive CountsAs : Json → Binary64 → Prop
  | number {x : Binary64} : CountsAs (.number x) x
  | true : CountsAs (.bool true) (.ofRatio false 1 1)
  | false : CountsAs (.bool false) .zero
  | whole {n : Int} {rank : Nat} (finite : n.natAbs < overflow)
    (nearest : IsNearest rank (n.natAbs * Nat.pow 2 1074) 1) :
    CountsAs (.whole n) (.ofRank (n < 0) rank)

/-- A whole number beyond the finite numbers counts as none of them. -/
inductive TooGreat : Json → Prop
  | whole {n : Int} (great : overflow ≤ n.natAbs) : TooGreat (.whole n)

/-- An answer about a coverage that is recorded: the coverage, zero if there is none, and a failure
only where there is something that costs it. -/
inductive Answers (recorded : Binary64 → Prop) (costs : Prop) : Except Failure Binary64 → Prop
  | recorded {x : Binary64} (here : recorded x) : Answers recorded costs (.ok x)
  | nothing : Answers recorded costs (.ok .zero)
  | failed {e : Failure} (here : costs) : Answers recorded costs (.error e)

theorem Answers.mono {recorded recorded' : Binary64 → Prop} {costs costs' : Prop}
    {answer : Except Failure Binary64} (answers : Answers recorded costs answer)
    (records : ∀ x, recorded x → recorded' x) (cost : costs → costs') :
    Answers recorded' costs' answer := by
  cases answers with
  | recorded here => exact .recorded (records _ here)
  | nothing => exact .nothing
  | failed here => exact .failed (cost here)

/-- The coverage of a value by any conversion of whole numbers. Opened for the real one, the match on
what it gives would have the conversion carried out. -/
def coverageWith (convert : Int → Option Binary64) : Json → Except Failure Binary64
  | .number x => .ok x
  | .bool b => .ok (if b then .ofRatio false 1 1 else .zero)
  | .whole n =>
    match convert n with
    | some x => .ok x
    | none => .error .wholeTooLarge
  | _ => .ok .zero

theorem coverageOf_eq (v : Json) : coverageOf v = coverageWith Binary64.ofInt? v := by rfl

theorem coverageWith_whole (convert : Int → Option Binary64) (n : Int) :
    coverageWith convert (.whole n) = (convert n).elim (.error .wholeTooLarge) .ok := by
  rw [coverageWith]
  cases convert n <;> rfl

theorem coverageOf_whole (n : Int) :
    coverageOf (.whole n) = (Binary64.ofInt? n).elim (.error .wholeTooLarge) .ok := by
  rw [coverageOf_eq, coverageWith_whole]

theorem coverageOf_of_countsAs {v : Json} {x : Binary64} (counts : CountsAs v x) :
    coverageOf v = .ok x := by
  cases counts with
  | number => rfl
  | true => exact congrArg Except.ok (if_pos rfl)
  | false => exact congrArg Except.ok (if_neg Bool.false_ne_true)
  | whole finite nearest =>
    rw [coverageOf_whole, Binary64.ofInt?_of_lt finite nearest]
    rfl

theorem coverageOf_of_tooGreat {v : Json} (great : TooGreat v) :
    coverageOf v = .error .wholeTooLarge := by
  obtain ⟨great⟩ := great
  rw [coverageOf_whole, Binary64.ofInt?_of_le great]
  rfl

theorem coverageOf_answers (v : Json) : Answers (CountsAs v) (TooGreat v) (coverageOf v) := by
  have recorded {x : Binary64} (counts : CountsAs v x) :
      Answers (CountsAs v) (TooGreat v) (coverageOf v) :=
    coverageOf_of_countsAs counts ▸ .recorded counts
  match v with
  | .number x => exact recorded .number
  | .bool true => exact recorded .true
  | .bool false => exact recorded .false
  | .whole n =>
    by_cases great : overflow ≤ n.natAbs
    · rw [coverageOf_of_tooGreat (.whole great)]
      exact .failed (.whole great)
    · exact recorded (.whole (Nat.not_le.mp great)
        (Binary64.nearestRank_isNearest _ Nat.one_pos))
  | .null | .text _ | .array _ | .object _ => exact .nothing

/-! ## Texts -/

/-- A text is an object, and the last of its members under `coverage` has a value. -/
inductive HasCoverage (text : List Char) (v : Json) : Prop
  | mk {front back : List (String × Json)}
    (document : Document (.object (front ++ ("coverage", v) :: back)) text)
    (last : ∀ m ∈ back, m.1 ≠ "coverage")

section Text

variable {room : Nat} {text : List Char} {v : Json}

theorem recordedCoverage_of_has (has : HasCoverage text v) (short : ¬Overlong room text) :
    recordedCoverage room text = coverageOf v := by
  obtain ⟨document, last⟩ := has
  rw [recordedCoverage, Json.read_eq_ok_iff.mpr ⟨document, short⟩]
  dsimp only
  rw [Json.member?_eq_some_iff.mpr ⟨_, _, rfl, last⟩]

theorem recordedCoverage_of_overlong (exceeds : Overlong room text) :
    ∃ e, recordedCoverage room text = .error e := by
  obtain ⟨fault, other, read⟩ := Json.givesUp_read_iff.mpr exceeds
  refine ⟨.record fault, ?_⟩
  rw [recordedCoverage, read]
  cases fault with
  | malformed => exact absurd rfl other
  | tooManyDigits | arrayTooDeep | objectTooDeep => rfl

theorem recordedCoverage_answers (room : Nat) (text : List Char) :
    Answers (fun x => ¬Overlong room text ∧ ∃ v, HasCoverage text v ∧ CountsAs v x)
      (Overlong room text ∨ ∃ v, HasCoverage text v ∧ TooGreat v) (recordedCoverage room text) := by
  unfold recordedCoverage
  split
  · exact .nothing
  · next fault other read =>
    exact .failed (.inl (Json.overlong_of_read (fun same => other same) read))
  next value read =>
  obtain ⟨document, short⟩ := Json.read_eq_ok_iff.mp read
  split
  · next v member =>
    match value with
    | .object members =>
      obtain ⟨front, back, rfl, last⟩ := Json.member?_eq_some_iff.mp member
      have has : HasCoverage text v := ⟨document, last⟩
      exact (coverageOf_answers v).mono (fun x counts => ⟨short, v, has, counts⟩)
        fun great => .inr ⟨v, has, great⟩
    | .null | .bool _ | .whole _ | .number _ | .text _ | .array _ => cases member
  · exact .nothing

end Text

/-! ## Files -/

variable {t : FileTree} {folder : Path} {name : String}

/-- The coverage that the file of a suite records. -/
inductive Recorded (t : FileTree) (folder : Path) (name : String) (x : Binary64) : Prop
  | mk {text : List Char} {v : Json} (read : t.readText (summaryPath folder name) = .ok text)
    (short : ¬Overlong t.room.record text) (has : HasCoverage text v) (counts : CountsAs v x)

/-- What the file of a suite can cost the run by: a path that cannot be handed to the system, bytes
that are no text, a text that begins with more than can be read, or a coverage beyond the finite
numbers. -/
inductive CostsRun (t : FileTree) (folder : Path) (name : String) : Prop
  | path (nul : (summaryPath folder name).hasNul = true)
  | bytes {bytes : List UInt8} (read : t.read (summaryPath folder name) = .ok bytes)
    (undecoded : ∀ text, Utf8.encode text ≠ bytes)
  | overlong {text : List Char} (read : t.readText (summaryPath folder name) = .ok text)
    (exceeds : Overlong t.room.record text)
  | tooGreat {text : List Char} {v : Json} (read : t.readText (summaryPath folder name) = .ok text)
    (has : HasCoverage text v) (great : TooGreat v)

theorem previousCoverage_of_readText {text : List Char}
    (read : t.readText (summaryPath folder name) = .ok text) :
    previousCoverage t folder name = recordedCoverage t.room.record text := by
  rw [previousCoverage, read]

theorem previousCoverage_of_recorded {x : Binary64} (recorded : Recorded t folder name x) :
    previousCoverage t folder name = .ok x := by
  obtain ⟨read, short, has, counts⟩ := recorded
  rw [previousCoverage_of_readText read, recordedCoverage_of_has has short,
    coverageOf_of_countsAs counts]

theorem previousCoverage_of_costsRun (costs : CostsRun t folder name) :
    ∃ e, previousCoverage t folder name = .error e := by
  cases costs with
  | path nul =>
    refine ⟨.file .nulInPath, ?_⟩
    rw [previousCoverage, FileTree.readText, FileTree.read_eq_nulInPath_iff.mpr nul]
  | @bytes bytes read undecoded =>
    cases decoded : Utf8.decode bytes with
    | ok cs => exact absurd (Utf8.decode_eq_ok_iff.mp decoded) (undecoded _)
    | error e =>
      refine ⟨.encoding e, ?_⟩
      rw [previousCoverage, FileTree.readText, read]
      dsimp only
      rw [decoded]
  | overlong read exceeds =>
    rw [previousCoverage_of_readText read]
    exact recordedCoverage_of_overlong exceeds
  | @tooGreat text v read has great =>
    rw [previousCoverage_of_readText read]
    by_cases exceeds : Overlong t.room.record text
    · exact recordedCoverage_of_overlong exceeds
    · rw [recordedCoverage_of_has has exceeds]
      exact ⟨_, coverageOf_of_tooGreat great⟩

theorem previousCoverage_answers (t : FileTree) (folder : Path) (name : String) :
    Answers (Recorded t folder name) (CostsRun t folder name) (previousCoverage t folder name) := by
  cases read : t.readText (summaryPath folder name) with
  | ok text =>
    rw [previousCoverage_of_readText read]
    refine (recordedCoverage_answers t.room.record text).mono ?_ ?_
    · rintro x ⟨short, v, has, counts⟩
      exact ⟨read, short, has, counts⟩
    · rintro (exceeds | ⟨v, has, great⟩)
      · exact .overlong read exceeds
      · exact .tooGreat read has great
  | error e =>
    rw [previousCoverage, read]
    unfold FileTree.readText at read
    cases found : t.read (summaryPath folder name) with
    | error fault =>
      rw [found] at read
      cases read
      rcases FileTree.read_error found with ⟨_, rfl, -⟩ | ⟨rfl, nul⟩
      · exact .nothing
      · exact .failed (.path nul)
    | ok bytes =>
      rw [found] at read
      dsimp only at read
      split at read
      · next undecoded =>
        cases read
        refine .failed (.bytes found ?_)
        rintro text rfl
        rw [Utf8.decode_encode] at undecoded
        cases undecoded
      · cases read

/-! ## Runs -/

section Runs

variable {o : SuiteOptions} (found : (o.results t).isEmpty = false)

include found

/-- Where the coverage of the run before fails, nothing is printed or written. -/
theorem run_of_previous_error {e : Failure}
    (fails : previousCoverage t o.summaryFolder o.name = .error e) :
    o.run t = ⟨.failed e, o.log t, t, []⟩ := by
  rw [SuiteOptions.run_of_found found, SuiteOptions.conclude, fails]

/-- Where the two files can be written, the first has the new summary, also when the names of the
passing cases are no texts. -/
theorem held_record_of_storable {previous : Binary64}
    (recorded : previousCoverage t o.summaryFolder o.name = .ok previous)
    (short : (o.results t).length < 10 ^ wholeDigitLimit)
    (storable : Storable t o.summaryFolder o.name) :
    ∃ coverage, (o.summary t).coverage? = some coverage ∧
      (o.run t).tree.held? (summaryPath o.summaryFolder o.name) =
        some (Utf8.encode (recordText (o.summary t) coverage)) := by
  obtain ⟨coverage, covered⟩ := o.exists_summary_coverage t
  refine ⟨coverage, covered, ?_⟩
  by_cases legible : Legible (passing (o.results t))
  · obtain ⟨after, coverage', completes⟩ :=
      (SuiteOptions.exists_completes_iff found recorded).mp ⟨short, storable, legible⟩
    obtain rfl : coverage' = coverage := Option.some.inj (completes.covered.symm.trans covered)
    obtain ⟨l, m, holds, -⟩ := store_ok completes.store
    rw [SuiteOptions.run_of_completes completes]
    exact FileTree.held?_eq_some_iff.mpr ⟨l, holds.summary, holds.record⟩
  · have free : Storable t o.summaryFolder (o.summary t).name := storable
    obtain ⟨fault, after, store, l, m, holds⟩ := store_illegible coverage free legible
    have few : decimalLength (o.results t).length ≤ wholeDigitLimit :=
      (Nat.length_toDigits_le_iff (by decide) (by decide)).mpr short
    rw [SuiteOptions.run_of_found found, SuiteOptions.conclude, ← SuiteOptions.summary, recorded,
      covered]
    dsimp only
    rw [if_neg (Nat.not_lt.mpr few), store]
    exact FileTree.held?_eq_some_iff.mpr ⟨l, holds.summary, holds.record⟩

end Runs

/-- The coverage of the run before is what the file of the suite records; without a record it is
zero, and it fails where the file costs the run. Then the run of a suite with cases ends there and
leaves everything as it was. In all other cases it goes on, unless there are more cases than can be
printed: it has written the new summary where both files can be written, and it completes exactly if
the names of the passing cases are texts as well. -/
theorem previousCoverage_records_or_costs (t : FileTree) :
    (∀ folder name,
      (CostsRun t folder name → ∃ e, previousCoverage t folder name = .error e) ∧
      (∀ x, Recorded t folder name x → previousCoverage t folder name = .ok x) ∧
      (¬CostsRun t folder name → (∀ x, ¬Recorded t folder name x) →
        previousCoverage t folder name = .ok .zero)) ∧
    ∀ o : SuiteOptions, (o.results t).isEmpty = false →
      (CostsRun t o.summaryFolder o.name → ∃ e, o.run t = ⟨.failed e, o.log t, t, []⟩) ∧
      (¬CostsRun t o.summaryFolder o.name →
        ((o.results t).length < 10 ^ wholeDigitLimit → Storable t o.summaryFolder o.name →
          ∃ coverage, (o.summary t).coverage? = some coverage ∧
            (o.run t).tree.held? (summaryPath o.summaryFolder o.name) =
              some (Utf8.encode (recordText (o.summary t) coverage))) ∧
        ((o.results t).length < 10 ^ wholeDigitLimit ∧ Storable t o.summaryFolder o.name ∧
            Legible (passing (o.results t)) ↔
          ∃ after coverage previous, o.Completes t after coverage previous ∧
            o.run t = ⟨.exit 0, o.log t ++ ⟨(o.summary t).line coverage previous ++ "\n", ""⟩,
              after, []⟩ ∧
            after.held? (summaryPath o.summaryFolder o.name) =
              some (Utf8.encode (recordText (o.summary t) coverage)))) := by
  refine ⟨fun folder name => ⟨previousCoverage_of_costsRun,
    fun x => previousCoverage_of_recorded, fun free none => ?_⟩,
    fun o found => ⟨fun costs => ?_, fun free => ?_⟩⟩
  · have answers := previousCoverage_answers t folder name
    generalize previousCoverage t folder name = answer at answers
    cases answers with
    | recorded here => exact absurd here (none _)
    | nothing => rfl
    | failed here => exact absurd here free
  · obtain ⟨e, fails⟩ := previousCoverage_of_costsRun costs
    exact ⟨e, run_of_previous_error found fails⟩
  · obtain ⟨previous, recorded⟩ : ∃ previous,
        previousCoverage t o.summaryFolder o.name = .ok previous := by
      have answers := previousCoverage_answers t o.summaryFolder o.name
      generalize previousCoverage t o.summaryFolder o.name = answer at answers
      cases answers with
      | recorded | nothing => exact ⟨_, rfl⟩
      | failed here => exact absurd here free
    refine ⟨held_record_of_storable found recorded, ?_⟩
    rw [SuiteOptions.exists_completes_iff found recorded]
    constructor
    · rintro ⟨after, coverage, completes⟩
      obtain ⟨l, m, holds, -⟩ := store_ok completes.store
      exact ⟨after, coverage, previous, completes, SuiteOptions.run_of_completes completes,
        FileTree.held?_eq_some_iff.mpr ⟨l, holds.summary, holds.record⟩⟩
    · rintro ⟨after, coverage, previous', completes, -, -⟩
      obtain rfl : previous' = previous := Except.ok.inj (completes.previous.symm.trans recorded)
      exact ⟨after, coverage, completes⟩

/-- A folder with one case, and the summaries of two suites, of which one is no text. -/
def twoSummaries : FileTree :=
  { home := []
    entries := [([], .folder 1), (["r"], .folder 1), (["r", "a.js"], .file [0x78] 1),
      (["summary"], .folder 1), (["summary", "lexer.json"], .file [0xFF] 1),
      (["summary", "other.json"],
        .file (Utf8.encode ((Json.object [("coverage", .bool true)]).render ++ "\n")) 1)]
    clock := 2 }

theorem previousCoverage_two_summaries :
    ∃ suite : String → SuiteOptions, (∀ name, (suite name).name = name) ∧
      (∃ e, (suite "lexer").run twoSummaries =
        ⟨.failed e, (suite "lexer").log twoSummaries, twoSummaries, []⟩) ∧
      ((suite "other").run twoSummaries).ending = .exit 0 ∧
      previousCoverage twoSummaries (Path.ofText "summary") "other" = .ok (.ofRatio false 1 1) ∧
      previousCoverage twoSummaries (Path.ofText "summary") "third" = .ok .zero := by
  let suite (name : String) : SuiteOptions :=
    ⟨Path.ofText "r", name, [".js"], Path.ofText "summary", false⟩
  have found (name : String) : ((suite name).results twoSummaries).isEmpty = false := by
    show ((runCases twoSummaries (Path.ofText "r") [".js"]).toOption.getD []).isEmpty = false
    decide +kernel
  obtain ⟨coverages, runs⟩ := previousCoverage_records_or_costs twoSummaries
  have undecoded : CostsRun twoSummaries (Path.ofText "summary") "lexer" := by
    have bytes : twoSummaries.read (summaryPath (Path.ofText "summary") "lexer") = .ok [0xFF] := rfl
    refine .bytes bytes fun text same => ?_
    have read := Utf8.decode_encode text
    rw [same] at read
    cases read
  have recorded : Recorded twoSummaries (Path.ofText "summary") "other" (.ofRatio false 1 1) := by
    let record := Json.object [("coverage", .bool true)]
    have plain : '\r' ∉ (record.render ++ "\n").toList := by decide +kernel
    have fits : Json.Fits (twoSummaries.room.record + 1) record := by
      simp only [record, Json.Fits, Json.MembersFit]
      decide
    have read : Json.read twoSummaries.room.record (record.render ++ "\n").toList = .ok record := by
      rw [Json.render, String.toList_append, String.toList_ofList]
      exact Json.read_chars fits
    obtain ⟨document, short⟩ := Json.read_eq_ok_iff.mp read
    have text := readText_of_content (t := twoSummaries)
      (p := summaryPath (Path.ofText "summary") "other") (l := ["summary", "other.json"]) rfl rfl rfl
      plain
    have has : HasCoverage (record.render ++ "\n").toList (.bool true) :=
      .mk (show Document (.object ([] ++ ("coverage", .bool true) :: [])) _ from document)
        (List.forall_mem_nil _)
    exact ⟨text, short, has, .true⟩
  have missing : twoSummaries.read (summaryPath (Path.ofText "summary") "third") =
      .error (.refused .notFound (summaryPath (Path.ofText "summary") "third")) := rfl
  have unread : twoSummaries.readText (summaryPath (Path.ofText "summary") "third") =
      .error (.file (.refused .notFound (summaryPath (Path.ofText "summary") "third"))) := rfl
  have free : ¬CostsRun twoSummaries (Path.ofText "summary") "third" := by
    intro costs
    cases costs with
    | path nul => exact absurd nul (by decide +kernel)
    | bytes read => cases missing.symm.trans read
    | overlong read | tooGreat read => cases unread.symm.trans read
  have nothing (x : Binary64) : ¬Recorded twoSummaries (Path.ofText "summary") "third" x := by
    rintro ⟨read⟩
    cases unread.symm.trans read
  have storable : Storable twoSummaries (Path.ofText "summary") "other" :=
    ⟨_, rfl, ⟨["summary", "other.json"], by decide +kernel, by decide +kernel⟩,
      ⟨["summary", "other.success.txt"], by decide +kernel, by decide +kernel⟩⟩
  have few : ((suite "other").results twoSummaries).length < 10 ^ wholeDigitLimit := by
    have one : ((suite "other").results twoSummaries).length = 1 := by decide +kernel
    rw [one]
    exact Nat.one_lt_pow (by decide) (by decide)
  have legible : Legible (passing ((suite "other").results twoSummaries)) := by decide +kernel
  have one := (coverages (Path.ofText "summary") "other").2.1 _ recorded
  have free' : ¬CostsRun twoSummaries (Path.ofText "summary") "other" := by
    intro costs
    obtain ⟨e, fails⟩ := (coverages _ _).1 costs
    rw [one] at fails
    cases fails
  obtain ⟨after, coverage, previous, -, run, -⟩ :=
    ((runs (suite "other") (found "other")).2 free').2.mp ⟨few, storable, legible⟩
  refine ⟨suite, fun name => rfl, (runs (suite "lexer") (found "lexer")).1 undecoded, ?_, one,
    (coverages _ _).2.2 free nothing⟩
  rw [run]

end Suite

end ScriptLexer
