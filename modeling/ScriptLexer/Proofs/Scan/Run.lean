import Mathlib.Data.List.DropRight
import ScriptLexer.Scan.WordRun
import ScriptLexer.Proofs.Text.CharClass

/-
  Runs and rows of marks. A run ends at a boundary: a blank or the end of the text, which no run
  tells apart (`run_append`). A row of marks is faultless exactly when each of its marks is
  (`faults_eq_nil_iff`), and what lies beyond its extent is not kept. Words and numbers of a named
  base keep a class of characters and report the others (`Mark.SortsBy`).
-/

namespace ScriptLexer

/-- The text ends here or goes on with a blank. -/
def AtBoundary (text : List Char) : Prop := ∀ c ∈ text.head?, isBlank c = true

theorem atBoundary_nil : AtBoundary [] := by
  intro c h
  contradiction

theorem atBoundary_cons {c : Char} {rest : List Char} :
    AtBoundary (c :: rest) ↔ isBlank c = true := by
  simp [AtBoundary]

theorem not_isBlank_of_mem_run {c : Char} {text : List Char} (h : c ∈ run text) :
    isBlank c = false := by
  have := List.all_takeWhile (l := text) (p := fun c => !isBlank c)
  rw [List.all_eq_true] at this
  simpa using this c h

theorem run_eq_nil {text : List Char} (h : AtBoundary text) : run text = [] := by
  cases text with
  | nil => rfl
  | cons c rest =>
    rw [atBoundary_cons] at h
    simp [run, h]

/-- A run goes up to a boundary. -/
theorem exists_run (text : List Char) : ∃ more, text = run text ++ more ∧ AtBoundary more := by
  refine ⟨text.dropWhile fun c => !isBlank c, List.takeWhile_append_dropWhile.symm, ?_⟩
  intro c h
  have := List.head?_dropWhile_not (fun c => !isBlank c) text
  rw [Option.mem_def.mp h] at this
  simpa using this

theorem run_append_of_not_isBlank {text more : List Char}
    (h : ∀ c ∈ text, isBlank c = false) : run (text ++ more) = text ++ run more := by
  unfold run
  rw [List.takeWhile_append_of_pos]
  intro c mem
  simp [h c mem]

/-- The run of a text does not change when something is put behind a boundary at its end. -/
theorem run_append {text more : List Char} (h : AtBoundary more) :
    run (text ++ more) = run text := by
  induction text with
  | nil => exact run_eq_nil h
  | cons c rest ih =>
    by_cases blank : isBlank c = true
    · simp [run, blank]
    · rw [Bool.not_eq_true] at blank
      rw [List.cons_append, run_cons blank, run_cons blank, ih]

theorem run_eq_of_boundary {text more : List Char} (h : ∀ c ∈ text, isBlank c = false)
    (boundary : AtBoundary more) : run (text ++ more) = text := by
  rw [run_append_of_not_isBlank h, run_eq_nil boundary, List.append_nil]

theorem run_isPrefix (text : List Char) : run text <+: text := List.takeWhile_prefix _

/-- A run that ends before its text does is not prolonged by more text. -/
theorem run_append_of_lt {text : List Char} (ends : (run text).length < text.length)
    (more : List Char) : run (text ++ more) = run text := by
  induction text with
  | nil => exact absurd ends (Nat.lt_irrefl 0)
  | cons c rest ih =>
    by_cases blank : isBlank c = true
    · simp [run, blank]
    · rw [Bool.not_eq_true] at blank
      rw [run_cons blank, List.length_cons, List.length_cons] at ends
      rw [List.cons_append, run_cons blank, run_cons blank, ih (Nat.lt_of_succ_lt_succ ends)]

/-! ## Texts with the same run ahead -/

theorem run_eq_nil_iff {text : List Char} : run text = [] ↔ AtBoundary text := by
  constructor
  · intro none
    obtain ⟨more, e, boundary⟩ := exists_run text
    rw [none, List.nil_append] at e
    rw [e]
    exact boundary
  · exact run_eq_nil

theorem run_run (text : List Char) : run (run text) = run text := by
  have dark : ∀ c ∈ run text, isBlank c = false := fun _ => not_isBlank_of_mem_run
  have whole : run (run text ++ []) = run text := run_eq_of_boundary dark atBoundary_nil
  rwa [List.append_nil] at whole

/-- Texts with the same run begin with the same character, unless that is a blank. -/
theorem exists_cons_of_run_eq {c : Char} {rest text : List Char} (dark : isBlank c = false)
    (same : run (c :: rest) = run text) : ∃ rest', text = c :: rest' ∧ run rest = run rest' := by
  rw [run_cons dark] at same
  obtain ⟨more, e, -⟩ := exists_run text
  rw [← same, List.cons_append] at e
  refine ⟨run rest ++ more, e, ?_⟩
  rw [e, run_cons dark, List.cons.injEq] at same
  exact same.2

/-- A class without blanks is found at the front of a text exactly if at the front of its run. -/
theorem any_head?_run {p : Char → Bool} (dark : ∀ c, p c = true → isBlank c = false)
    (text : List Char) : (run text).head?.any p = text.head?.any p := by
  cases text with
  | nil => rfl
  | cons c rest =>
    by_cases blank : isBlank c = true
    · have out : p c = false := by
        rw [← Bool.not_eq_true]
        intro inside
        rw [dark c inside] at blank
        contradiction
      rw [run_eq_nil (atBoundary_cons.mpr blank)]
      exact out.symm
    · rw [run_cons (Bool.not_eq_true _ ▸ blank)]
      rfl

/-! ## Rows of marks -/

namespace Mark

/-- A mark either keeps its character or says what is wrong with it. -/
def Justified (m : Mark) : Prop := m.kept = true ∨ m.fault ≠ none

theorem justified_keep (c : Char) : (keep c).Justified := Or.inl rfl

theorem justified_stray (kind : DiagnosticKind) (c : Char) : (stray kind c).Justified :=
  Or.inr (by simp [stray])

theorem faults_cons (start : Nat) (m : Mark) (marks : List Mark) :
    faults start (m :: marks) =
      (m.fault.map fun kind => Fault.mk kind m.char start 1).toList ++
        faults (start + 1) marks := by
  rw [faults]
  split
  · next kind fault => rw [fault]; rfl
  · next fault => rw [fault]; rfl

/-- The faults of a row are those of its marks, each on the character of its mark. -/
theorem mem_faults {f : Fault} {start : Nat} {marks : List Mark} :
    f ∈ faults start marks ↔ ∃ i m kind, marks[i]? = some m ∧ m.fault = some kind ∧
      f = ⟨kind, m.char, start + i, 1⟩ := by
  induction marks generalizing start with
  | nil => simp [faults]
  | cons m marks ih =>
    rw [faults_cons, List.mem_append, Option.mem_toList, ih]
    constructor
    · rintro (own | ⟨i, m', kind, at_i, fault, rfl⟩)
      · obtain ⟨kind, fault, rfl⟩ := Option.map_eq_some_iff.mp own
        exact ⟨0, m, kind, rfl, fault, rfl⟩
      · exact ⟨i + 1, m', kind, at_i, fault, by rw [Nat.add_right_comm, Nat.add_assoc]⟩
    · rintro ⟨i, m', kind, at_i, fault, rfl⟩
      cases i with
      | zero =>
        rw [List.getElem?_cons_zero, Option.some.injEq] at at_i
        subst at_i
        exact Or.inl (Option.map_eq_some_iff.mpr ⟨kind, fault, rfl⟩)
      | succ i =>
        rw [List.getElem?_cons_succ] at at_i
        exact Or.inr ⟨i, m', kind, at_i, fault, by rw [Nat.add_right_comm, Nat.add_assoc]⟩

theorem faults_eq_nil_iff {start : Nat} {marks : List Mark} :
    faults start marks = [] ↔ ∀ m ∈ marks, m.fault = none := by
  induction marks generalizing start with
  | nil => simp [faults]
  | cons m marks ih =>
    rw [faults_cons, List.append_eq_nil_iff, ih, List.forall_mem_cons]
    cases m.fault with
    | none => simp
    | some kind => simp

/-- Beyond the extent of a row nothing is kept. -/
theorem not_kept_of_extent_le {marks : List Mark} {i : Nat} {m : Mark}
    (h : extent marks ≤ i) (at_i : marks[i]? = some m) : m.kept = false := by
  induction marks generalizing i with
  | nil => simp at at_i
  | cons m' marks ih =>
    simp only [extent] at h
    cases i with
    | zero =>
      rw [List.getElem?_cons_zero, Option.some.injEq] at at_i
      subst at_i
      split at h
      · omega
      · next none => simp_all
    | succ i =>
      rw [List.getElem?_cons_succ] at at_i
      refine ih ?_ at_i
      split at h
      · omega
      · next none =>
        simp only [Bool.or_eq_true, decide_eq_true_eq, not_or] at none
        omega

/-- The extent of a row ends with its last kept mark. -/
theorem exists_last {marks : List Mark} (some : 0 < extent marks) :
    ∃ before last behind, marks = before ++ last :: behind ∧ last.kept = true ∧
      (∀ m ∈ behind, m.kept = false) ∧ extent marks = before.length + 1 := by
  induction marks with
  | nil => contradiction
  | cons m marks ih =>
    by_cases more : 0 < extent marks
    · obtain ⟨before, last, behind, rfl, kept, none, length⟩ := ih more
      refine ⟨m :: before, last, behind, rfl, kept, none, ?_⟩
      simp [extent, length]
    · have kept : m.kept = true := by
        rw [← Bool.not_eq_false]
        intro dropped
        simp [extent, dropped, more] at some
      refine ⟨[], m, marks, rfl, kept, fun m' mem => ?_, ?_⟩
      · obtain ⟨i, below, rfl⟩ := List.getElem_of_mem mem
        exact not_kept_of_extent_le (by omega) (List.getElem?_eq_getElem below)
      · simp [extent, kept]
        omega

/-! ### Rows of which every mark is kept -/

theorem kept_of_fault_eq_none {m : Mark} (h : m.Justified) (fault : m.fault = none) :
    m.kept = true := by
  rcases h with h | h
  · exact h
  · contradiction

theorem text_eq_of_kept {marks : List Mark} (h : ∀ m ∈ marks, m.kept = true) :
    text marks = marks.map (·.char) := by
  rw [text, List.filter_eq_self.mpr h]

theorem extent_eq_of_kept {marks : List Mark} (h : ∀ m ∈ marks, m.kept = true) :
    extent marks = marks.length := by
  induction marks with
  | nil => rfl
  | cons m marks ih =>
    rw [List.forall_mem_cons] at h
    simp [extent, h.1, ih h.2]

theorem extent_concat (marks : List Mark) (m : Mark) :
    extent (marks ++ [m]) = if m.kept then marks.length + 1 else extent marks := by
  induction marks with
  | nil => cases kept : m.kept <;> simp [extent, kept]
  | cons m' marks ih =>
    rw [List.cons_append, extent, ih]
    cases kept : m.kept with
    | false => rfl
    | true => simp

/-! ### Rows that keep a class of characters -/

/-- Each mark keeps its character if this belongs to a class, and makes a stray of it if not. -/
def SortsBy (mark : Char → Mark) (belongs : Char → Bool) (kind : Char → DiagnosticKind) : Prop :=
  ∀ c, mark c = if belongs c then keep c else stray (kind c) c

/-- The diagnostics on the characters outside a class, the first of which stands at `first`. -/
def strayDiagnostics (belongs : Char → Bool) (kind : Char → DiagnosticKind) (first : Nat)
    (text : List Char) : List Diagnostic :=
  ((text.zipIdx first).filter fun (c, _) => !belongs c).map fun (c, i) =>
    ⟨kind c, c.toString, Span.cover i 1⟩

theorem strayDiagnostics_cons (belongs : Char → Bool) (kind : Char → DiagnosticKind) (first : Nat)
    (c : Char) (text : List Char) :
    strayDiagnostics belongs kind first (c :: text) =
      (if belongs c then [] else [⟨kind c, c.toString, Span.cover first 1⟩]) ++
        strayDiagnostics belongs kind (first + 1) text := by
  simp only [strayDiagnostics, List.zipIdx_cons, List.filter_cons]
  cases belongs c <;> simp

namespace SortsBy

variable {mark : Char → Mark} {belongs : Char → Bool} {kind : Char → DiagnosticKind}

theorem keep_or_stray (sorts : SortsBy mark belongs kind) (c : Char) :
    mark c = keep c ∨ mark c = stray (kind c) c := by
  rw [sorts c]
  split
  · exact Or.inl rfl
  · exact Or.inr rfl

theorem kept (sorts : SortsBy mark belongs kind) (c : Char) : (mark c).kept = belongs c := by
  rw [sorts c]
  cases belongs c <;> rfl

theorem char (sorts : SortsBy mark belongs kind) (c : Char) : (mark c).char = c := by
  rcases sorts.keep_or_stray c with e | e <;> rw [e] <;> rfl

theorem justified (sorts : SortsBy mark belongs kind) (c : Char) : (mark c).Justified := by
  rcases sorts.keep_or_stray c with e | e
  · exact e ▸ justified_keep c
  · exact e ▸ justified_stray _ c

theorem fault_eq_none_iff (sorts : SortsBy mark belongs kind) {c : Char} :
    (mark c).fault = none ↔ belongs c = true := by
  rw [sorts c]
  cases belongs c <;> simp [keep, stray]

/-- What is kept of a text is what belongs to the class. -/
theorem text_map (sorts : SortsBy mark belongs kind) (text : List Char) :
    Mark.text (text.map mark) = text.filter belongs := by
  rw [Mark.text, List.filter_map, List.map_map]
  have same : (fun m : Mark => m.kept) ∘ mark = belongs := funext sorts.kept
  rw [same]
  exact List.map_id'' sorts.char _

/-- A row goes up to the last character that belongs to the class. -/
theorem extent_map (sorts : SortsBy mark belongs kind) (text : List Char) :
    extent (text.map mark) = (text.rdropWhile fun c => !belongs c).length := by
  induction text using List.reverseRecOn with
  | nil => rfl
  | append_singleton text c ih =>
    rw [List.map_append, List.map_singleton, extent_concat, sorts.kept, ih, List.length_map,
      List.rdropWhile_concat]
    cases belongs c <;> simp

/-- All else is reported in its order. -/
theorem faults_map (sorts : SortsBy mark belongs kind) (start first : Nat) (text : List Char) :
    (faults first (text.map mark)).map (·.diagnostic start) =
      strayDiagnostics belongs kind (start + first) text := by
  induction text generalizing first with
  | nil => rfl
  | cons c text ih =>
    rw [List.map_cons, faults_cons, List.map_append, ih, strayDiagnostics_cons, Nat.add_assoc,
      sorts c]
    cases belongs c <;> rfl

end SortsBy

end Mark

/-! ## Marks of words and of numbers that name their base -/

theorem wordMark_sortsBy : Mark.SortsBy wordMark isIdentPart fun _ => .unexpectedToken :=
  fun _ => rfl

theorem wordMark_justified (c : Char) : (wordMark c).Justified := wordMark_sortsBy.justified c

theorem wordMark_char (c : Char) : (wordMark c).char = c := wordMark_sortsBy.char c

theorem wordMark_fault_eq_none_iff {c : Char} :
    (wordMark c).fault = none ↔ isIdentPart c = true := wordMark_sortsBy.fault_eq_none_iff

namespace Radix

variable (radix : Radix)

theorem mark_sortsBy : Mark.SortsBy radix.mark radix.isDigit fun c =>
    if c = '.' then .unexpectedNumber else .invalidOrUnexpectedToken := by
  intro c
  dsimp only [mark]
  split
  · rfl
  · split <;> rfl

theorem mark_justified (c : Char) : (radix.mark c).Justified := radix.mark_sortsBy.justified c

theorem mark_char (c : Char) : (radix.mark c).char = c := radix.mark_sortsBy.char c

theorem mark_fault_eq_none_iff {radix : Radix} {c : Char} :
    (radix.mark c).fault = none ↔ radix.isDigit c = true := radix.mark_sortsBy.fault_eq_none_iff

end Radix

end ScriptLexer
