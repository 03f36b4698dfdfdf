import ScriptLexer.Proofs.Scan.Bounds
import ScriptLexer.Proofs.Scan.Breaks
import ScriptLexer.Proofs.Scan.Coverage
import ScriptLexer.Proofs.Text.Positions

/-
  What an editor is told. No diagnostic of a scan begins or ends inside a line break
  (`Scan.ofText_unbroken`), so the two places of a note are in order, on lines of the document, and
  have the span of the diagnostic between them (`Editor.marks_ofDiagnostic`). Of a workspace is asked
  that it keeps the latest text of each document (`Editor.Workspace.KeepsLatest`). Then after each
  event the notes on its own document are published, and what the other documents hold does not
  matter (`Editor.Workspace.run_publishes`).
-/

namespace ScriptLexer

/-! ## Ends of diagnostics -/

theorem SamePlace.mem_unbrokenOffsets {text : List Char} {i j : Nat} (h : SamePlace text i j) :
    i ∈ unbrokenOffsets text := by
  obtain ⟨front, behind, rfl, whole, rfl, -⟩ := h
  refine ⟨by simp, ?_⟩
  rwa [List.take_left, List.drop_left]

theorem Diagnostic.Unified.ends {source : List Char} {d d' : Diagnostic} (h : d.Unified source d') :
    ∃ i j : Nat, d.span.start = i ∧ d.span.stop = j ∧ i ∈ unbrokenOffsets source ∧
      j ∈ unbrokenOffsets source := by
  obtain ⟨i, _, start, -, first⟩ := h.start
  obtain ⟨j, _, stop, -, last⟩ := h.stop
  exact ⟨i, j, start, stop, first.mem_unbrokenOffsets, last.mem_unbrokenOffsets⟩

/-- A diagnostic covers at least one character of the source, and cuts no break at its ends. -/
theorem Scan.ofText_unbroken (source : String) :
    ∀ d ∈ (ofText source).diagnostics, ∃ i j : Nat, d.span.start = i ∧ d.span.stop = j ∧ i < j ∧
      i ∈ unbrokenOffsets source.toList ∧ j ∈ unbrokenOffsets source.toList := by
  have unified := (startingAt_unified 0 source.toList [] rfl).diagnostics
  rw [List.nil_append] at unified
  have both := unified.imp fun d d' same => And.intro same.ends same
  have ends := ((List.forall₂_and_left _ _).mp both).1
  intro d mem
  obtain ⟨i, j, start, stop, first, last⟩ := ends d mem
  have inside := (startingAt_within 0 source.toList).diagnostic d mem
  have less := inside.2.1
  exact ⟨i, j, start, stop, by omega, first, last⟩

namespace Editor

/-! ## Places -/

namespace Place

/-- The place is on a line of the document, on one of its characters or at its end. -/
def InLines (p : Place) (text : List Char) : Prop :=
  ∃ line, (splitLines text)[p.line]? = some line ∧ p.character ≤ line.length

/-- The place comes before another one. -/
def Before (p q : Place) : Prop := p.line < q.line ∨ p.line = q.line ∧ p.character < q.character

/-- The number of characters in front of a place: those of the lines before, with their breaks, and
those on its own line. -/
def offset (p : Place) (text : List Char) : Nat :=
  ((brokenLines text).take p.line).flatten.length + p.character

end Place

theorem placeAt_inLines (text : List Char) (offset : Int) : (placeAt text offset).InLines text := by
  have h := positionAt_inLines text offset
  have line_pos := h.line_pos
  have line_le := h.line_le
  have exists_line : (positionAt text offset).line - 1 < (splitLines text).length := by omega
  have column := h.column_le
  rw [List.getD_eq_getElem?_getD, List.getElem?_eq_getElem exists_line, Option.getD_some] at column
  exact ⟨_, List.getElem?_eq_getElem exists_line, Nat.sub_le_of_le_add column⟩

theorem offset_placeAt {text : List Char} {k : Nat} (mem : k ∈ unbrokenOffsets text) :
    (placeAt text k).offset text = k := by
  have before := congrArg List.length (positionAt_textBefore text mem)
  have column := (positionAt_inLines text k).column_le
  rw [Position.textBefore, List.length_append, List.length_take_of_le mem.1,
    List.length_take_of_le (Nat.sub_le_of_le_add column)] at before
  exact before

theorem placeAt_before {text : List Char} {i j : Nat} (less : i < j)
    (first : i ∈ unbrokenOffsets text) (last : j ∈ unbrokenOffsets text) :
    (placeAt text i).Before (placeAt text j) := by
  have apart := (positionAt_place_injOn text).ne first last (Nat.ne_of_lt less)
  have le := positionAt_place_le text (Int.ofNat_le.mpr (Nat.le_of_lt less))
  have here := positionAt_inLines text i
  have there := positionAt_inLines text j
  have line := here.line_pos
  have column := here.column_pos
  have place := lt_of_le_of_ne le apart
  simp only [Position.place, Prod.Lex.toLex_lt_toLex] at place
  simp only [Place.Before, placeAt]
  omega

/-! ## Notes -/

/-- A note on a diagnostic of a document. -/
structure Note.Marks (text : List Char) (n : Note) (d : Diagnostic) : Prop where
  start : n.start.line + 1 = (positionAt text d.span.start).line ∧
    n.start.character + 1 = (positionAt text d.span.start).column
  stop : n.stop.line + 1 = (positionAt text d.span.stop).line ∧
    n.stop.character + 1 = (positionAt text d.span.stop).column
  before : n.start.Before n.stop
  startInLines : n.start.InLines text
  stopInLines : n.stop.InLines text
  between : (text.take (n.stop.offset text)).drop (n.start.offset text) =
    Scan.slice text d.span.start.toNat d.span.stop.toNat
  message : n.message = d.message
  severity : n.severity = .warning ↔
    d.kind = .legacyDecimalEscape ∨ d.kind = .legacyOctalLiteral
  source : n.source = toolName

theorem marks_ofDiagnostic {source : String} {d : Diagnostic}
    (mem : d ∈ (Scan.ofText source).diagnostics) :
    (Note.ofDiagnostic source.toList d).Marks source.toList d := by
  obtain ⟨i, j, start, stop, less, first, last⟩ := Scan.ofText_unbroken source d mem
  have here := positionAt_inLines source.toList d.span.start
  have there := positionAt_inLines source.toList d.span.stop
  constructor
  case start => exact ⟨Nat.sub_add_cancel here.line_pos, Nat.sub_add_cancel here.column_pos⟩
  case stop => exact ⟨Nat.sub_add_cancel there.line_pos, Nat.sub_add_cancel there.column_pos⟩
  case before =>
    simp only [Note.ofDiagnostic, start, stop]
    exact placeAt_before less first last
  case startInLines => exact placeAt_inLines _ _
  case stopInLines => exact placeAt_inLines _ _
  case between =>
    simp only [Note.ofDiagnostic, start, stop, offset_placeAt first, offset_placeAt last]
    rw [Scan.slice, List.drop_take]
    rfl
  case message => rfl
  case severity =>
    show (if d.kind.isLegacy then Severity.warning else .error) = .warning ↔ _
    generalize d.kind = kind
    cases kind <;> decide
  case source => rfl

/-- The notes on a text are on its diagnostics, one on each, in their order. -/
theorem notes_marks (text : String) :
    List.Forall₂ (Note.Marks text.toList) (notes text) (Scan.ofText text).diagnostics := by
  rw [notes, List.forall₂_map_left_iff, List.forall₂_same]
  exact fun d mem => marks_ofDiagnostic mem

/-! ## Events -/

/-- The text of a document behind an event on it. -/
def Event.textAfter (before : String) : Event → String
  | .opened _ text => text
  | .changed _ texts => texts.getLastD before

/-- The events on one document. -/
def eventsOn (uri : String) (events : List Event) : List Event := events.filter (·.uri == uri)

/-- The text of a document behind a row of events, if it was `before` in front of them: what the
events on that document have made of it. -/
def latestText (uri before : String) (events : List Event) : String :=
  (eventsOn uri events).foldl Event.textAfter before

namespace Workspace

/-- The workspace keeps the latest text of each document: an event gives its own document the text
that it says, and leaves the others as they are. -/
structure KeepsLatest {σ : Type} (w : Workspace σ) : Prop where
  own : ∀ s e, w.text (w.update s e) e.uri = e.textAfter (w.text s e.uri)
  other : ∀ s e uri, e.uri ≠ uri → w.text (w.update s e) uri = w.text s uri

section Run

variable {σ : Type} {w : Workspace σ} {s s' : σ} {uri : String} {events : List Event} {e : Event}
  {i : Nat}

theorem length_run (w : Workspace σ) (s : σ) (events : List Event) :
    (w.run s events).length = events.length := by
  induction events generalizing s with
  | nil => rfl
  | cons e events ih => rw [run, List.length_cons, List.length_cons, ih]

theorem getElem?_run (at_ : events[i]? = some e) :
    (w.run s events)[i]? = some (w.publish ((events.take i).foldl w.update s) e) := by
  induction events generalizing s i with
  | nil => contradiction
  | cons first events ih =>
    cases i with
    | zero =>
      obtain rfl : first = e := Option.some.inj at_
      rfl
    | succ i =>
      rw [run, List.getElem?_cons_succ, ih at_]
      rfl

variable (keeps : w.KeepsLatest)

include keeps

/-- Behind a row of events, each document has its latest text. -/
theorem text_foldl_update (s : σ) (events : List Event) (uri : String) :
    w.text (events.foldl w.update s) uri = latestText uri (w.text s uri) events := by
  induction events generalizing s with
  | nil => rfl
  | cons e events ih =>
    rw [List.foldl_cons, ih, latestText, latestText, eventsOn, eventsOn, List.filter_cons]
    by_cases same : e.uri = uri
    · subst same
      rw [if_pos (beq_self_eq_true _), List.foldl_cons, keeps.own]
    · rw [if_neg (fun h => same (beq_iff_eq.mp h)), keeps.other s e uri same]

/-- What is published behind an event: the notes on the latest text of its own document. -/
theorem publish_eq (at_ : events[i]? = some e) :
    w.publish ((events.take i).foldl w.update s) e =
      [⟨e.uri, notes (latestText e.uri (w.text s e.uri) (events.take (i + 1)))⟩] := by
  rw [publish, ← text_foldl_update keeps, List.take_add_one, at_, Option.toList_some,
    List.foldl_append]
  rfl

/-- Two states that have the same text of a document lead to the same publications on it, whatever
events on other documents come between. -/
theorem run_eventsOn (same : w.text s' uri = w.text s uri) (events : List Event) :
    (w.run s' (eventsOn uri events)).flatten =
      (w.run s events).flatten.filter (·.uri == uri) := by
  induction events generalizing s s' with
  | nil => rfl
  | cons e events ih =>
    rw [run, List.flatten_cons, List.filter_append, publish, eventsOn, List.filter_cons]
    by_cases own : e.uri = uri
    · subst own
      have texts : w.text (w.update s' e) e.uri = w.text (w.update s e) e.uri := by
        rw [keeps.own, keeps.own, same]
      have here : (e.uri == e.uri) = true := beq_self_eq_true _
      rw [if_pos here, List.filter_singleton, here, run, publish, texts, ← ih texts]
      rfl
    · have kept : w.text s' uri = w.text (w.update s e) uri := by
        rw [keeps.other s e uri own, same]
      have other : (e.uri == uri) = false := beq_false_of_ne own
      rw [other, List.filter_singleton, other, ← ih kept]
      rfl

/-- Each event publishes once, for its own document: a note on each diagnostic of its latest text,
in their order. A note begins before it ends, both on lines of the document, and has the span of its
diagnostic in between; it is a warning for the old notations alone. What is published on a document
does not depend on the events on others. -/
theorem run_publishes (s : σ) (events : List Event) :
    (w.run s events).length = events.length ∧
    (∀ i e, events[i]? = some e → ∃ notes, (w.run s events)[i]? = some [⟨e.uri, notes⟩] ∧
      let text := latestText e.uri (w.text s e.uri) (events.take (i + 1))
      List.Forall₂ (Note.Marks text.toList) notes (Scan.ofText text).diagnostics) ∧
    ∀ uri, (w.run s (eventsOn uri events)).flatten =
      (w.run s events).flatten.filter (·.uri == uri) := by
  refine ⟨w.length_run s events, fun i e at_ => ?_, fun uri => run_eventsOn keeps rfl events⟩
  exact ⟨_, (getElem?_run at_).trans (congrArg some (publish_eq keeps at_)), notes_marks _⟩

end Run

/-- The workspace that notes down every text keeps the latest ones. -/
theorem keepsLatest_noting : noting.KeepsLatest where
  own texts e := by
    cases e <;> exact congrArg (Option.getD · "") List.lookup_cons_self
  other texts e uri other := by
    have away : (uri == e.uri) = false := beq_false_of_ne (Ne.symm other)
    cases e <;>
    · simp only [noting, Event.uri] at away ⊢
      rw [List.lookup_cons, away]

theorem run_publishes_noting :
    noting.KeepsLatest ∧
      ∃ notes, (noting.run [] [.opened "a" "1", .opened "b" "x", .changed "a" ["08", "1\n08"]])[2]? =
        some [⟨"a", notes⟩] ∧ notes.map Note.severity = [.warning] := by
  refine ⟨keepsLatest_noting, ?_⟩
  obtain ⟨-, publishes, -⟩ := run_publishes keepsLatest_noting []
    [.opened "a" "1", .opened "b" "x", .changed "a" ["08", "1\n08"]]
  obtain ⟨notes, published, marks⟩ := publishes 2 _ rfl
  have text : latestText "a" (noting.text [] "a")
      [.opened "a" "1", .opened "b" "x", .changed "a" ["08", "1\n08"]] = "1\n08" := rfl
  have kinds : ((Scan.ofText "1\n08").diagnostics.map Diagnostic.kind) = [.legacyDecimalEscape] := by
    decide +kernel
  refine ⟨notes, published, ?_⟩
  dsimp only [List.take, Event.uri] at marks
  rw [text] at marks
  obtain ⟨d, diagnostics, kind⟩ := List.map_eq_singleton_iff.mp kinds
  rw [diagnostics] at marks
  obtain ⟨note, behind, mark, empty, rfl⟩ := List.forall₂_cons_right_iff.mp marks
  rw [List.forall₂_nil_right_iff.mp empty, List.map_singleton, mark.severity.mpr (.inl kind)]

end Workspace

end Editor

end ScriptLexer
