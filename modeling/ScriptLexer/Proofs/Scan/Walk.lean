import ScriptLexer.Proofs.Scan.Fit

/-
  The scan as a walk over the text. Each step passes over a blank, stops, or reads the construct
  that begins here and goes on behind what it takes; `Scan.walk` is the induction along these
  steps. A walk does not depend on where the text stands (`startingAt_shift`).
-/

namespace ScriptLexer.Scan

open Construct (Reads)

/-! ## The steps -/

theorem startingAt_nil (offset : Nat) : startingAt offset [] = {} := by
  rw [startingAt.eq_def]

theorem startingAt_blank {c : Char} (blank : isBlank c = true) (offset : Nat)
    (rest : List Char) : startingAt offset (c :: rest) = startingAt (offset + 1) rest := by
  rw [startingAt.eq_def]
  dsimp only
  rw [if_pos blank]

theorem startingAt_stop {c : Char} {rest : List Char} (dark : isBlank c = false)
    (nothing : Construct.atFront? c rest = none) (offset : Nat) :
    startingAt offset (c :: rest) = stopped offset c := by
  rw [startingAt.eq_def]
  dsimp only
  rw [if_neg (Bool.not_eq_true _ ▸ dark), nothing]

theorem drop_taken (k : Construct) (c : Char) (rest : List Char) :
    (c :: rest).drop k.taken = rest.drop (k.taken - 1) := by
  obtain ⟨n, e⟩ := Nat.exists_eq_succ_of_ne_zero (Nat.ne_of_gt k.taken_pos)
  rw [e, Nat.succ_sub_one]
  exact List.drop_succ_cons

theorem startingAt_construct {c : Char} {rest : List Char} {k : Construct}
    (reads : Reads c rest k) (offset : Nat) :
    startingAt offset (c :: rest) =
      cons k offset (startingAt (offset + k.taken) ((c :: rest).drop k.taken)) := by
  rw [startingAt.eq_def]
  dsimp only
  rw [if_neg (Bool.not_eq_true _ ▸ reads.not_isBlank),
    Construct.atFront?_eq_some_iff.mpr reads, drop_taken]

/-- Induction along the steps of a scan. -/
theorem walk {P : Nat → List Char → Scan → Prop}
    (nil : ∀ offset, P offset [] {})
    (blank : ∀ offset c rest s, isBlank c = true → P (offset + 1) rest s →
      P offset (c :: rest) s)
    (stop : ∀ offset c rest, isBlank c = false → Construct.atFront? c rest = none →
      P offset (c :: rest) (stopped offset c))
    (construct : ∀ offset c rest k s, Reads c rest k →
      P (offset + k.taken) ((c :: rest).drop k.taken) s → P offset (c :: rest) (cons k offset s))
    (offset : Nat) (text : List Char) : P offset text (startingAt offset text) := by
  induction offset, text using startingAt.induct with
  | case1 offset =>
    rw [startingAt_nil]
    exact nil offset
  | case2 offset c rest isBlank ih =>
    rw [startingAt_blank isBlank]
    exact blank offset c rest _ isBlank ih
  | case3 offset c rest dark nothing =>
    rw [Bool.not_eq_true] at dark
    rw [startingAt_stop dark nothing]
    exact stop offset c rest dark nothing
  | case4 offset c rest dark k found ih =>
    have reads := Construct.atFront?_eq_some_iff.mp found
    rw [startingAt_construct reads]
    rw [← drop_taken k c rest] at ih
    exact construct offset c rest k _ reads ih

/-! ## Scans elsewhere -/

/-- The same scan, `distance` characters further on. -/
def shift (s : Scan) (distance : Nat) : Scan :=
  ⟨s.tokens.map (·.shift distance), s.diagnostics.map (·.shift distance),
    s.stop.map fun stop => (stop.1 + distance, stop.2)⟩

theorem token_shift (k : Construct) (offset distance : Nat) :
    (k.token offset).shift distance = k.token (offset + distance) := by
  rw [Construct.token, Token.shift, Span.shift_cover, Nat.add_comm]
  rfl

theorem diagnostic_shift (f : Fault) (offset distance : Nat) :
    (f.diagnostic offset).shift distance = f.diagnostic (offset + distance) := by
  rw [Fault.diagnostic, Fault.diagnostic, Diagnostic.shift, Span.shift_cover,
    Nat.add_comm distance, Nat.add_right_comm]

theorem shift_cons (k : Construct) (offset : Nat) (s : Scan) (distance : Nat) :
    (cons k offset s).shift distance = cons k (offset + distance) (s.shift distance) := by
  simp only [cons, shift, Construct.diagnostics, List.map_cons, List.map_append, List.map_map,
    token_shift]
  congr 2
  exact List.map_congr_left fun f _ => diagnostic_shift f offset distance

theorem shift_stopped (offset : Nat) (c : Char) (distance : Nat) :
    (stopped offset c).shift distance = stopped (offset + distance) c := by
  simp only [stopped, shift, List.map_nil, List.map_cons, diagnostic_shift, Option.map_some]

/-- Where a text stands shows in the offsets only. -/
theorem startingAt_shift (offset distance : Nat) (text : List Char) :
    (startingAt offset text).shift distance = startingAt (offset + distance) text := by
  refine walk (P := fun offset text s => s.shift distance = startingAt (offset + distance) text)
    ?nil ?blank ?stop ?construct offset text
  case nil =>
    intro offset
    rw [startingAt_nil]
    rfl
  case blank =>
    intro offset c rest s blank ih
    rw [startingAt_blank blank, ih, Nat.add_right_comm]
  case stop =>
    intro offset c rest dark nothing
    rw [startingAt_stop dark nothing, shift_stopped]
  case construct =>
    intro offset c rest k s reads ih
    rw [startingAt_construct reads, shift_cons, ih, Nat.add_right_comm]

end ScriptLexer.Scan
