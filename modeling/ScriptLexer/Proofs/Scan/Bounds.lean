import ScriptLexer.Proofs.Scan.Walk

/-
  Where tokens and diagnostics of a scan lie. Each covers at least one character of the text, the
  tokens follow one another without overlap, and so there are no more of them than characters
  (`Scan.Within`, `Scan.startingAt_within`).
-/

namespace ScriptLexer

/-- The span covers at least one character, and none outside the two offsets. -/
def Span.Inside (s : Span) (first last : Nat) : Prop :=
  (first : Int) ≤ s.start ∧ s.start < s.stop ∧ s.stop ≤ (last : Int)

theorem Span.cover_inside {offset first last length : Nat} (start : Nat) (pos : 0 < length)
    (low : first ≤ offset + start) (high : offset + start + length ≤ last) :
    (Span.cover (offset + start) length).Inside first last := by
  refine ⟨?_, ?_, ?_⟩ <;> simp only [Span.cover] <;> omega

theorem Span.Inside.mono {s : Span} {first last first' last' : Nat} (h : s.Inside first last)
    (low : first' ≤ first) (high : last ≤ last') : s.Inside first' last' := by
  obtain ⟨h₁, h₂, h₃⟩ := h
  exact ⟨by omega, h₂, by omega⟩

namespace Scan

/-- A scan of the characters from offset `first` to offset `last`. -/
structure Within (s : Scan) (first last : Nat) : Prop where
  kind_ne : ∀ t ∈ s.tokens, t.kind ≠ .endOfInput
  token : ∀ t ∈ s.tokens, t.span.Inside first last
  ordered : s.tokens.Pairwise fun t u => t.span.stop ≤ u.span.start
  count_le : s.tokens.length ≤ last - first
  diagnostic : ∀ d ∈ s.diagnostics, d.span.Inside first last

theorem within_empty (first last : Nat) : Within {} first last where
  kind_ne := by simp
  token := by simp
  ordered := List.Pairwise.nil
  count_le := Nat.zero_le _
  diagnostic := by simp

theorem Within.mono {s : Scan} {first last first' : Nat} (h : s.Within first last)
    (low : first' ≤ first) : s.Within first' last where
  kind_ne := h.kind_ne
  token t mem := (h.token t mem).mono low (Nat.le_refl _)
  ordered := h.ordered
  count_le := Nat.le_trans h.count_le (Nat.sub_le_sub_left low last)
  diagnostic d mem := (h.diagnostic d mem).mono low (Nat.le_refl _)

/-- Passing over a blank in front. -/
theorem Within.blank {s : Scan} {offset : Nat} {c : Char} {rest : List Char}
    (h : s.Within (offset + 1) (offset + 1 + rest.length)) :
    s.Within offset (offset + (c :: rest).length) := by
  rw [Nat.add_right_comm, Nat.add_assoc] at h
  exact h.mono (Nat.le_succ offset)

theorem within_stopped {offset last : Nat} (c : Char) (room : offset < last) :
    (stopped offset c).Within offset last where
  kind_ne := by simp [stopped]
  token := by simp [stopped]
  ordered := List.Pairwise.nil
  count_le := Nat.zero_le _
  diagnostic := by
    rw [stopped, List.forall_mem_singleton]
    exact Span.cover_inside 0 Nat.one_pos (Nat.le_refl _) room

/-- Reading a construct in front of a scan of what lies behind it. -/
theorem Within.cons {s : Scan} {k : Construct} {text : List Char} {offset : Nat}
    (fits : k.FitsIn text)
    (h : s.Within (offset + k.taken) (offset + k.taken + (text.drop k.taken).length)) :
    (cons k offset s).Within offset (offset + text.length) := by
  have room := fits.taken_le
  have size_pos := k.size_pos
  have size_le := k.size_le_taken
  have last : offset + k.taken + (text.drop k.taken).length = offset + text.length := by
    rw [List.length_drop]
    omega
  rw [last] at h
  constructor
  case kind_ne =>
    rw [Scan.cons, List.forall_mem_cons]
    exact ⟨fits.kind_ne, h.kind_ne⟩
  case token =>
    rw [Scan.cons, List.forall_mem_cons]
    refine ⟨Span.cover_inside 0 size_pos (Nat.le_refl _) (by omega), ?_⟩
    exact fun t mem => (h.token t mem).mono (by omega) (Nat.le_refl _)
  case ordered =>
    rw [Scan.cons, List.pairwise_cons]
    refine ⟨?_, h.ordered⟩
    intro t mem
    have := (h.token t mem).1
    simp only [Construct.token, Span.cover]
    omega
  case count_le =>
    have := h.count_le
    rw [Scan.cons, List.length_cons]
    omega
  case diagnostic =>
    intro d mem
    rw [Scan.cons, List.mem_append] at mem
    rcases mem with mem | mem
    · obtain ⟨f, fault, rfl⟩ := List.mem_map.mp mem
      have := fits.fault_le f fault
      exact Span.cover_inside f.start (fits.fault_pos f fault) (Nat.le_add_right _ _) (by omega)
    · exact (h.diagnostic d mem).mono (by omega) (Nat.le_refl _)

/-- No character belongs to two tokens. -/
theorem Within.apart {s : Scan} {first last : Nat} (h : s.Within first last) {t : Token}
    (mem : t ∈ s.tokens) (u : Token) (other : u ∈ s.tokens) :
    u = t ∨ u.span.stop ≤ t.span.start ∨ t.span.stop ≤ u.span.start := by
  have ordered := h.ordered
  obtain ⟨before, after, e⟩ := List.append_of_mem mem
  rw [e, List.pairwise_append, List.pairwise_cons] at ordered
  rw [e, List.mem_append, List.mem_cons] at other
  rcases other with before | rfl | behind
  · exact Or.inr (Or.inl (ordered.2.2 u before t List.mem_cons_self))
  · exact Or.inl rfl
  · exact Or.inr (Or.inr (ordered.2.1.1 u behind))

theorem startingAt_within (offset : Nat) (text : List Char) :
    (startingAt offset text).Within offset (offset + text.length) := by
  refine walk (P := fun offset text s => s.Within offset (offset + text.length))
    ?nil ?blank ?stop ?construct offset text
  case nil =>
    intro offset
    exact within_empty _ _
  case blank =>
    intro offset c rest s _ ih
    exact ih.blank
  case stop =>
    intro offset c rest _ _
    exact within_stopped c (Nat.lt_add_of_pos_right (Nat.succ_pos _))
  case construct =>
    intro offset c rest k s reads ih
    exact Within.cons reads.fitsIn ih

end Scan

end ScriptLexer
