import ScriptLexer.Proofs.Scan.Bounds

/-
  What becomes of each character of a source text. Up to where the scan ends, a character lies in
  exactly one token, or is a blank between tokens, or has a diagnostic of its own
  (`Scan.startingAt_accounts`). Without diagnostics only blanks stand between the tokens, and gaps
  and tokens in turn make up the text (`Scan.startingAt_gapsBlank`, `Scan.weave_gaps`).
-/

namespace ScriptLexer

/-- The character at an offset belongs to the range. -/
def Span.Holds (s : Span) (i : Nat) : Prop := s.start ≤ i ∧ i < s.stop

instance (s : Span) (i : Nat) : Decidable (s.Holds i) :=
  inferInstanceAs (Decidable (_ ∧ _))

theorem Span.cover_holds_iff {start length i : Nat} :
    (Span.cover start length).Holds i ↔ start ≤ i ∧ i < start + length := by
  simp only [Span.Holds, Span.cover]
  omega

theorem Span.Inside.not_holds {s : Span} {first last i : Nat} (h : s.Inside first last)
    (outside : i < first ∨ last ≤ i) : ¬s.Holds i := by
  obtain ⟨h₁, h₂, h₃⟩ := h
  rintro ⟨low, high⟩
  omega

namespace Scan

/-- The number of tokens that the character at an offset lies in. -/
def coverCount (s : Scan) (i : Nat) : Nat := s.tokens.countP fun t => t.span.Holds i

/-- The offset that the scan of a text of the given length gets to. -/
def reach (s : Scan) (length : Nat) : Nat :=
  match s.stop with
  | some (offset, _) => offset
  | none => length

/-- What a character can be to a scan. -/
inductive Role
  | covered | gap | stray
deriving DecidableEq, Repr

/-- The character `c` at offset `i` has this role in the scan. -/
def Role.Holds (s : Scan) (i : Nat) (c : Char) : Role → Prop
  | covered => s.coverCount i = 1
  | gap => s.coverCount i = 0 ∧ isBlank c = true
  | stray => s.coverCount i = 0 ∧ isBlank c = false ∧
      ∃ kind, ⟨kind, c.toString, Span.cover i 1⟩ ∈ s.diagnostics

theorem Role.unique {s : Scan} {i : Nat} {c : Char} {r r' : Role} (h : r.Holds s i c)
    (h' : r'.Holds s i c) : r = r' := by
  cases r <;> cases r' <;> simp_all [Role.Holds]

theorem coverCount_cons (k : Construct) (offset : Nat) (s : Scan) (i : Nat) :
    (cons k offset s).coverCount i =
      s.coverCount i + if offset ≤ i ∧ i < offset + k.size then 1 else 0 := by
  unfold coverCount
  rw [cons, List.countP_cons]
  congr 1
  simp only [Construct.token, decide_eq_true_eq, Span.cover_holds_iff]

theorem Within.coverCount_eq_zero {s : Scan} {first last i : Nat} (h : s.Within first last)
    (outside : i < first ∨ last ≤ i) : s.coverCount i = 0 := by
  rw [coverCount, List.countP_eq_zero]
  intro t mem
  rw [decide_eq_true_eq]
  exact (h.token t mem).not_holds outside

/-- Every character that the scan gets to has a role. -/
def Accounts (s : Scan) (offset : Nat) (text : List Char) : Prop :=
  ∀ i c, text[i]? = some c → offset + i < s.reach (offset + text.length) →
    ∃ r : Role, r.Holds s (offset + i) c

theorem accounts_blank {s : Scan} {offset : Nat} {c : Char} {rest : List Char}
    (blank : isBlank c = true)
    (within : s.Within (offset + 1) (offset + 1 + rest.length))
    (h : s.Accounts (offset + 1) rest) : s.Accounts offset (c :: rest) := by
  intro i d at_i below
  cases i with
  | zero =>
    rw [List.getElem?_cons_zero, Option.some.injEq] at at_i
    exact ⟨.gap, within.coverCount_eq_zero (Or.inl (Nat.lt_succ_self _)), at_i ▸ blank⟩
  | succ i =>
    rw [List.getElem?_cons_succ] at at_i
    have here : offset + (i + 1) = offset + 1 + i := by omega
    have last : offset + (c :: rest).length = offset + 1 + rest.length := by
      rw [List.length_cons]
      omega
    rw [here] at below ⊢
    exact h i d at_i (last ▸ below)

/-- A role in the scan of what lies behind a construct is kept by the whole. -/
theorem Role.Holds.behind {s : Scan} {k : Construct} {offset i : Nat} {c : Char} {r : Role}
    (h : r.Holds s i c) (past : offset + k.size ≤ i) : r.Holds (cons k offset s) i c := by
  have same : (cons k offset s).coverCount i = s.coverCount i := by
    rw [coverCount_cons, if_neg (by omega), Nat.add_zero]
  cases r with
  | covered => exact same.trans h
  | gap => exact ⟨same.trans h.1, h.2⟩
  | stray =>
    obtain ⟨none, dark, kind, mem⟩ := h
    exact ⟨same.trans none, dark, kind, List.mem_append_right _ mem⟩

theorem accounts_cons {s : Scan} {k : Construct} {offset : Nat} {text : List Char}
    (fits : k.FitsIn text)
    (within : s.Within (offset + k.taken) (offset + k.taken + (text.drop k.taken).length))
    (h : s.Accounts (offset + k.taken) (text.drop k.taken)) :
    (cons k offset s).Accounts offset text := by
  intro i c at_i below
  have size_le := k.size_le_taken
  have taken_le := fits.taken_le
  rcases Nat.lt_or_ge i k.taken with inside | past
  · have behind : s.coverCount (offset + i) = 0 :=
      within.coverCount_eq_zero (Or.inl (by omega))
    rcases Nat.lt_or_ge i k.size with covered | outside
    · refine ⟨.covered, ?_⟩
      show coverCount _ _ = 1
      rw [coverCount_cons, behind, if_pos (by omega)]
    · -- taken, but not covered: a stray of this construct
      obtain ⟨dark, kind, fault⟩ := fits.outside i c outside inside at_i
      refine ⟨.stray, ?_, dark, kind, ?_⟩
      · rw [coverCount_cons, behind, if_neg (by omega)]
      · exact List.mem_append_left _ (List.mem_map.mpr ⟨_, fault, rfl⟩)
  · obtain ⟨j, rfl⟩ := Nat.exists_eq_add_of_le past
    rw [← Nat.add_assoc] at below ⊢
    have last : offset + k.taken + (text.drop k.taken).length = offset + text.length := by
      rw [List.length_drop]
      omega
    obtain ⟨r, holds⟩ := h j c (by rw [List.getElem?_drop]; exact at_i) (last ▸ below)
    exact ⟨r, holds.behind (by omega)⟩

theorem startingAt_accounts (offset : Nat) (text : List Char) :
    (startingAt offset text).Accounts offset text := by
  have both := walk (P := fun offset text s =>
    s.Within offset (offset + text.length) ∧ s.Accounts offset text)
    ?nil ?blank ?stop ?construct offset text
  · exact both.2
  case nil =>
    intro offset
    refine ⟨within_empty _ _, ?_⟩
    intro i c at_i _
    simp at at_i
  case blank =>
    intro offset c rest s blank ih
    exact ⟨Within.blank ih.1, accounts_blank blank ih.1 ih.2⟩
  case stop =>
    intro offset c rest _ _
    refine ⟨within_stopped c (Nat.lt_add_of_pos_right (Nat.succ_pos _)), ?_⟩
    intro i d _ below
    exact absurd below (Nat.not_lt.mpr (Nat.le_add_right offset i))
  case construct =>
    intro offset c rest k s reads ih
    exact ⟨Within.cons reads.fitsIn ih.1, accounts_cons reads.fitsIn ih.1 ih.2⟩

/-! ## Where the scan ends -/

/-- The scan of `text` stops, if it does, at a character of it that begins no construct. -/
def StopsIn (s : Scan) (offset : Nat) (text : List Char) : Prop :=
  ∀ p c, s.stop = some (p, c) → ∃ i rest, p = offset + i ∧ text.drop i = c :: rest ∧
    isBlank c = false ∧ Construct.atFront? c rest = none

theorem startingAt_stopsIn (offset : Nat) (text : List Char) :
    (startingAt offset text).StopsIn offset text := by
  refine walk (P := fun offset text s => s.StopsIn offset text)
    ?nil ?blank ?stop ?construct offset text
  case nil =>
    intro offset p c h
    contradiction
  case blank =>
    intro offset c rest s _ ih p d h
    obtain ⟨i, more, rfl, ahead, dark⟩ := ih p d h
    exact ⟨i + 1, more, by omega, by rw [List.drop_succ_cons, ahead], dark⟩
  case stop =>
    intro offset c rest dark nothing p d h
    rw [stopped, Option.some.injEq, Prod.mk.injEq] at h
    obtain ⟨rfl, rfl⟩ := h
    exact ⟨0, rest, rfl, rfl, dark, nothing⟩
  case construct =>
    intro offset c rest k s _ ih p d h
    obtain ⟨i, more, rfl, ahead, dark⟩ := ih p d h
    exact ⟨k.taken + i, more, by omega, by rw [← List.drop_drop, ahead], dark⟩

/-- A scan without diagnostics gets to the end. -/
theorem startingAt_stop_eq_none {offset : Nat} {text : List Char}
    (clean : (startingAt offset text).diagnostics = []) :
    (startingAt offset text).stop = none := by
  revert clean
  refine walk (P := fun _ _ s => s.diagnostics = [] → s.stop = none)
    ?nil ?blank ?stop ?construct offset text
  case nil => exact fun _ _ => rfl
  case blank => exact fun _ _ _ _ _ ih => ih
  case stop =>
    intro offset c rest _ _ clean
    exact absurd clean (List.cons_ne_nil _ _)
  case construct =>
    intro offset c rest k s _ ih clean
    exact ih (List.append_eq_nil_iff.mp clean).2

/-! ## Gaps -/

/-- The characters from offset `first` up to offset `last`. -/
def slice (text : List Char) (first last : Nat) : List Char := (text.drop first).take (last - first)

/-- The stretches that no token covers: before, between and after the tokens. -/
def gaps (text : List Char) : Nat → List Token → List (List Char)
  | first, [] => [text.drop first]
  | first, t :: ts => slice text first t.span.start.toNat :: gaps text t.span.stop.toNat ts

/-- The characters that a token covers. -/
def covered (text : List Char) (t : Token) : List Char :=
  slice text t.span.start.toNat t.span.stop.toNat

theorem covered_token (text : List Char) (k : Construct) (start : Nat) :
    covered text (k.token start) = (text.drop start).take k.size := by
  show (text.drop start).take (start + k.size - start) = _
  rw [Nat.add_sub_cancel_left]

/-- A token covers its own text. -/
theorem covered_eq {source text follow : List Char} {offset : Nat} {t : Token}
    (ahead : source.drop offset = text ++ follow) (span : t.span = Span.cover offset text.length) :
    covered source t = text := by
  have start : t.span.start.toNat = offset := by
    rw [span]
    rfl
  have stop : t.span.stop.toNat = offset + text.length := by
    rw [span]
    rfl
  rw [covered, slice, start, stop, ahead, Nat.add_sub_cancel_left, List.take_left]

/-- Gaps and token texts in turn, beginning and ending with a gap. -/
def weave : List (List Char) → List (List Char) → List Char
  | gap :: gaps, text :: texts => gap ++ (text ++ weave gaps texts)
  | gaps, _ => gaps.flatten

theorem slice_append_drop {text : List Char} {first last : Nat} (h : first ≤ last) :
    slice text first last ++ text.drop last = text.drop first := by
  obtain ⟨n, rfl⟩ := Nat.exists_eq_add_of_le h
  rw [slice, Nat.add_sub_cancel_left, ← List.drop_drop, List.take_append_drop]

/-- Tokens in order and the gaps around them make up the text. -/
theorem weave_gaps {text : List Char} {first last : Nat} {tokens : List Token}
    (inside : ∀ t ∈ tokens, t.span.Inside first last)
    (ordered : tokens.Pairwise fun t u => t.span.stop ≤ u.span.start) :
    weave (gaps text first tokens) (tokens.map (covered text)) = text.drop first := by
  induction tokens generalizing first with
  | nil => simp [gaps, weave]
  | cons t ts ih =>
    rw [List.pairwise_cons] at ordered
    rw [List.forall_mem_cons] at inside
    obtain ⟨low, proper, high⟩ := inside.1
    have later : ∀ u ∈ ts, u.span.Inside t.span.stop.toNat last := by
      intro u mem
      have after := ordered.1 u mem
      obtain ⟨_, proper', high'⟩ := inside.2 u mem
      exact ⟨by omega, proper', high'⟩
    rw [gaps, List.map_cons, weave, ih later ordered.2, covered, slice_append_drop (by omega),
      slice_append_drop (by omega)]

/-- Behind a text up to which all is blank, a scan without diagnostics leaves blank gaps only. -/
def GapsBlank (s : Scan) (offset : Nat) (text : List Char) : Prop :=
  ∀ source : List Char, source.drop offset = text → s.diagnostics = [] → ∀ first ≤ offset,
    (∀ c ∈ slice source first offset, isBlank c = true) →
      ∀ gap ∈ gaps source first s.tokens, ∀ c ∈ gap, isBlank c = true

theorem startingAt_gapsBlank (offset : Nat) (text : List Char) :
    (startingAt offset text).GapsBlank offset text := by
  refine walk (P := fun offset text s => s.GapsBlank offset text)
    ?nil ?blank ?stop ?construct offset text
  case nil =>
    intro offset source ahead _ first le blank gap mem
    rw [gaps, List.mem_singleton] at mem
    rw [mem, ← slice_append_drop le, ahead, List.append_nil]
    exact blank
  case blank =>
    intro offset c rest s isBlank ih source ahead clean first le blank
    refine ih source ?_ clean first (Nat.le_succ_of_le le) ?_
    · rw [← List.drop_drop, ahead, List.drop_one, List.tail_cons]
    · have longer : slice source first (offset + 1) = slice source first offset ++ [c] := by
        rw [slice, slice, Nat.succ_sub le, List.take_add_one, List.getElem?_drop,
          Nat.add_sub_cancel' le, ← List.head?_drop, ahead]
        rfl
      rw [longer, List.forall_mem_append]
      exact ⟨blank, by rw [List.forall_mem_singleton]; exact isBlank⟩
  case stop =>
    intro offset c rest _ _ source _ clean
    exact absurd clean (List.cons_ne_nil _ _)
  case construct =>
    intro offset c rest k s reads ih source ahead clean first le blank
    have parts := List.append_eq_nil_iff.mp clean
    have whole : k.size = k.taken := reads.fitsIn.size_eq_taken (List.map_eq_nil_iff.mp parts.1)
    have start : (k.token offset).span.start.toNat = offset := rfl
    have stop : (k.token offset).span.stop.toNat = offset + k.taken := by
      rw [← whole]
      rfl
    rw [cons, gaps, start, stop, List.forall_mem_cons]
    refine ⟨blank, ih source ?_ parts.2 (offset + k.taken) (Nat.le_refl _) ?_⟩
    · rw [← List.drop_drop, ahead]
    · simp [slice]

/-! ## The whole source -/

/-- Up to where the scan ends, each character lies in exactly one token, is a blank outside all
tokens, or has a diagnostic of its own and lies outside all tokens. The scan ends at the end of
the source, or at a character that begins no construct. Without diagnostics, gaps are blank, and
with the token texts they make up the source. -/
theorem ofText_no_character_lost (source : String) :
    (∀ i < (ofText source).reach source.length, ∃ c, source.toList[i]? = some c ∧
      ∃! r : Role, r.Holds (ofText source) i c) ∧
    (∀ p c, (ofText source).stop = some (p, c) → ∃ rest, source.toList.drop p = c :: rest ∧
      isBlank c = false ∧ Construct.atFront? c rest = none) ∧
    ((ofText source).diagnostics = [] →
      (ofText source).reach source.length = source.length ∧
      (∀ gap ∈ gaps source.toList 0 (ofText source).tokens, ∀ c ∈ gap, isBlank c = true) ∧
      weave (gaps source.toList 0 (ofText source).tokens)
        ((ofText source).tokens.map (covered source.toList)) = source.toList) := by
  generalize scanned : ofText source = s
  generalize chars : source.toList = text
  have walked : startingAt 0 text = s := by rw [← chars, ← scanned, ofText]
  have length : source.length = text.length := by rw [← chars, String.length_toList]
  have within := startingAt_within 0 text
  have stops : ∀ p c, s.stop = some (p, c) → ∃ rest, text.drop p = c :: rest ∧
      isBlank c = false ∧ Construct.atFront? c rest = none := by
    intro p c h
    rw [← walked] at h
    obtain ⟨i, rest, rfl, ahead, dark⟩ := startingAt_stopsIn 0 text p c h
    exact ⟨rest, by rw [Nat.zero_add, ahead], dark⟩
  have reach_le : s.reach text.length ≤ text.length := by
    unfold reach
    split
    · next p c h =>
      obtain ⟨rest, ahead, -⟩ := stops p c h
      refine Nat.le_of_not_lt fun past => ?_
      rw [List.drop_eq_nil_of_le (Nat.le_of_lt past)] at ahead
      contradiction
    · exact Nat.le_refl _
  rw [walked] at within
  rw [length]
  refine ⟨?_, stops, ?_⟩
  · intro i below
    have at_i : text[i]? = some _ := List.getElem?_eq_getElem (Nat.lt_of_lt_of_le below reach_le)
    obtain ⟨r, holds⟩ := startingAt_accounts 0 text i _ at_i
      (by rw [Nat.zero_add, Nat.zero_add, walked]; exact below)
    rw [Nat.zero_add, walked] at holds
    exact ⟨_, at_i, r, holds, fun r' holds' => Role.unique holds' holds⟩
  · intro clean
    rw [← walked] at clean
    refine ⟨?_, ?_, weave_gaps within.token within.ordered⟩
    · have stop : s.stop = none := walked ▸ startingAt_stop_eq_none clean
      rw [reach, stop]
    · rw [← walked]
      exact startingAt_gapsBlank 0 text text rfl clean 0 (Nat.le_refl 0) (by simp [slice])

/-- The stray after a zero, in front of a character that begins nothing; and a source without a
diagnostic. -/
theorem ofText_no_character_lost_strays :
    (∃ c, "1e! 0c #".toList[2]? = some c ∧ ∃! r : Role, r.Holds (ofText "1e! 0c #") 2 c) ∧
    (∀ gap ∈ gaps "a = 1".toList 0 (ofText "a = 1").tokens, ∀ c ∈ gap, isBlank c = true) :=
  ⟨(ofText_no_character_lost "1e! 0c #").1 2 (by decide +kernel),
    ((ofText_no_character_lost "a = 1").2.2 (by decide +kernel)).2.1⟩

end Scan

end ScriptLexer
