import ScriptLexer.Proofs.Scan.Reads

/-
  How a construct lies in the text it is read from. It takes no more than there is, its faults lie
  inside the text, and each character that it takes without covering it is no blank and has a
  fault of its own (`Construct.FitsIn`). Words and numbers get this from the row of marks that they
  keep part of (`Construct.IsRow`).
-/

namespace ScriptLexer

/-! ## Marks of decimals -/

theorem decimalMarks_map_char (part : DecimalPart) (text : List Char) :
    (decimalMarks part text).map (·.char) = text := by
  induction text generalizing part with
  | nil => rfl
  | cons c rest ih =>
    unfold decimalMarks
    split <;> simp [ih, Mark.stray]

theorem decimalMarks_justified (part : DecimalPart) (text : List Char) :
    ∀ m ∈ decimalMarks part text, m.Justified := by
  induction text generalizing part with
  | nil =>
    intro m h
    contradiction
  | cons c rest ih =>
    unfold decimalMarks
    split
    · rw [List.forall_mem_cons]
      exact ⟨Or.inl rfl, ih _⟩
    · rw [List.forall_mem_cons]
      exact ⟨Mark.justified_stray _ c, ih _⟩

theorem decimalRun_justified (head : Char) (rest : List Char) :
    ∀ m ∈ decimalRun head rest, m.Justified := by
  unfold decimalRun
  split
  · rw [List.forall_mem_cons]
    exact ⟨Mark.justified_keep head, decimalMarks_justified _ _⟩
  · rw [List.forall_mem_singleton]
    exact Mark.justified_keep head

theorem decimalRun_map_char_isPrefix (head : Char) (rest : List Char) :
    (decimalRun head rest).map (·.char) <+: head :: run rest := by
  unfold decimalRun
  split
  · rw [List.map_cons, decimalMarks_map_char]
    exact List.prefix_rfl
  · exact ⟨run rest, rfl⟩

/-! ## Constructs that keep part of a row of marks -/

/-- The text begins with characters in front that all belong to the construct, and then goes on
with a row of marks; besides the faults of the row there are faults of the construct's own. -/
structure Construct.IsRow (k : Construct) (text front : List Char) (marks : List Mark)
    (own : List Fault) : Prop where
  ahead : front ++ marks.map (·.char) <+: text
  size : k.size = front.length + Mark.extent marks
  taken : k.taken = front.length + marks.length
  faults : k.faults = Mark.faults front.length marks ++ own
  justified : ∀ m ∈ marks, m.Justified
  dark : ∀ m ∈ marks, isBlank m.char = false

theorem map_char_map {f : Char → Mark} (h : ∀ c, (f c).char = c) (text : List Char) :
    (text.map f).map (·.char) = text := by
  rw [List.map_map]
  exact List.map_id'' h text

theorem dark_map_run {f : Char → Mark} (h : ∀ c, (f c).char = c) (rest : List Char) :
    ∀ m ∈ (run rest).map f, isBlank m.char = false := by
  intro m mem
  obtain ⟨c, inRun, rfl⟩ := List.mem_map.mp mem
  rw [h c]
  exact not_isBlank_of_mem_run inRun

theorem dark_decimalRun {head : Char} (dark : isBlank head = false) (rest : List Char) :
    ∀ m ∈ decimalRun head rest, isBlank m.char = false := by
  intro m mem
  have inRun := (decimalRun_map_char_isPrefix head rest).subset
    (List.mem_map_of_mem (f := fun m : Mark => m.char) mem)
  rcases List.mem_cons.mp inRun with e | inRun
  · rw [e]
    exact dark
  · exact not_isBlank_of_mem_run inRun

theorem readWord_isRow {head : Char} (rest : List Char) (dark : isBlank head = false) :
    (readWord head rest).IsRow (head :: rest) [] (wordMarks head rest) [] where
  ahead := by
    rw [wordMarks, List.map_cons, map_char_map wordMark_char]
    exact List.cons_prefix_cons.mpr ⟨rfl, run_isPrefix rest⟩
  size := (Nat.zero_add _).symm
  taken := (Nat.zero_add _).symm
  faults := (List.append_nil _).symm
  justified := by
    rw [wordMarks, List.forall_mem_cons, List.forall_mem_map]
    exact ⟨Mark.justified_keep head, fun c _ => wordMark_justified c⟩
  dark := by
    rw [wordMarks, List.forall_mem_cons]
    exact ⟨dark, dark_map_run wordMark_char rest⟩

theorem readDecimal_isRow {head : Char} (rest : List Char) (dark : isBlank head = false) :
    (readDecimal head rest).IsRow (head :: rest) [] (decimalRun head rest) [] where
  ahead := (decimalRun_map_char_isPrefix head rest).trans
    (List.cons_prefix_cons.mpr ⟨rfl, run_isPrefix rest⟩)
  size := (Nat.zero_add _).symm
  taken := (Nat.zero_add _).symm
  faults := (List.append_nil _).symm
  justified := decimalRun_justified head rest
  dark := dark_decimalRun dark rest

theorem readLegacyDecimal_isRow {head : Char} (rest : List Char) (dark : isBlank head = false) :
    (readLegacyDecimal head rest).IsRow ('0' :: head :: rest) ['0'] (decimalRun head rest)
      [⟨.legacyDecimalEscape, '0', 0, (readLegacyDecimal head rest).size⟩] where
  ahead := List.cons_prefix_cons.mpr ⟨rfl, (decimalRun_map_char_isPrefix head rest).trans
    (List.cons_prefix_cons.mpr ⟨rfl, run_isPrefix rest⟩)⟩
  size := rfl
  taken := rfl
  faults := rfl
  justified := decimalRun_justified head rest
  dark := dark_decimalRun dark rest

/-- The fault of a number that names its base and then has no digit of it. -/
def missingDigits (k : Construct) (digits : List Char) : List Fault :=
  if digits.isEmpty then [⟨.invalidNumericLiteral, '0', 0, k.size⟩] else []

theorem readRadix_isRow (radix : Radix) (letter : Char) (rest : List Char) :
    (readRadix radix rest).IsRow ('0' :: letter :: rest) ['0', letter]
      ((run rest).map radix.mark)
      (missingDigits (readRadix radix rest) (Mark.text ((run rest).map radix.mark))) where
  ahead := by
    rw [map_char_map radix.mark_char]
    exact List.cons_prefix_cons.mpr ⟨rfl, List.cons_prefix_cons.mpr ⟨rfl, run_isPrefix rest⟩⟩
  size := rfl
  taken := rfl
  faults := rfl
  justified := by
    rw [List.forall_mem_map]
    exact fun c _ => radix.mark_justified c
  dark := dark_map_run radix.mark_char rest

theorem readLegacyOctal_isRow (rest : List Char) :
    (readLegacyOctal rest).IsRow ('0' :: rest) ['0'] ((run rest).map Radix.octal.mark)
      [⟨.legacyOctalLiteral, '0', 0, (readLegacyOctal rest).size⟩] where
  ahead := by
    rw [map_char_map Radix.octal.mark_char]
    exact List.cons_prefix_cons.mpr ⟨rfl, run_isPrefix rest⟩
  size := rfl
  taken := rfl
  faults := rfl
  justified := by
    rw [List.forall_mem_map]
    exact fun c _ => Radix.octal.mark_justified c
  dark := dark_map_run Radix.octal.mark_char rest

/-! ## Constructs in their text -/

/-- How a construct lies in the text that it begins. -/
structure Construct.FitsIn (k : Construct) (text : List Char) : Prop where
  kind_ne : k.kind ≠ .endOfInput
  taken_le : k.taken ≤ text.length
  fault_pos : ∀ f ∈ k.faults, 0 < f.length
  fault_le : ∀ f ∈ k.faults, f.start + f.length ≤ text.length
  outside : ∀ i c, k.size ≤ i → i < k.taken → text[i]? = some c →
    isBlank c = false ∧ ∃ kind, ⟨kind, c, i, 1⟩ ∈ k.faults

namespace Construct

/-- A fault over a whole token or less. -/
def Covers (k : Construct) (f : Fault) : Prop := 0 < f.length ∧ f.start + f.length ≤ k.size

/-- The characters of a row stand behind those in front. -/
theorem IsRow.getElem?_ahead {k : Construct} {text front : List Char} {marks : List Mark}
    {own : List Fault} (row : k.IsRow text front marks own) {i : Nat} {m : Mark}
    (at_i : marks[i]? = some m) : text[front.length + i]? = some m.char := by
  obtain ⟨more, e⟩ := row.ahead
  obtain ⟨below, -⟩ := List.getElem?_eq_some_iff.mp at_i
  have here : front.length + i < (front ++ marks.map (·.char)).length := by
    rw [List.length_append, List.length_map]
    omega
  rw [← e, List.getElem?_append_left here, List.getElem?_append_right (Nat.le_add_right _ _),
    Nat.add_sub_cancel_left, List.getElem?_map, at_i]
  rfl

theorem IsRow.fitsIn {k : Construct} {text front : List Char} {marks : List Mark}
    {own : List Fault} (row : k.IsRow text front marks own) (kind : k.kind ≠ .endOfInput)
    (covers : ∀ f ∈ own, k.Covers f) : k.FitsIn text := by
  have room : front.length + marks.length ≤ text.length := by
    have := row.ahead.length_le
    rwa [List.length_append, List.length_map] at this
  have size_le := k.size_le_taken
  refine ⟨kind, row.taken ▸ room, ?_, ?_, ?_⟩
  · intro f h
    rw [row.faults, List.mem_append, Mark.mem_faults] at h
    rcases h with ⟨i, m, kind, at_i, fault, rfl⟩ | h
    · exact Nat.one_pos
    · exact (covers f h).1
  · intro f h
    rw [row.faults, List.mem_append, Mark.mem_faults] at h
    rcases h with ⟨i, m, kind, at_i, fault, rfl⟩ | h
    · obtain ⟨below, -⟩ := List.getElem?_eq_some_iff.mp at_i
      show front.length + i + 1 ≤ text.length
      omega
    · have := (covers f h).2
      have := row.taken
      omega
  · -- a character outside is one of the row, not kept, and so has a fault
    intro i c outside inside at_i
    rw [row.size] at outside
    rw [row.taken] at inside
    have below : i - front.length < marks.length := by omega
    have at_row : marks[i - front.length]? = some marks[i - front.length] :=
      List.getElem?_eq_getElem below
    have same : marks[i - front.length].char = c := by
      have there := row.getElem?_ahead at_row
      rw [Nat.add_sub_cancel' (by omega), at_i] at there
      exact (Option.some.inj there).symm
    have mem := List.getElem_mem below
    have dropped : marks[i - front.length].kept = false :=
      Mark.not_kept_of_extent_le (by omega) at_row
    rcases row.justified _ mem with kept | fault
    · rw [dropped] at kept
      contradiction
    · obtain ⟨kind, fault⟩ := Option.ne_none_iff_exists'.mp fault
      refine ⟨same ▸ row.dark _ mem, kind, ?_⟩
      rw [row.faults, List.mem_append, Mark.mem_faults]
      refine Or.inl ⟨_, _, kind, at_row, fault, ?_⟩
      rw [same, Nat.add_sub_cancel' (by omega)]

/-- A construct whose token covers all that it takes. -/
theorem fitsIn_of_size_eq {k : Construct} {text : List Char} (kind : k.kind ≠ .endOfInput)
    (whole : k.size = k.taken) (room : k.taken ≤ text.length)
    (faults : ∀ f ∈ k.faults, 0 < f.length ∧ f.start + f.length ≤ text.length) :
    k.FitsIn text where
  kind_ne := kind
  taken_le := room
  fault_pos f h := (faults f h).1
  fault_le f h := (faults f h).2
  outside i c outside inside _ := by omega

end Construct

/-! ## Constructs with an end of their own -/

theorem stringBody_length_le (quote : Char) (rest : List Char) :
    (stringBody quote rest).length ≤ rest.length := by
  fun_induction stringBody quote rest with
  | case1 => simp
  | case2 => simp
  | case3 c rest ih =>
    simp only [StringBody.cons, List.length_cons]
    omega
  | case4 => simp
  | case5 c rest _ _ ih =>
    simp only [StringBody.cons, List.length_cons]
    omega

theorem lineCommentLength_le (rest : List Char) : lineCommentLength rest ≤ rest.length := by
  induction rest with
  | nil => exact Nat.le_refl 0
  | cons c rest ih =>
    unfold lineCommentLength
    rw [List.length_cons]
    split <;> omega

theorem blockComment_le (rest : List Char) : (blockComment rest).1 ≤ rest.length := by
  fun_induction blockComment rest with
  | case1 => simp
  | case2 => simp
  | case3 c rest _ body ih =>
    show 1 + (blockComment rest).1 ≤ rest.length + 1
    omega

theorem readString_fitsIn (quote : Char) (rest : List Char) :
    (readString quote rest).FitsIn (quote :: rest) := by
  have le := stringBody_length_le quote rest
  have room : (readString quote rest).size ≤ (quote :: rest).length := by
    show 1 + _ ≤ rest.length + 1
    omega
  refine Construct.fitsIn_of_size_eq nofun rfl room ?_
  intro f h
  unfold readString at h
  dsimp only at h
  split at h
  · contradiction
  · rw [List.mem_singleton] at h
    subst h
    exact ⟨(readString quote rest).size_pos, by rw [Nat.zero_add]; exact room⟩

theorem readLineComment_fitsIn (body : List Char) :
    (readLineComment body).FitsIn ('/' :: '/' :: body) := by
  have le := lineCommentLength_le body
  have room : (readLineComment body).size ≤ ('/' :: '/' :: body).length := by
    show 2 + _ ≤ body.length + 2
    omega
  refine Construct.fitsIn_of_size_eq nofun rfl room ?_
  intro f h
  contradiction

theorem readBlockComment_fitsIn (body : List Char) :
    (readBlockComment body).FitsIn ('/' :: '*' :: body) := by
  have le := blockComment_le body
  have room : (readBlockComment body).size ≤ ('/' :: '*' :: body).length := by
    show 2 + _ ≤ body.length + 2
    omega
  refine Construct.fitsIn_of_size_eq nofun rfl room ?_
  intro f h
  unfold readBlockComment at h
  dsimp only at h
  split at h
  · contradiction
  · rw [List.mem_singleton] at h
    subst h
    exact ⟨(readBlockComment body).size_pos, by rw [Nat.zero_add]; exact room⟩

theorem readSymbol_fitsIn {s : Symbol} {text : List Char} (fits : s.text.toList <+: text) :
    (readSymbol s).FitsIn text := by
  have room : s.text.length ≤ text.length := String.length_toList ▸ fits.length_le
  refine Construct.fitsIn_of_size_eq s.kind_ne.2.2.2 rfl room ?_
  intro f h
  contradiction

/-! ## Every construct -/

theorem missingDigits_covers (k : Construct) (digits : List Char) :
    ∀ f ∈ missingDigits k digits, k.Covers f := by
  intro f h
  unfold missingDigits at h
  split at h
  · rw [List.mem_singleton] at h
    subst h
    exact ⟨k.size_pos, Nat.le_of_eq (Nat.zero_add _)⟩
  · contradiction

theorem Construct.Reads.fitsIn {head : Char} {rest : List Char} {k : Construct}
    (h : Reads head rest k) : k.FitsIn (head :: rest) := by
  have dark := h.not_isBlank
  cases h with
  | string _ => exact readString_fitsIn head rest
  | decimal _ _ => exact (readDecimal_isRow rest dark).fitsIn nofun (by simp)
  | @radix letter rest radix _ =>
    exact (readRadix_isRow radix letter rest).fitsIn nofun (missingDigits_covers _ _)
  | @legacyDecimal head rest beyond =>
    have dark := not_isBlank_of_beyond_octal beyond
    refine (readLegacyDecimal_isRow rest dark).fitsIn nofun ?_
    rw [List.forall_mem_singleton]
    exact ⟨Construct.size_pos _, Nat.le_of_eq (Nat.zero_add _)⟩
  | @legacyOctal head rest octal =>
    refine (readLegacyOctal_isRow (head :: rest)).fitsIn nofun ?_
    rw [List.forall_mem_singleton]
    exact ⟨Construct.size_pos _, Nat.le_of_eq (Nat.zero_add _)⟩
  | zeroPoint _ => exact (readDecimal_isRow _ dark).fitsIn nofun (by simp)
  | zero _ =>
    refine fitsIn_of_size_eq nofun rfl ?_ (by simp [loneZero])
    exact Nat.succ_le_succ (Nat.zero_le _)
  | @zeroBefore c rest _ _ _ _ =>
    -- the character after the zero is at fault without being taken
    refine fitsIn_of_size_eq nofun rfl (Nat.succ_le_succ (Nat.zero_le _)) ?_
    rw [loneZero, List.forall_mem_singleton]
    exact ⟨Nat.one_pos, Nat.succ_le_succ (Nat.succ_le_succ (Nat.zero_le _))⟩
  | word _ => exact (readWord_isRow rest dark).fitsIn nofun (by simp)
  | pointDecimal _ => exact (readDecimal_isRow _ dark).fitsIn nofun (by simp)
  | lineComment => exact readLineComment_fitsIn _
  | blockComment => exact readBlockComment_fitsIn _
  | symbol longest _ => exact readSymbol_fitsIn longest.fits

theorem Construct.FitsIn.size_eq_taken {k : Construct} {text : List Char} (h : k.FitsIn text)
    (faultless : k.faults = []) : k.size = k.taken := by
  have room := h.taken_le
  rcases Nat.lt_or_eq_of_le k.size_le_taken with below | whole
  · obtain ⟨-, kind, mem⟩ := h.outside k.size _ (Nat.le_refl _) below
      (List.getElem?_eq_getElem (by omega))
    rw [faultless] at mem
    contradiction
  · exact whole

end ScriptLexer
