import ScriptLexer.Text.Quoted
import ScriptLexer.Proofs.Number.Digits
import ScriptLexer.Proofs.Text.Split

/-
  Quoted text. Each escape says which character it stands for and where it ends
  (`Quoted.unescape_escape`), and none begins with the quote; so a quoted text says what it quotes,
  also with more text behind it (`quoted_append_inj`). It stands on one line
  (`newline_not_mem_quoted`).
-/

namespace ScriptLexer

theorem toNat_valid (c : Char) : c.toNat < 0xD800 ∨ 0xDFFF < c.toNat ∧ c.toNat < 0x110000 :=
  c.valid

namespace Quoted

/-! ## Hexadecimal digits -/

theorem wholeOfDigits_hex (width n : Nat) : wholeOfDigits 16 (hex width n) = n :=
  wholeOfDigits_padded (by decide) (by decide) _ n

theorem length_hex {width n : Nat} (pos : 0 < width) (small : n < 16 ^ width) :
    (hex width n).length = width := by
  have fits := (Nat.length_toDigits_le_iff (by decide) pos).mpr small
  rw [hex, List.length_append, List.length_replicate]
  omega

theorem take_hex {width n : Nat} (pos : 0 < width) (small : n < 16 ^ width) (rest : List Char) :
    (hex width n ++ rest).take width = hex width n := by
  rw [List.take_append_of_le_length (Nat.le_of_eq (length_hex pos small).symm)]
  exact List.take_of_length_le (Nat.le_of_eq (length_hex pos small))

theorem drop_hex {width n : Nat} (pos : 0 < width) (small : n < 16 ^ width) (rest : List Char) :
    (hex width n ++ rest).drop width = rest := by
  rw [List.drop_append_of_le_length (Nat.le_of_eq (length_hex pos small).symm),
    List.drop_of_length_le (Nat.le_of_eq (length_hex pos small)), List.nil_append]

theorem isHexDigit_digitChar {n : Nat} (small : n < 16) : isHexDigit n.digitChar = true := by
  revert n
  decide

theorem isHexDigit_of_mem_hex {c : Char} {width n : Nat} (mem : c ∈ hex width n) :
    isHexDigit c = true := by
  rcases List.mem_append.mp mem with mem | mem
  · rw [(List.mem_replicate.mp mem).2]
    rfl
  · exact forall_mem_toDigits (by decide) (fun _ small => isHexDigit_digitChar small) n c mem

/-! ## Escapes -/

/-- The character of an escape by number with the given count of digits, and what comes after. -/
def unescapeNumeric (width : Nat) (cs : List Char) : Option (Char × List Char) :=
  some (Char.ofNat (wholeOfDigits 16 (cs.take width)), cs.drop width)

/-- The character that an escape in front stands for, and what comes after. -/
def unescape : List Char → Option (Char × List Char)
  | '\\' :: 'n' :: rest => some ('\n', rest)
  | '\\' :: 'r' :: rest => some ('\r', rest)
  | '\\' :: 't' :: rest => some ('\t', rest)
  | '\\' :: 'x' :: rest => unescapeNumeric 2 rest
  | '\\' :: 'u' :: rest => unescapeNumeric 4 rest
  | '\\' :: 'U' :: rest => unescapeNumeric 8 rest
  | '\\' :: c :: rest => some (c, rest)
  | c :: rest => some (c, rest)
  | [] => none

theorem unescapeNumeric_hex {width : Nat} {c : Char} (pos : 0 < width)
    (small : c.toNat < 16 ^ width) (rest : List Char) :
    unescapeNumeric width (hex width c.toNat ++ rest) = some (c, rest) := by
  rw [unescapeNumeric, take_hex pos small, drop_hex pos small, wholeOfDigits_hex,
    Char.ofNat_toNat]

theorem unescape_numeric (c : Char) (rest : List Char) :
    unescape (numeric c ++ rest) = some (c, rest) := by
  have valid := toNat_valid c
  unfold numeric
  dsimp only
  split
  · next small => exact unescapeNumeric_hex (by decide) small rest
  split
  · next small => exact unescapeNumeric_hex (by decide) small rest
  · exact unescapeNumeric_hex (by decide) (by omega) rest

/-- An escape says which character it stands for and where it ends. -/
theorem unescape_escape (plain : Char → Bool) {quote : Char}
    (isQuote : quote = '\'' ∨ quote = '"') (c : Char) (rest : List Char) :
    unescape (escape plain quote c ++ rest) = some (c, rest) := by
  unfold escape
  split
  · next special =>
    rw [Bool.or_eq_true, decide_eq_true_eq, decide_eq_true_eq] at special
    rcases special with rfl | rfl
    · rcases isQuote with rfl | rfl <;> rfl
    · rfl
  next unspecial =>
  rw [Bool.or_eq_true, decide_eq_true_eq, decide_eq_true_eq, not_or] at unspecial
  split
  · next named => rw [named]; rfl
  split
  · next named => rw [named]; rfl
  split
  · next named => rw [named]; rfl
  split
  · rw [List.singleton_append]
    unfold unescape
    split <;> simp_all
  · exact unescape_numeric c rest

theorem escape_append_inj {plain : Char → Bool} {quote : Char}
    (isQuote : quote = '\'' ∨ quote = '"') {c d : Char} {a b : List Char}
    (same : escape plain quote c ++ a = escape plain quote d ++ b) : c = d ∧ a = b := by
  have read := unescape_escape plain isQuote c a
  rw [same, unescape_escape plain isQuote d b] at read
  exact (Prod.mk.inj (Option.some.inj read)).imp Eq.symm Eq.symm

/-- What an escape is made of: a backslash in front, or a character for itself. -/
theorem escape_cases (plain : Char → Bool) (quote c : Char) :
    (c ≠ quote ∧ c ≠ '\n' ∧ escape plain quote c = [c]) ∨
      ∃ d rest, escape plain quote c = '\\' :: d :: rest ∧
        (d = quote ∨ d ∈ ['\\', 'n', 'r', 't', 'x', 'u', 'U']) ∧
        ∀ e ∈ rest, isHexDigit e = true := by
  unfold escape
  split
  · next special =>
    rw [Bool.or_eq_true, decide_eq_true_eq, decide_eq_true_eq] at special
    refine Or.inr ⟨c, [], rfl, special.imp_right fun same => ?_, nofun⟩
    rw [same]
    decide
  next unspecial =>
  rw [Bool.or_eq_true, decide_eq_true_eq, decide_eq_true_eq, not_or] at unspecial
  split
  · exact Or.inr ⟨'n', [], rfl, Or.inr (by decide), nofun⟩
  next inLine =>
  split
  · exact Or.inr ⟨'r', [], rfl, Or.inr (by decide), nofun⟩
  split
  · exact Or.inr ⟨'t', [], rfl, Or.inr (by decide), nofun⟩
  split
  · exact Or.inl ⟨unspecial.1, inLine, rfl⟩
  have hex (width : Nat) : ∀ e ∈ Quoted.hex width c.toNat, isHexDigit e = true :=
    fun e mem => isHexDigit_of_mem_hex mem
  unfold numeric
  dsimp only
  split
  · exact Or.inr ⟨'x', _, rfl, Or.inr (by decide), hex 2⟩
  split
  · exact Or.inr ⟨'u', _, rfl, Or.inr (by decide), hex 4⟩
  · exact Or.inr ⟨'U', _, rfl, Or.inr (by decide), hex 8⟩

/-- No escape begins with the quote. -/
theorem escape_ne_quote (plain : Char → Bool) {quote : Char} (isQuote : quote = '\'' ∨ quote = '"')
    (c : Char) (a b : List Char) : escape plain quote c ++ a ≠ quote :: b := by
  intro same
  rcases escape_cases plain quote c with ⟨other, -, plain⟩ | ⟨d, rest, escaped, -⟩
  · rw [plain] at same
    exact other (List.cons.inj same).1
  · rw [escaped] at same
    have backslash := (List.cons.inj same).1
    rcases isQuote with rfl | rfl <;> contradiction

/-- A text between quotes says what it is and where it ends. -/
theorem flatMap_escape_inj {plain : Char → Bool} {quote : Char}
    (isQuote : quote = '\'' ∨ quote = '"') {cs ds a b : List Char}
    (same : cs.flatMap (escape plain quote) ++ quote :: a =
      ds.flatMap (escape plain quote) ++ quote :: b) : cs = ds ∧ a = b := by
  induction cs generalizing ds with
  | nil =>
    cases ds with
    | nil => exact ⟨rfl, (List.cons.inj same).2⟩
    | cons d ds =>
      rw [List.flatMap_cons, List.append_assoc] at same
      exact absurd same.symm (escape_ne_quote plain isQuote d _ _)
  | cons c cs ih =>
    rw [List.flatMap_cons, List.append_assoc] at same
    cases ds with
    | nil => exact absurd same (escape_ne_quote plain isQuote c _ _)
    | cons d ds =>
      rw [List.flatMap_cons, List.append_assoc] at same
      obtain ⟨rfl, rest⟩ := escape_append_inj isQuote same
      obtain ⟨rfl, after⟩ := ih rest
      exact ⟨rfl, after⟩

theorem quoteFor_eq (text : List Char) : quoteFor text = '\'' ∨ quoteFor text = '"' := by
  unfold quoteFor
  split
  · exact Or.inr rfl
  · exact Or.inl rfl

theorem newline_not_mem_escape (plain : Char → Bool) {quote : Char}
    (isQuote : quote = '\'' ∨ quote = '"') (c : Char) : '\n' ∉ escape plain quote c := by
  intro mem
  rcases escape_cases plain quote c with ⟨-, inLine, plain⟩ | ⟨d, rest, escaped, named, hex⟩
  · rw [plain] at mem
    exact inLine (List.mem_singleton.mp mem).symm
  · rw [escaped] at mem
    rcases List.mem_cons.mp mem with here | mem
    · contradiction
    rcases List.mem_cons.mp mem with rfl | mem
    · rcases named with rfl | named
      · rcases isQuote with here | here <;> contradiction
      · contradiction
    · exact absurd (hex _ mem) (by decide)

end Quoted

theorem toList_quoted (s : String) :
    (quoted s).toList = Quoted.quoteFor s.toList ::
      (s.toList.flatMap (Quoted.escape isPrintable (Quoted.quoteFor s.toList)) ++
        [Quoted.quoteFor s.toList]) := by
  unfold quoted
  dsimp only
  rw [String.toList_ofList, List.cons_append, Quoted.body]

/-- A quoted text says what it quotes and where it ends. -/
theorem quoted_append_inj {s t : String} {a b : List Char}
    (same : (quoted s).toList ++ a = (quoted t).toList ++ b) : s = t ∧ a = b := by
  rw [toList_quoted, toList_quoted, List.cons_append, List.cons_append, List.append_assoc,
    List.append_assoc] at same
  obtain ⟨quote, same⟩ := List.cons.inj same
  rw [← quote] at same
  obtain ⟨texts, same⟩ := Quoted.flatMap_escape_inj (Quoted.quoteFor_eq _) same
  exact ⟨String.toList_inj.mp texts, same⟩

theorem quoted_inj {s t : String} (same : quoted s = quoted t) : s = t := by
  have texts : (quoted s).toList ++ [] = (quoted t).toList ++ [] := by rw [same]
  exact (quoted_append_inj texts).1

/-- A quoted text stands on one line. -/
theorem newline_not_mem_quoted (s : String) : '\n' ∉ (quoted s).toList := by
  have isQuote := Quoted.quoteFor_eq s.toList
  have apart : '\n' ≠ Quoted.quoteFor s.toList := by
    rcases isQuote with quote | quote <;> rw [quote] <;> decide
  rw [toList_quoted]
  intro mem
  rcases List.mem_cons.mp mem with here | mem
  · exact apart here
  rcases List.mem_append.mp mem with mem | here
  · obtain ⟨c, -, mem⟩ := List.mem_flatMap.mp mem
    exact Quoted.newline_not_mem_escape isPrintable isQuote c mem
  · exact apart (List.mem_singleton.mp here)

end ScriptLexer
