import ScriptLexer.Json.Reader
import ScriptLexer.Proofs.Text.Quoted

/-
  Strings in JSON are read as they were written (`JsonReader.string_stringChars`), characters
  beyond the sixteen-bit range by the pair of units that they take. So a string says what it is and
  where it ends (`Json.stringChars_append_inj`).
-/

namespace ScriptLexer

namespace Json

open Quoted (hex wholeOfDigits_hex length_hex isHexDigit_of_mem_hex)

/-- A sixteen-bit unit in four hexadecimal digits. -/
structure UnitText (ds : List Char) (n : Nat) : Prop where
  length : ds.length = 4
  digits : ∀ c ∈ ds, isHexDigit c = true
  value : wholeOfDigits 16 ds = n

/-- The first unit of a pair. -/
def IsHigh (n : Nat) : Prop := 0xD800 ≤ n ∧ n < 0xDC00

/-- The second unit of a pair. -/
def IsLow (n : Nat) : Prop := 0xDC00 ≤ n ∧ n < 0xE000

theorem unitText_hex {n : Nat} (small : n < 0x10000) : UnitText (hex 4 n) n :=
  ⟨length_hex (by decide) small, fun _ => isHexDigit_of_mem_hex, wholeOfDigits_hex 4 n⟩

end Json

namespace JsonReader

open Json
open Quoted (hex length_hex)

/-! ## Units -/

theorem unit?_append {ds : List Char} {n : Nat} (unit : UnitText ds n) (rest : List Char) :
    unit? (ds ++ rest) = some n := by
  have taken : (ds ++ rest).take 4 = ds := List.take_left' unit.length
  unfold unit?
  simp only [taken]
  rw [if_pos ⟨unit.length, List.all_eq_true.mpr unit.digits⟩, unit.value]

theorem ofUnit_toNat (c : Char) : ofUnit c.toNat = c := by
  rw [ofUnit, if_pos (toNat_valid c), Char.ofNat_toNat]

/-- A unit is a character by itself, unless it is the first of a pair and the second is behind it. -/
theorem numbered?_unit {ds a : List Char} {n : Nat} (unit : UnitText ds n)
    (single : IsHigh n → ∀ more, a = '\\' :: 'u' :: more → ∃ m, unit? more = some m ∧ ¬IsLow m) :
    numbered? (ds ++ a) = some (ofUnit n, 4) := by
  have drop : (ds ++ a).drop 4 = a := List.drop_left' unit.length
  simp only [numbered?, unit?_append unit, drop, bind, Option.bind]
  split
  · next high =>
    split
    · next more =>
      obtain ⟨m, unit', other⟩ := single high more rfl
      rw [unit']
      exact if_neg other
    · rfl
  · rfl

/-- Two units that make a pair. -/
theorem numbered?_units {ds es : List Char} {n m : Nat} (unit : UnitText ds n) (high : IsHigh n)
    (unit' : UnitText es m) (low : IsLow m) (a : List Char) :
    numbered? (ds ++ '\\' :: 'u' :: (es ++ a)) =
      some (Char.ofNat (0x10000 + (n - 0xD800) * 0x400 + (m - 0xDC00)), 10) := by
  have drop : (ds ++ '\\' :: 'u' :: (es ++ a)).drop 4 = '\\' :: 'u' :: (es ++ a) :=
    List.drop_left' unit.length
  simp only [numbered?, unit?_append unit, drop, bind, Option.bind]
  rw [if_pos (show 0xD800 ≤ n ∧ n < 0xDC00 from high)]
  simp only [unit?_append unit']
  exact if_pos low

/-- A character in the sixteen-bit range is a unit by itself. -/
theorem numbered?_single {c : Char} (small : c.toNat < 0x10000) (rest : List Char) :
    numbered? (hex 4 c.toNat ++ rest) = some (c, 4) := by
  have valid := toNat_valid c
  have whole : ¬IsHigh c.toNat := by
    unfold IsHigh
    omega
  rw [numbered?_unit (unitText_hex small) fun high => absurd high whole, ofUnit_toNat]

/-- A character beyond is a pair of units. -/
theorem numbered?_pair {c : Char} (great : ¬c.toNat < 0x10000) (rest : List Char) :
    numbered? (hex 4 (0xD800 + (c.toNat - 0x10000) / 0x400) ++
      '\\' :: 'u' :: (hex 4 (0xDC00 + (c.toNat - 0x10000) % 0x400) ++ rest)) = some (c, 10) := by
  have valid := toNat_valid c
  have whole : 0x10000 + (0xD800 + (c.toNat - 0x10000) / 0x400 - 0xD800) * 0x400 +
      (0xDC00 + (c.toNat - 0x10000) % 0x400 - 0xDC00) = c.toNat := by omega
  rw [numbered?_units (unitText_hex (by omega)) ⟨by omega, by omega⟩ (unitText_hex (by omega))
    ⟨by omega, by omega⟩, whole, Char.ofNat_toNat]

/-! ## Escapes -/

theorem unit_append_unit (n m : Nat) :
    Json.unit n ++ Json.unit m = '\\' :: 'u' :: (hex 4 n ++ '\\' :: 'u' :: hex 4 m) := rfl

theorem escape?_unit (cs : List Char) :
    escape? ('u' :: cs) = (numbered? cs).map fun r => (r.1, r.2 + 1) := rfl

theorem escape?_single {c : Char} (small : c.toNat < 0x10000) (rest : List Char) :
    escape? ('u' :: hex 4 c.toNat ++ rest) = some (c, ('u' :: hex 4 c.toNat).length) := by
  rw [List.length_cons, length_hex (by decide) small, List.cons_append, escape?_unit,
    numbered?_single small]
  rfl

theorem escape?_pair {c : Char} (great : ¬c.toNat < 0x10000) {n m : Nat}
    (high : n = 0xD800 + (c.toNat - 0x10000) / 0x400)
    (low : m = 0xDC00 + (c.toNat - 0x10000) % 0x400) (rest : List Char) :
    escape? ('u' :: (hex 4 n ++ '\\' :: 'u' :: hex 4 m) ++ rest) =
      some (c, ('u' :: (hex 4 n ++ '\\' :: 'u' :: hex 4 m)).length) := by
  have valid := toNat_valid c
  have length : (hex 4 n).length = 4 := length_hex (by decide) (by omega)
  have length' : (hex 4 m).length = 4 := length_hex (by decide) (by omega)
  rw [List.length_cons, List.length_append, List.length_cons, List.length_cons, length, length',
    List.cons_append, escape?_unit, List.append_assoc, List.cons_append, List.cons_append, high,
    low, numbered?_pair great]
  rfl

/-- The ways to write a character in a string: it stands for itself, or for it stands an escape
that says which character it is and how long the escape is. -/
inductive Stands (c : Char) : List Char → Prop
  | plain (quote : c ≠ '"') (backslash : c ≠ '\\') (shown : ¬c < ' ') : Stands c [c]
  | escaped {body : List Char} (read : ∀ rest, escape? (body ++ rest) = some (c, body.length)) :
    Stands c ('\\' :: body)

/-- One character can be singled out. -/
theorem stands_ite {c d : Char} {one other : List Char} (here : Stands d one)
    (there : c ≠ d → Stands c other) : Stands c (if c = d then one else other) := by
  split
  · next same => exact same ▸ here
  · next apart => exact there apart

theorem stands_escape (c : Char) : Stands c (Json.escape c) := by
  unfold Json.escape
  refine stands_ite (.escaped fun _ => rfl) fun quote => ?_
  refine stands_ite (.escaped fun _ => rfl) fun backslash => ?_
  iterate 5 refine stands_ite (.escaped fun _ => rfl) fun _ => ?_
  split
  · next plain => exact .plain quote backslash (Char.not_lt.mpr plain.1)
  dsimp only
  split
  · next small => exact .escaped (escape?_single small)
  · next great =>
    rw [unit_append_unit]
    exact .escaped (escape?_pair great rfl rfl)

/-! ## Whole strings -/

/-- What a string is taken for behind its first character. -/
theorem string_plain {c : Char} {rest : List Char} (quote : c ≠ '"') (backslash : c ≠ '\\') :
    string (c :: rest) =
      if c < ' ' then malformed else (string rest).bind fun r => .ok (c :: r.1, r.2) := by
  rw [string.eq_def]
  split
  · contradiction
  · next same => exact absurd (List.cons.inj same).1 quote
  · next same => exact absurd (List.cons.inj same).1 backslash
  · next same =>
    obtain ⟨rfl, rfl⟩ := List.cons.inj same
    rfl

theorem string_escaped {c : Char} {width : Nat} {rest : List Char}
    (escape : escape? rest = some (c, width)) :
    string ('\\' :: rest) = (string (rest.drop width)).bind fun r => .ok (c :: r.1, r.2) := by
  rw [string]
  simp only [escape]
  rfl

theorem string_escape (c : Char) (rest : List Char) :
    string (Json.escape c ++ rest) = (string rest).bind fun r => .ok (c :: r.1, r.2) := by
  have stands := stands_escape c
  generalize Json.escape c = written at stands ⊢
  cases stands with
  | plain quote backslash shown =>
    rw [List.singleton_append, string_plain quote backslash, if_neg shown]
  | escaped read => rw [List.cons_append, string_escaped (read rest), List.drop_left]

/-- A string is read as it was written. -/
theorem string_flatMap_escape (cs rest : List Char) :
    string (cs.flatMap Json.escape ++ '"' :: rest) = .ok (cs, rest) := by
  induction cs with
  | nil => rw [List.flatMap_nil, List.nil_append, string]
  | cons c cs ih =>
    rw [List.flatMap_cons, List.append_assoc, string_escape, ih]
    rfl

end JsonReader

theorem Json.stringChars_append (s : String) (a : List Char) :
    stringChars s ++ a = '"' :: (s.toList.flatMap escape ++ '"' :: a) := by
  simp [stringChars]

/-- A string says what it is and where it ends. -/
theorem Json.stringChars_append_inj {s t : String} {a b : List Char}
    (same : stringChars s ++ a = stringChars t ++ b) : s = t ∧ a = b := by
  rw [stringChars_append, stringChars_append] at same
  have tails := (List.cons.inj same).2
  have read := JsonReader.string_flatMap_escape s.toList a
  rw [tails, JsonReader.string_flatMap_escape] at read
  obtain ⟨texts, rests⟩ := Prod.mk.inj (Except.ok.inj read)
  exact ⟨String.toList_inj.mp texts.symm, rests.symm⟩

end ScriptLexer
