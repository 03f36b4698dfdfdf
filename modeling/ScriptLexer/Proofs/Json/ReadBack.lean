import ScriptLexer.Proofs.Json.Numbers
import ScriptLexer.Proofs.Text.Lines

/-
  JSON read back. A value that is not nested too deep, and whose whole numbers are not too long, is
  read as it was written, with any text behind that does not go on with a word
  (`JsonReader.value_chars`); with a line feed behind it, it is all of the text (`Json.read_chars`).
  The induction is over the value, and the fuel is bounded by the length of its text.
-/

namespace ScriptLexer

namespace Json

mutual

/-- A value is not nested deeper than there is room for, and its whole numbers are not longer than
the reader takes them. -/
def Fits (room : Nat) : Json → Prop
  | whole n => n.natAbs < 10 ^ wholeDigitLimit
  | array items => 0 < room ∧ ItemsFit (room - 1) items
  | object members => 0 < room ∧ MembersFit (room - 1) members
  | _ => True

def ItemsFit (room : Nat) : List Json → Prop
  | [] => True
  | item :: items => Fits room item ∧ ItemsFit room items

def MembersFit (room : Nat) : List (String × Json) → Prop
  | [] => True
  | (_, v) :: members => Fits room v ∧ MembersFit room members

end

/-! ## What a value begins with -/

/-- The characters that values begin with. -/
def beginsValue (c : Char) : Bool := isWordChar c || c == '"' || c == '[' || c == '\x7b'

theorem beginsValue_of_isWordChar {c : Char} (word : isWordChar c = true) :
    beginsValue c = true := by
  rw [beginsValue, word]
  rfl

theorem chars_head (level : Nat) (v : Json) :
    ∃ c rest, chars level v = c :: rest ∧ beginsValue c = true := by
  have word {text : List Char} (some : text ≠ []) (all : ∀ c ∈ text, isWordChar c = true) :
      ∃ c rest, text = c :: rest ∧ beginsValue c = true := by
    obtain ⟨c, rest, rfl⟩ := List.exists_cons_of_ne_nil some
    exact ⟨c, rest, rfl, beginsValue_of_isWordChar (all c List.mem_cons_self)⟩
  match v with
  | .null | .bool true | .bool false => exact ⟨_, _, rfl, rfl⟩
  | .whole n =>
    rw [chars]
    exact word (whole_chars n).1 fun c mem => isWordChar_of_isWholeChar ((whole_chars n).2 c mem)
  | .number x =>
    rw [chars]
    obtain ⟨c, rest, text, -⟩ := (isNumber_write x).head
    exact word (text ▸ List.cons_ne_nil c rest) (write_chars x)
  | .text s => rw [chars]; exact ⟨_, _, rfl, rfl⟩
  | .array [] | .array (_ :: _) => rw [chars]; exact ⟨_, _, rfl, rfl⟩
  | .object [] | .object (_ :: _) => rw [chars]; exact ⟨_, _, rfl, rfl⟩

theorem ne_of_beginsValue {c d : Char} (begins : beginsValue c = true)
    (other : beginsValue d = false) : c ≠ d := by
  rintro rfl
  rw [begins] at other
  contradiction

theorem isSpace_of_beginsValue {c : Char} (begins : beginsValue c = true) :
    JsonReader.isSpace c = false := by
  rw [← Bool.not_eq_true]
  intro space
  simp only [JsonReader.isSpace, Bool.or_eq_true, beq_iff_eq] at space
  rcases space with ((rfl | rfl) | rfl) | rfl <;> exact absurd begins (by decide)

end Json

namespace JsonReader

open Json

/-! ## Blanks -/

theorem skipSpace_cons {c : Char} (solid : isSpace c = false) (rest : List Char) :
    skipSpace (c :: rest) = c :: rest :=
  List.dropWhile_cons_of_neg (Bool.eq_false_iff.mp solid)

theorem skipSpace_newline (level : Nat) (rest : List Char) :
    skipSpace (newline level ++ rest) = skipSpace rest := by
  refine List.dropWhile_append_of_pos fun c mem => ?_
  rcases List.mem_cons.mp mem with rfl | mem
  · rfl
  · rw [List.eq_of_mem_replicate mem]
    rfl

theorem skipSpace_chars (level : Nat) (v : Json) (a : List Char) :
    skipSpace (chars level v ++ a) = chars level v ++ a := by
  obtain ⟨c, rest, text, begins⟩ := chars_head level v
  rw [text, List.cons_append, skipSpace_cons (isSpace_of_beginsValue begins)]

theorem skipSpace_stringChars (s : String) (a : List Char) :
    skipSpace (stringChars s ++ a) = stringChars s ++ a := skipSpace_cons rfl _

/-! ## Steps of the reader -/

/-- What begins neither an array nor an object has no parts. -/
theorem value_scalar {cs : List Char} (head : ∀ c ∈ cs.head?, c ≠ '[' ∧ c ≠ '\x7b')
    (room fuel : Nat) : value room (fuel + 1) cs = scalar cs := by
  rw [value]
  · rintro rest rfl
    exact absurd rfl (head '[' rfl).1
  · rintro rest rfl
    exact absurd rfl (head '\x7b' rfl).2

section Steps

variable {room fuel : Nat} {v : Json} {text rest more after : List Char}

theorem value_noItems (some : 0 < room) (skip : skipSpace rest = ']' :: after) :
    value room (fuel + 1) ('[' :: rest) = .ok (.array [], after) := by
  rw [value, if_neg (Nat.ne_of_gt some), skip]
  rfl

theorem value_items (some : 0 < room) (skip : skipSpace rest = text)
    (head : ∀ c ∈ text.head?, c ≠ ']') :
    value room (fuel + 1) ('[' :: rest) =
      (items (room - 1) fuel text).bind fun r => .ok (.array r.1, r.2) := by
  rw [value, if_neg (Nat.ne_of_gt some), skip]
  dsimp only
  split
  · exact absurd rfl (head ']' rfl)
  · rfl

theorem value_noMembers (some : 0 < room) (skip : skipSpace rest = '\x7d' :: after) :
    value room (fuel + 1) ('\x7b' :: rest) = .ok (.object [], after) := by
  rw [value, if_neg (Nat.ne_of_gt some), skip]
  rfl

theorem value_members (some : 0 < room) (skip : skipSpace rest = text)
    (head : ∀ c ∈ text.head?, c ≠ '\x7d') :
    value room (fuel + 1) ('\x7b' :: rest) =
      (members (room - 1) fuel text).bind fun r => .ok (.object r.1, r.2) := by
  rw [value, if_neg (Nat.ne_of_gt some), skip]
  dsimp only
  split
  · exact absurd rfl (head '\x7d' rfl)
  · rfl

theorem items_last (item : value room fuel text = .ok (v, rest))
    (skip : skipSpace rest = ']' :: after) :
    items room (fuel + 1) text = .ok ([v], after) := by
  rw [items, item]
  dsimp only [bind, Except.bind]
  rw [skip]
  rfl

theorem items_more (item : value room fuel text = .ok (v, rest))
    (skip : skipSpace rest = ',' :: more) :
    items room (fuel + 1) text =
      (items room fuel (skipSpace more)).bind fun r => .ok (v :: r.1, r.2) := by
  rw [items, item]
  dsimp only [bind, Except.bind]
  rw [skip]
  rfl

variable {key behind ahead : List Char} (quoted : string text = .ok (key, behind))
  (colon : skipSpace behind = ':' :: ahead)

include quoted colon

theorem members_last (member : value room fuel (skipSpace ahead) = .ok (v, rest))
    (skip : skipSpace rest = '\x7d' :: after) :
    members room (fuel + 1) ('"' :: text) = .ok ([(String.ofList key, v)], after) := by
  rw [members, quoted]
  dsimp only [bind, Except.bind]
  rw [colon]
  simp only [member]
  rw [skip]
  rfl

theorem members_more (member : value room fuel (skipSpace ahead) = .ok (v, rest))
    (skip : skipSpace rest = ',' :: more) :
    members room (fuel + 1) ('"' :: text) =
      (members room fuel (skipSpace more)).bind fun r =>
        .ok ((String.ofList key, v) :: r.1, r.2) := by
  rw [members, quoted]
  dsimp only [bind, Except.bind]
  rw [colon]
  simp only [member]
  rw [skip]
  rfl

end Steps

/-! ## Whole values -/

theorem head_chars_ne (level : Nat) (v : Json) (a : List Char) {d : Char}
    (other : beginsValue d = false) : ∀ c ∈ (chars level v ++ a).head?, c ≠ d := by
  obtain ⟨c, rest, text, begins⟩ := chars_head level v
  rw [text]
  rintro _ ⟨⟩
  exact ne_of_beginsValue begins other

theorem head_stringChars_ne (s : String) (a : List Char) {d : Char} (other : '"' ≠ d) :
    ∀ c ∈ (stringChars s ++ a).head?, c ≠ d := by
  rintro _ ⟨⟩
  exact other

/-- A value whose text begins like a word or a string is read as a value without parts. -/
theorem value_of_scalar {text : List Char} {v : Json} {a : List Char}
    (head : ∃ c rest, text = c :: rest ∧ c ≠ '[' ∧ c ≠ '\x7b')
    (read : scalar (text ++ a) = .ok (v, a)) (room : Nat) {fuel : Nat}
    (enough : text.length ≤ fuel) : value room fuel (text ++ a) = .ok (v, a) := by
  obtain ⟨c, rest, rfl, other⟩ := head
  obtain ⟨fuel, rfl⟩ := Nat.exists_eq_add_one_of_ne_zero (Nat.ne_of_gt (Nat.lt_of_lt_of_le
    (Nat.succ_pos _) enough))
  rw [value_scalar _ room fuel, read]
  rintro _ ⟨⟩
  exact other

/-- A word is no array and no object. -/
theorem head_of_isWordChar {text : List Char} (some : text ≠ [])
    (all : ∀ c ∈ text, isWordChar c = true) :
    ∃ c rest, text = c :: rest ∧ c ≠ '[' ∧ c ≠ '\x7b' := by
  obtain ⟨c, rest, rfl⟩ := List.exists_cons_of_ne_nil some
  have word := all c List.mem_cons_self
  refine ⟨c, rest, rfl, ?_, ?_⟩ <;>
  · rintro rfl
    exact absurd word (by decide)

mutual

/-- A value that fits is read as it was written. -/
theorem value_chars (level : Nat) (v : Json) {room fuel : Nat} (fits : Fits room v)
    (enough : (chars level v).length ≤ fuel) {a : List Char} (ends : EndsWord a) :
    value room fuel (chars level v ++ a) = .ok (v, a) := by
  cases fuel with
  | zero =>
    obtain ⟨c, rest, text, -⟩ := chars_head level v
    rw [text] at enough
    exact absurd enough (Nat.not_succ_le_zero _)
  | succ fuel =>
  match v with
  | .null => exact value_of_scalar ⟨_, _, rfl, by decide⟩ rfl room enough
  | .bool true => exact value_of_scalar ⟨_, _, rfl, by decide⟩ rfl room enough
  | .bool false => exact value_of_scalar ⟨_, _, rfl, by decide⟩ rfl room enough
  | .whole n =>
    rw [chars] at enough ⊢
    rw [Fits] at fits
    obtain ⟨some, chars⟩ := whole_chars n
    exact value_of_scalar
      (head_of_isWordChar some fun c mem => isWordChar_of_isWholeChar (chars c mem))
      (scalar_whole fits ends) room enough
  | .number x =>
    rw [chars] at enough ⊢
    obtain ⟨c, rest, text, -⟩ := (isNumber_write x).head
    exact value_of_scalar (head_of_isWordChar (text ▸ List.cons_ne_nil c rest) (write_chars x))
      (scalar_write x ends) room enough
  | .text s =>
    rw [chars] at enough ⊢
    have read : scalar (stringChars s ++ a) = .ok (.text s, a) := by
      rw [stringChars_append]
      show (string (s.toList.flatMap escape ++ '"' :: a)).map _ = _
      rw [string_flatMap_escape, Except.map, String.ofList_toList]
    exact value_of_scalar ⟨_, _, rfl, by decide⟩ read room enough
  | .array [] =>
    rw [Fits] at fits
    rw [chars] at enough ⊢
    exact value_noItems fits.1 (skipSpace_cons rfl a)
  | .array (item :: items) =>
    rw [Fits] at fits
    simp only [chars, List.cons_append, List.nil_append, List.append_assoc, List.length_cons,
      List.length_append] at enough ⊢
    rw [value_items fits.1 ((skipSpace_newline _ _).trans (skipSpace_chars _ _ _))
      (head_chars_ne _ _ _ rfl), items_chars (level + 1) level item items fits.2 _ a]
    · rfl
    · rw [List.length_append]
      omega
  | .object [] =>
    rw [Fits] at fits
    rw [chars] at enough ⊢
    exact value_noMembers fits.1 (skipSpace_cons rfl a)
  | .object ((key, v) :: members) =>
    rw [Fits] at fits
    simp only [chars, List.cons_append, List.nil_append, List.append_assoc, List.length_cons,
      List.length_append] at enough ⊢
    rw [value_members fits.1 ((skipSpace_newline _ _).trans (skipSpace_stringChars _ _))
      (head_stringChars_ne _ _ (by decide)),
      members_chars (level + 1) level key v members fits.2 _ a]
    · rfl
    · rw [List.length_append]
      omega
termination_by fuel

/-- The elements of an array up to its end. -/
theorem items_chars (level k : Nat) (v : Json) (vs : List Json) {room fuel : Nat}
    (fits : ItemsFit room (v :: vs))
    (enough : (chars level v ++ itemChars level vs).length < fuel) (a : List Char) :
    items room fuel (chars level v ++ (itemChars level vs ++ (newline k ++ ']' :: a))) =
      .ok (v :: vs, a) := by
  obtain ⟨first, others⟩ := fits
  rw [List.length_append] at enough
  cases fuel with
  | zero => exact absurd enough (Nat.not_lt_zero _)
  | succ fuel =>
  have item := value_chars level v first (show (chars level v).length ≤ fuel by omega)
    (endsWord_itemChars level k vs (']' :: a))
  match vs with
  | [] =>
    refine items_last item ?_
    rw [itemChars, List.nil_append, skipSpace_newline, skipSpace_cons rfl]
  | w :: vs =>
    simp only [itemChars, List.cons_append, List.append_assoc, List.length_cons,
      List.length_append] at enough item ⊢
    rw [items_more item (skipSpace_cons rfl _), skipSpace_newline, skipSpace_chars,
      items_chars level k w vs others _ a]
    · rfl
    · rw [List.length_append]
      omega
termination_by fuel

/-- The members of an object up to its end. -/
theorem members_chars (level k : Nat) (key : String) (v : Json) (vs : List (String × Json))
    {room fuel : Nat} (fits : MembersFit room ((key, v) :: vs))
    (enough : (chars level v ++ memberChars level vs).length < fuel) (a : List Char) :
    members room fuel (stringChars key ++ ':' :: ' ' ::
      (chars level v ++ (memberChars level vs ++ (newline k ++ '\x7d' :: a)))) =
      .ok ((key, v) :: vs, a) := by
  obtain ⟨first, others⟩ := fits
  rw [List.length_append] at enough
  cases fuel with
  | zero => exact absurd enough (Nat.not_lt_zero _)
  | succ fuel =>
  have skip := skipSpace_chars level v (memberChars level vs ++ (newline k ++ '\x7d' :: a))
  have quoted := string_flatMap_escape key.toList
    (':' :: ' ' :: (chars level v ++ (memberChars level vs ++ (newline k ++ '\x7d' :: a))))
  have member := value_chars level v first (show (chars level v).length ≤ fuel by omega)
    (endsWord_memberChars level k vs ('\x7d' :: a))
  rw [← skip] at member
  rw [stringChars_append]
  match vs with
  | [] =>
    rw [members_last quoted (skipSpace_cons rfl _) member, String.ofList_toList]
    rw [memberChars, List.nil_append, skipSpace_newline, skipSpace_cons rfl]
  | (key', w) :: vs =>
    simp only [memberChars, List.cons_append, List.append_assoc, List.length_cons,
      List.length_append] at enough member quoted ⊢
    rw [members_more quoted (skipSpace_cons rfl _) member (skipSpace_cons rfl _),
      skipSpace_newline, skipSpace_stringChars, members_chars level k key' w vs others _ a,
      String.ofList_toList]
    · rfl
    · rw [List.length_append]
      omega
termination_by fuel

end

end JsonReader

namespace Json

/-- A text that is one value and a line feed is that value. -/
theorem read_chars {room : Nat} {v : Json} (fits : Fits (room + 1) v) :
    read room (chars 0 v ++ ['\n']) = .ok v := by
  have ends : EndsWord ['\n'] := by
    rintro _ ⟨⟩
    rfl
  have value := JsonReader.value_chars 0 v fits
    (show (chars 0 v).length ≤ 2 * (chars 0 v ++ ['\n']).length + 2 by
      rw [List.length_append]
      omega) ends
  rw [read, JsonReader.skipSpace_chars, value]
  rfl

/-! ## Line breaks -/

theorem return_not_mem_ite {c d : Char} {one other : List Char} (here : '\r' ∉ one)
    (there : '\r' ∉ other) : '\r' ∉ if c = d then one else other := by
  split
  · exact here
  · exact there

theorem return_not_mem_escape (c : Char) : '\r' ∉ escape c := by
  have numbered (n : Nat) : '\r' ∉ unit n := by
    rw [unit, List.mem_cons, List.mem_cons]
    rintro (here | here | mem)
    · contradiction
    · contradiction
    · exact absurd (Quoted.isHexDigit_of_mem_hex mem) (by decide)
  unfold escape
  iterate 7 refine return_not_mem_ite (by decide) ?_
  split
  · next plain =>
    intro mem
    rw [← List.mem_singleton.mp mem] at plain
    exact absurd plain.1 (by decide)
  dsimp only
  split
  · exact numbered _
  · exact fun mem => (List.mem_append.mp mem).elim (numbered _) (numbered _)

theorem return_not_mem_stringChars (s : String) : '\r' ∉ stringChars s := by
  have inside : '\r' ∉ s.toList.flatMap escape := by
    intro mem
    obtain ⟨c, -, mem⟩ := List.mem_flatMap.mp mem
    exact return_not_mem_escape c mem
  simp [stringChars, inside]

theorem return_not_mem_newline (level : Nat) : '\r' ∉ newline level := by
  simp [newline]

theorem return_not_mem_word {text : List Char} (word : ∀ c ∈ text, isWordChar c = true) :
    '\r' ∉ text := fun mem => absurd (word _ mem) (by decide)

mutual

/-- Values are written without carriage returns. -/
theorem return_not_mem_chars (level : Nat) (v : Json) : '\r' ∉ chars level v := by
  match v with
  | .null | .bool true | .bool false | .array [] | .object [] =>
    rw [chars]
    decide
  | .whole n =>
    rw [chars]
    exact return_not_mem_word fun c mem => isWordChar_of_isWholeChar ((whole_chars n).2 c mem)
  | .number x =>
    rw [chars]
    exact return_not_mem_word (write_chars x)
  | .text s =>
    rw [chars]
    exact return_not_mem_stringChars s
  | .array (item :: items) =>
    have first := return_not_mem_chars (level + 1) item
    have others := return_not_mem_itemChars (level + 1) items
    simp [chars, return_not_mem_newline, first, others]
  | .object ((key, value) :: members) =>
    have first := return_not_mem_chars (level + 1) value
    have others := return_not_mem_memberChars (level + 1) members
    simp [chars, return_not_mem_newline, return_not_mem_stringChars, first, others]

theorem return_not_mem_itemChars (level : Nat) (items : List Json) :
    '\r' ∉ itemChars level items := by
  match items with
  | [] => simp [itemChars]
  | item :: items =>
    have first := return_not_mem_chars level item
    have others := return_not_mem_itemChars level items
    simp [itemChars, return_not_mem_newline, first, others]

theorem return_not_mem_memberChars (level : Nat) (members : List (String × Json)) :
    '\r' ∉ memberChars level members := by
  match members with
  | [] => simp [memberChars]
  | (key, value) :: members =>
    have first := return_not_mem_chars level value
    have others := return_not_mem_memberChars level members
    simp [memberChars, return_not_mem_newline, return_not_mem_stringChars, first, others]

end

end Json

end ScriptLexer
