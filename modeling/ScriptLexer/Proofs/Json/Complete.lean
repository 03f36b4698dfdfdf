import ScriptLexer.Proofs.Json.Sound

/-
  What stands in the text is read. A part that is spelled in front of what ends a word is read in
  full, unless the reader gives up (`JsonReader.takesPart`), and on what is too much to be read it
  does give up (`JsonReader.givesUpAt`). With what is borne out by the text this says which texts
  are read, and as what (`Json.read_eq_ok_iff`), and which are given up on
  (`Json.givesUp_read_iff`); all others are malformed. Both inductions are on the fuel, which is
  bounded by the length of the text: a part takes no more of it than it has characters, while on the
  way to what is too much the first element or member of a value costs a step and no character.
-/

namespace ScriptLexer

namespace JsonReader

open Json

/-! ## Answers of the reader -/

/-- The reader gives up, other than on a text that is malformed. -/
def GivesUp {α : Type} (result : Except JsonFault α) : Prop :=
  ∃ fault, fault ≠ .malformed ∧ result = .error fault

/-- The reader takes `a` and leaves `rest`, unless it gives up. -/
def Takes {α : Type} (a : α) (rest : List Char) (result : Except JsonFault (Ahead α)) : Prop :=
  result = .ok (a, rest) ∨ GivesUp result

theorem GivesUp.bind {α β : Type} {result : Except JsonFault α} (givesUp : GivesUp result)
    (f : α → Except JsonFault β) : GivesUp (result.bind f) := by
  obtain ⟨fault, other, rfl⟩ := givesUp
  exact ⟨fault, other, rfl⟩

theorem Takes.bind {α β : Type} {a : α} {rest : List Char} {result : Except JsonFault (Ahead α)}
    (takes : Takes a rest result) (f : α → β) :
    Takes (f a) rest (result.bind fun r => .ok (f r.1, r.2)) := by
  rcases takes with rfl | givesUp
  · exact .inl rfl
  · exact .inr (givesUp.bind _)

/-! ## Blanks -/

theorem skipSpace_append {b : List Char} (blank : Blank b) (rest : List Char) :
    skipSpace (b ++ rest) = skipSpace rest := List.dropWhile_append_of_pos blank

theorem skipSpace_closing {bracket : Char} {ending : List Char} (close : Closing bracket ending)
    (solid : isSpace bracket = false) (a : List Char) :
    skipSpace (ending ++ a) = bracket :: a := by
  obtain ⟨blank⟩ := close
  rw [List.append_assoc, skipSpace_append blank, List.singleton_append, skipSpace_cons solid]

theorem skipSpace_comma {sep : List Char} (comma : Comma sep) (a : List Char) :
    ∃ more, skipSpace (sep ++ a) = ',' :: more ∧ skipSpace more = skipSpace a := by
  obtain ⟨blank, blank'⟩ := comma
  refine ⟨_, ?_, skipSpace_append blank' a⟩
  rw [List.append_assoc, skipSpace_append blank, List.cons_append, skipSpace_cons rfl]

theorem length_closing_pos {bracket : Char} {ending : List Char}
    (close : Closing bracket ending) : 0 < ending.length := by
  obtain ⟨-⟩ := close
  rw [List.length_append]
  exact Nat.succ_pos _

theorem length_comma_pos {sep : List Char} (comma : Comma sep) : 0 < sep.length := by
  obtain ⟨-, -⟩ := comma
  rw [List.length_append]
  exact Nat.succ_pos _

theorem endsWord_blank {b a : List Char} (blank : Blank b) (ends : EndsWord a) :
    EndsWord (b ++ a) := by
  cases b with
  | nil => exact ends
  | cons c b =>
    rintro _ ⟨⟩
    have space := blank c List.mem_cons_self
    simp only [isSpace, Bool.or_eq_true, beq_iff_eq] at space
    rcases space with ((rfl | rfl) | rfl) | rfl <;> rfl

theorem endsWord_cons {c : Char} (outside : isWordChar c = false) (a : List Char) :
    EndsWord (c :: a) := by
  rintro _ ⟨⟩
  exact outside

theorem endsWord_closing {bracket : Char} {ending : List Char} (close : Closing bracket ending)
    (outside : isWordChar bracket = false) (a : List Char) : EndsWord (ending ++ a) := by
  obtain ⟨blank⟩ := close
  rw [List.append_assoc]
  exact endsWord_blank blank (endsWord_cons outside a)

theorem endsWord_comma {sep : List Char} (comma : Comma sep) (a : List Char) :
    EndsWord (sep ++ a) := by
  obtain ⟨blank, -⟩ := comma
  rw [List.append_assoc]
  exact endsWord_blank blank (endsWord_cons rfl _)

/-! ## Strings -/

/-- What stands behind an escape by number inside a string is again such an escape, if it begins
like one. -/
theorem unitText_of_escaped {cs body more a : List Char} (string : StringText cs body)
    (begins : body ++ '"' :: a = '\\' :: 'u' :: more) :
    ∃ ds n rest, UnitText ds n ∧ body = '\\' :: 'u' :: (ds ++ rest) := by
  cases string with
  | nil => cases begins
  | plain quote backslash => exact absurd (List.cons.inj begins).1 backslash
  | @escape c cs piece body escape =>
    have inside := (List.cons.inj begins).2
    cases escape with
    | @short mark c mem =>
      obtain rfl : mark = 'u' := (List.cons.inj inside).1
      exact absurd (List.mem_map_of_mem mem) (by decide : 'u' ∉ shortEscapes.map Prod.fst)
    | @unit ds n unit => exact ⟨ds, n, body, unit, rfl⟩
    | @pair ds es n m unit high unit' low =>
      refine ⟨ds, n, '\\' :: 'u' :: (es ++ body), unit, ?_⟩
      rw [List.cons_append, List.append_assoc, List.cons_append, List.cons_append]

/-- An escape is read as far as it goes. -/
theorem escape?_of_escapeText {c : Char} {cs piece body : List Char}
    (escape : EscapeText body c piece) (string : StringText cs body) (a : List Char) :
    escape? (piece ++ (body ++ '"' :: a)) = some (c, piece.length) := by
  cases escape with
  | @short mark c mem =>
    simp only [shortEscapes, List.mem_cons, List.not_mem_nil, or_false, Prod.mk.injEq] at mem
    rcases mem with ⟨rfl, rfl⟩ | ⟨rfl, rfl⟩ | ⟨rfl, rfl⟩ | ⟨rfl, rfl⟩ | ⟨rfl, rfl⟩ |
      ⟨rfl, rfl⟩ | ⟨rfl, rfl⟩ | ⟨rfl, rfl⟩ <;> rfl
  | @unit ds n unit single =>
    have numbered : numbered? (ds ++ (body ++ '"' :: a)) = some (ofUnit n, 4) := by
      refine numbered?_unit unit fun high more begins => ?_
      obtain ⟨es, m, rest, unit', rfl⟩ := unitText_of_escaped string begins
      obtain rfl : (es ++ rest) ++ '"' :: a = more :=
        (List.cons.inj (List.cons.inj begins).2).2
      rw [List.append_assoc]
      exact ⟨m, unit?_append unit' _, fun low => single ⟨high, es, m, rest, rfl, unit', low⟩⟩
    rw [List.cons_append, escape?_unit, numbered, List.length_cons, unit.length]
    rfl
  | @pair ds es n m unit high unit' low =>
    rw [List.cons_append, escape?_unit, List.append_assoc, List.cons_append, List.cons_append,
      numbered?_units unit high unit' low]
    simp [unit.length, unit'.length]

/-- A string is read up to its closing quote. -/
theorem string_of_stringText {cs body : List Char} (text : StringText cs body) (a : List Char) :
    string (body ++ '"' :: a) = .ok (cs, a) := by
  induction text with
  | nil => rw [List.nil_append, string]
  | plain quote backslash shown _ ih =>
    rw [List.cons_append, string_plain quote backslash, if_neg shown, ih]
    rfl
  | escape escape text ih =>
    rw [List.cons_append, List.append_assoc, string_escaped (escape?_of_escapeText escape text a),
      List.drop_left, ih]
    rfl

theorem string_of_quotedText {cs text : List Char} (quoted : QuotedText cs text) (a : List Char) :
    string (text ++ a) = .ok (cs, a) := by
  obtain ⟨text⟩ := quoted
  rw [List.append_assoc]
  exact string_of_stringText text a

/-! ## Numbers -/

theorem digits_of_not_isDigit {a : List Char} (ends : ∀ c ∈ a.head?, c.isDigit = false) :
    digits a = ([], a) := digits_append (List.forall_mem_nil _) ends

theorem not_isDigit_of_not_goesOn {a : List Char} (ends : ¬GoesOn a) :
    ∀ c ∈ a.head?, c.isDigit = false := by
  intro c mem
  obtain ⟨rest, rfl⟩ := List.head?_eq_some_iff.mp mem
  exact Bool.eq_false_iff.mpr fun digit => ends (.digit digit)

theorem fractionPart_of_not_goesOn {a : List Char} (ends : ¬GoesOn a) :
    fractionPart a = ([], a) := by
  unfold fractionPart
  split
  · next rest =>
    have none : ∀ c ∈ rest.head?, c.isDigit = false := by
      intro c mem
      obtain ⟨more, rfl⟩ := List.head?_eq_some_iff.mp mem
      exact Bool.eq_false_iff.mpr fun digit => ends (.point digit)
    rw [digits_of_not_isDigit none, if_pos rfl]
  · rfl

theorem exponentPart_of_not_goesOn {a : List Char} (ends : ¬GoesOn a) :
    exponentPart a = (none, a) := by
  cases a with
  | nil => rfl
  | cons mark rest =>
    by_cases marked : mark = 'e' ∨ mark = 'E'
    · obtain ⟨negative, sign, unsigned, signed, rfl, plain⟩ := exists_sign rest
      have none : ∀ c ∈ unsigned.head?, c.isDigit = false := by
        intro c mem
        obtain ⟨more, rfl⟩ := List.head?_eq_some_iff.mp mem
        exact Bool.eq_false_iff.mpr fun digit => ends (.exponent marked signed digit)
      rw [exponentPart_signed marked signed plain, digits_of_not_isDigit none, if_pos rfl]
    · exact if_neg marked

/-- Where digits do not go on, they are a whole number. -/
theorem number_of_not_goesOn (negative : Bool) {ds a : List Char} (leads : Leads ds)
    (ends : ¬GoesOn a) :
    number negative (ds ++ a) =
      if wholeDigitLimit < ds.length then .error (.tooManyDigits ds.length)
      else .ok (.whole (if negative then -(wholeOfDigits 10 ds : Int) else wholeOfDigits 10 ds),
        a) := by
  rw [number_of_parts negative leads (not_isDigit_of_not_goesOn ends)
    (fractionPart_of_not_goesOn ends) (exponentPart_of_not_goesOn ends), if_pos ⟨rfl, rfl⟩]

theorem number_givesUp (negative : Bool) {ds a : List Char} (leads : Leads ds)
    (long : wholeDigitLimit < ds.length) (ends : ¬GoesOn a) :
    GivesUp (number negative (ds ++ a)) := by
  rw [number_of_not_goesOn negative leads ends, if_pos long]
  exact ⟨.tooManyDigits ds.length, nofun, rfl⟩

theorem not_goesOn_of_endsWord {a : List Char} (ends : EndsWord a) : ¬GoesOn a := by
  have outside := of_endsWord ends
  rintro (digit | digit | ⟨marked, signed, digit⟩)
  · exact absurd digit (Bool.eq_false_iff.mp (outside _ rfl).1)
  · exact (outside _ rfl).2.1 rfl
  · exact not_or.mpr (outside _ rfl).2.2 marked

theorem fractionPart_of_text {fraction point a : List Char} (pointed : FractionText fraction point)
    (ends : ∀ c ∈ a.head?, c.isDigit = false ∧ c ≠ '.') :
    fractionPart (point ++ a) = (fraction, a) := by
  cases pointed with
  | none => exact fractionPart_of_ne fun c mem => (ends c mem).2
  | point digits some => exact fractionPart_point digits (fun c mem => (ends c mem).1) some

theorem exponentPart_of_text {exponent : Option Int} {mark a : List Char}
    (marked : ExponentText exponent mark)
    (ends : ∀ c ∈ a.head?, c.isDigit = false ∧ c ≠ 'e' ∧ c ≠ 'E') :
    exponentPart (mark ++ a) = (exponent, a) := by
  cases marked with
  | none => exact exponentPart_of_ne fun c mem => (ends c mem).2
  | @some mark negative sign ds marked signed all some =>
    have read := digits_append all fun c mem => (ends c mem).1
    have plain : sign = [] → ∀ c ∈ (ds ++ a).head?, c ≠ '-' ∧ c ≠ '+' := by
      rintro - c mem
      rw [List.head?_append_of_ne_nil _ some] at mem
      have digit := all c (List.mem_of_mem_head? mem)
      constructor <;>
      · rintro rfl
        contradiction
    rw [List.cons_append, List.append_assoc, exponentPart_signed marked signed plain, read,
      if_neg some]

/-- An exponent begins with no digit and no point. -/
theorem head_exponentText {exponent : Option Int} {mark a : List Char}
    (marked : ExponentText exponent mark) (ends : ∀ c ∈ a.head?, c.isDigit = false ∧ c ≠ '.') :
    ∀ c ∈ (mark ++ a).head?, c.isDigit = false ∧ c ≠ '.' := by
  cases marked with
  | none => exact ends
  | some marked =>
    rintro _ ⟨⟩
    rcases marked with rfl | rfl <;> exact ⟨rfl, by decide⟩

theorem head_fractionText {fraction point a : List Char} (pointed : FractionText fraction point)
    (ends : ∀ c ∈ a.head?, c.isDigit = false) : ∀ c ∈ (point ++ a).head?, c.isDigit = false := by
  cases pointed with
  | none => exact ends
  | point digits some =>
    rintro _ ⟨⟩
    rfl

/-- A number is read as far as it goes, if it is not a whole number that is too long. -/
theorem takes_number {negative : Bool} {v : Json} {ds a : List Char}
    (number : NumberText negative v ds) (ends : EndsWord a) :
    Takes v a (JsonReader.number negative (ds ++ a)) := by
  cases number with
  | whole leads =>
    by_cases long : wholeDigitLimit < ds.length
    · exact .inr (number_givesUp negative leads long (not_goesOn_of_endsWord ends))
    · rw [number_of_not_goesOn negative leads (not_goesOn_of_endsWord ends), if_neg long]
      exact .inl rfl
  | @decimal ds fraction point mark exponent leads pointed marked some =>
    have outside := of_endsWord ends
    have atMark := head_exponentText marked fun c mem => ⟨(outside c mem).1, (outside c mem).2.1⟩
    have atPoint := head_fractionText pointed fun c mem => (atMark c mem).1
    have atEnd : ∀ c ∈ a.head?, c.isDigit = false ∧ c ≠ 'e' ∧ c ≠ 'E' := fun c mem =>
      ⟨(outside c mem).1, (outside c mem).2.2⟩
    left
    rw [List.append_assoc, List.append_assoc, number_of_parts negative leads atPoint
      (fractionPart_of_text pointed atMark) (exponentPart_of_text marked atEnd), if_neg some]

/-! ## Values without parts -/

theorem Leads.head {ds : List Char} (leads : Leads ds) :
    ∃ c rest, ds = c :: rest ∧ c.isDigit = true := by
  cases leads with
  | zero => exact ⟨'0', [], rfl, rfl⟩
  | nonzero digits => exact ⟨_, _, rfl, digits _ List.mem_cons_self⟩

theorem head_numberText {negative : Bool} {v : Json} {ds : List Char}
    (number : NumberText negative v ds) : ∃ c rest, ds = c :: rest ∧ c.isDigit = true := by
  cases number with
  | whole leads => exact leads.head
  | decimal leads => exact head_append leads.head _

/-- A signed number begins with its sign or a digit, and is no array and no object. -/
theorem value_signed (negative : Bool) {ds : List Char}
    (head : ∃ c rest, ds = c :: rest ∧ c.isDigit = true) (room fuel : Nat) :
    value room (fuel + 1) (sign negative ++ ds) = number negative ds := by
  obtain ⟨c, rest, rfl, digit⟩ := head
  cases negative with
  | true =>
    rw [value_scalar]
    · exact scalar_minus ⟨c, rest, rfl, digit⟩
    · rintro _ ⟨⟩
      decide
  | false =>
    rw [value_scalar]
    · exact scalar_number ⟨c, rest, rfl, digit⟩
    · rintro _ ⟨⟩
      constructor <;>
      · rintro rfl
        contradiction

theorem value_word {w : String} {v : Json} (mem : (w, v) ∈ words) (a : List Char)
    {room fuel : Nat} : value room (fuel + 1) (w.toList ++ a) = .ok (v, a) := by
  simp only [words, List.mem_cons, List.not_mem_nil, or_false, Prod.mk.injEq] at mem
  rcases mem with ⟨rfl, rfl⟩ | ⟨rfl, rfl⟩ | ⟨rfl, rfl⟩ | ⟨rfl, rfl⟩ | ⟨rfl, rfl⟩ | ⟨rfl, rfl⟩ <;>
  rfl

theorem scalar_text {cs text : List Char} (quoted : QuotedText cs text) (a : List Char) :
    scalar ('"' :: (text ++ a)) = .ok (.text (String.ofList cs), a) := by
  show (string (text ++ a)).map _ = _
  rw [string_of_quotedText quoted]
  rfl

/-! ## What values begin with -/

/-- A text begins like a value. -/
def BeginsValue (text : List Char) : Prop :=
  ∃ c rest, text = c :: rest ∧ beginsValue c = true

theorem beginsValue_of_isDigit {c : Char} (digit : c.isDigit = true) : beginsValue c = true := by
  rw [beginsValue, isWordChar, digit]
  rfl

theorem head_signed (negative : Bool) {ds : List Char}
    (head : ∃ c rest, ds = c :: rest ∧ c.isDigit = true) : BeginsValue (sign negative ++ ds) := by
  obtain ⟨c, rest, rfl, digit⟩ := head
  cases negative with
  | true => exact ⟨'-', c :: rest, rfl, rfl⟩
  | false => exact ⟨c, rest, rfl, beginsValue_of_isDigit digit⟩

theorem head_keyText {key : String} {front : List Char} (keyed : KeyText key front) :
    BeginsValue front := by
  obtain ⟨-⟩ := keyed
  exact ⟨'"', _, rfl, rfl⟩

theorem head_spells {part : Part} {text : List Char} (spelled : Spells part text) :
    BeginsValue text := by
  induction spelled with
  | word mem =>
    simp only [words, List.mem_cons, List.not_mem_nil, or_false, Prod.mk.injEq] at mem
    rcases mem with ⟨rfl, rfl⟩ | ⟨rfl, rfl⟩ | ⟨rfl, rfl⟩ | ⟨rfl, rfl⟩ | ⟨rfl, rfl⟩ |
      ⟨rfl, rfl⟩ <;> exact ⟨_, _, rfl, rfl⟩
  | text | noItems | array | noMembers | object => exact ⟨_, _, rfl, rfl⟩
  | number negative number => exact head_signed negative (head_numberText number)
  | lastItem _ _ ih => exact head_append ih _
  | item _ _ _ ih => exact head_append ih _
  | lastMember keyed => exact head_append (head_keyText keyed) _
  | member keyed => exact head_append (head_keyText keyed) _

theorem head_overruns {place : Place} {room : Nat} {cs : List Char}
    (exceeds : Overruns place room cs) : BeginsValue cs := by
  induction exceeds with
  | digits negative leads => exact head_signed negative (head_append leads.head _)
  | deep opens => rcases opens with rfl | rfl <;> exact ⟨_, _, rfl, rfl⟩
  | array | object => exact ⟨_, _, rfl, rfl⟩
  | item _ ih => exact ih
  | laterItem value => exact head_append (head_spells value) _
  | member keyed => exact head_append (head_keyText keyed) _
  | laterMember keyed => exact head_append (head_keyText keyed) _

section Head

variable {text : List Char} (head : BeginsValue text)

include head

theorem skipSpace_of_head : skipSpace text = text := by
  obtain ⟨c, rest, rfl, begins⟩ := head
  exact skipSpace_cons (isSpace_of_beginsValue begins) rest

theorem head_ne {d : Char} (other : beginsValue d = false) : ∀ c ∈ text.head?, c ≠ d := by
  obtain ⟨c, rest, rfl, begins⟩ := head
  rintro _ ⟨⟩
  exact ne_of_beginsValue begins other

theorem length_pos_of_head : 0 < text.length := by
  obtain ⟨c, rest, rfl, -⟩ := head
  exact Nat.succ_pos _

end Head

/-! ## Arrays and objects -/

section Steps

variable {room fuel : Nat} {b text a : List Char}

/-- An array with elements is what its elements are, if there is room for it. -/
theorem value_array (blank : Blank b) (head : BeginsValue text) :
    value (room + 1) (fuel + 1) ('[' :: (b ++ text)) =
      (items room fuel text).bind fun r => .ok (.array r.1, r.2) :=
  value_items (Nat.succ_pos room) ((skipSpace_append blank text).trans (skipSpace_of_head head))
    (head_ne head rfl)

theorem value_object (blank : Blank b) (head : BeginsValue text) :
    value (room + 1) (fuel + 1) ('\x7b' :: (b ++ text)) =
      (members room fuel text).bind fun r => .ok (.object r.1, r.2) :=
  value_members (Nat.succ_pos room) ((skipSpace_append blank text).trans (skipSpace_of_head head))
    (head_ne head rfl)

theorem value_deep {bracket : Char} (opens : bracket = '[' ∨ bracket = '\x7b') (fuel : Nat)
    (rest : List Char) : GivesUp (value 0 (fuel + 1) (bracket :: rest)) := by
  rcases opens with rfl | rfl
  · exact ⟨.arrayTooDeep, nofun, by rw [value]; rfl⟩
  · exact ⟨.objectTooDeep, nofun, by rw [value]; rfl⟩

theorem items_closing {v : Json} {ending : List Char} (close : Closing ']' ending)
    (item : value room fuel text = .ok (v, ending ++ a)) :
    items room (fuel + 1) text = .ok ([v], a) :=
  items_last item (skipSpace_closing close rfl a)

/-- Elements behind a comma. -/
theorem items_comma {v : Json} {sep : List Char} (comma : Comma sep)
    (head : BeginsValue a)
    (item : value room fuel text = .ok (v, sep ++ a)) :
    items room (fuel + 1) text = (items room fuel a).bind fun r => .ok (v :: r.1, r.2) := by
  obtain ⟨more, skip, behind⟩ := skipSpace_comma comma a
  rw [items_more item skip, behind, skipSpace_of_head head]

theorem items_givesUp (item : GivesUp (value room fuel text)) :
    GivesUp (items room (fuel + 1) text) := by
  rw [items]
  exact item.bind _

section Keyed

variable {key : String} {front : List Char} (keyed : KeyText key front)
  (head : BeginsValue text)

include keyed head

/-- A key and its colon are read. -/
theorem exists_key : ∃ cs quoted behind ahead, front ++ text = '"' :: quoted ∧
    string quoted = .ok (cs, behind) ∧ skipSpace behind = ':' :: ahead ∧ skipSpace ahead = text ∧
      key = String.ofList cs := by
  obtain @⟨cs, quotedText, b, b', quoted, blank, blank'⟩ := keyed
  have skipped : skipSpace (b ++ ':' :: (b' ++ text)) = ':' :: (b' ++ text) := by
    rw [skipSpace_append blank, skipSpace_cons rfl]
  refine ⟨cs, quotedText ++ (b ++ ':' :: (b' ++ text)), _, b' ++ text, ?_,
    string_of_quotedText quoted _, skipped, ?_, rfl⟩
  · rw [List.cons_append, List.append_assoc, List.append_assoc, List.cons_append]
  · rw [skipSpace_append blank', skipSpace_of_head head]

theorem members_closing {v : Json} {ending : List Char} (close : Closing '\x7d' ending)
    (member : value room fuel text = .ok (v, ending ++ a)) :
    members room (fuel + 1) (front ++ text) = .ok ([(key, v)], a) := by
  obtain ⟨cs, quoted, behind, ahead, split, read, colon, skip, rfl⟩ := exists_key keyed head
  rw [← skip] at member
  rw [split, members_last read colon member (skipSpace_closing close rfl a)]

/-- Members behind a comma. -/
theorem members_comma {v : Json} {sep : List Char} (comma : Comma sep)
    (head' : BeginsValue a)
    (member : value room fuel text = .ok (v, sep ++ a)) :
    members room (fuel + 1) (front ++ text) =
      (members room fuel a).bind fun r => .ok ((key, v) :: r.1, r.2) := by
  obtain ⟨cs, quoted, behind, ahead, split, read, colon, skip, rfl⟩ := exists_key keyed head
  obtain ⟨more, skip', behind'⟩ := skipSpace_comma comma a
  rw [← skip] at member
  rw [split, members_more read colon member skip', behind', skipSpace_of_head head']

theorem members_givesUp (member : GivesUp (value room fuel text)) :
    GivesUp (members room (fuel + 1) (front ++ text)) := by
  obtain ⟨cs, quoted, behind, ahead, split, read, colon, skip, -⟩ := exists_key keyed head
  obtain ⟨fault, other, member⟩ := member
  refine ⟨fault, other, ?_⟩
  rw [split, members, read]
  dsimp only [bind, Except.bind]
  rw [colon]
  simp only [skip, member]

end Keyed

end Steps

/-! ## Parts -/

/-- The reader for a part takes it from a text and leaves the rest, unless it gives up. -/
def TakesPart (room fuel : Nat) (cs rest : List Char) : Part → Prop
  | .value v => Takes v rest (value room fuel cs)
  | .items vs => Takes vs rest (items room fuel cs)
  | .members vs => Takes vs rest (members room fuel cs)

/-- A part that is spelled is read in full, unless the reader gives up. -/
theorem takesPart {part : Part} {text : List Char} (spelled : Spells part text)
    {room fuel : Nat} (enough : text.length < fuel) {a : List Char} (ends : EndsWord a) :
    TakesPart room fuel (text ++ a) a part := by
  -- every part of the text is shorter than the text, so that there is fuel left for it
  induction fuel generalizing part text room a with
  | zero => exact absurd enough (Nat.not_lt_zero _)
  | succ fuel ih =>
  cases spelled with
  | word mem => exact .inl (value_word mem a)
  | @text cs text quoted =>
    left
    rw [value_scalar]
    · exact scalar_text quoted a
    · rintro _ ⟨⟩
      decide
  | number negative number =>
    rw [TakesPart, List.append_assoc,
      value_signed negative (head_append (head_numberText number) a)]
    exact takes_number number ends
  | noItems close =>
    cases room with
    | zero => exact .inr (value_deep (.inl rfl) fuel _)
    | succ room => exact .inl (value_noItems (Nat.succ_pos room) (skipSpace_closing close rfl a))
  | array blank items =>
    rw [List.length_cons, List.length_append] at enough
    rw [TakesPart, List.cons_append, List.append_assoc]
    cases room with
    | zero => exact .inr (value_deep (.inl rfl) fuel _)
    | succ room =>
      rw [value_array blank (head_append (head_spells items) a)]
      exact (ih items (by omega) ends).bind Json.array
  | noMembers close =>
    cases room with
    | zero => exact .inr (value_deep (.inr rfl) fuel _)
    | succ room => exact .inl (value_noMembers (Nat.succ_pos room) (skipSpace_closing close rfl a))
  | object blank members =>
    rw [List.length_cons, List.length_append] at enough
    rw [TakesPart, List.cons_append, List.append_assoc]
    cases room with
    | zero => exact .inr (value_deep (.inr rfl) fuel _)
    | succ room =>
      rw [value_object blank (head_append (head_spells members) a)]
      exact (ih members (by omega) ends).bind Json.object
  | lastItem value close =>
    rw [List.length_append] at enough
    rw [TakesPart, List.append_assoc]
    have behind := length_closing_pos close
    rcases ih value (by omega) (endsWord_closing close rfl a) with read | givesUp
    · exact .inl (items_closing close read)
    · exact .inr (items_givesUp givesUp)
  | item value comma others =>
    rw [List.length_append, List.length_append] at enough
    rw [TakesPart, List.append_assoc, List.append_assoc]
    have first := length_pos_of_head (head_spells value)
    have between := length_comma_pos comma
    rcases ih value (by omega) (endsWord_comma comma _) with read | givesUp
    · rw [items_comma comma (head_append (head_spells others) a) read]
      exact (ih others (by omega) ends).bind (_ :: ·)
    · exact .inr (items_givesUp givesUp)
  | lastMember keyed value close =>
    rw [List.length_append, List.length_append] at enough
    rw [TakesPart, List.append_assoc, List.append_assoc]
    have head := head_append (head_spells value)
    have behind := length_closing_pos close
    rcases ih value (by omega) (endsWord_closing close rfl a) with read | givesUp
    · exact .inl (members_closing keyed (head _) close read)
    · exact .inr (members_givesUp keyed (head _) givesUp)
  | member keyed value comma others =>
    rw [List.length_append, List.length_append, List.length_append] at enough
    rw [TakesPart, List.append_assoc, List.append_assoc, List.append_assoc]
    have head := head_append (head_spells value)
    have between := length_comma_pos comma
    rcases ih value (by omega) (endsWord_comma comma _) with read | givesUp
    · rw [members_comma keyed (head _) comma (head_append (head_spells others) a) read]
      exact (ih others (by omega) ends).bind (_ :: ·)
    · exact .inr (members_givesUp keyed (head _) givesUp)

/-- The reader for what stands in a place gives up. -/
def GivesUpAt (room fuel : Nat) (cs : List Char) : Place → Prop
  | .value => GivesUp (value room fuel cs)
  | .items => GivesUp (items room fuel cs)
  | .members => GivesUp (members room fuel cs)

/-- The steps that the reader goes from a place to a value without going on in the text. -/
def stepsToValue : Place → Nat
  | .value => 0
  | .items | .members => 1

/-- On what is too much to be read, the reader gives up. -/
theorem givesUpAt {place : Place} {room : Nat} {cs : List Char} (exceeds : Overruns place room cs)
    {fuel : Nat} (enough : 2 * cs.length + stepsToValue place < fuel) :
    GivesUpAt room fuel cs place := by
  induction fuel generalizing place room cs with
  | zero => exact absurd enough (Nat.not_lt_zero _)
  | succ fuel ih =>
  cases exceeds with
  | digits negative leads long ends =>
    rw [GivesUpAt, value_signed negative (head_append leads.head _)]
    exact number_givesUp negative leads long ends
  | deep opens => exact value_deep opens fuel _
  | array blank exceeds =>
    rw [stepsToValue, List.length_cons, List.length_append] at enough
    rw [GivesUpAt, value_array blank (head_overruns exceeds)]
    exact (ih exceeds (by rw [stepsToValue]; omega)).bind _
  | object blank exceeds =>
    rw [stepsToValue, List.length_cons, List.length_append] at enough
    rw [GivesUpAt, value_object blank (head_overruns exceeds)]
    exact (ih exceeds (by rw [stepsToValue]; omega)).bind _
  | item exceeds =>
    rw [stepsToValue] at enough
    exact items_givesUp (ih exceeds (by rw [stepsToValue]; omega))
  | @laterItem _ _ text _ _ value comma exceeds =>
    rw [stepsToValue, List.length_append, List.length_append] at enough
    have between := length_comma_pos comma
    have short : text.length < fuel := by omega
    rcases takesPart value short (endsWord_comma comma _) with read | givesUp
    · rw [GivesUpAt, items_comma comma (head_overruns exceeds) read]
      exact (ih exceeds (by rw [stepsToValue]; omega)).bind _
    · exact items_givesUp givesUp
  | member keyed exceeds =>
    rw [stepsToValue, List.length_append] at enough
    exact members_givesUp keyed (head_overruns exceeds) (ih exceeds (by rw [stepsToValue]; omega))
  | @laterMember _ _ _ _ text _ _ keyed value comma exceeds =>
    rw [stepsToValue, List.length_append, List.length_append, List.length_append] at enough
    have head := head_append (head_spells value)
    have between := length_comma_pos comma
    have short : text.length < fuel := by omega
    rcases takesPart value short (endsWord_comma comma _) with read | givesUp
    · rw [GivesUpAt, members_comma keyed (head _) comma (head_overruns exceeds) read]
      exact (ih exceeds (by rw [stepsToValue]; omega)).bind _
    · exact members_givesUp keyed (head _) givesUp

end JsonReader

namespace Json

open JsonReader

/-! ## Whole texts -/

/-- The texts that are given up on are those that begin with too much. -/
theorem givesUp_read_iff {room : Nat} {cs : List Char} :
    GivesUp (Json.read room cs) ↔ Overlong room cs := by
  constructor
  · rintro ⟨fault, other, read⟩
    exact overlong_of_read other read
  · rintro ⟨b, rest, blank, exceeds, rfl⟩
    have enough : 2 * rest.length + stepsToValue .value < 2 * (b ++ rest).length + 2 := by
      rw [stepsToValue, List.length_append]
      omega
    rw [Json.read, skipSpace_append blank, skipSpace_of_head (head_overruns exceeds)]
    exact (givesUpAt exceeds enough).bind _

/-- The texts that are read are the documents that do not begin with too much, each as the value
that it spells. -/
theorem read_eq_ok_iff {room : Nat} {cs : List Char} {v : Json} :
    Json.read room cs = .ok v ↔ Document v cs ∧ ¬Overlong room cs := by
  constructor
  · intro read
    refine ⟨document_of_read read, fun exceeds => ?_⟩
    obtain ⟨fault, -, givenUp⟩ := givesUp_read_iff.mpr exceeds
    rw [read] at givenUp
    cases givenUp
  · rintro ⟨⟨b, text, b', blank, spelled, blank', rfl⟩, short⟩
    have ends : EndsWord b' := by
      have none : EndsWord [] := nofun
      exact List.append_nil b' ▸ endsWord_blank blank' none
    have last : skipSpace b' = [] := by
      have none := skipSpace_append blank' []
      rw [List.append_nil] at none
      exact none
    have enough : text.length < 2 * (b ++ (text ++ b')).length + 2 := by
      rw [List.length_append, List.length_append]
      omega
    have head := head_append (head_spells spelled) b'
    have front : skipSpace (b ++ (text ++ b')) = text ++ b' :=
      (skipSpace_append blank _).trans (skipSpace_of_head head)
    rcases takesPart spelled enough ends with read | givesUp
    · rw [Json.read, front, read]
      exact if_pos last
    · refine absurd (givesUp_read_iff.mp ?_) short
      rw [Json.read, front]
      exact givesUp.bind _

end Json

end ScriptLexer
