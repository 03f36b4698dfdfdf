import ScriptLexer.Proofs.Json.ReadBack

/-
  The grammar of JSON. `Json.Spells` says which texts stand for a value, for the elements of an
  array and for the members of an object, whatever their depth and length. A reader has to give up
  on a text that begins like a value up to a whole number that is too long or to a bracket that is
  too deep (`Json.Overruns`), whatever comes behind. Of a whole text the two are
  `Json.Document` and `Json.Overlong`.
-/

namespace ScriptLexer

namespace Json

open JsonReader (Leads isSpace ofUnit words)

/-- Nothing but blanks. -/
def Blank (cs : List Char) : Prop := ∀ c ∈ cs, isSpace c = true

/-! ## Strings -/

/-- The second unit of a pair stands in front. -/
def BeginsLow (cs : List Char) : Prop :=
  ∃ ds n rest, cs = '\\' :: 'u' :: (ds ++ rest) ∧ UnitText ds n ∧ IsLow n

/-- The characters for which a single letter stands behind a backslash. -/
def shortEscapes : List (Char × Char) :=
  [('"', '"'), ('\\', '\\'), ('/', '/'), ('b', '\x08'), ('f', '\x0c'), ('n', '\n'), ('r', '\r'),
    ('t', '\t')]

/-- What stands behind a backslash for a character. Half of a pair stands for a replacement
character, unless the other half is behind it. -/
inductive EscapeText (behind : List Char) : Char → List Char → Prop
  | short {mark c : Char} (mem : (mark, c) ∈ shortEscapes) : EscapeText behind c [mark]
  | unit {ds : List Char} {n : Nat} (unit : UnitText ds n)
    (single : ¬(IsHigh n ∧ BeginsLow behind)) : EscapeText behind (ofUnit n) ('u' :: ds)
  | pair {ds es : List Char} {n m : Nat} (unit : UnitText ds n) (high : IsHigh n)
    (unit' : UnitText es m) (low : IsLow m) :
    EscapeText behind (Char.ofNat (0x10000 + (n - 0xD800) * 0x400 + (m - 0xDC00)))
      ('u' :: (ds ++ '\\' :: 'u' :: es))

/-- What stands between quotes for the characters of a string. -/
inductive StringText : List Char → List Char → Prop
  | nil : StringText [] []
  | plain {c : Char} {cs body : List Char} (quote : c ≠ '"') (backslash : c ≠ '\\')
    (shown : ¬c < ' ') (rest : StringText cs body) : StringText (c :: cs) (c :: body)
  | escape {c : Char} {cs piece body : List Char} (escape : EscapeText body c piece)
    (rest : StringText cs body) : StringText (c :: cs) ('\\' :: (piece ++ body))

/-- A string behind its opening quote. -/
inductive QuotedText : List Char → List Char → Prop
  | mk {cs body : List Char} (string : StringText cs body) : QuotedText cs (body ++ ['"'])

theorem BeginsLow.append {cs : List Char} (low : BeginsLow cs) (more : List Char) :
    BeginsLow (cs ++ more) := by
  obtain ⟨ds, n, rest, rfl, unit, low⟩ := low
  refine ⟨ds, n, rest ++ more, ?_, unit, low⟩
  rw [List.cons_append, List.cons_append, List.append_assoc]

/-- What an escape means depends on no more than what is behind it inside the string. -/
theorem EscapeText.of_append {body more piece : List Char} {c : Char}
    (escape : EscapeText (body ++ more) c piece) : EscapeText body c piece := by
  cases escape with
  | short mem => exact .short mem
  | unit unit single => exact .unit unit fun both => single ⟨both.1, both.2.append more⟩
  | pair unit high unit' low => exact .pair unit high unit' low

/-! ## Numbers -/

/-- The digits behind a point, if there is one. -/
inductive FractionText : List Char → List Char → Prop
  | none : FractionText [] []
  | point {ds : List Char} (digits : ∀ c ∈ ds, c.isDigit = true) (some : ds ≠ []) :
    FractionText ds ('.' :: ds)

/-- How a sign is written in front of an exponent. -/
def exponentSigns : List (Bool × List Char) := [(false, []), (false, ['+']), (true, ['-'])]

/-- An exponent, if there is one. -/
inductive ExponentText : Option Int → List Char → Prop
  | none : ExponentText none []
  | some {mark : Char} {negative : Bool} {sign ds : List Char} (marked : mark = 'e' ∨ mark = 'E')
    (signed : (negative, sign) ∈ exponentSigns) (digits : ∀ c ∈ ds, c.isDigit = true)
    (some : ds ≠ []) :
    ExponentText (.some (if negative then -(wholeOfDigits 10 ds : Int) else wholeOfDigits 10 ds))
      (mark :: (sign ++ ds))

/-- A number without its sign. It is whole if it has neither a point nor an exponent. -/
inductive NumberText (negative : Bool) : Json → List Char → Prop
  | whole {ds : List Char} (leads : Leads ds) :
    NumberText negative
      (.whole (if negative then -(wholeOfDigits 10 ds : Int) else wholeOfDigits 10 ds)) ds
  | decimal {ds fraction point mark : List Char} {exponent : Option Int} (leads : Leads ds)
    (pointed : FractionText fraction point) (marked : ExponentText exponent mark)
    (some : ¬(fraction = [] ∧ exponent.isNone)) :
    NumberText negative
      (.number (Decimal.toBinary64 negative
        ⟨wholeOfDigits 10 (ds ++ fraction), exponent.getD 0 - fraction.length⟩))
      (ds ++ (point ++ mark))

/-- A minus in front of a number. -/
def sign (negative : Bool) : List Char := if negative then ['-'] else []

/-! ## Values -/

/-- What a stretch of a text stands for: a value, or what comes behind the opening bracket of an
array or object, with the closing one. -/
inductive Part
  | value (v : Json)
  | items (vs : List Json)
  | members (vs : List (String × Json))

/-- A closing bracket, with blanks in front. -/
inductive Closing (bracket : Char) : List Char → Prop
  | mk {b : List Char} (blank : Blank b) : Closing bracket (b ++ [bracket])

/-- A comma between blanks. -/
inductive Comma : List Char → Prop
  | mk {b b' : List Char} (blank : Blank b) (blank' : Blank b') : Comma (b ++ ',' :: b')

/-- A key and its colon. -/
inductive KeyText : String → List Char → Prop
  | mk {cs text b b' : List Char} (quoted : QuotedText cs text) (blank : Blank b)
    (blank' : Blank b') : KeyText (String.ofList cs) ('"' :: (text ++ (b ++ ':' :: b')))

/-- How JSON is written. -/
inductive Spells : Part → List Char → Prop
  | word {w : String} {v : Json} (mem : (w, v) ∈ words) : Spells (.value v) w.toList
  | text {cs text : List Char} (quoted : QuotedText cs text) :
    Spells (.value (.text (String.ofList cs))) ('"' :: text)
  | number {v : Json} {ds : List Char} (negative : Bool) (number : NumberText negative v ds) :
    Spells (.value v) (sign negative ++ ds)
  | noItems {ending : List Char} (close : Closing ']' ending) :
    Spells (.value (.array [])) ('[' :: ending)
  | array {vs : List Json} {b text : List Char} (blank : Blank b) (items : Spells (.items vs) text) :
    Spells (.value (.array vs)) ('[' :: (b ++ text))
  | noMembers {ending : List Char} (close : Closing '\x7d' ending) :
    Spells (.value (.object [])) ('\x7b' :: ending)
  | object {vs : List (String × Json)} {b text : List Char} (blank : Blank b)
    (members : Spells (.members vs) text) : Spells (.value (.object vs)) ('\x7b' :: (b ++ text))
  | lastItem {v : Json} {text ending : List Char} (value : Spells (.value v) text)
    (close : Closing ']' ending) : Spells (.items [v]) (text ++ ending)
  | item {v : Json} {vs : List Json} {text sep more : List Char} (value : Spells (.value v) text)
    (comma : Comma sep) (others : Spells (.items vs) more) :
    Spells (.items (v :: vs)) (text ++ (sep ++ more))
  | lastMember {key : String} {v : Json} {front text ending : List Char}
    (keyed : KeyText key front) (value : Spells (.value v) text) (close : Closing '\x7d' ending) :
    Spells (.members [(key, v)]) (front ++ (text ++ ending))
  | member {key : String} {v : Json} {vs : List (String × Json)} {front text sep more : List Char}
    (keyed : KeyText key front) (value : Spells (.value v) text) (comma : Comma sep)
    (others : Spells (.members vs) more) :
    Spells (.members ((key, v) :: vs)) (front ++ (text ++ (sep ++ more)))

/-- A text is a value between blanks. -/
def Document (v : Json) (cs : List Char) : Prop :=
  ∃ b text b', Blank b ∧ Spells (.value v) text ∧ Blank b' ∧ cs = b ++ (text ++ b')

/-! ## Too much to be read -/

/-- Digits go on with what is in front: with another digit, or with a point or an exponent. -/
inductive GoesOn : List Char → Prop
  | digit {d : Char} {rest : List Char} (digit : d.isDigit = true) : GoesOn (d :: rest)
  | point {d : Char} {rest : List Char} (digit : d.isDigit = true) : GoesOn ('.' :: d :: rest)
  | exponent {mark d : Char} {negative : Bool} {sign rest : List Char}
    (marked : mark = 'e' ∨ mark = 'E') (signed : (negative, sign) ∈ exponentSigns)
    (digit : d.isDigit = true) : GoesOn (mark :: (sign ++ d :: rest))

/-- What is being read. -/
inductive Place
  | value | items | members

/-- What is in front cannot be read with `room` for arrays and objects inside each other: behind
parts that are spelled there is a whole number with too many digits, or a bracket for which there is
no more room. -/
inductive Overruns : Place → Nat → List Char → Prop
  | digits {room : Nat} (negative : Bool) {ds rest : List Char} (leads : Leads ds)
    (long : wholeDigitLimit < ds.length) (ends : ¬GoesOn rest) :
    Overruns .value room (sign negative ++ (ds ++ rest))
  | deep {bracket : Char} {rest : List Char} (opens : bracket = '[' ∨ bracket = '\x7b') :
    Overruns .value 0 (bracket :: rest)
  | array {room : Nat} {b rest : List Char} (blank : Blank b) (items : Overruns .items room rest) :
    Overruns .value (room + 1) ('[' :: (b ++ rest))
  | object {room : Nat} {b rest : List Char} (blank : Blank b)
    (members : Overruns .members room rest) : Overruns .value (room + 1) ('\x7b' :: (b ++ rest))
  | item {room : Nat} {rest : List Char} (value : Overruns .value room rest) :
    Overruns .items room rest
  | laterItem {room : Nat} {v : Json} {text sep rest : List Char} (value : Spells (.value v) text)
    (comma : Comma sep) (items : Overruns .items room rest) :
    Overruns .items room (text ++ (sep ++ rest))
  | member {room : Nat} {key : String} {front rest : List Char} (keyed : KeyText key front)
    (value : Overruns .value room rest) : Overruns .members room (front ++ rest)
  | laterMember {room : Nat} {key : String} {v : Json} {front text sep rest : List Char}
    (keyed : KeyText key front) (value : Spells (.value v) text) (comma : Comma sep)
    (members : Overruns .members room rest) :
    Overruns .members room (front ++ (text ++ (sep ++ rest)))

/-- The text begins with more than can be read with `room` inside the outermost array or object. -/
def Overlong (room : Nat) (cs : List Char) : Prop :=
  ∃ b rest, Blank b ∧ Overruns .value (room + 1) rest ∧ cs = b ++ rest

end Json

end ScriptLexer
