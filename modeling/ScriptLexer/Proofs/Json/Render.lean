import ScriptLexer.Proofs.Json.Strings
import ScriptLexer.Proofs.Number.ReadBack

/-
  How JSON is written says what it was made from (`Json.render_inj`). What a text begins with shows
  the form of the value (`Json.Form.ofText_chars`); values without parts are set off by what comes
  after them, and those with parts follow by induction over the value, with any text behind.
-/

namespace ScriptLexer

namespace Json

/-! ## Words -/

/-- The characters of values without parts that are no string. -/
def isWordChar (c : Char) : Bool := c.isDigit || NumberLayout.isNumeralMark c || isIdentStart c

/-- The characters of whole numbers. -/
def isWholeChar (c : Char) : Bool := c.isDigit || c == '-'

theorem regular_layout : layout.Regular where
  wholeTail := rfl
  exponentMark := rfl
  infinity := ⟨⟨_, _, rfl, by decide⟩, List.all_eq_true.mp (by decide)⟩
  notANumber := ⟨⟨_, _, rfl, by decide⟩, List.all_eq_true.mp (by decide)⟩
  apart := by decide

theorem isWordChar_of_isWholeChar {c : Char} (whole : isWholeChar c = true) :
    isWordChar c = true := by
  simp only [isWholeChar, Bool.or_eq_true, beq_iff_eq] at whole
  rcases whole with digit | rfl
  · rw [isWordChar, digit, Bool.true_or, Bool.true_or]
  · rfl

/-- A whole number has digits, and perhaps a minus in front. -/
theorem whole_chars (n : Int) : (toString n).toList ≠ [] ∧
    ∀ c ∈ (toString n).toList, isWholeChar c = true := by
  have digits (n : Nat) (c : Char) (mem : c ∈ n.repr.toList) : isWholeChar c = true := by
    rw [isWholeChar, isDigit_of_mem_repr mem, Bool.true_or]
  have some (n : Nat) : n.repr.toList ≠ [] := by
    rw [Nat.repr_eq_ofList_toDigits, String.toList_ofList]
    exact Nat.toDigits_ne_nil
  cases n with
  | ofNat n => exact ⟨some n, digits n⟩
  | negSucc n =>
    show ("-" ++ n.succ.repr).toList ≠ [] ∧ ∀ c ∈ ("-" ++ n.succ.repr).toList, _
    rw [String.toList_append]
    exact ⟨List.cons_ne_nil _ _, List.forall_mem_cons.mpr ⟨rfl, digits n.succ⟩⟩

/-- Different whole numbers are written differently. -/
theorem whole_inj {n m : Int} (same : (toString n).toList = (toString m).toList) : n = m := by
  have minus (n m : Nat) : n.repr.toList ≠ ("-" ++ m.succ.repr).toList := by
    intro same
    have mem : '-' ∈ n.repr.toList := by
      rw [same, String.toList_append]
      exact List.mem_cons_self
    exact absurd (isDigit_of_mem_repr mem) (by decide)
  match n, m with
  | .ofNat n, .ofNat m => rw [eq_of_repr same]
  | .ofNat n, .negSucc m => exact absurd same (minus n m)
  | .negSucc n, .ofNat m => exact absurd same.symm (minus m n)
  | .negSucc n, .negSucc m =>
    replace same : ("-" ++ n.succ.repr).toList = ("-" ++ m.succ.repr).toList := same
    rw [String.toList_append, String.toList_append] at same
    rw [Nat.succ.inj (eq_of_repr (List.append_cancel_left same))]

theorem write_chars (x : Binary64) : ∀ c ∈ (layout.write x).toList, isWordChar c = true := by
  intro c mem
  simpa [isWordChar, or_assoc] using regular_layout.write_chars x c mem

/-- What the words begin with that are no numbers. -/
def beginsWord (c : Char) : Bool := c == 'n' || c == 't' || c == 'f'

/-- What tells the text of a number from other words: something stands in it that no whole number
has, and it has another first letter than the words that are no numbers. -/
structure IsNumber (text : List Char) : Prop where
  marked : ∃ c ∈ text, isWholeChar c = false
  head : ∃ c rest, text = c :: rest ∧ beginsWord c = false

theorem isNumber_magnitude (rank : Fin (Binary64.infinityRank + 1)) :
    IsNumber (layout.write (.signed false rank)).toList := by
  by_cases finite : rank.val < Binary64.infinityRank
  · rw [NumberLayout.write_of_finite layout finite]
    have numeral := regular_layout.isNumeral_writeDecimal (Binary64.shortest rank)
    constructor
    case marked =>
      rcases numeral.marked with mem | mem
      · exact ⟨_, mem, rfl⟩
      · exact ⟨_, mem, rfl⟩
    case head =>
      obtain ⟨c, rest, text, digit⟩ := numeral.head
      refine ⟨c, rest, text, Bool.eq_false_iff.mpr fun letter => ?_⟩
      simp only [beginsWord, Bool.or_eq_true, beq_iff_eq] at letter
      rcases letter with (rfl | rfl) | rfl <;> contradiction
  · rw [NumberLayout.write_of_infinite layout finite]
    exact ⟨⟨'I', by decide, rfl⟩, _, _, rfl, by decide⟩

theorem isNumber_write (x : Binary64) : IsNumber (layout.write x).toList := by
  match x with
  | .nan => exact ⟨⟨'N', by decide, rfl⟩, _, _, rfl, by decide⟩
  | .signed false rank => exact isNumber_magnitude rank
  | .signed true rank =>
    obtain ⟨c, mem, other⟩ := (isNumber_magnitude rank).marked
    rw [NumberLayout.write_negative]
    exact ⟨⟨c, List.mem_cons_of_mem _ mem, other⟩, '-', _, rfl, by decide⟩

/-! ## Forms -/

/-- What a value is, apart from what it holds. -/
inductive Form
  | null | bool (value : Bool) | whole | number | text | array | object
deriving DecidableEq

def form : Json → Form
  | null => .null
  | bool value => .bool value
  | whole _ => .whole
  | number _ => .number
  | text _ => .text
  | array _ => .array
  | object _ => .object

/-- The form of the value that a text begins with. -/
def Form.ofText (text : List Char) : Form :=
  let word := text.takeWhile isWordChar
  if word = [] then
    if text.head? = some '"' then .text else if text.head? = some '[' then .array else .object
  else if word = ['n', 'u', 'l', 'l'] then .null
  else if word = ['t', 'r', 'u', 'e'] then .bool true
  else if word = ['f', 'a', 'l', 's', 'e'] then .bool false
  else if word.all isWholeChar then .whole else .number

/-- Nothing that could belong to a word in front. -/
def EndsWord (text : List Char) : Prop := ∀ c ∈ text.head?, isWordChar c = false

theorem Form.ofText_whole (n : Int) {a : List Char} (ends : EndsWord a) :
    ofText ((toString n).toList ++ a) = .whole := by
  obtain ⟨some, chars⟩ := whole_chars n
  have word := takeWhile_split (fun c mem => isWordChar_of_isWholeChar (chars c mem)) ends
  have all : (toString n).toList.all isWholeChar = true := List.all_eq_true.mpr chars
  have other {letters : List Char} (differ : letters.all isWholeChar = false) :
      (toString n).toList ≠ letters := by
    rintro rfl
    rw [all] at differ
    contradiction
  simp only [ofText, word]
  rw [if_neg some, if_neg (other rfl), if_neg (other rfl), if_neg (other rfl), if_pos all]

theorem Form.ofText_number (x : Binary64) {a : List Char} (ends : EndsWord a) :
    ofText ((layout.write x).toList ++ a) = .number := by
  have number := isNumber_write x
  have word := takeWhile_split (write_chars x) ends
  have marked : ¬(layout.write x).toList.all isWholeChar = true := by
    obtain ⟨c, mem, other⟩ := number.marked
    intro all
    rw [List.all_eq_true.mp all c mem] at other
    contradiction
  obtain ⟨c, rest, text, head⟩ := number.head
  have other {d : Char} {letters : List Char} (named : beginsWord d = true) :
      (layout.write x).toList ≠ d :: letters := by
    rw [text]
    rintro ⟨⟩
    rw [named] at head
    contradiction
  simp only [ofText, word]
  rw [if_neg (by rw [text]; exact List.cons_ne_nil c rest), if_neg (other rfl),
    if_neg (other rfl), if_neg (other rfl), if_neg marked]

/-- What a text begins with shows the form of the value. -/
theorem Form.ofText_chars (level : Nat) (v : Json) {a : List Char} (ends : EndsWord a) :
    ofText (chars level v ++ a) = v.form := by
  have word (letters : List Char) (all : letters.all isWordChar = true) :=
    takeWhile_split (List.all_eq_true.mp all) ends
  match v with
  | .null =>
    simp only [ofText, chars, word ['n', 'u', 'l', 'l'] rfl]
    rfl
  | .bool true =>
    simp only [ofText, chars, word ['t', 'r', 'u', 'e'] rfl]
    rfl
  | .bool false =>
    simp only [ofText, chars, word ['f', 'a', 'l', 's', 'e'] rfl]
    rfl
  | .whole n => rw [chars]; exact ofText_whole n ends
  | .number x => rw [chars]; exact ofText_number x ends
  | .text s => rw [chars]; rfl
  | .array [] => rw [chars]; rfl
  | .array (item :: items) => rw [chars]; rfl
  | .object [] => rw [chars]; rfl
  | .object ((key, value) :: members) => rw [chars]; rfl

/-! ## Whole values -/

theorem endsWord_newline (level : Nat) (text : List Char) : EndsWord (newline level ++ text) := by
  intro c mem
  cases mem
  rfl

theorem endsWord_itemChars (level k : Nat) (items : List Json) (text : List Char) :
    EndsWord (itemChars level items ++ (newline k ++ text)) := by
  cases items with
  | nil =>
    rw [itemChars]
    exact endsWord_newline k text
  | cons item items =>
    rw [itemChars]
    intro c mem
    cases mem
    rfl

theorem endsWord_memberChars (level k : Nat) (members : List (String × Json)) (text : List Char) :
    EndsWord (memberChars level members ++ (newline k ++ text)) := by
  cases members with
  | nil =>
    rw [memberChars]
    exact endsWord_newline k text
  | cons member members =>
    rw [memberChars]
    intro c mem
    cases mem
    rfl

mutual

/-- A value says what it is and where it ends. -/
theorem chars_append_inj (level : Nat) (v w : Json) {a b : List Char} (ends : EndsWord a)
    (ends' : EndsWord b) (same : chars level v ++ a = chars level w ++ b) : v = w ∧ a = b := by
  have form := Form.ofText_chars level v ends
  rw [same, Form.ofText_chars level w ends'] at form
  match v, w, form with
  | .null, .null, _ =>
    rw [chars] at same
    exact ⟨rfl, List.append_cancel_left same⟩
  | .bool x, .bool y, form =>
    obtain rfl : y = x := Form.bool.inj form
    exact ⟨rfl, List.append_cancel_left same⟩
  | .whole n, .whole m, _ =>
    rw [chars, chars] at same
    have whole (n : Int) (c : Char) (mem : c ∈ (toString n).toList) :=
      isWordChar_of_isWholeChar ((whole_chars n).2 c mem)
    obtain ⟨texts, rests⟩ := split_inj (whole n) ends (whole m) ends' same
    rw [whole_inj texts]
    exact ⟨rfl, rests⟩
  | .number x, .number y, _ =>
    rw [chars, chars] at same
    obtain ⟨texts, rests⟩ := split_inj (write_chars x) ends (write_chars y) ends' same
    rw [regular_layout.write_inj (String.toList_inj.mp texts)]
    exact ⟨rfl, rests⟩
  | .text s, .text t, _ =>
    rw [chars, chars] at same
    obtain ⟨rfl, rests⟩ := stringChars_append_inj same
    exact ⟨rfl, rests⟩
  | .array [], .array [], _ =>
    rw [chars] at same
    exact ⟨rfl, List.append_cancel_left same⟩
  | .array [], .array (_ :: _), _ =>
    rw [chars, chars] at same
    cases same
  | .array (_ :: _), .array [], _ =>
    rw [chars, chars] at same
    cases same
  | .array (i :: is), .array (j :: js), _ =>
    simp only [chars, List.cons_append, List.append_assoc, List.cons.injEq, true_and] at same
    replace same := List.append_cancel_left same
    obtain ⟨rfl, others⟩ := chars_append_inj (level + 1) i j (endsWord_itemChars _ _ _ _)
      (endsWord_itemChars _ _ _ _) same
    obtain ⟨rfl, rests⟩ := itemChars_append_inj (level + 1) level is js others
    exact ⟨rfl, (List.cons.inj rests).2⟩
  | .object [], .object [], _ =>
    rw [chars] at same
    exact ⟨rfl, List.append_cancel_left same⟩
  | .object [], .object (_ :: _), _ =>
    rw [chars, chars] at same
    cases same
  | .object (_ :: _), .object [], _ =>
    rw [chars, chars] at same
    cases same
  | .object ((key, v) :: ms), .object ((key', w) :: ns), _ =>
    simp only [chars, List.cons_append, List.append_assoc, List.cons.injEq, true_and] at same
    obtain ⟨rfl, values⟩ := stringChars_append_inj (List.append_cancel_left same)
    replace values := (List.cons.inj (List.cons.inj values).2).2
    obtain ⟨rfl, others⟩ := chars_append_inj (level + 1) v w (endsWord_memberChars _ _ _ _)
      (endsWord_memberChars _ _ _ _) values
    obtain ⟨rfl, rests⟩ := memberChars_append_inj (level + 1) level ms ns others
    exact ⟨rfl, (List.cons.inj rests).2⟩

theorem itemChars_append_inj (level k : Nat) (is js : List Json) {a b : List Char}
    (same : itemChars level is ++ (newline k ++ a) = itemChars level js ++ (newline k ++ b)) :
    is = js ∧ a = b := by
  match is, js with
  | [], [] =>
    rw [itemChars] at same
    exact ⟨rfl, List.append_cancel_left same⟩
  | [], _ :: _ =>
    rw [itemChars, itemChars] at same
    cases same
  | _ :: _, [] =>
    rw [itemChars, itemChars] at same
    cases same
  | i :: is, j :: js =>
    simp only [itemChars, List.cons_append, List.append_assoc, List.cons.injEq, true_and] at same
    obtain ⟨rfl, others⟩ := chars_append_inj level i j (endsWord_itemChars _ _ _ _)
      (endsWord_itemChars _ _ _ _) (List.append_cancel_left same)
    obtain ⟨rfl, rests⟩ := itemChars_append_inj level k is js others
    exact ⟨rfl, rests⟩

theorem memberChars_append_inj (level k : Nat) (ms ns : List (String × Json)) {a b : List Char}
    (same : memberChars level ms ++ (newline k ++ a) = memberChars level ns ++ (newline k ++ b)) :
    ms = ns ∧ a = b := by
  match ms, ns with
  | [], [] =>
    rw [memberChars] at same
    exact ⟨rfl, List.append_cancel_left same⟩
  | [], (_, _) :: _ =>
    rw [memberChars, memberChars] at same
    cases same
  | (_, _) :: _, [] =>
    rw [memberChars, memberChars] at same
    cases same
  | (key, v) :: ms, (key', w) :: ns =>
    simp only [memberChars, List.cons_append, List.append_assoc, List.cons.injEq, true_and] at same
    obtain ⟨rfl, values⟩ := stringChars_append_inj (List.append_cancel_left same)
    replace values := (List.cons.inj (List.cons.inj values).2).2
    obtain ⟨rfl, others⟩ := chars_append_inj level v w (endsWord_memberChars _ _ _ _)
      (endsWord_memberChars _ _ _ _) values
    obtain ⟨rfl, rests⟩ := memberChars_append_inj level k ms ns others
    exact ⟨rfl, rests⟩

end

/-- Different values are written differently. -/
theorem render_inj {v w : Json} (same : v.render = w.render) : v = w := by
  have texts : chars 0 v ++ [] = chars 0 w ++ [] := by
    rw [List.append_nil, List.append_nil, ← String.ofList_inj]
    exact same
  have ends : EndsWord [] := by
    intro c mem
    cases mem
  exact (chars_append_inj 0 v w ends ends texts).1

end Json

end ScriptLexer
