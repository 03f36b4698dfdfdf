import ScriptLexer.Proofs.Scan.Fit

/-
  The grammar of decimals beside the parts that a decimal moves through. From each part on, what
  is accepted has a shape (`DecimalPart.accepts_whole_iff`), and a row of marks is faultless when
  all of it is accepted and it ends in a digit. So the decimals without a fault are the numerals
  of the grammar (`decimalRun_faultless_iff`, `decimalRun_point_faultless_iff`).
-/

namespace ScriptLexer

/-! ## The grammar -/

/-- `D*` -/
def Digits (text : List Char) : Prop := ∀ c ∈ text, c.isDigit = true

/-- `[. D*]` -/
inductive Fraction : List Char → Prop
  | absent : Fraction []
  | present {digits : List Char} (all : Digits digits) : Fraction ('.' :: digits)

/-- `[+|-]` -/
inductive Sign : List Char → Prop
  | absent : Sign []
  | plus : Sign ['+']
  | minus : Sign ['-']

/-- `(e|E) [+|-] D*` -/
def MarkedExponent (text digits : List Char) : Prop :=
  ∃ mark sign, text = mark :: (sign ++ digits) ∧ (mark = 'e' ∨ mark = 'E') ∧ Sign sign ∧
    Digits digits

/-- `[(e|E) [+|-] D+]` -/
inductive Exponent : List Char → Prop
  | absent : Exponent []
  | present {text digits : List Char} (marked : MarkedExponent text digits)
    (some : digits ≠ []) : Exponent text

/-- `D+ [. D*] [(e|E) [+|-] D+]` -/
def IsNumeral (text : List Char) : Prop :=
  ∃ whole fraction exponent, text = whole ++ (fraction ++ exponent) ∧ whole ≠ [] ∧
    Digits whole ∧ Fraction fraction ∧ Exponent exponent

/-- `. D+ [(e|E) [+|-] D+]` -/
def IsPointNumeral (text : List Char) : Prop :=
  ∃ digits exponent, text = '.' :: (digits ++ exponent) ∧ digits ≠ [] ∧ Digits digits ∧
    Exponent exponent

theorem digits_nil : Digits [] := by
  intro c h
  contradiction

theorem digits_cons {c : Char} {text : List Char} :
    Digits (c :: text) ↔ c.isDigit = true ∧ Digits text := List.forall_mem_cons

/-! ## What is accepted from a part on -/

namespace DecimalPart

/-- Every character of the text belongs to a decimal that has reached the part. -/
def Accepts : DecimalPart → List Char → Prop
  | _, [] => True
  | part, c :: rest => ∃ next, part.next? c = some next ∧ Accepts next rest

/-- The part after a digit. -/
def afterDigit : DecimalPart → DecimalPart
  | exponentMark => exponent
  | other => other

theorem next?_of_isDigit {c : Char} (digit : c.isDigit = true) (part : DecimalPart) :
    part.next? c = some part.afterDigit := by
  unfold next?
  rw [if_pos digit]
  cases part <;> rfl

theorem accepts_cons_of_isDigit {c : Char} (digit : c.isDigit = true) (part : DecimalPart)
    (rest : List Char) : part.Accepts (c :: rest) ↔ part.afterDigit.Accepts rest := by
  rw [Accepts, next?_of_isDigit digit]
  simp

theorem accepts_digits_append {part : DecimalPart} (stays : part.afterDigit = part)
    {digits : List Char} (all : Digits digits) (rest : List Char) :
    part.Accepts (digits ++ rest) ↔ part.Accepts rest := by
  induction digits with
  | nil => rfl
  | cons c digits ih =>
    rw [digits_cons] at all
    rw [List.cons_append, accepts_cons_of_isDigit all.1, stays, ih all.2]

theorem accepts_exponent_iff {text : List Char} : exponent.Accepts text ↔ Digits text := by
  constructor
  · intro h
    induction text with
    | nil => exact digits_nil
    | cons c rest ih =>
      by_cases digit : c.isDigit = true
      · rw [accepts_cons_of_isDigit digit] at h
        exact digits_cons.mpr ⟨digit, ih h⟩
      · obtain ⟨next, step, _⟩ := h
        unfold next? at step
        rw [if_neg digit] at step
        contradiction
  · intro h
    rw [← List.append_nil text, accepts_digits_append rfl h]
    trivial

theorem accepts_exponentMark_iff {text : List Char} :
    exponentMark.Accepts text ↔ ∃ sign digits, text = sign ++ digits ∧ Sign sign ∧
      Digits digits := by
  constructor
  · intro h
    cases text with
    | nil => exact ⟨[], [], rfl, .absent, digits_nil⟩
    | cons c rest =>
      by_cases digit : c.isDigit = true
      · rw [accepts_cons_of_isDigit digit] at h
        exact ⟨[], c :: rest, rfl, .absent,
          digits_cons.mpr ⟨digit, accepts_exponent_iff.mp h⟩⟩
      · obtain ⟨next, step, accepted⟩ := h
        unfold next? at step
        rw [if_neg digit] at step
        dsimp only at step
        split at step
        · next sign =>
          cases step
          have digits := accepts_exponent_iff.mp accepted
          simp only [isSign, Bool.or_eq_true, beq_iff_eq] at sign
          rcases sign with rfl | rfl
          · exact ⟨['+'], rest, rfl, .plus, digits⟩
          · exact ⟨['-'], rest, rfl, .minus, digits⟩
        · contradiction
  · rintro ⟨sign, digits, rfl, signed, all⟩
    cases signed with
    | absent =>
      cases digits with
      | nil => trivial
      | cons c digits =>
        rw [digits_cons] at all
        rw [List.nil_append, accepts_cons_of_isDigit all.1]
        exact accepts_exponent_iff.mpr all.2
    | plus => exact ⟨exponent, rfl, accepts_exponent_iff.mpr all⟩
    | minus => exact ⟨exponent, rfl, accepts_exponent_iff.mpr all⟩

/-- `[(e|E) [+|-] D*]` -/
def ExponentOrNone (text : List Char) : Prop := text = [] ∨ ∃ digits, MarkedExponent text digits

/-- Behind an exponent mark. -/
theorem exponentOrNone_cons {c : Char} {rest : List Char} (mark : isExponentMark c = true)
    (h : exponentMark.Accepts rest) : ExponentOrNone (c :: rest) := by
  obtain ⟨sign, digits, rfl, signed, all⟩ := accepts_exponentMark_iff.mp h
  simp only [isExponentMark, Bool.or_eq_true, beq_iff_eq] at mark
  exact Or.inr ⟨digits, c, sign, rfl, mark, signed, all⟩

theorem accepts_of_exponentOrNone {part : DecimalPart} (before : part = whole ∨ part = fraction)
    {text : List Char} (h : ExponentOrNone text) : part.Accepts text := by
  rcases h with rfl | ⟨digits, mark, sign, rfl, marked, signed, all⟩
  · trivial
  · refine ⟨exponentMark, ?_, accepts_exponentMark_iff.mpr ⟨sign, digits, rfl, signed, all⟩⟩
    rcases before with rfl | rfl <;> rcases marked with rfl | rfl <;> rfl

theorem accepts_fraction_iff {text : List Char} :
    fraction.Accepts text ↔ ∃ digits tail, text = digits ++ tail ∧ Digits digits ∧
      ExponentOrNone tail := by
  constructor
  · intro h
    induction text with
    | nil => exact ⟨[], [], rfl, digits_nil, Or.inl rfl⟩
    | cons c rest ih =>
      by_cases digit : c.isDigit = true
      · rw [accepts_cons_of_isDigit digit] at h
        obtain ⟨digits, tail, rfl, all, exponent⟩ := ih h
        exact ⟨c :: digits, tail, rfl, digits_cons.mpr ⟨digit, all⟩, exponent⟩
      · obtain ⟨next, step, accepted⟩ := h
        unfold next? at step
        rw [if_neg digit] at step
        dsimp only at step
        split at step
        · next mark =>
          cases step
          exact ⟨[], c :: rest, rfl, digits_nil, exponentOrNone_cons mark accepted⟩
        · contradiction
  · rintro ⟨digits, tail, rfl, all, exponent⟩
    rw [accepts_digits_append rfl all]
    exact accepts_of_exponentOrNone (Or.inr rfl) exponent

/-- What is accepted behind the first digit: `D* [. D*] [(e|E) [+|-] D*]`. -/
theorem accepts_whole_iff {text : List Char} :
    whole.Accepts text ↔ ∃ digits point tail, text = digits ++ (point ++ tail) ∧
      Digits digits ∧ Fraction point ∧ ExponentOrNone tail := by
  constructor
  · intro h
    induction text with
    | nil => exact ⟨[], [], [], rfl, digits_nil, .absent, Or.inl rfl⟩
    | cons c rest ih =>
      by_cases digit : c.isDigit = true
      · rw [accepts_cons_of_isDigit digit] at h
        obtain ⟨digits, point, tail, rfl, all, behind⟩ := ih h
        exact ⟨c :: digits, point, tail, rfl, digits_cons.mpr ⟨digit, all⟩, behind⟩
      · obtain ⟨next, step, accepted⟩ := h
        unfold next? at step
        rw [if_neg digit] at step
        dsimp only at step
        split at step
        · next dot =>
          cases step
          subst dot
          obtain ⟨digits, tail, rfl, all, exponent⟩ := accepts_fraction_iff.mp accepted
          exact ⟨[], '.' :: digits, tail, rfl, digits_nil, .present all, exponent⟩
        split at step
        · next mark =>
          cases step
          exact ⟨[], [], c :: rest, rfl, digits_nil, .absent, exponentOrNone_cons mark accepted⟩
        · contradiction
  · rintro ⟨digits, point, tail, rfl, all, pointed, exponent⟩
    rw [accepts_digits_append rfl all]
    cases pointed with
    | absent => exact accepts_of_exponentOrNone (Or.inl rfl) exponent
    | present fractional =>
      exact ⟨fraction, rfl, accepts_fraction_iff.mpr ⟨_, tail, rfl, fractional, exponent⟩⟩

end DecimalPart

open DecimalPart

/-! ## Rows of marks without a fault -/

theorem decimalMarks_faultless_iff {part : DecimalPart} {text : List Char} :
    (∀ m ∈ decimalMarks part text, m.fault = none) ↔
      part.Accepts text ∧ ∀ c ∈ text.getLast?, c.isDigit = true := by
  induction text generalizing part with
  | nil => simp [decimalMarks, Accepts]
  | cons c rest ih =>
    unfold decimalMarks
    split
    · next next step =>
      rw [List.forall_mem_cons, ih, Accepts]
      cases rest with
      | nil => by_cases digit : c.isDigit = true <;> simp [step, digit, Accepts]
      | cons d rest =>
        rw [List.getLast?_cons_cons]
        simp [step]
    · next step =>
      rw [List.forall_mem_cons, Accepts]
      simp [step, Mark.stray]

/-- The exponent of an accepted text that ends in a digit is not left without digits. -/
theorem exponent_of_last_digit {front tail : List Char} (h : ExponentOrNone tail)
    (last : ∀ c ∈ (front ++ tail).getLast?, c.isDigit = true) : Exponent tail := by
  rcases h with rfl | ⟨digits, marked⟩
  · exact .absent
  · refine .present marked ?_
    obtain ⟨mark, sign, rfl, named, signed, -⟩ := marked
    rintro rfl
    rw [List.append_nil, List.getLast?_append_cons] at last
    cases signed with
    | absent => rcases named with rfl | rfl <;> exact absurd (last _ rfl) (by decide)
    | plus => exact absurd (last '+' rfl) (by decide)
    | minus => exact absurd (last '-' rfl) (by decide)

theorem Exponent.orNone {text : List Char} (h : Exponent text) : ExponentOrNone text := by
  cases h with
  | absent => exact Or.inl rfl
  | present marked some => exact Or.inr ⟨_, marked⟩

/-- An exponent ends in a digit. -/
theorem Exponent.last {text : List Char} (h : Exponent text) :
    ∀ c ∈ text.getLast?, c.isDigit = true := by
  cases h with
  | absent =>
    intro c mem
    contradiction
  | present marked some =>
    obtain ⟨mark, sign, rfl, -, -, all⟩ := marked
    intro c mem
    rw [← List.cons_append, List.getLast?_append_of_ne_nil _ some] at mem
    exact all c (List.mem_of_getLast? mem)

theorem getLast?_append_isDigit {front tail : List Char}
    (h : ∀ c ∈ front.getLast?, c.isDigit = true) (ht : ∀ c ∈ tail.getLast?, c.isDigit = true) :
    ∀ c ∈ (front ++ tail).getLast?, c.isDigit = true := by
  intro c mem
  rw [List.getLast?_append] at mem
  rcases Option.or_eq_some_iff.mp mem with mem | ⟨-, mem⟩
  · exact ht c mem
  · exact h c mem

theorem Digits.last {text : List Char} (h : Digits text) :
    ∀ c ∈ text.getLast?, c.isDigit = true :=
  fun c mem => h c (List.mem_of_getLast? mem)

theorem Fraction.last {text : List Char} (h : Fraction text) :
    text = ['.'] ∨ ∀ c ∈ text.getLast?, c.isDigit = true := by
  cases h with
  | absent => exact Or.inr digits_nil.last
  | @present digits all =>
    cases digits with
    | nil => exact Or.inl rfl
    | cons c digits =>
      rw [List.getLast?_cons_cons]
      exact Or.inr all.last

theorem isDigit_ne_point {c : Char} (h : c.isDigit = true) : c ≠ '.' := by
  rintro rfl
  exact absurd h (by decide)

/-- Accepted up to a last digit, behind a first one: a numeral that does not end in its point. -/
theorem accepts_whole_last_iff {head : Char} {rest : List Char} (digit : head.isDigit = true)
    (longer : rest ≠ []) :
    (whole.Accepts rest ∧ ∀ c ∈ rest.getLast?, c.isDigit = true) ↔
      IsNumeral (head :: rest) ∧ (head :: rest).getLast? ≠ some '.' := by
  have same : (head :: rest).getLast? = rest.getLast? := by
    obtain ⟨d, more, rfl⟩ := List.exists_cons_of_ne_nil longer
    exact List.getLast?_cons_cons
  rw [same]
  constructor
  · rintro ⟨accepted, last⟩
    obtain ⟨digits, point, tail, rfl, all, pointed, exponent⟩ := accepts_whole_iff.mp accepted
    refine ⟨⟨head :: digits, point, tail, rfl, List.cons_ne_nil _ _,
      digits_cons.mpr ⟨digit, all⟩, pointed, ?_⟩, ?_⟩
    · rw [← List.append_assoc] at last
      exact exponent_of_last_digit exponent last
    · intro point
      exact isDigit_ne_point (last '.' point) rfl
  · rintro ⟨⟨whole, point, tail, e, some, all, pointed, exponent⟩, last⟩
    obtain ⟨d, digits, rfl⟩ := List.exists_cons_of_ne_nil some
    rw [List.cons_append, List.cons.injEq] at e
    obtain ⟨rfl, rfl⟩ := e
    rw [digits_cons] at all
    refine ⟨accepts_whole_iff.mpr ⟨digits, point, tail, rfl, all.2, pointed, exponent.orNone⟩, ?_⟩
    rcases pointed.last with rfl | ends
    · cases exponent with
      | absent =>
        rw [List.append_nil, List.getLast?_append_of_ne_nil _ (List.cons_ne_nil _ _)] at last
        exact absurd rfl last
      | present marked some =>
        have last := (Exponent.present marked some).last
        obtain ⟨mark, sign, rfl, -⟩ := marked
        rw [← List.append_assoc, List.getLast?_append_of_ne_nil _ (List.cons_ne_nil _ _)]
        exact last
    · exact getLast?_append_isDigit all.2.last (getLast?_append_isDigit ends exponent.last)

/-- Accepted behind a point, from a digit up to a last one. -/
theorem accepts_fraction_last_iff {next : Char} {rest : List Char}
    (digit : next.isDigit = true) :
    (fraction.Accepts (next :: rest) ∧ ∀ c ∈ (next :: rest).getLast?, c.isDigit = true) ↔
      IsPointNumeral ('.' :: next :: rest) := by
  constructor
  · rintro ⟨accepted, last⟩
    obtain ⟨digits, tail, e, all, exponent⟩ := accepts_fraction_iff.mp accepted
    rw [e] at last
    refine ⟨digits, tail, by rw [e], ?_, all, exponent_of_last_digit exponent last⟩
    rintro rfl
    rw [List.nil_append] at e
    subst e
    rcases exponent with none | ⟨digits, mark, sign, e, marked, -⟩
    · contradiction
    · obtain ⟨rfl, -⟩ := List.cons.inj e
      rcases marked with rfl | rfl <;> exact absurd digit (by decide)
  · rintro ⟨digits, tail, e, some, all, exponent⟩
    obtain ⟨-, e⟩ := List.cons.inj e
    rw [e]
    exact ⟨accepts_fraction_iff.mpr ⟨digits, tail, rfl, all, exponent.orNone⟩,
      getLast?_append_isDigit all.last exponent.last⟩

/-! ## Numerals in their text -/

theorem continuesDecimal_of_next? {c : Char} {next : DecimalPart}
    (step : whole.next? c = some next) : continuesDecimal c = true := by
  rw [continuesDecimal_iff]
  by_cases digit : c.isDigit = true
  · exact Or.inl digit
  · unfold next? at step
    rw [if_neg digit] at step
    dsimp only at step
    split at step
    · next point => exact Or.inr (Or.inl point)
    split at step
    · next mark =>
      simp only [isExponentMark, Bool.or_eq_true, beq_iff_eq] at mark
      exact Or.inr (Or.inr mark)
    · contradiction

theorem Digits.not_isBlank {text : List Char} (h : Digits text) :
    ∀ c ∈ text, isBlank c = false :=
  fun c mem => not_isBlank_of_isDigit (h c mem)

theorem Fraction.not_isBlank {text : List Char} (h : Fraction text) :
    ∀ c ∈ text, isBlank c = false := by
  cases h with
  | absent => exact digits_nil.not_isBlank
  | present all => exact List.forall_mem_cons.mpr ⟨by decide, all.not_isBlank⟩

theorem Sign.not_isBlank {text : List Char} (h : Sign text) :
    ∀ c ∈ text, isBlank c = false := by
  cases h with
  | absent => exact nofun
  | plus => exact List.forall_mem_singleton.mpr (by decide)
  | minus => exact List.forall_mem_singleton.mpr (by decide)

theorem Exponent.not_isBlank {text : List Char} (h : Exponent text) :
    ∀ c ∈ text, isBlank c = false := by
  cases h with
  | absent => exact digits_nil.not_isBlank
  | present marked some =>
    obtain ⟨mark, sign, rfl, named, signed, all⟩ := marked
    rw [List.forall_mem_cons, List.forall_mem_append]
    refine ⟨?_, signed.not_isBlank, all.not_isBlank⟩
    rcases named with rfl | rfl <;> decide

theorem IsNumeral.not_isBlank {text : List Char} (h : IsNumeral text) :
    ∀ c ∈ text, isBlank c = false := by
  obtain ⟨whole, point, tail, rfl, -, all, pointed, exponent⟩ := h
  rw [List.forall_mem_append, List.forall_mem_append]
  exact ⟨all.not_isBlank, pointed.not_isBlank, exponent.not_isBlank⟩

theorem IsPointNumeral.not_isBlank {text : List Char} (h : IsPointNumeral text) :
    ∀ c ∈ text, isBlank c = false := by
  obtain ⟨digits, tail, rfl, -, all, exponent⟩ := h
  rw [List.forall_mem_cons, List.forall_mem_append]
  exact ⟨by decide, all.not_isBlank, exponent.not_isBlank⟩

/-- Behind the first digit a longer numeral goes on as a decimal does. -/
theorem IsNumeral.continues {head next : Char} {rest : List Char}
    (h : IsNumeral (head :: next :: rest)) (digit : head.isDigit = true)
    (last : (head :: next :: rest).getLast? ≠ some '.') : continuesDecimal next = true := by
  obtain ⟨⟨part, step, -⟩, -⟩ :=
    (accepts_whole_last_iff digit (List.cons_ne_nil next rest)).mpr ⟨h, last⟩
  exact continuesDecimal_of_next? step

theorem IsPointNumeral.exists_digit {text : List Char} (h : IsPointNumeral text) :
    ∃ next rest, text = '.' :: next :: rest ∧ next.isDigit = true := by
  obtain ⟨digits, tail, rfl, some, all, -⟩ := h
  obtain ⟨next, digits, rfl⟩ := List.exists_cons_of_ne_nil some
  exact ⟨next, digits ++ tail, rfl, (digits_cons.mp all).1⟩

/-! ## Decimals without a fault -/

theorem decimalRun_of_continues {next : Char} (goes : continuesDecimal next = true)
    (head : Char) (rest : List Char) :
    decimalRun head (next :: rest) = .keep head ::
      decimalMarks (if head = '.' then .fraction else .whole) (run (next :: rest)) := by
  rw [decimalRun]
  exact if_pos goes

theorem decimalRun_map_char_of_continues {next : Char} (goes : continuesDecimal next = true)
    (head : Char) (rest : List Char) :
    (decimalRun head (next :: rest)).map (·.char) = head :: run (next :: rest) := by
  rw [decimalRun_of_continues goes, List.map_cons, decimalMarks_map_char]
  rfl

/-- A first digit that nothing goes on behind. -/
theorem decimalRun_of_ends {rest : List Char}
    (ends : ∀ c ∈ rest.head?, ¬continuesDecimal c = true) (head : Char) :
    decimalRun head rest = [.keep head] := by
  unfold decimalRun
  refine if_neg ?_
  cases rest with
  | nil => exact Bool.false_ne_true
  | cons c rest => exact ends c rfl

/-- A decimal that goes on behind a first digit. -/
theorem decimalRun_faultless_iff {head next : Char} {rest : List Char}
    (digit : head.isDigit = true) (goes : continuesDecimal next = true) :
    (∀ m ∈ decimalRun head (next :: rest), m.fault = none) ↔
      IsNumeral (head :: run (next :: rest)) ∧
        (head :: run (next :: rest)).getLast? ≠ some '.' := by
  have longer : run (next :: rest) ≠ [] := by
    rw [run_cons (not_isBlank_of_continues goes)]
    exact List.cons_ne_nil _ _
  rw [decimalRun_of_continues goes, if_neg (isDigit_ne_point digit), List.forall_mem_cons,
    decimalMarks_faultless_iff, ← accepts_whole_last_iff digit longer]
  exact and_iff_right rfl

/-- A decimal that begins with its point. -/
theorem decimalRun_point_faultless_iff {next : Char} {rest : List Char}
    (digit : next.isDigit = true) :
    (∀ m ∈ decimalRun '.' (next :: rest), m.fault = none) ↔
      IsPointNumeral ('.' :: run (next :: rest)) := by
  have goes : continuesDecimal next = true := by
    rw [continuesDecimal, digit]
    rfl
  rw [decimalRun_of_continues goes, if_pos rfl, List.forall_mem_cons,
    decimalMarks_faultless_iff, run_cons (not_isBlank_of_continues goes), ← accepts_fraction_last_iff digit]
  exact and_iff_right rfl

end ScriptLexer
