import ScriptLexer.Proofs.Json.Grammar

/-
  What the reader takes stands in the text. Every answer of a reader is borne out by the grammar
  (`JsonReader.BorneOut`): a value that is read is spelled in front of what is left, and the reader
  gives up only where there is too much to be read. So a text that is read is a document
  (`Json.document_of_read`), and one that is given up on begins with too much
  (`Json.overlong_of_read`).
-/

namespace ScriptLexer

namespace JsonReader

open Json

/-! ## Answers of the reader -/

/-- The answer of a reader is borne out by the text: what it takes stands in front, and it gives up
only where there is too much to be read. -/
inductive BorneOut {α : Type} (spells : α → List Char → Prop) (tooMuch : Prop) (cs : List Char) :
    Except JsonFault (Ahead α) → Prop
  | taken {a : α} {text rest : List Char} (split : cs = text ++ rest) (spelled : spells a text) :
    BorneOut spells tooMuch cs (.ok (a, rest))
  | malformed : BorneOut spells tooMuch cs (.error .malformed)
  | givenUp {fault : JsonFault} (much : tooMuch) : BorneOut spells tooMuch cs (.error fault)

/-- What is read behind a text that is read already. -/
theorem BorneOut.behind {α β : Type} {spells : α → List Char → Prop}
    {spells' : β → List Char → Prop} {tooMuch tooMuch' : Prop} {cs whole front : List Char}
    {result : Except JsonFault (Ahead α)} (borneOut : BorneOut spells tooMuch cs result)
    (split : whole = front ++ cs) (f : α → β)
    (spelled : ∀ a text rest, cs = text ++ rest → spells a text → spells' (f a) (front ++ text))
    (exceeds : tooMuch → tooMuch') :
    BorneOut spells' tooMuch' whole (result.bind fun r => .ok (f r.1, r.2)) := by
  cases borneOut with
  | taken split' here =>
    exact .taken (by rw [split, split', List.append_assoc]) (spelled _ _ _ split' here)
  | malformed => exact .malformed
  | givenUp much => exact .givenUp (exceeds much)

/-! ## Blanks -/

theorem skipSpace_split (cs : List Char) : ∃ b, Blank b ∧ cs = b ++ skipSpace cs :=
  ⟨cs.takeWhile isSpace, List.all_eq_true.mp List.all_takeWhile,
    List.takeWhile_append_dropWhile.symm⟩

theorem exists_closing {bracket : Char} {cs after : List Char}
    (skip : skipSpace cs = bracket :: after) :
    ∃ ending, Closing bracket ending ∧ cs = ending ++ after := by
  obtain ⟨b, blank, split⟩ := skipSpace_split cs
  rw [skip] at split
  exact ⟨_, .mk blank, by rw [split, List.append_assoc, List.singleton_append]⟩

theorem exists_comma {cs more : List Char} (skip : skipSpace cs = ',' :: more) :
    ∃ sep, Comma sep ∧ cs = sep ++ skipSpace more := by
  obtain ⟨b, blank, split⟩ := skipSpace_split cs
  obtain ⟨b', blank', split'⟩ := skipSpace_split more
  refine ⟨_, .mk blank blank', ?_⟩
  rw [List.append_assoc, List.cons_append, ← split', ← skip, ← split]

/-! ## Strings -/

theorem unitText_of_unit? {cs : List Char} {n : Nat} (unit : unit? cs = some n) :
    UnitText (cs.take 4) n := by
  unfold unit? at unit
  dsimp only at unit
  split at unit
  · next four => exact ⟨four.1, List.all_eq_true.mp four.2, Option.some.inj unit⟩
  · cases unit

/-- An escape by number that is read stands in front. -/
theorem escapeText_of_numbered? {cs : List Char} {c : Char} {width : Nat}
    (numbered : numbered? cs = some (c, width)) :
    ∃ ds, cs = ds ++ cs.drop width ∧ EscapeText (cs.drop width) c ('u' :: ds) := by
  have front : cs = cs.take 4 ++ cs.drop 4 := (List.take_append_drop 4 cs).symm
  unfold numbered? at numbered
  cases unit : unit? cs with
  | none =>
    rw [unit] at numbered
    cases numbered
  | some n =>
  have text := unitText_of_unit? unit
  rw [unit] at numbered
  dsimp only [bind, Option.bind] at numbered
  split at numbered
  · next high =>
    split at numbered
    · next rest behind =>
      cases unit' : unit? rest with
      | none =>
        rw [unit'] at numbered
        cases numbered
      | some m =>
      rw [unit'] at numbered
      dsimp only at numbered
      split at numbered
      · next low =>
        obtain ⟨rfl, rfl⟩ := Prod.mk.inj (Option.some.inj numbered)
        have split : cs = (cs.take 4 ++ '\\' :: 'u' :: rest.take 4) ++ rest.drop 4 := by
          rw [List.append_assoc, List.cons_append, List.cons_append, List.take_append_drop,
            ← behind]
          exact front
        have after : cs.drop 10 = rest.drop 4 := by
          rw [show 10 = 4 + 6 from rfl, ← List.drop_drop, behind]
          rfl
        rw [after]
        exact ⟨_, split, .pair text high (unitText_of_unit? unit') low⟩
      · next other =>
        cases numbered
        refine ⟨_, front, .unit text ?_⟩
        rintro ⟨-, es, m', rest', begins, unit'', low⟩
        rw [behind] at begins
        cases begins
        rw [unit?_append unit''] at unit'
        cases unit'
        exact other low
    · next other =>
      cases numbered
      refine ⟨_, front, .unit text ?_⟩
      rintro ⟨-, es, m, rest, begins, -, -⟩
      exact other _ begins
  · next other =>
    cases numbered
    exact ⟨_, front, .unit text fun both => other both.1⟩

/-- An escape that is read stands in front. -/
theorem escapeText_of_escape? {cs : List Char} {c : Char} {width : Nat}
    (escape : escape? cs = some (c, width)) :
    ∃ piece, cs = piece ++ cs.drop width ∧ EscapeText (cs.drop width) c piece := by
  unfold escape? at escape
  split at escape
  case h_9 rest =>
    obtain ⟨⟨d, k⟩, numbered, same⟩ := Option.map_eq_some_iff.mp escape
    cases same
    obtain ⟨ds, split, text⟩ := escapeText_of_numbered? numbered
    exact ⟨'u' :: ds, congrArg ('u' :: ·) split, text⟩
  case h_10 => cases escape
  all_goals
    cases escape
    exact ⟨[_], rfl, .short (by decide)⟩

theorem string_borneOut (cs : List Char) : BorneOut QuotedText False cs (string cs) := by
  induction cs using string.induct with
  | case1 =>
    rw [string]
    exact .malformed
  | case2 rest =>
    rw [string]
    exact .taken (show '"' :: rest = ['"'] ++ rest from rfl) (.mk .nil)
  | case3 rest c width escape ih =>
    obtain ⟨piece, front, text⟩ := escapeText_of_escape? escape
    rw [string_escaped escape]
    have whole : '\\' :: rest = ('\\' :: piece) ++ rest.drop width := congrArg ('\\' :: ·) front
    refine ih.behind whole (c :: ·) (fun cs _ after ahead quoted => ?_) id
    obtain ⟨string⟩ := quoted
    rw [ahead, List.append_assoc] at text
    have escaped := StringText.escape text.of_append string
    rw [← List.append_assoc]
    exact .mk escaped
  | case4 rest none =>
    rw [string]
    simp only [none]
    exact .malformed
  | case5 c rest quote backslash hidden =>
    rw [string_plain quote backslash, if_pos hidden]
    exact .malformed
  | case6 c rest quote backslash shown ih =>
    rw [string_plain quote backslash, if_neg shown]
    refine ih.behind (show c :: rest = [c] ++ rest from rfl) (c :: ·) (fun cs _ after _ quoted => ?_) id
    obtain ⟨string⟩ := quoted
    exact .mk (.plain quote backslash shown string)

/-! ## Numbers -/

theorem digits_split (cs : List Char) : (∀ c ∈ (digits cs).1, c.isDigit = true) ∧
    cs = (digits cs).1 ++ (digits cs).2 ∧ ∀ c ∈ (digits cs).2.head?, c.isDigit = false := by
  refine ⟨List.all_eq_true.mp List.all_takeWhile, List.takeWhile_append_dropWhile.symm, ?_⟩
  intro c mem
  have outside := List.head?_dropWhile_not Char.isDigit cs
  rw [show (cs.dropWhile Char.isDigit).head? = some c from mem] at outside
  exact outside

/-- The digits in front of a number end where there is no digit, unless there is a lone zero. -/
theorem leads_of_wholePart? {cs ds rest : List Char} (whole : wholePart? cs = some (ds, rest)) :
    cs = ds ++ rest ∧ Leads ds ∧ (1 < ds.length → ∀ c ∈ rest.head?, c.isDigit = false) := by
  unfold wholePart? at whole
  split at whole
  · cases whole
    exact ⟨rfl, .zero, fun long => absurd long (Nat.lt_irrefl 1)⟩
  · next other =>
    obtain ⟨all, split, ends⟩ := digits_split cs
    split at whole
    · cases whole
    · next some =>
      rw [Option.some.inj whole] at all split ends some
      refine ⟨split, ?_, fun _ => ends⟩
      cases ds with
      | nil => exact absurd rfl some
      | cons c more =>
        refine .nonzero all ?_
        rintro rfl
        exact other (more ++ rest) split

theorem fractionPart_text (cs : List Char) :
    ∃ point, cs = point ++ (fractionPart cs).2 ∧ FractionText (fractionPart cs).1 point := by
  unfold fractionPart
  split
  · next rest =>
    obtain ⟨all, split, -⟩ := digits_split rest
    split
    · exact ⟨[], rfl, .none⟩
    · next some => exact ⟨_, congrArg ('.' :: ·) split, .point all some⟩
  · exact ⟨[], rfl, .none⟩

theorem fractionPart_of_digit {d : Char} (digit : d.isDigit = true) (rest : List Char) :
    (fractionPart ('.' :: d :: rest)).1 ≠ [] := by
  have some : (digits (d :: rest)).1 ≠ [] := by
    rw [digits, List.takeWhile_cons_of_pos digit]
    exact List.cons_ne_nil _ _
  rw [fractionPart, if_neg some]
  exact some

/-- Every text has a sign in front, if only none. -/
theorem exists_sign (cs : List Char) : ∃ negative sign unsigned,
    (negative, sign) ∈ exponentSigns ∧ cs = sign ++ unsigned ∧
      (sign = [] → ∀ c ∈ unsigned.head?, c ≠ '-' ∧ c ≠ '+') := by
  match cs with
  | '-' :: rest => exact ⟨true, ['-'], rest, by decide, rfl, nofun⟩
  | '+' :: rest => exact ⟨false, ['+'], rest, by decide, rfl, nofun⟩
  | [] => exact ⟨false, [], [], by decide, rfl, nofun⟩
  | c :: rest =>
    by_cases minus : c = '-'
    · exact ⟨true, ['-'], rest, by decide, congrArg (· :: rest) minus, nofun⟩
    by_cases plus : c = '+'
    · exact ⟨false, ['+'], rest, by decide, congrArg (· :: rest) plus, nofun⟩
    · refine ⟨false, [], c :: rest, by decide, rfl, fun _ d mem => ?_⟩
      cases mem
      exact ⟨minus, plus⟩

/-- An exponent is read by its sign and the digits behind. -/
theorem exponentPart_signed {mark : Char} {negative : Bool} {sign unsigned : List Char}
    (marked : mark = 'e' ∨ mark = 'E') (signed : (negative, sign) ∈ exponentSigns)
    (plain : sign = [] → ∀ c ∈ unsigned.head?, c ≠ '-' ∧ c ≠ '+') :
    exponentPart (mark :: (sign ++ unsigned)) =
      if (digits unsigned).1 = [] then (none, mark :: (sign ++ unsigned))
      else (some (if negative then -(wholeOfDigits 10 (digits unsigned).1 : Int)
        else wholeOfDigits 10 (digits unsigned).1), (digits unsigned).2) := by
  simp only [exponentSigns, List.mem_cons, List.not_mem_nil, or_false, Prod.mk.injEq] at signed
  rcases signed with ⟨rfl, rfl⟩ | ⟨rfl, rfl⟩ | ⟨rfl, rfl⟩
  · rw [List.nil_append, exponentPart, if_pos marked]
    · rintro rest rfl
      exact (plain rfl '-' rfl).1 rfl
    · rintro rest rfl
      exact (plain rfl '+' rfl).2 rfl
  · exact if_pos marked
  · exact if_pos marked

theorem exponentPart_text (cs : List Char) :
    ∃ mark, cs = mark ++ (exponentPart cs).2 ∧ ExponentText (exponentPart cs).1 mark := by
  have none (same : exponentPart cs = (none, cs)) :
      ∃ mark, cs = mark ++ (exponentPart cs).2 ∧ ExponentText (exponentPart cs).1 mark := by
    rw [same]
    exact ⟨[], rfl, .none⟩
  cases cs with
  | nil => exact none rfl
  | cons mark rest =>
    by_cases marked : mark = 'e' ∨ mark = 'E'
    · obtain ⟨negative, sign, unsigned, signed, rfl, plain⟩ := exists_sign rest
      have read := exponentPart_signed marked signed plain
      obtain ⟨all, split, -⟩ := digits_split unsigned
      by_cases empty : (digits unsigned).1 = []
      · rw [if_pos empty] at read
        exact none read
      · rw [if_neg empty] at read
        rw [read]
        refine ⟨_, ?_, .some marked signed all empty⟩
        rw [List.cons_append, List.append_assoc, ← split]
    · exact none (if_neg marked)

theorem exponentPart_of_digit {mark d : Char} {negative : Bool} {sign rest : List Char}
    (marked : mark = 'e' ∨ mark = 'E') (signed : (negative, sign) ∈ exponentSigns)
    (digit : d.isDigit = true) : (exponentPart (mark :: (sign ++ d :: rest))).1 ≠ none := by
  have plain : sign = [] → ∀ c ∈ (d :: rest).head?, c ≠ '-' ∧ c ≠ '+' := by
    rintro - c ⟨⟩
    constructor <;>
    · rintro rfl
      contradiction
  have some : (digits (d :: rest)).1 ≠ [] := by
    rw [digits, List.takeWhile_cons_of_pos digit]
    exact List.cons_ne_nil _ _
  rw [exponentPart_signed marked signed plain, if_neg some]
  exact Option.some_ne_none _

/-- Where a whole number is read, it does not go on. -/
theorem not_goesOn {rest : List Char} (ends : ∀ c ∈ rest.head?, c.isDigit = false)
    (fraction : (fractionPart rest).1 = [])
    (exponent : (exponentPart (fractionPart rest).2).1 = none) : ¬GoesOn rest := by
  rintro (digit | digit | ⟨marked, signed, digit⟩)
  · rw [ends _ rfl] at digit
    contradiction
  · exact fractionPart_of_digit digit _ fraction
  · rw [fractionPart_of_ne] at exponent
    · exact exponentPart_of_digit marked signed digit exponent
    · rintro _ ⟨⟩ rfl
      rcases marked with point | point <;> contradiction

/-- A whole number that is too long and ends there. -/
inductive LongWhole : List Char → Prop
  | mk {ds rest : List Char} (leads : Leads ds) (long : wholeDigitLimit < ds.length)
    (ends : ¬GoesOn rest) : LongWhole (ds ++ rest)

theorem number_borneOut (negative : Bool) (cs : List Char) :
    BorneOut (NumberText negative) (LongWhole cs) cs (number negative cs) := by
  unfold number
  split
  · exact .malformed
  next ds rest whole =>
  obtain ⟨rfl, leads, ends⟩ := leads_of_wholePart? whole
  obtain ⟨point, split, pointed⟩ := fractionPart_text rest
  obtain ⟨mark, split', marked⟩ := exponentPart_text (fractionPart rest).2
  dsimp only
  split
  · next plain =>
    obtain ⟨noFraction, noExponent⟩ := plain
    rw [Option.isNone_iff_eq_none] at noExponent
    split
    · next long =>
      refine .givenUp (.mk leads long (not_goesOn (ends ?_) noFraction noExponent))
      exact Nat.lt_trans (by decide) long
    · rw [noFraction] at pointed
      rw [noExponent] at marked
      obtain rfl : point = [] := by
        cases pointed with
        | none => rfl
        | point _ some => exact absurd rfl some
      cases marked
      exact .taken (congrArg (ds ++ ·) (split.trans split')) (.whole leads)
  · next some =>
    refine .taken ?_ (.decimal leads pointed marked some)
    rw [List.append_assoc, List.append_assoc, ← split', ← split]

/-! ## Values -/

theorem number_spells (negative : Bool) (room : Nat) (cs : List Char) :
    BorneOut (fun v => Spells (.value v)) (Overruns .value room (sign negative ++ cs))
      (sign negative ++ cs) (number negative cs) := by
  have borneOut := number_borneOut negative cs
  generalize number negative cs = result at borneOut ⊢
  cases borneOut with
  | taken split number =>
    rw [split, ← List.append_assoc]
    exact .taken rfl (.number negative number)
  | malformed => exact .malformed
  | givenUp long =>
    obtain ⟨leads, long, ends⟩ := long
    exact .givenUp (.digits negative leads long ends)

theorem scalar_borneOut (room : Nat) (cs : List Char) :
    BorneOut (fun v => Spells (.value v)) (Overruns .value room cs) cs (scalar cs) := by
  unfold scalar
  split
  · next r found =>
    obtain ⟨⟨w, v⟩, mem, front⟩ := List.exists_of_findSome?_eq_some found
    obtain ⟨rest, after, rfl⟩ := Option.map_eq_some_iff.mp front
    unfold after? at after
    split at after
    · next isPrefix =>
      obtain ⟨rest', rfl⟩ := List.isPrefixOf_iff_prefix.mp isPrefix
      rw [List.drop_left, Option.some.injEq] at after
      exact .taken (congrArg _ after) (.word mem)
    · cases after
  · split
    · next rest _ =>
      have quoted := string_borneOut rest
      exact quoted.behind (show '"' :: rest = ['"'] ++ rest from rfl)
        (fun cs => Json.text (String.ofList cs)) (fun _ _ _ _ quoted => .text quoted) False.elim
    · exact number_spells true room _
    · exact number_spells false room cs

mutual

/-- What is read as a value stands in front. -/
theorem value_borneOut (room fuel : Nat) (cs : List Char) :
    BorneOut (fun v => Spells (.value v)) (Overruns .value room cs) cs (value room fuel cs) := by
  match fuel with
  | 0 =>
    rw [value]
    exact .malformed
  | fuel + 1 =>
  by_cases array : cs.head? = some '['
  · obtain ⟨rest, rfl⟩ := List.head?_eq_some_iff.mp array
    rw [value]
    cases room with
    | zero => exact .givenUp (.deep (.inl rfl))
    | succ room =>
    rw [if_neg (Nat.succ_ne_zero room)]
    dsimp only [bind, Except.bind]
    split
    · next skip =>
      obtain ⟨ending, close, split⟩ := exists_closing skip
      exact .taken (congrArg ('[' :: ·) split) (.noItems close)
    · obtain ⟨b, blank, skipped⟩ := skipSpace_split rest
      have items := items_borneOut room fuel (skipSpace rest)
      have whole : '[' :: rest = '[' :: b ++ skipSpace rest := congrArg ('[' :: ·) skipped
      exact items.behind whole Json.array (fun _ _ _ _ items => .array blank items)
        fun exceeds => skipped ▸ .array blank exceeds
  by_cases object : cs.head? = some '\x7b'
  · obtain ⟨rest, rfl⟩ := List.head?_eq_some_iff.mp object
    rw [value]
    cases room with
    | zero => exact .givenUp (.deep (.inr rfl))
    | succ room =>
    rw [if_neg (Nat.succ_ne_zero room)]
    dsimp only [bind, Except.bind]
    split
    · next skip =>
      obtain ⟨ending, close, split⟩ := exists_closing skip
      exact .taken (congrArg ('\x7b' :: ·) split) (.noMembers close)
    · obtain ⟨b, blank, skipped⟩ := skipSpace_split rest
      have members := members_borneOut room fuel (skipSpace rest)
      have whole : '\x7b' :: rest = '\x7b' :: b ++ skipSpace rest :=
        congrArg ('\x7b' :: ·) skipped
      exact members.behind whole Json.object (fun _ _ _ _ members => .object blank members)
        fun exceeds => skipped ▸ .object blank exceeds
  · rw [value_scalar]
    · exact scalar_borneOut room cs
    · exact fun c mem => ⟨fun same => array (same ▸ mem), fun same => object (same ▸ mem)⟩
termination_by fuel

/-- What is read as the elements of an array stands in front, up to the end of the array. -/
theorem items_borneOut (room fuel : Nat) (cs : List Char) :
    BorneOut (fun vs => Spells (.items vs)) (Overruns .items room cs) cs (items room fuel cs) := by
  match fuel with
  | 0 =>
    rw [items]
    exact .malformed
  | fuel + 1 =>
  have item := value_borneOut room fuel cs
  rw [items]
  generalize value room fuel cs = result at item ⊢
  cases item with
  | malformed => exact .malformed
  | givenUp exceeds => exact .givenUp (.item exceeds)
  | @taken v text rest split value =>
  dsimp only [bind, Except.bind]
  split
  · next skip =>
    obtain ⟨ending, close, split'⟩ := exists_closing skip
    exact .taken (by rw [split, split', List.append_assoc]) (.lastItem value close)
  · next more skip =>
    obtain ⟨sep, comma, split'⟩ := exists_comma skip
    have others := items_borneOut room fuel (skipSpace more)
    have whole : cs = text ++ sep ++ skipSpace more := by rw [split, split', List.append_assoc]
    refine others.behind whole (v :: ·) (fun _ _ _ _ others => ?_) fun exceeds => ?_
    · rw [List.append_assoc]
      exact .item value comma others
    · rw [whole, List.append_assoc]
      exact .laterItem value comma exceeds
  · exact .malformed
termination_by fuel

/-- What is read as the members of an object stands in front, up to the end of the object. -/
theorem members_borneOut (room fuel : Nat) (cs : List Char) :
    BorneOut (fun vs => Spells (.members vs)) (Overruns .members room cs) cs
      (members room fuel cs) := by
  match fuel with
  | 0 =>
    rw [members]
    exact .malformed
  | fuel + 1 =>
  rw [members.eq_def]
  dsimp only
  split
  · next rest =>
    have quoted := string_borneOut rest
    generalize string rest = result at quoted ⊢
    cases quoted with
    | malformed => exact .malformed
    | givenUp exceeds => exact exceeds.elim
    | @taken key text behind split quoted =>
    obtain ⟨b, blank, skipped⟩ := skipSpace_split behind
    dsimp only [bind, Except.bind]
    split
    · next ahead skip =>
      obtain ⟨b', blank', skipped'⟩ := skipSpace_split ahead
      have member := value_borneOut room fuel (skipSpace ahead)
      have keyed := KeyText.mk quoted blank blank'
      have front : '"' :: rest = '"' :: (text ++ (b ++ ':' :: b')) ++ skipSpace ahead := by
        rw [List.cons_append, List.append_assoc, List.append_assoc, List.cons_append, ← skipped',
          ← skip, ← skipped, split]
      generalize '"' :: (text ++ (b ++ ':' :: b')) = head at keyed front
      rw [front]
      generalize value room fuel (skipSpace ahead) = result at member ⊢
      cases member with
      | malformed => exact .malformed
      | givenUp exceeds => exact .givenUp (.member keyed exceeds)
      | @taken v text rest split value =>
      dsimp only
      split
      · next skip =>
        obtain ⟨ending, close, split'⟩ := exists_closing skip
        refine .taken ?_ (.lastMember keyed value close)
        rw [split, split', List.append_assoc, List.append_assoc]
      · next more skip =>
        obtain ⟨sep, comma, split'⟩ := exists_comma skip
        have others := members_borneOut room fuel (skipSpace more)
        have whole : head ++ skipSpace ahead = head ++ (text ++ sep) ++ skipSpace more := by
          rw [split, split', List.append_assoc, List.append_assoc]
        refine others.behind whole ((String.ofList key, v) :: ·) (fun _ _ _ _ others => ?_)
          fun exceeds => ?_
        · rw [List.append_assoc, List.append_assoc]
          exact .member keyed value comma others
        · rw [whole, List.append_assoc, List.append_assoc]
          exact .laterMember keyed value comma exceeds
      · exact .malformed
    · exact .malformed
  · exact .malformed
termination_by fuel

end

end JsonReader

namespace Json

open JsonReader

theorem document_of_read {room : Nat} {cs : List Char} {v : Json} (read : Json.read room cs = .ok v) :
    Document v cs := by
  obtain ⟨b, blank, split⟩ := skipSpace_split cs
  have value := value_borneOut (room + 1) (2 * cs.length + 2) (skipSpace cs)
  unfold Json.read at read
  generalize JsonReader.value _ _ _ = result at value read
  cases value with
  | malformed | givenUp => cases read
  | @taken w text rest split' value =>
    dsimp only [bind, Except.bind] at read
    split at read
    · next last =>
      obtain ⟨b', blank', split''⟩ := skipSpace_split rest
      rw [last, List.append_nil] at split''
      cases read
      exact ⟨b, text, rest, blank, value, split'' ▸ blank', by rw [← split', ← split]⟩
    · cases read

theorem overlong_of_read {room : Nat} {cs : List Char} {fault : JsonFault}
    (other : fault ≠ .malformed) (read : Json.read room cs = .error fault) : Overlong room cs := by
  obtain ⟨b, blank, split⟩ := skipSpace_split cs
  have value := value_borneOut (room + 1) (2 * cs.length + 2) (skipSpace cs)
  unfold Json.read at read
  generalize JsonReader.value _ _ _ = result at value read
  cases value with
  | taken split' value =>
    dsimp only [bind, Except.bind] at read
    split at read
    · cases read
    · cases read
      exact absurd rfl other
  | malformed =>
    cases read
    exact absurd rfl other
  | givenUp exceeds => exact ⟨b, skipSpace cs, blank, exceeds, split⟩

end Json

end ScriptLexer
