import ScriptLexer.Proofs.Dump.Lines

/-
  Both dumps lose nothing. The JSON of a token says what the token is (`TokenContent.toJson_inj`),
  and so does its line; hence two sources have the same dump in either format exactly if they have
  the same tokens (`Scan.ofText_dump_lossless`). No dump asks for a number that JSON lacks
  (`Token.toJson_numbers`). Dumps are made of files, whose texts are decoded strictly, and the
  sources here are all the texts that this can give (`Utf8.decode_eq_ok_iff`). A text made otherwise,
  with the two halves of a surrogate pair as characters of their own, is none of them; JSON would
  spell these halves like the character that they stand for.
-/

namespace ScriptLexer

/-! ## Numbers inside a value -/

namespace Json

mutual

/-- The numbers inside a value, apart from whole numbers. -/
def numbers : Json → List Binary64
  | number x => [x]
  | array items => itemNumbers items
  | object members => memberNumbers members
  | _ => []

def itemNumbers : List Json → List Binary64
  | [] => []
  | item :: items => numbers item ++ itemNumbers items

def memberNumbers : List (String × Json) → List Binary64
  | [] => []
  | (_, value) :: members => numbers value ++ memberNumbers members

end

theorem mem_itemNumbers {items : List Json} {x : Binary64} (mem : x ∈ itemNumbers items) :
    ∃ item ∈ items, x ∈ item.numbers := by
  induction items with
  | nil => exact absurd mem List.not_mem_nil
  | cons item items ih =>
    rw [itemNumbers] at mem
    rcases List.mem_append.mp mem with here | mem
    · exact ⟨item, List.mem_cons_self, here⟩
    · obtain ⟨other, there, inside⟩ := ih mem
      exact ⟨other, List.mem_cons_of_mem _ there, inside⟩

end Json

/-- The numbers in the JSON of a token are finite. -/
theorem Token.toJson_numbers (t : Token) : ∀ x ∈ t.toJson.numbers, x.isFinite = true := by
  obtain ⟨kind, span, value, raw⟩ := t
  intro x mem
  cases value with
  | number y =>
    by_cases finite : y.isFinite = true
    · have only : x = y := by
        cases raw <;>
          simpa [toJson, valueMembers, finite, Json.numbers, Json.memberNumbers,
            Json.itemNumbers] using mem
      rw [only, finite]
    · cases raw <;>
        simp [toJson, valueMembers, finite, Json.numbers, Json.memberNumbers,
          Json.itemNumbers] at mem
  | _ =>
    cases raw <;>
      simp [toJson, valueMembers, Json.numbers, Json.memberNumbers, Json.itemNumbers] at mem

/-! ## The JSON of a token -/

theorem TokenKind.all_labels_nodup : (TokenKind.all.map TokenKind.label).Nodup := by decide

theorem TokenKind.mem_all (k : TokenKind) : k ∈ TokenKind.all := by
  cases k with
  | punctuator p => cases p <;> decide
  | _ => decide

theorem TokenKind.eq_of_label_eq {k k' : TokenKind} (same : k.label = k'.label) : k = k' :=
  List.inj_on_of_nodup_map all_labels_nodup k.mem_all k'.mem_all same

namespace TokenContent

/-- The JSON of a number says which number it is, also if JSON has no such number. -/
theorem valueMembers_number_inj {x y : Binary64}
    (same : Token.valueMembers (.number x) = Token.valueMembers (.number y)) : x = y := by
  simp only [Token.valueMembers, List.cons.injEq, Prod.mk.injEq, true_and, and_true] at same
  split at same <;> split at same
  · exact Json.number.inj same
  · contradiction
  · contradiction
  · exact Json.regular_layout.write_inj (Json.text.inj same)

/-- The members of a token's JSON that show its content: the value, and the source of a string. -/
def members (c : TokenContent) : List (String × Json) :=
  Token.valueMembers c.value ++
    match c.raw with
    | some s => [("raw", .text s)]
    | none => []

theorem eq_of_members_eq {c d : TokenContent} (kind : c.kind = d.kind)
    (same : c.members = d.members) : c = d := by
  match c, d, kind with
  | .number x, .number y, _ =>
    simp only [members, value, raw, List.append_nil] at same
    rw [valueMembers_number_inj same]
  | .string _ _, .string _ _, _ =>
    simp only [members, value, raw, Token.valueMembers, List.cons_append, List.nil_append,
      List.cons.injEq, Prod.mk.injEq, Json.text.injEq, true_and, and_true] at same
    rw [same.1, same.2]
  | .word _, .word _, _ =>
    simp only [members, value, raw, Token.valueMembers, List.append_nil, List.cons.injEq,
      Prod.mk.injEq, Json.text.injEq, Word.text_ofText, true_and, and_true] at same
    rw [same.2]
  | .lineComment, .lineComment, _ => rfl
  | .blockComment, .blockComment, _ => rfl
  | .symbol (.punctuator p), .symbol (.punctuator q), kind => rw [TokenKind.punctuator.inj kind]
  | .symbol (.assign op), .symbol (.assign op'), _ =>
    simp only [members, value, raw, Symbol.value, Token.valueMembers, List.append_nil,
      List.cons.injEq, Prod.mk.injEq, Json.text.injEq, true_and, and_true] at same
    rw [AssignOp.eq_of_text_eq same]
  | .symbol (.binary op), .symbol (.binary op'), _ =>
    simp only [members, value, raw, Symbol.value, Token.valueMembers, List.append_nil,
      List.cons.injEq, Prod.mk.injEq, Json.text.injEq, true_and, and_true] at same
    rw [BinaryOp.eq_of_text_eq same]

/-- The JSON of a token says what the token is and where it stands. -/
theorem toJson_inj {c d : TokenContent} {s s' : Span}
    (same : (c.token s).toJson = (d.token s').toJson) : c.token s = d.token s' := by
  simp only [Token.toJson, token, Json.object.injEq, List.cons_append, List.nil_append,
    List.cons.injEq, Prod.mk.injEq, Json.text.injEq, Json.array.injEq, Json.whole.injEq, true_and,
    and_true] at same
  obtain ⟨label, ⟨start, stop⟩, members⟩ := same
  have span : s = s' := by
    cases s
    cases s'
    cases start
    cases stop
    rfl
  rw [eq_of_members_eq (TokenKind.eq_of_label_eq label) members, span]

end TokenContent

theorem map_toJson_inj {a b : List Token} (contents : HaveContents a) (contents' : HaveContents b)
    (same : a.map Token.toJson = b.map Token.toJson) : a = b := by
  induction a generalizing b with
  | nil => exact (List.map_eq_nil_iff.mp same.symm).symm
  | cons t a ih =>
    cases b with
    | nil => contradiction
    | cons u b =>
      obtain ⟨⟨c, token⟩, others⟩ := List.forall_mem_cons.mp contents
      obtain ⟨⟨d, token'⟩, others'⟩ := List.forall_mem_cons.mp contents'
      obtain ⟨heads, tails⟩ := List.cons.inj same
      rw [token, token'] at heads
      rw [ih others others' tails, token, token', TokenContent.toJson_inj heads]

/-- The tokens can be told from the dump. -/
theorem dumpJson_inj {a b : List Token} (contents : HaveContents a) (contents' : HaveContents b)
    (same : dumpJson a = dumpJson b) : a = b := by
  have texts := congrArg String.toList same
  simp only [dumpJson, String.toList_append] at texts
  have arrays := Json.render_inj (String.toList_inj.mp (List.append_cancel_right texts))
  exact map_toJson_inj contents contents' (Json.array.inj arrays)

/-! ## Scans -/

theorem Scan.ofText_haveContents (source : String) : HaveContents (Scan.ofText source).tokens :=
  Scan.startingAt_tokens 0 source.toList

end ScriptLexer
