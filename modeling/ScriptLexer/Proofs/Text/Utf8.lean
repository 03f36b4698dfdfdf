import ScriptLexer.Proofs.Text.Quoted
import ScriptLexer.Text.Utf8

/-
  UTF-8 bytes read back. One character at a time, by the number of its bytes: the first says how
  many there are and what the second may be, and the others hold six bits each. The text of the
  bytes of a text is that text (`Utf8.decode_encode`), and no other bytes are read
  (`Utf8.decode_eq_ok_iff`).
-/

namespace ScriptLexer.Utf8

/-! ## Bytes behind the first -/

section Behind

variable {p : Pending} {b : UInt8} (fits : p.low ≤ b ∧ b ≤ p.high) (position : Nat)
  (rest : List UInt8)

include fits

theorem decodeFrom_last (last : p.missing ≤ 1) :
    decodeFrom position (some p) (b :: rest) =
      (decodeFrom (position + 1) none rest).map (Char.ofNat (p.bits * 64 + b.toNat % 64) :: ·) := by
  rw [decodeFrom, if_pos fits]
  dsimp only
  rw [if_pos last]
  rfl

theorem decodeFrom_next (more : 1 < p.missing) :
    decodeFrom position (some p) (b :: rest) =
      decodeFrom (position + 1) (some ⟨p.lead, p.width + 1, p.bits * 64 + b.toNat % 64,
        p.missing - 1, 0x80, 0xBF⟩) rest := by
  rw [decodeFrom, if_pos fits]
  dsimp only
  rw [if_neg (Nat.not_le.mpr more)]

end Behind

/-- Six bits as they stand behind the first byte. -/
def behind (n : Nat) : UInt8 := UInt8.ofNat (n % 64 + 128)

theorem toNat_behind (n : Nat) : (behind n).toNat = n % 64 + 128 := by
  rw [behind, UInt8.toNat_ofNat']
  omega

theorem behind_fits (n : Nat) : 0x80 ≤ behind n ∧ behind n ≤ 0xBF := by
  simp only [UInt8.le_iff_toNat_le, toNat_behind, UInt8.reduceToNat]
  omega

/-- A byte behind the first is made of the six bits that it holds. -/
theorem behind_eq {b : UInt8} (low : 0x80 ≤ b.toNat) (high : b.toNat ≤ 0xBF) (m : Nat) :
    behind (m * 64 + b.toNat % 64) = b := by
  rw [← UInt8.toNat_inj, toNat_behind]
  omega

/-! ## The bytes of a character -/

theorem toNat_char {n : Nat} (valid : n < 0xD800 ∨ 0xDFFF < n ∧ n < 0x110000) :
    (Char.ofNat n).toNat = n := by
  have valid : n.isValidChar := valid
  rw [Char.ofNat, dif_pos valid]
  rfl

section Encoded

variable {n : Nat}

theorem utf8EncodeChar_one (small : n ≤ 0x7F) :
    String.utf8EncodeChar (Char.ofNat n) = [UInt8.ofNat n] := by
  unfold String.utf8EncodeChar
  rw [show (Char.ofNat n).val.toNat = n from toNat_char (by omega)]
  dsimp only
  rw [if_pos small]

theorem utf8EncodeChar_two (great : 0x7F < n) (small : n ≤ 0x7FF) :
    String.utf8EncodeChar (Char.ofNat n) = [UInt8.ofNat (n / 64 + 192), behind n] := by
  unfold String.utf8EncodeChar
  rw [show (Char.ofNat n).val.toNat = n from toNat_char (by omega)]
  dsimp only
  rw [if_neg (by omega), if_pos small, Nat.mod_eq_of_lt (show n / 64 < 32 by omega)]
  rfl

theorem utf8EncodeChar_three (great : 0x7FF < n) (small : n ≤ 0xFFFF)
    (valid : n < 0xD800 ∨ 0xDFFF < n) :
    String.utf8EncodeChar (Char.ofNat n) =
      [UInt8.ofNat (n / 4096 + 224), behind (n / 64), behind n] := by
  unfold String.utf8EncodeChar
  rw [show (Char.ofNat n).val.toNat = n from toNat_char (by omega)]
  dsimp only
  rw [if_neg (by omega), if_neg (by omega), if_pos small,
    Nat.mod_eq_of_lt (show n / 4096 < 16 by omega)]
  rfl

theorem utf8EncodeChar_four (great : 0xFFFF < n) (small : n < 0x110000) :
    String.utf8EncodeChar (Char.ofNat n) =
      [UInt8.ofNat (n / 262144 + 240), behind (n / 4096), behind (n / 64), behind n] := by
  unfold String.utf8EncodeChar
  rw [show (Char.ofNat n).val.toNat = n from toNat_char (by omega)]
  dsimp only
  rw [if_neg (by omega), if_neg (by omega), if_neg (by omega),
    Nat.mod_eq_of_lt (show n / 262144 < 8 by omega)]
  rfl

end Encoded

/-! ## Characters -/

theorem toNat_ofNat {n : Nat} (small : n < 256) : (UInt8.ofNat n).toNat = n := by
  rw [UInt8.toNat_ofNat']
  omega

theorem ofLead?_two {n : Nat} (low : 2 ≤ n) (high : n < 32) :
    Pending.ofLead? (UInt8.ofNat (n + 192)) =
      some ⟨UInt8.ofNat (n + 192), 1, n, 1, 0x80, 0xBF⟩ := by
  have value : (UInt8.ofNat (n + 192)).toNat = n + 192 := toNat_ofNat (by omega)
  have bits : (n + 192) % Nat.pow 2 (6 - 1) = n := by
    show (n + 192) % 32 = n
    omega
  unfold Pending.ofLead?
  simp only [UInt8.le_iff_toNat_le, value, bits, UInt8.reduceToNat]
  rw [if_pos (by omega)]

/-- The second of three bytes is in the range that the first one gives. -/
theorem ofLead?_three {n : Nat} (great : 0x7FF < n) (small : n ≤ 0xFFFF)
    (valid : n < 0xD800 ∨ 0xDFFF < n) :
    ∃ low high, Pending.ofLead? (UInt8.ofNat (n / 4096 + 224)) =
        some ⟨UInt8.ofNat (n / 4096 + 224), 1, n / 4096, 2, low, high⟩ ∧
      low ≤ behind (n / 64) ∧ behind (n / 64) ≤ high := by
  have value : (UInt8.ofNat (n / 4096 + 224)).toNat = n / 4096 + 224 := toNat_ofNat (by omega)
  have bits : (n / 4096 + 224) % Nat.pow 2 (6 - 2) = n / 4096 := by
    show (n / 4096 + 224) % 16 = n / 4096
    omega
  unfold Pending.ofLead?
  simp only [← UInt8.toNat_inj, UInt8.le_iff_toNat_le, value, bits, toNat_behind,
    UInt8.reduceToNat]
  rw [if_neg (by omega)]
  split
  · refine ⟨_, _, rfl, ?_⟩
    simp only [UInt8.reduceToNat]
    omega
  split
  · refine ⟨_, _, rfl, ?_⟩
    simp only [UInt8.reduceToNat]
    omega
  · rw [if_pos (by omega)]
    refine ⟨_, _, rfl, ?_⟩
    simp only [UInt8.reduceToNat]
    omega

/-- The second of four bytes is in the range that the first one gives. -/
theorem ofLead?_four {n : Nat} (great : 0xFFFF < n) (small : n < 0x110000) :
    ∃ low high, Pending.ofLead? (UInt8.ofNat (n / 262144 + 240)) =
        some ⟨UInt8.ofNat (n / 262144 + 240), 1, n / 262144, 3, low, high⟩ ∧
      low ≤ behind (n / 4096) ∧ behind (n / 4096) ≤ high := by
  have value : (UInt8.ofNat (n / 262144 + 240)).toNat = n / 262144 + 240 := toNat_ofNat (by omega)
  have bits : (n / 262144 + 240) % Nat.pow 2 (6 - 3) = n / 262144 := by
    show (n / 262144 + 240) % 8 = n / 262144
    omega
  unfold Pending.ofLead?
  simp only [← UInt8.toNat_inj, UInt8.le_iff_toNat_le, value, bits, toNat_behind,
    UInt8.reduceToNat]
  iterate 4 rw [if_neg (by omega)]
  split
  · refine ⟨_, _, rfl, ?_⟩
    simp only [UInt8.reduceToNat]
    omega
  split
  · refine ⟨_, _, rfl, ?_⟩
    simp only [UInt8.reduceToNat]
    omega
  · rw [if_pos (by omega)]
    refine ⟨_, _, rfl, ?_⟩
    simp only [UInt8.reduceToNat]
    omega

theorem decodeFrom_lead {b : UInt8} {p : Pending} (great : 0x80 ≤ b.toNat)
    (lead : Pending.ofLead? b = some p) (position : Nat) (rest : List UInt8) :
    decodeFrom position none (b :: rest) = decodeFrom (position + 1) (some p) rest := by
  have long : ¬b < 0x80 := by
    rw [UInt8.lt_iff_toNat_lt]
    exact Nat.not_lt.mpr great
  rw [decodeFrom, if_neg long, lead]

section Widths

variable {n : Nat} (position : Nat) (rest : List UInt8)

theorem decodeFrom_two (great : 0x7F < n) (small : n ≤ 0x7FF) :
    decodeFrom position none (UInt8.ofNat (n / 64 + 192) :: behind n :: rest) =
      (decodeFrom (position + 2) none rest).map (Char.ofNat n :: ·) := by
  have whole : n / 64 * 64 + (behind n).toNat % 64 = n := by
    rw [toNat_behind]
    omega
  have lead := ofLead?_two (show 2 ≤ n / 64 by omega) (by omega)
  rw [decodeFrom_lead (by rw [toNat_ofNat] <;> omega) lead,
    decodeFrom_last (behind_fits n) _ rest (Nat.le_refl 1), whole]

theorem decodeFrom_three (great : 0x7FF < n) (small : n ≤ 0xFFFF)
    (valid : n < 0xD800 ∨ 0xDFFF < n) :
    decodeFrom position none
        (UInt8.ofNat (n / 4096 + 224) :: behind (n / 64) :: behind n :: rest) =
      (decodeFrom (position + 3) none rest).map (Char.ofNat n :: ·) := by
  have whole : (n / 4096 * 64 + (behind (n / 64)).toNat % 64) * 64 + (behind n).toNat % 64 =
      n := by
    rw [toNat_behind, toNat_behind]
    omega
  obtain ⟨low, high, lead, fits⟩ := ofLead?_three great small valid
  rw [decodeFrom_lead (by rw [toNat_ofNat] <;> omega) lead,
    decodeFrom_next fits _ _ (show 1 < 2 by decide),
    decodeFrom_last (behind_fits n) _ rest (Nat.le_refl 1), whole]

theorem decodeFrom_four (great : 0xFFFF < n) (small : n < 0x110000) :
    decodeFrom position none
        (UInt8.ofNat (n / 262144 + 240) :: behind (n / 4096) :: behind (n / 64) :: behind n ::
          rest) =
      (decodeFrom (position + 4) none rest).map (Char.ofNat n :: ·) := by
  have whole : ((n / 262144 * 64 + (behind (n / 4096)).toNat % 64) * 64 +
      (behind (n / 64)).toNat % 64) * 64 + (behind n).toNat % 64 = n := by
    rw [toNat_behind, toNat_behind, toNat_behind]
    omega
  obtain ⟨low, high, lead, fits⟩ := ofLead?_four great small
  rw [decodeFrom_lead (by rw [toNat_ofNat] <;> omega) lead,
    decodeFrom_next fits _ _ (show 1 < 3 by decide),
    decodeFrom_next (behind_fits (n / 64)) _ _ (show 1 < 2 by decide),
    decodeFrom_last (behind_fits n) _ rest (Nat.le_refl 1), whole]

end Widths

/-- The bytes of a character are read as that character. -/
theorem decodeFrom_utf8EncodeChar (c : Char) (position : Nat) (rest : List UInt8) :
    decodeFrom position none (String.utf8EncodeChar c ++ rest) =
      (decodeFrom (position + (String.utf8EncodeChar c).length) none rest).map (c :: ·) := by
  have valid := toNat_valid c
  rw [← Char.ofNat_toNat c]
  generalize c.toNat = n at valid ⊢
  by_cases one : n ≤ 0x7F
  · have small : UInt8.ofNat n < 0x80 := by
      rw [UInt8.lt_iff_toNat_lt, toNat_ofNat (by omega)]
      exact Nat.lt_succ_of_le one
    rw [utf8EncodeChar_one one, List.singleton_append, decodeFrom, if_pos small,
      toNat_ofNat (by omega)]
    rfl
  by_cases two : n ≤ 0x7FF
  · rw [utf8EncodeChar_two (by omega) two]
    exact decodeFrom_two position rest (by omega) two
  by_cases three : n ≤ 0xFFFF
  · rw [utf8EncodeChar_three (by omega) three (by omega)]
    exact decodeFrom_three position rest (by omega) three (by omega)
  · rw [utf8EncodeChar_four (by omega) (by omega)]
    exact decodeFrom_four position rest (by omega) (by omega)

/-- The bytes of a text are read as that text. -/
theorem decode_encode (text : String) : decode (encode text) = .ok text.toList := by
  have go (cs : List Char) (position : Nat) :
      decodeFrom position none (cs.flatMap String.utf8EncodeChar) = .ok cs := by
    induction cs generalizing position with
    | nil => rfl
    | cons c cs ih =>
      rw [List.flatMap_cons, decodeFrom_utf8EncodeChar, ih]
      rfl
  exact go text.toList 0

/-! ## Only the bytes of a text are read -/

/-- What the first byte of a longer character asks, by the number of bytes. -/
theorem ofLead?_eq_some {b : UInt8} {p : Pending} (lead : Pending.ofLead? b = some p) :
    (0xC2 ≤ b.toNat ∧ b.toNat ≤ 0xDF ∧ p = ⟨b, 1, b.toNat % 32, 1, 0x80, 0xBF⟩) ∨
      (∃ low high : UInt8, p = ⟨b, 1, b.toNat % 16, 2, low, high⟩ ∧
        0xE0 ≤ b.toNat ∧ b.toNat ≤ 0xEF ∧ 0x80 ≤ low.toNat ∧ high.toNat ≤ 0xBF ∧
        (b.toNat = 0xE0 → 0xA0 ≤ low.toNat) ∧ (b.toNat = 0xED → high.toNat ≤ 0x9F)) ∨
      ∃ low high : UInt8, p = ⟨b, 1, b.toNat % 8, 3, low, high⟩ ∧
        0xF0 ≤ b.toNat ∧ b.toNat ≤ 0xF4 ∧ 0x80 ≤ low.toNat ∧ high.toNat ≤ 0xBF ∧
        (b.toNat = 0xF0 → 0x90 ≤ low.toNat) ∧ (b.toNat = 0xF4 → high.toNat ≤ 0x8F) := by
  unfold Pending.ofLead? at lead
  simp only [← UInt8.toNat_inj, UInt8.le_iff_toNat_le, UInt8.reduceToNat] at lead
  split at lead
  · next range => exact .inl ⟨range.1, range.2, (Option.some.inj lead).symm⟩
  -- three bytes: the branches differ in the range of the second
  iterate 3
    split at lead
    · refine .inr (.inl ⟨_, _, (Option.some.inj lead).symm, ?_⟩)
      simp only [UInt8.reduceToNat]
      omega
  iterate 3
    split at lead
    · refine .inr (.inr ⟨_, _, (Option.some.inj lead).symm, ?_⟩)
      simp only [UInt8.reduceToNat]
      omega
  · cases lead

/-- What is read of the bytes that a pending character misses. -/
theorem decodeFrom_pending {p : Pending} {position : Nat} {bytes : List UInt8} {cs : List Char}
    (read : decodeFrom position (some p) bytes = .ok cs) :
    ∃ b rest, bytes = b :: rest ∧ (p.low.toNat ≤ b.toNat ∧ b.toNat ≤ p.high.toNat) ∧
      (p.missing ≤ 1 → ∃ cs', cs = Char.ofNat (p.bits * 64 + b.toNat % 64) :: cs' ∧
        decodeFrom (position + 1) none rest = .ok cs') ∧
      (1 < p.missing → decodeFrom (position + 1) (some ⟨p.lead, p.width + 1,
        p.bits * 64 + b.toNat % 64, p.missing - 1, 0x80, 0xBF⟩) rest = .ok cs) := by
  cases bytes with
  | nil => cases read
  | cons b rest =>
    by_cases fits : p.low ≤ b ∧ b ≤ p.high
    · refine ⟨b, rest, rfl, fits, fun last => ?_, fun more => ?_⟩
      · rw [decodeFrom_last fits _ _ last] at read
        cases next : decodeFrom (position + 1) none rest with
        | error e =>
          rw [next] at read
          cases read
        | ok cs' =>
          rw [next] at read
          exact ⟨cs', (Except.ok.inj read).symm, rfl⟩
      · rw [decodeFrom_next fits _ _ more] at read
        exact read
    · rw [decodeFrom, if_neg fits] at read
      cases read

section Sextets

variable (m : Nat) (b b' b'' : UInt8)

theorem div_sextet : (m * 64 + b.toNat % 64) / 64 = m := by omega

theorem div_two_sextets : ((m * 64 + b.toNat % 64) * 64 + b'.toNat % 64) / 4096 = m := by omega

theorem div_three_sextets :
    (((m * 64 + b.toNat % 64) * 64 + b'.toNat % 64) * 64 + b''.toNat % 64) / 262144 = m := by omega

end Sextets

section Bytes

variable {b b₂ b₃ b₄ : UInt8} (second : 0x80 ≤ b₂.toNat ∧ b₂.toNat ≤ 0xBF)
  (third : 0x80 ≤ b₃.toNat ∧ b₃.toNat ≤ 0xBF) (fourth : 0x80 ≤ b₄.toNat ∧ b₄.toNat ≤ 0xBF)

include second

/-- The bytes of a character are those of which its number is made. -/
theorem utf8EncodeChar_of_two (least : 0xC2 ≤ b.toNat) (most : b.toNat ≤ 0xDF) :
    String.utf8EncodeChar (Char.ofNat (b.toNat % 32 * 64 + b₂.toNat % 64)) = [b, b₂] := by
  have first : b.toNat % 32 + 192 = b.toNat := by omega
  rw [utf8EncodeChar_two (by omega) (by omega), behind_eq second.1 second.2, div_sextet, first,
    UInt8.ofNat_toNat]

include third

theorem utf8EncodeChar_of_three (least : 0xE0 ≤ b.toNat) (most : b.toNat ≤ 0xEF)
    (great : 32 ≤ b.toNat % 16 * 64 + b₂.toNat % 64)
    (valid : b.toNat % 16 * 64 + b₂.toNat % 64 < 864 ∨ 896 ≤ b.toNat % 16 * 64 + b₂.toNat % 64) :
    String.utf8EncodeChar
        (Char.ofNat ((b.toNat % 16 * 64 + b₂.toNat % 64) * 64 + b₃.toNat % 64)) = [b, b₂, b₃] := by
  have first : b.toNat % 16 + 224 = b.toNat := by omega
  rw [utf8EncodeChar_three (by omega) (by omega) (by omega), behind_eq third.1 third.2, div_sextet,
    behind_eq second.1 second.2, div_two_sextets, first, UInt8.ofNat_toNat]

include fourth

theorem utf8EncodeChar_of_four (least : 0xF0 ≤ b.toNat) (most : b.toNat ≤ 0xF4)
    (great : 16 ≤ b.toNat % 8 * 64 + b₂.toNat % 64)
    (small : b.toNat % 8 * 64 + b₂.toNat % 64 < 272) :
    String.utf8EncodeChar (Char.ofNat
        (((b.toNat % 8 * 64 + b₂.toNat % 64) * 64 + b₃.toNat % 64) * 64 + b₄.toNat % 64)) =
      [b, b₂, b₃, b₄] := by
  have first : b.toNat % 8 + 240 = b.toNat := by omega
  rw [utf8EncodeChar_four (by omega) (by omega), behind_eq fourth.1 fourth.2, div_sextet,
    behind_eq third.1 third.2, div_two_sextets, behind_eq second.1 second.2, div_three_sextets,
    first, UInt8.ofNat_toNat]

end Bytes

/-- What is read of a text begins with the bytes of a character. -/
theorem exists_char_of_decodeFrom {position : Nat} {b : UInt8} {rest : List UInt8} {cs : List Char}
    (read : decodeFrom position none (b :: rest) = .ok cs) :
    ∃ c cs' position' after, cs = c :: cs' ∧ b :: rest = String.utf8EncodeChar c ++ after ∧
      decodeFrom position' none after = .ok cs' := by
  by_cases small : b.toNat < 0x80
  · have ascii : b < 0x80 := UInt8.lt_iff_toNat_lt.mpr small
    rw [decodeFrom, if_pos ascii] at read
    cases next : decodeFrom (position + 1) none rest with
    | error e =>
      rw [next] at read
      cases read
    | ok cs' =>
      rw [next] at read
      refine ⟨Char.ofNat b.toNat, cs', position + 1, rest, (Except.ok.inj read).symm, ?_, next⟩
      rw [utf8EncodeChar_one (by omega), UInt8.ofNat_toNat]
      rfl
  · have long : ¬b < 0x80 := mt UInt8.lt_iff_toNat_lt.mp small
    rw [decodeFrom, if_neg long] at read
    cases lead : Pending.ofLead? b with
    | none =>
      rw [lead] at read
      cases read
    | some p =>
    rw [lead] at read
    dsimp only at read
    obtain ⟨b₂, rest, rfl, fits, last, next⟩ := decodeFrom_pending read
    rcases ofLead?_eq_some lead with ⟨least, most, rfl⟩ |
      ⟨low, high, rfl, least, most, above, below, first, surrogate⟩ |
      ⟨low, high, rfl, least, most, above, below, first, beyond⟩
    · obtain ⟨cs', rfl, tail⟩ := last (Nat.le_refl 1)
      exact ⟨_, cs', _, rest, rfl, by rw [utf8EncodeChar_of_two fits least most]; rfl, tail⟩
    · obtain ⟨b₃, rest, rfl, fits', last, -⟩ := decodeFrom_pending (next (show 1 < 2 by decide))
      obtain ⟨cs', rfl, tail⟩ := last (Nat.le_refl 1)
      dsimp only at fits
      have second : 0x80 ≤ b₂.toNat ∧ b₂.toNat ≤ 0xBF := by omega
      have great : 32 ≤ b.toNat % 16 * 64 + b₂.toNat % 64 := by omega
      have valid : b.toNat % 16 * 64 + b₂.toNat % 64 < 864 ∨
          896 ≤ b.toNat % 16 * 64 + b₂.toNat % 64 := by omega
      exact ⟨_, cs', _, rest, rfl,
        by rw [utf8EncodeChar_of_three second fits' least most great valid]; rfl, tail⟩
    · obtain ⟨b₃, rest, rfl, fits', -, next⟩ := decodeFrom_pending (next (show 1 < 3 by decide))
      obtain ⟨b₄, rest, rfl, fits'', last, -⟩ := decodeFrom_pending (next (show 1 < 2 by decide))
      obtain ⟨cs', rfl, tail⟩ := last (Nat.le_refl 1)
      dsimp only at fits
      have second : 0x80 ≤ b₂.toNat ∧ b₂.toNat ≤ 0xBF := by omega
      have great : 16 ≤ b.toNat % 8 * 64 + b₂.toNat % 64 := by omega
      have small : b.toNat % 8 * 64 + b₂.toNat % 64 < 272 := by omega
      exact ⟨_, cs', _, rest, rfl,
        by rw [utf8EncodeChar_of_four second fits' fits'' least most great small]; rfl, tail⟩

/-- Bytes that are read, from any position, are the bytes of the text. -/
theorem encode_of_decodeFrom {position : Nat} {bytes : List UInt8} {cs : List Char}
    (read : decodeFrom position none bytes = .ok cs) : cs.flatMap String.utf8EncodeChar = bytes := by
  induction h : bytes.length using Nat.strongRecOn generalizing bytes position cs with
  | _ n ih =>
  cases bytes with
  | nil =>
    cases read
    rfl
  | cons b rest =>
    obtain ⟨c, cs', position', after, rfl, split, read⟩ := exists_char_of_decodeFrom read
    have shorter : after.length < n := by
      have pos : 0 < (String.utf8EncodeChar c).length :=
        String.length_utf8EncodeChar c ▸ Char.utf8Size_pos c
      rw [← h, split, List.length_append]
      exact Nat.lt_add_of_pos_left pos
    rw [List.flatMap_cons, ih _ shorter read rfl, split]

/-- Bytes are read as a text exactly if they are its bytes. -/
theorem decode_eq_ok_iff {bytes : List UInt8} {cs : List Char} :
    decode bytes = .ok cs ↔ encode (String.ofList cs) = bytes := by
  constructor
  · intro read
    rw [encode, String.toList_ofList]
    exact encode_of_decodeFrom read
  · rintro rfl
    rw [decode_encode, String.toList_ofList]

end ScriptLexer.Utf8
