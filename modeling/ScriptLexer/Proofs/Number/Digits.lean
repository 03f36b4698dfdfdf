import Mathlib.Algebra.Group.Nat.Defs
import ScriptLexer.Number.Decimal

/-
  Rows of digits. The digits of a whole number denote that number, with any zeros in front
  (`wholeOfDigits_toDigits`, `wholeOfDigits_zeros_append`) and in either letter case
  (`wholeOfDigits_map_toLower`).
-/

namespace ScriptLexer

theorem wholeOfDigits_foldl (base : Nat) (ds : List Char) (n : Nat) :
    ds.foldl (fun n c => n * base + digitValue c) n =
      n * base ^ ds.length + wholeOfDigits base ds := by
  induction ds generalizing n with
  | nil => simp [wholeOfDigits]
  | cons d ds ih =>
    rw [wholeOfDigits, List.foldl_cons, List.foldl_cons, ih, ih (0 * base + digitValue d),
      List.length_cons, Nat.pow_succ']
    rw [Nat.add_mul, Nat.zero_mul, Nat.zero_add, Nat.add_assoc, Nat.mul_assoc]

theorem wholeOfDigits_append (base : Nat) (ds es : List Char) :
    wholeOfDigits base (ds ++ es) =
      wholeOfDigits base ds * base ^ es.length + wholeOfDigits base es := by
  rw [wholeOfDigits, List.foldl_append]
  exact wholeOfDigits_foldl base es _

theorem wholeOfDigits_zeros (base k : Nat) : wholeOfDigits base (List.replicate k '0') = 0 := by
  induction k with
  | zero => rfl
  | succ k ih =>
    have zero : wholeOfDigits base ['0'] = 0 := by simp [wholeOfDigits, digitValue]
    rw [List.replicate_succ, ← List.singleton_append, wholeOfDigits_append, ih, zero, Nat.zero_mul]

/-- Zeros in front do not count. -/
theorem wholeOfDigits_zeros_append (base k : Nat) (ds : List Char) :
    wholeOfDigits base (List.replicate k '0' ++ ds) = wholeOfDigits base ds := by
  rw [wholeOfDigits_append, wholeOfDigits_zeros, Nat.zero_mul, Nat.zero_add]

/-- What is true of each single digit is true of the digits of a number. -/
theorem forall_mem_toDigits {p : Char → Bool} {base : Nat} (two : 1 < base)
    (each : ∀ d < base, p d.digitChar = true) (n : Nat) :
    ∀ c ∈ Nat.toDigits base n, p c = true := by
  induction n using Nat.strongRecOn with
  | ind n ih =>
    rw [Nat.toDigits_eq_if two]
    split
    · next small => exact List.forall_mem_singleton.mpr (each n small)
    · next great =>
      have smaller : n / base < n := Nat.div_lt_self (by omega) two
      rw [List.forall_mem_append, List.forall_mem_singleton]
      exact ⟨ih _ smaller, each _ (Nat.mod_lt n (by omega))⟩

/-- No zero stands in front of the digits of a positive number. -/
theorem exists_toDigits {n : Nat} (pos : 0 < n) :
    ∃ c more, Nat.toDigits 10 n = c :: more ∧ c ≠ '0' := by
  have nonzero : ∀ d < 10, 0 < d → d.digitChar ≠ '0' := by decide
  induction n using Nat.strongRecOn with
  | ind n ih =>
    rw [Nat.toDigits_eq_if (by decide)]
    split
    · next small => exact ⟨n.digitChar, [], rfl, nonzero n small pos⟩
    · next great =>
      obtain ⟨c, more, e, head⟩ := ih (n / 10) (by omega) (by omega)
      exact ⟨c, more ++ [(n % 10).digitChar], by rw [e]; rfl, head⟩

theorem digitValue_digitChar {n : Nat} (small : n < 16) : digitValue n.digitChar = n := by
  revert n
  decide

/-- The digits of a number denote it. -/
theorem wholeOfDigits_toDigits {base : Nat} (two : 1 < base) (sixteen : base ≤ 16) (n : Nat) :
    wholeOfDigits base (Nat.toDigits base n) = n := by
  induction n using Nat.strongRecOn with
  | ind n ih =>
    have single {d : Nat} (small : d < base) : wholeOfDigits base [d.digitChar] = d := by
      simp [wholeOfDigits, digitValue_digitChar (Nat.lt_of_lt_of_le small sixteen)]
    rw [Nat.toDigits_eq_if two]
    split
    · next small => exact single small
    · next great =>
      have smaller : n / base < n := Nat.div_lt_self (by omega) two
      rw [wholeOfDigits_append, ih _ smaller, single (Nat.mod_lt n (by omega))]
      simpa [Nat.mul_comm] using Nat.div_add_mod n base

/-- Digits with zeros in front, as many as fill the width. -/
theorem wholeOfDigits_padded {base : Nat} (two : 1 < base) (sixteen : base ≤ 16) (k n : Nat) :
    wholeOfDigits base (List.replicate k '0' ++ Nat.toDigits base n) = n := by
  rw [wholeOfDigits_zeros_append, wholeOfDigits_toDigits two sixteen]

/-! ## Letter case -/

/-- What is the same for the small and the capital letters is the same for a character in lower
case. -/
theorem apply_toLower {α : Type} {f : Char → α}
    (letters : ∀ n < 26, f (Char.ofNat (97 + n)) = f (Char.ofNat (65 + n))) (c : Char) :
    f c.toLower = f c := by
  have lower : ∀ n < 26, (Char.ofNat (65 + n)).toLower = Char.ofNat (97 + n) := by decide
  by_cases capital : 65 ≤ c.toNat ∧ c.toNat ≤ 90
  · obtain ⟨n, code⟩ := Nat.exists_eq_add_of_le capital.1
    have char : c = Char.ofNat (65 + n) := by rw [← code, Char.ofNat_toNat]
    rw [char, lower n (by omega), letters n (by omega)]
  · have same : c.toLower = c := dif_neg capital
    rw [same]

theorem digitValue_toLower (c : Char) : digitValue c.toLower = digitValue c :=
  apply_toLower (by decide) c

theorem wholeOfDigits_map_toLower (base : Nat) (ds : List Char) :
    wholeOfDigits base (ds.map Char.toLower) = wholeOfDigits base ds := by
  simp only [wholeOfDigits, List.foldl_map, digitValue_toLower]

theorem isDigit_of_mem_repr {n : Nat} {c : Char} (mem : c ∈ n.repr.toList) : c.isDigit = true := by
  rw [Nat.repr_eq_ofList_toDigits, String.toList_ofList] at mem
  exact Nat.isDigit_of_mem_toDigits (by decide) (by decide) mem

theorem eq_of_repr {n m : Nat} (same : n.repr.toList = m.repr.toList) : n = m := by
  rw [Nat.repr_eq_ofList_toDigits, Nat.repr_eq_ofList_toDigits, String.toList_ofList,
    String.toList_ofList] at same
  have read := wholeOfDigits_toDigits (show 1 < 10 by decide) (by decide) n
  rw [same, wholeOfDigits_toDigits (by decide) (by decide)] at read
  exact read.symm

end ScriptLexer
