import Mathlib.Data.List.Basic
import Mathlib.Data.List.Lex
import ScriptLexer.Files.Name

/-
  Names. Their order is that of the numbers of their pieces, which tell names apart
  (`FileName.codes_injective`, `FileName.lt_or_lt_of_ne`). A row of pieces is a text exactly if no byte
  stands in it by itself (`NameUnit.textFrom_eq_ok_iff`).
-/

namespace ScriptLexer

/-! ## The order of names -/

theorem NameUnit.code_injective : Function.Injective code := by
  intro a b same
  cases a with
  | char c =>
    cases b with
    | char d => exact congrArg char (Char.toNat_inj.mp same)
    | byte d =>
      have valid := c.valid
      have := d.toNat_lt
      simp only [code, Char.toNat] at same
      simp only [UInt32.isValidChar, Nat.isValidChar] at valid
      omega
  | byte c =>
    cases b with
    | char d =>
      have valid := d.valid
      have := c.toNat_lt
      simp only [code, Char.toNat] at same
      simp only [UInt32.isValidChar, Nat.isValidChar] at valid
      omega
    | byte d => exact congrArg byte (UInt8.toNat_inj.mp (Nat.add_left_cancel same))

namespace FileName

theorem codes_injective : Function.Injective codes := by
  rintro ⟨units⟩ ⟨units'⟩ same
  exact congrArg mk (List.map_injective_iff.mpr NameUnit.code_injective same)

theorem lt_trans {a b c : FileName} (first : a < b) (second : b < c) : a < c :=
  List.lt_trans first second

theorem lt_asymm {a b : FileName} (less : a < b) : ¬b < a := List.lt_asymm less

theorem ne_of_lt {a b : FileName} (less : a < b) : a ≠ b := fun same =>
  lt_asymm less (same ▸ less)

theorem lt_or_lt_of_ne {a b : FileName} (other : a ≠ b) : a < b ∨ b < a :=
  lt_or_gt_of_ne (codes_injective.ne other)

end FileName

/-! ## Names that are texts -/

theorem FileName.ofText_injective : Function.Injective ofText := by
  intro s s' same
  have units : s.toList.map NameUnit.char = s'.toList.map NameUnit.char :=
    congrArg FileName.units same
  exact String.toList_inj.mp
    (List.map_injective_iff.mpr (fun _ _ same => NameUnit.char.inj same) units)

namespace NameUnit

/-- A row of pieces is a text if each of them is a character. -/
theorem textFrom_eq_ok_iff {position : Nat} {units : List NameUnit} {cs : List Char} :
    textFrom position units = .ok cs ↔ units.all isChar = true ∧ chars units = cs := by
  induction units generalizing position cs with
  | nil => simp [textFrom, chars]
  | cons u units ih =>
    cases u with
    | byte b => exact iff_of_false nofun (by simp [isChar])
    | char c =>
      rw [textFrom, List.all_cons, isChar, Bool.true_and]
      cases rest : textFrom (position + 1) units with
      | ok cs' =>
        obtain ⟨all, rfl⟩ := ih.mp rest
        rw [all]
        exact ⟨fun same => ⟨rfl, Except.ok.inj same⟩, fun both => congrArg Except.ok both.2⟩
      | error e =>
        refine iff_of_false nofun fun both => ?_
        rw [ih.mpr ⟨both.1, rfl⟩] at rest
        contradiction

end NameUnit

end ScriptLexer
