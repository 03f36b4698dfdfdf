import Mathlib.Algebra.Group.Nat.Defs
import ScriptLexer.Number.Decimal

/-
  Rounding to binary64. What a quotient is rounded to depends on its value alone, not on how it is
  written (`Binary64.ofRatio_congr`), and a magnitude is rounded to its own rank
  (`Binary64.nearestRank_magnitude`). So a decimal may be written with any exponent
  (`Decimal.toBinary64_shift`); the two cutoffs that save raising ten to great powers change nothing
  (`Decimal.toBinary64_eq`).
-/

namespace ScriptLexer

namespace Binary64

/-! ## Equal quotients -/

theorem roundHalfEven_mul {k : Nat} (pos : 0 < k) (num den : Nat) :
    roundHalfEven (k * num) (k * den) = roundHalfEven num den := by
  have below : 2 * (k * (num % den)) < k * den ↔ 2 * (num % den) < den := by
    rw [Nat.mul_left_comm]
    exact Nat.mul_lt_mul_left pos
  have above : k * den < 2 * (k * (num % den)) ↔ den < 2 * (num % den) := by
    rw [Nat.mul_left_comm]
    exact Nat.mul_lt_mul_left pos
  simp only [roundHalfEven, Nat.mul_div_mul_left _ _ pos, Nat.mul_mod_mul_left, below, above]

theorem nearestRank_mul {k : Nat} (pos : 0 < k) (num den : Nat) :
    nearestRank (k * num) (k * den) = nearestRank num den := by
  simp only [nearestRank, Nat.mul_div_mul_left _ _ pos, Nat.mul_assoc, roundHalfEven_mul pos]

theorem nearestRank_congr {num den num' den' : Nat} (pos : 0 < den) (pos' : 0 < den')
    (same : num * den' = num' * den) : nearestRank num den = nearestRank num' den' := by
  calc nearestRank num den
      = nearestRank (den' * num) (den' * den) := (nearestRank_mul pos' num den).symm
    _ = nearestRank (den * num') (den * den') := by
        rw [Nat.mul_comm den' num, same, Nat.mul_comm num', Nat.mul_comm den']
    _ = nearestRank num' den' := nearestRank_mul pos num' den'

/-- Equal quotients are rounded to the same number. -/
theorem ofRatio_congr {num den num' den' : Nat} (negative : Bool) (pos : 0 < den)
    (pos' : 0 < den') (same : num * den' = num' * den) :
    ofRatio negative num den = ofRatio negative num' den' := by
  rw [ofRatio, ofRatio, ofScaled, ofScaled, nearestRank_congr pos pos']
  rw [Nat.mul_right_comm, same, Nat.mul_right_comm]

/-! ## Magnitudes -/

theorem roundHalfEven_mul_self {den : Nat} (pos : 0 < den) (n : Nat) :
    roundHalfEven (n * den) den = n := by
  simp only [roundHalfEven, Nat.mul_div_cancel _ pos, Nat.mul_mod_left, Nat.mul_zero, if_pos pos]

theorem log2_mul_pow {n k : Nat} (low : 2 ^ 52 ≤ n) (high : n < 2 ^ 53) :
    (n * 2 ^ k).log2 = 52 + k := by
  have pos : 0 < 2 ^ k := Nat.two_pow_pos k
  rw [Nat.log2_eq_iff (Nat.mul_ne_zero (by omega) (Nat.ne_of_gt pos)), Nat.pow_add,
    Nat.add_right_comm, Nat.pow_add]
  exact ⟨Nat.mul_le_mul_right _ low, Nat.mul_lt_mul_of_pos_right high pos⟩

/-- A magnitude is rounded to its own rank. -/
theorem nearestRank_magnitude (rank : Nat) : nearestRank (magnitude rank) 1 = rank := by
  have unit : Nat.pow 2 52 = 2 ^ 52 := rfl
  have power (k : Nat) : Nat.pow 2 k = 2 ^ k := rfl
  by_cases small : rank < Nat.pow 2 52
  · have subnormal : rank.log2 - 52 = 0 := by
      by_cases zero : rank = 0
      · rw [zero]
        rfl
      · have := (Nat.log2_lt zero).mpr small
        omega
    rw [magnitude, if_pos small, nearestRank, Nat.div_one, subnormal]
    simpa using roundHalfEven_mul_self Nat.one_pos rank
  · rw [magnitude, if_neg small, nearestRank, Nat.div_one, power (rank / _ - 1), log2_mul_pow]
    · have normal : 1 ≤ rank / Nat.pow 2 52 := (Nat.one_le_div_iff (by decide)).mpr (by omega)
      have split := Nat.div_add_mod rank (Nat.pow 2 52)
      rw [Nat.add_sub_cancel_left, Nat.one_mul, power (rank / _ - 1),
        roundHalfEven_mul_self (Nat.two_pow_pos _)]
      rw [unit] at *
      omega
    · omega
    · have := Nat.mod_lt rank (show 0 < Nat.pow 2 52 by decide)
      omega

/-! ## The ends of the range -/

/-- Less than half of the least magnitude is rounded to zero. -/
theorem nearestRank_of_small {num den : Nat} (small : 2 * num < den) : nearestRank num den = 0 := by
  have below : num < den := by omega
  have log : Nat.log2 0 = 0 := rfl
  simp [nearestRank, Nat.div_eq_of_lt below, log, roundHalfEven, Nat.mod_eq_of_lt below, small]

theorem infinityRank_le_nearestRank {n j k : Nat} (great : 2 ^ j ≤ n) (beyond : 2099 ≤ j + k) :
    infinityRank ≤ nearestRank (n * Nat.pow 2 k) 1 := by
  have power : 2 ^ (j + k) ≤ n * Nat.pow 2 k := by
    rw [Nat.pow_add]
    exact Nat.mul_le_mul_right _ great
  have pos : n * Nat.pow 2 k ≠ 0 := Nat.ne_of_gt (Nat.lt_of_lt_of_le (Nat.two_pow_pos _) power)
  have log : j + k ≤ (n * Nat.pow 2 k).log2 := (Nat.le_log2 pos).mpr power
  have shift : 2047 ≤ (n * Nat.pow 2 k / 1).log2 - 52 := by
    rw [Nat.div_one]
    omega
  exact Nat.le_trans (Nat.mul_le_mul_right _ shift) (Nat.le_add_right _ _)

theorem ofRank_of_infinityRank_le {rank : Nat} (negative : Bool) (beyond : infinityRank ≤ rank) :
    ofRank negative rank = infinity negative := by
  simp only [infinity, ofRank, Nat.min_eq_right beyond, Nat.min_self]

end Binary64

namespace Decimal

theorem lt_pow_decimalLength (n : Nat) : n < 10 ^ decimalLength n :=
  (Nat.length_toDigits_le_iff (by decide) Nat.length_toDigits_pos).mp (Nat.le_refl _)

/-- A decimal is rounded as the quotient that it is. -/
theorem toBinary64_eq (negative : Bool) (d : Decimal) :
    d.toBinary64 negative =
      .ofRatio negative (d.digits * 10 ^ d.exponent.toNat) (10 ^ (-d.exponent).toNat) := by
  have top : ∃ k, k ≤ 311 ∧ 2 ^ 1025 ≤ 10 ^ k := ⟨311, Nat.le_refl _, by decide +kernel⟩
  have bottom (unit : Nat) (size : unit = 1074) : ∃ k, k ≤ 331 ∧ 2 ^ (unit + 1) ≤ 10 ^ k := by
    subst size
    exact ⟨331, Nat.le_refl _, by decide +kernel⟩
  unfold toBinary64 Binary64.ofRatio Binary64.ofScaled
  -- with names for the great exponents no power is ever computed
  obtain ⟨unit, size⟩ : ∃ unit, unit = 1074 := ⟨_, rfl⟩
  rw [← size]
  split
  · next zero =>
    have pos : 0 < 10 ^ (-d.exponent).toNat := Nat.pow_pos (by decide)
    have rank := Binary64.nearestRank_of_small (show 2 * 0 < _ from pos)
    simp only [zero, Nat.zero_mul, rank]
  next nonzero =>
  split
  · next great =>
    have whole : (-d.exponent).toNat = 0 := by omega
    obtain ⟨k, least, top⟩ := top
    have power : 10 ^ k ≤ d.digits * 10 ^ d.exponent.toNat :=
      calc 10 ^ k ≤ 10 ^ d.exponent.toNat := Nat.pow_le_pow_right (by decide) (by omega)
        _ ≤ d.digits * 10 ^ d.exponent.toNat := Nat.le_mul_of_pos_left _ (by omega)
    rw [whole, Nat.pow_zero, Binary64.ofRank_of_infinityRank_le]
    exact Binary64.infinityRank_le_nearestRank (Nat.le_trans top power) (by omega)
  split
  · next small =>
    have fraction : d.exponent.toNat = 0 := by omega
    obtain ⟨k, most, bottom⟩ := bottom unit size
    rw [fraction, Nat.pow_zero, Nat.mul_one, Binary64.nearestRank_of_small]
    calc 2 * (d.digits * 2 ^ unit) = d.digits * 2 ^ (unit + 1) := by
          rw [Nat.mul_left_comm, ← Nat.pow_succ']
      _ < 10 ^ decimalLength d.digits * 2 ^ (unit + 1) :=
        Nat.mul_lt_mul_of_pos_right (lt_pow_decimalLength _) (Nat.two_pow_pos _)
      _ ≤ 10 ^ decimalLength d.digits * 10 ^ k := Nat.mul_le_mul_left _ bottom
      _ = 10 ^ (decimalLength d.digits + k) := by rw [Nat.pow_add]
      _ ≤ 10 ^ (-d.exponent).toNat := Nat.pow_le_pow_right (by decide) (by omega)
  · rfl

/-- The digits may be multiplied by a power of ten that the exponent takes back. -/
theorem toBinary64_shift (negative : Bool) (d : Decimal) (k : Nat) :
    (Decimal.mk (d.digits * 10 ^ k) (d.exponent - k)).toBinary64 negative =
      d.toBinary64 negative := by
  rw [toBinary64_eq, toBinary64_eq]
  apply Binary64.ofRatio_congr negative (Nat.pow_pos (by decide)) (Nat.pow_pos (by decide))
  have balance : k + (d.exponent - k).toNat + (-d.exponent).toNat =
      d.exponent.toNat + (-(d.exponent - k)).toNat := by omega
  dsimp only
  rw [Nat.mul_assoc, Nat.mul_assoc, Nat.mul_assoc, ← Nat.pow_add, ← Nat.pow_add, ← Nat.pow_add,
    ← Nat.add_assoc, balance]

end Decimal

end ScriptLexer
