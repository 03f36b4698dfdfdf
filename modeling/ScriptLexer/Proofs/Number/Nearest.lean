import Mathlib.Data.Nat.Dist
import Mathlib.Order.Monotone.Basic
import ScriptLexer.Proofs.Number.Rounding

/-
  Rounding is to the nearest. No rank has a magnitude closer to a quotient than the one that the
  quotient is rounded to, and one as close means that this is even (`Binary64.nearestRank_isNearest`).
  A whole number is beyond the finite numbers from half a step behind the greatest of them on
  (`Binary64.ofRatio_one_isNearest`).
-/

namespace ScriptLexer.Binary64

/-! ## Rounding a quotient -/

section Half

variable (num : Nat) {den : Nat}

/-- A rounded quotient is one of the two whole numbers around the quotient. -/
theorem roundHalfEven_eq (num den : Nat) :
    roundHalfEven num den = num / den ∨ roundHalfEven num den = num / den + 1 := by
  unfold roundHalfEven
  dsimp only
  split
  · exact Or.inl rfl
  split
  · exact Or.inr rfl
  · omega

/-- No multiple of the denominator is closer to the numerator, and one as close means that the
rounded quotient is even. -/
theorem roundHalfEven_closest (pos : 0 < den) (k : Nat) :
    Nat.dist (roundHalfEven num den * den) num ≤ Nat.dist (k * den) num ∧
      (k ≠ roundHalfEven num den →
        Nat.dist (roundHalfEven num den * den) num = Nat.dist (k * den) num →
        roundHalfEven num den % 2 = 0) := by
  have split := Nat.div_add_mod' num den
  have below := Nat.mod_lt num pos
  have upper : (num / den + 1) * den = num / den * den + den := Nat.succ_mul _ _
  -- a multiple lies at the floor, at most one step below it, or at least one step above it
  have places : k = num / den ∨ k = num / den + 1 ∨
      k * den + den ≤ num / den * den ∨ num / den * den + 2 * den ≤ k * den := by
    rcases Nat.lt_trichotomy k (num / den) with less | same | more
    · refine Or.inr (Or.inr (Or.inl ?_))
      calc k * den + den = (k + 1) * den := (Nat.succ_mul k den).symm
        _ ≤ num / den * den := Nat.mul_le_mul_right _ less
    · exact Or.inl same
    · by_cases next : k = num / den + 1
      · exact Or.inr (Or.inl next)
      · refine Or.inr (Or.inr (Or.inr ?_))
        calc num / den * den + 2 * den = (num / den + 2) * den := (Nat.add_mul _ _ _).symm
          _ ≤ k * den := Nat.mul_le_mul_right _ (by omega)
  unfold Nat.dist
  by_cases low : 2 * (num % den) < den
  · have rounded : roundHalfEven num den = num / den := if_pos low
    rw [rounded]
    rcases places with rfl | rfl | down | up <;> omega
  by_cases high : den < 2 * (num % den)
  · have rounded : roundHalfEven num den = num / den + 1 := (if_neg low).trans (if_pos high)
    rw [rounded]
    rcases places with rfl | rfl | down | up <;> omega
  · have rounded : roundHalfEven num den = num / den + num / den % 2 :=
      (if_neg low).trans (if_neg high)
    rcases Nat.mod_two_eq_zero_or_one (num / den) with even | odd
    · rw [rounded, even, Nat.add_zero]
      rcases places with rfl | rfl | down | up <;> omega
    · rw [rounded, odd]
      rcases places with rfl | rfl | down | up <;> omega

end Half

/-! ## Magnitudes -/

theorem magnitude_of_lt {rank : Nat} (small : rank < 2 ^ 52) : magnitude rank = rank := if_pos small

theorem magnitude_of_le {rank : Nat} (normal : 2 ^ 52 ≤ rank) :
    magnitude rank = (2 ^ 52 + rank % 2 ^ 52) * 2 ^ (rank / 2 ^ 52 - 1) :=
  if_neg (Nat.not_lt.mpr normal)

/-- The magnitude of a rank that is given by a shift and a multiple, one step past the binade at
most. -/
theorem magnitude_add {shift m : Nat} (low : shift = 0 ∨ 2 ^ 52 ≤ m) (high : m ≤ 2 ^ 53) :
    magnitude (shift * 2 ^ 52 + m) = m * 2 ^ shift := by
  by_cases small : m < 2 ^ 52
  · have zero : shift = 0 := low.resolve_right (Nat.not_le.mpr small)
    rw [zero, Nat.zero_mul, Nat.zero_add, Nat.pow_zero, Nat.mul_one, magnitude_of_lt small]
  · rw [magnitude_of_le (by omega)]
    rcases Nat.lt_or_eq_of_le high with inside | rfl
    · have exponent : (shift * 2 ^ 52 + m) / 2 ^ 52 - 1 = shift := by omega
      have significand : 2 ^ 52 + (shift * 2 ^ 52 + m) % 2 ^ 52 = m := by omega
      rw [exponent, significand]
    · have exponent : (shift * 2 ^ 52 + 2 ^ 53) / 2 ^ 52 - 1 = shift + 1 := by omega
      have significand : 2 ^ 52 + (shift * 2 ^ 52 + 2 ^ 53) % 2 ^ 52 = 2 ^ 52 := by omega
      have double : 2 ^ (shift + 1) = 2 * 2 ^ shift := Nat.pow_succ'
      have binade : 2 ^ 53 = 2 ^ 52 * 2 := rfl
      rw [exponent, significand, double, binade, Nat.mul_assoc]

/-- A magnitude is a multiple of a power of two, or it lies below the binade of that. -/
theorem magnitude_cases (rank shift : Nat) :
    (∃ k, magnitude rank = k * 2 ^ shift) ∨ magnitude rank < 2 ^ 52 * 2 ^ shift := by
  by_cases small : rank < 2 ^ 52
  · refine Or.inr ?_
    rw [magnitude_of_lt small]
    exact Nat.lt_of_lt_of_le small (Nat.le_mul_of_pos_right _ (Nat.two_pow_pos shift))
  · rw [magnitude_of_le (Nat.not_lt.mp small)]
    by_cases fine : shift ≤ rank / 2 ^ 52 - 1
    · refine Or.inl ⟨(2 ^ 52 + rank % 2 ^ 52) * 2 ^ (rank / 2 ^ 52 - 1 - shift), ?_⟩
      rw [Nat.mul_assoc, ← Nat.pow_add, Nat.sub_add_cancel fine]
    · refine Or.inr ?_
      have significand : 2 ^ 52 + rank % 2 ^ 52 < 2 ^ 52 * 2 := by omega
      calc (2 ^ 52 + rank % 2 ^ 52) * 2 ^ (rank / 2 ^ 52 - 1)
          < 2 ^ 52 * 2 * 2 ^ (rank / 2 ^ 52 - 1) :=
            Nat.mul_lt_mul_of_pos_right significand (Nat.two_pow_pos _)
        _ = 2 ^ 52 * 2 ^ (rank / 2 ^ 52 - 1 + 1) := by
            rw [Nat.mul_assoc, ← Nat.pow_succ' (m := 2)]
        _ ≤ 2 ^ 52 * 2 ^ shift :=
            Nat.mul_le_mul_left _ (Nat.pow_le_pow_right Nat.two_pos (by omega))

theorem magnitude_injective {rank rank' : Nat} (same : magnitude rank = magnitude rank') :
    rank = rank' := by
  rw [← nearestRank_magnitude rank, same, nearestRank_magnitude]

theorem magnitude_lt_succ (rank : Nat) : magnitude rank < magnitude (rank + 1) := by
  by_cases small : rank < 2 ^ 52
  · have next : magnitude (0 * 2 ^ 52 + (rank + 1)) = (rank + 1) * 2 ^ 0 :=
      magnitude_add (Or.inl rfl) (by omega)
    rw [Nat.zero_mul, Nat.zero_add, Nat.pow_zero, Nat.mul_one] at next
    rw [magnitude_of_lt small, next]
    exact Nat.lt_succ_self rank
  · have split : rank = (rank / 2 ^ 52 - 1) * 2 ^ 52 + (2 ^ 52 + rank % 2 ^ 52) := by omega
    have inside : 2 ^ 52 + rank % 2 ^ 52 < 2 ^ 53 := by omega
    rw [split, Nat.add_assoc, magnitude_add (Or.inr (Nat.le_add_right _ _)) inside.le,
      magnitude_add (Or.inr (by omega)) inside]
    exact Nat.mul_lt_mul_of_pos_right (Nat.lt_succ_self _) (Nat.two_pow_pos _)

theorem magnitude_strictMono : StrictMono magnitude := strictMono_nat_of_lt_succ magnitude_lt_succ

/-! ## Rounding to a rank -/

/-- The magnitude of the rank is the closest to the quotient, and of two that are as close the one
with an even rank. -/
structure IsNearest (rank num den : Nat) : Prop where
  closest : ∀ other, Nat.dist (magnitude rank * den) num ≤ Nat.dist (magnitude other * den) num
  even : ∀ other ≠ rank, Nat.dist (magnitude rank * den) num = Nat.dist (magnitude other * den) num →
    rank % 2 = 0

section Rank

variable (num : Nat) {den : Nat}

/-- The multiple that a quotient is rounded to lies in the binade of the quotient. -/
theorem roundHalfEven_bounds (pos : 0 < den) :
    ((num / den).log2 - 52 = 0 ∨
        2 ^ 52 ≤ roundHalfEven num (den * 2 ^ ((num / den).log2 - 52)) ∧
          2 ^ 52 * (den * 2 ^ ((num / den).log2 - 52)) ≤ num) ∧
      roundHalfEven num (den * 2 ^ ((num / den).log2 - 52)) ≤ 2 ^ 53 := by
  have upper : num / den < 2 ^ ((num / den).log2 + 1) := Nat.lt_log2_self
  have near := roundHalfEven_eq num (den * 2 ^ ((num / den).log2 - 52))
  rw [← Nat.div_div_eq_div_mul] at near
  by_cases subnormal : (num / den).log2 - 52 = 0
  · simp only [subnormal, Nat.pow_zero, Nat.mul_one, Nat.div_one] at near ⊢
    have small : num / den < 2 ^ 53 :=
      Nat.lt_of_lt_of_le upper (Nat.pow_le_pow_right Nat.two_pos (by omega))
    exact ⟨Or.inl trivial, by omega⟩
  · have exponent : (num / den).log2 = 52 + ((num / den).log2 - 52) := by omega
    have nonzero : num / den ≠ 0 := by
      intro zero
      rw [zero] at subnormal
      exact subnormal rfl
    have lower : 2 ^ (num / den).log2 ≤ num / den := Nat.log2_self_le nonzero
    generalize (num / den).log2 - 52 = shift at *
    rw [exponent] at lower upper
    have room := Nat.two_pow_pos shift
    have floor : 2 ^ 52 ≤ num / den / 2 ^ shift := by
      rw [Nat.le_div_iff_mul_le room, ← Nat.pow_add]
      exact lower
    have ceiling : num / den / 2 ^ shift < 2 ^ 53 := by
      rw [Nat.div_lt_iff_lt_mul room, ← Nat.pow_add]
      rwa [Nat.add_right_comm] at upper
    refine ⟨Or.inr ⟨by omega, ?_⟩, by omega⟩
    rw [Nat.div_div_eq_div_mul, Nat.le_div_iff_mul_le (Nat.mul_pos pos room)] at floor
    exact floor

/-- Rounding is to the nearest magnitude, and to an even rank between two. -/
theorem nearestRank_isNearest (pos : 0 < den) : IsNearest (nearestRank num den) num den := by
  obtain ⟨low, high⟩ := roundHalfEven_bounds num pos
  have unit : nearestRank num den = ((num / den).log2 - 52) * 2 ^ 52 +
      roundHalfEven num (den * 2 ^ ((num / den).log2 - 52)) := rfl
  generalize (num / den).log2 - 52 = shift at *
  have step : 0 < den * 2 ^ shift := Nat.mul_pos pos (Nat.two_pow_pos shift)
  have rounded := roundHalfEven_closest num step
  generalize roundHalfEven num (den * 2 ^ shift) = m at *
  have own : magnitude (nearestRank num den) = m * 2 ^ shift := by
    rw [unit, magnitude_add (low.imp_right And.left) high]
  have parity : nearestRank num den % 2 = m % 2 := by
    rw [unit]
    omega
  have scale (k : Nat) : k * 2 ^ shift * den = k * (den * 2 ^ shift) := by
    rw [Nat.mul_assoc, Nat.mul_comm den]
  -- a magnitude that is no multiple of the step lies below the binade, so the least of this is closer
  have beyond (other : Nat) (fine : ¬∃ k, magnitude other = k * 2 ^ shift) :
      Nat.dist (magnitude (nearestRank num den) * den) num <
        Nat.dist (magnitude other * den) num := by
    have below := (magnitude_cases other shift).resolve_left fine
    have inBinade : 2 ^ 52 * (den * 2 ^ shift) ≤ num := by
      refine (low.resolve_left ?_).2
      rintro rfl
      exact fine ⟨magnitude other, (Nat.mul_one _).symm⟩
    have least := (rounded (2 ^ 52)).1
    have apart : magnitude other * den < 2 ^ 52 * (den * 2 ^ shift) := by
      rw [← scale]
      exact Nat.mul_lt_mul_of_pos_right below pos
    rw [own, scale]
    unfold Nat.dist at least ⊢
    omega
  constructor
  · intro other
    by_cases multiple : ∃ k, magnitude other = k * 2 ^ shift
    · obtain ⟨k, e⟩ := multiple
      rw [own, e, scale, scale]
      exact (rounded k).1
    · exact (beyond other multiple).le
  · intro other distinct tie
    by_cases multiple : ∃ k, magnitude other = k * 2 ^ shift
    · obtain ⟨k, e⟩ := multiple
      have different : k ≠ m := by
        rintro rfl
        exact distinct (magnitude_injective (e.trans own.symm))
      rw [own, e, scale, scale] at tie
      rw [parity]
      exact (rounded k).2 different tie
    · exact absurd tie (beyond other multiple).ne

end Rank

/-- Only one rank is nearest: of two next to each other one is odd, and further apart there is one
between them that is closer. -/
theorem IsNearest.unique {rank rank' num den : Nat} (pos : 0 < den)
    (nearest : IsNearest rank num den) (nearest' : IsNearest rank' num den) : rank = rank' := by
  have apart {low high : Nat} (least : IsNearest low num den) (most : IsNearest high num den) :
      ¬low < high := by
    intro less
    have tie := Nat.le_antisymm (least.closest high) (most.closest low)
    have even := least.even high less.ne' tie
    have even' := most.even low less.ne tie.symm
    have below := Nat.mul_lt_mul_of_pos_right (magnitude_lt_succ low) pos
    have above := Nat.mul_lt_mul_of_pos_right
      (magnitude_strictMono (show low + 1 < high by omega)) pos
    have closest := least.closest (low + 1)
    unfold Nat.dist at tie closest
    omega
  exact Nat.le_antisymm (Nat.not_lt.mp (apart nearest' nearest))
    (Nat.not_lt.mp (apart nearest nearest'))

/-! ## Whole numbers -/

/-- Half a step beyond the greatest finite magnitude. -/
def overflow : Nat := Nat.pow 2 1024 - Nat.pow 2 970

/-- The double nearest to a whole number: infinity from half a step beyond the greatest finite
magnitude on, and before that the closest of the finite numbers, with an even rank between two. -/
inductive IsDoubleOf (n : Nat) : Binary64 → Prop
  | beyond (great : overflow ≤ n) : IsDoubleOf n (infinity false)
  | finite {rank : Nat} (inRange : n < overflow) (finite : rank < infinityRank)
    (nearest : IsNearest rank (n * Nat.pow 2 1074) 1) : IsDoubleOf n (ofRank false rank)

theorem IsDoubleOf.eq_infinity_iff {n : Nat} {x : Binary64} (double : IsDoubleOf n x) :
    x = infinity false ↔ overflow ≤ n := by
  cases double with
  | beyond great => exact iff_of_true rfl great
  | @finite rank inRange finite _ =>
    refine iff_of_false ?_ (Nat.not_le.mpr inRange)
    intro same
    have ranks : min rank infinityRank = min infinityRank infinityRank := by
      simpa only [infinity, ofRank, signed.injEq, Fin.mk.injEq, true_and] using same
    omega

/-- Between an odd rank and the next, rounding is upwards from the middle on. -/
theorem IsNearest.lt_iff {rank num top : Nat} (nearest : IsNearest rank num 1)
    (odd : top % 2 = 1) : top < rank ↔ magnitude (top + 1) + magnitude top ≤ 2 * num := by
  have step := magnitude_lt_succ top
  constructor
  · intro above
    have greater : magnitude (top + 1) ≤ magnitude rank := magnitude_strictMono.monotone above
    have closest := nearest.closest top
    simp only [Nat.mul_one, Nat.dist] at closest
    omega
  · intro middle
    by_contra low
    have less : magnitude rank ≤ magnitude top :=
      magnitude_strictMono.monotone (Nat.not_lt.mp low)
    have closest := nearest.closest (top + 1)
    have even := nearest.even (top + 1) (by omega)
    simp only [Nat.mul_one, Nat.dist] at closest even
    -- only in the middle is the lower rank as close, and it is odd
    have same : rank = top := magnitude_injective (by omega)
    have tie := even (by omega)
    omega

/-- What is rounded beyond the finite numbers. -/
theorem infinityRank_le_nearestRank_iff (num : Nat) :
    infinityRank ≤ nearestRank num 1 ↔ overflow * Nat.pow 2 1074 ≤ num := by
  have odd : (infinityRank - 1) % 2 = 1 := by decide
  have top : infinityRank - 1 + 1 = infinityRank := by decide
  have middle (k : Nat) (size : k = 1074) :
      magnitude (infinityRank - 1 + 1) + magnitude (infinityRank - 1) =
        2 * (overflow * Nat.pow 2 k) := by
    rw [size]
    decide +kernel
  -- with a name for the great exponent the power is computed nowhere else
  obtain ⟨unit, size⟩ : ∃ unit, unit = 1074 := ⟨_, rfl⟩
  rw [← size]
  have iff := (nearestRank_isNearest num Nat.one_pos).lt_iff odd
  rw [middle unit size, Nat.mul_le_mul_left_iff Nat.two_pos] at iff
  rw [← iff, ← Nat.succ_le_iff, Nat.succ_eq_add_one, top]

/-- A whole number is rounded beyond the finite numbers from half a step beyond the greatest on. -/
theorem infinityRank_le_whole_iff (n : Nat) :
    infinityRank ≤ nearestRank (n * Nat.pow 2 1074) 1 ↔ overflow ≤ n := by
  have scaled (unit : Nat)
      (iff : ∀ num, infinityRank ≤ nearestRank num 1 ↔ overflow * Nat.pow 2 unit ≤ num) :
      infinityRank ≤ nearestRank (n * Nat.pow 2 unit) 1 ↔ overflow ≤ n :=
    (iff _).trans (Nat.mul_le_mul_right_iff (Nat.two_pow_pos unit))
  have whole := scaled _ infinityRank_le_nearestRank_iff
  exact whole

/-- A whole number as a quotient is rounded to the nearest double. -/
theorem ofRatio_one_isDoubleOf (n : Nat) : IsDoubleOf n (ofRatio false n 1) := by
  unfold ofRatio ofScaled
  by_cases great : overflow ≤ n
  · rw [ofRank_of_infinityRank_le false ((infinityRank_le_whole_iff n).mpr great)]
    exact .beyond great
  · refine .finite (Nat.not_le.mp great) ?_ (nearestRank_isNearest _ Nat.one_pos)
    exact Nat.not_le.mp (mt (infinityRank_le_whole_iff n).mp great)

end ScriptLexer.Binary64
