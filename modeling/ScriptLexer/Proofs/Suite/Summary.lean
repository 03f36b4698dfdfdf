import ScriptLexer.Suite.Summary
import ScriptLexer.Proofs.Number.Nearest

/-
  The coverage of a summary. A share is at most one and stays so when it is rounded, so a
  percentage of cases is a finite number (`Summary.exists_coverage`). If the coverage is that of
  the run before, the line of the summary shows no change (`Summary.line_of_same`).
-/

namespace ScriptLexer

namespace Binary64

/-- What does not exceed a magnitude is not rounded beyond it. -/
theorem IsNearest.magnitude_le {rank num den : Nat} (nearest : IsNearest rank num den)
    (pos : 0 < den) {top : Nat} (le : num ≤ magnitude top * den) :
    magnitude rank ≤ magnitude top := by
  by_contra above
  have apart : magnitude top * den < magnitude rank * den :=
    Nat.mul_lt_mul_of_pos_right (Nat.not_le.mp above) pos
  have closest := nearest.closest top
  unfold Nat.dist at closest
  omega

theorem isFinite_ofRank_iff {negative : Bool} {rank : Nat} :
    (ofRank negative rank).isFinite = true ↔ rank < infinityRank := by
  rw [ofRank, isFinite, decide_eq_true_eq]
  exact min_lt_iff.trans (or_iff_left (Nat.lt_irrefl _))

theorem sub_self {x : Binary64} (finite : x.isFinite = true) : x.sub x = zero := by
  cases x with
  | nan => contradiction
  | signed negative rank =>
    rw [isFinite, decide_eq_true_eq] at finite
    rw [sub, if_pos finite, if_pos finite, Int.sub_self]
    cases negative <;> rfl

/-- The rank of one. -/
def oneRank : Nat := 1023 * Nat.pow 2 52

theorem magnitude_oneRank {unit : Nat} (size : unit = 1074) :
    magnitude oneRank = Nat.pow 2 unit := by
  rw [size]
  decide +kernel

/-- A share of a whole is rounded to one at most. -/
theorem nearestRank_share_le {part whole : Nat} (pos : 0 < whole) (le : part ≤ whole) :
    nearestRank (part * Nat.pow 2 1074) whole ≤ oneRank := by
  obtain ⟨unit, size⟩ : ∃ unit, unit = 1074 := ⟨_, rfl⟩
  have within : part * Nat.pow 2 unit ≤ magnitude oneRank * whole := by
    rw [magnitude_oneRank size, Nat.mul_comm]
    exact Nat.mul_le_mul_left _ le
  rw [← size]
  exact magnitude_strictMono.le_iff_le.mp ((nearestRank_isNearest _ pos).magnitude_le pos within)

/-- A hundred times a share of one is finite. -/
theorem times_hundred_isFinite {rank : Nat} (share : rank ≤ oneRank) :
    ((ofRank false rank).times 100).isFinite = true := by
  have hundred : magnitude oneRank * 100 < overflow * Nat.pow 2 1074 := by decide +kernel
  have small : magnitude rank ≤ magnitude oneRank := magnitude_strictMono.monotone share
  have inside := Nat.not_le.mpr (Nat.lt_of_le_of_lt (Nat.mul_le_mul_right 100 small) hundred)
  have finite : rank < infinityRank := Nat.lt_of_le_of_lt share (by decide)
  have same : min rank infinityRank = rank := Nat.min_eq_left finite.le
  rw [ofRank, times]
  simp only [same, if_pos finite]
  rw [ofScaled, isFinite_ofRank_iff, ← Nat.not_le]
  exact mt (infinityRank_le_nearestRank_iff _).mp inside

/-- The share of some cases is a quotient that can be had. -/
theorem divide?_share {part whole : Int} (low : 0 ≤ part) (high : part ≤ whole)
    (some : whole ≠ 0) :
    ∃ rank, rank ≤ oneRank ∧ divide? part whole = .some (ofRank false rank) := by
  have share := nearestRank_share_le (show 0 < whole.natAbs by omega)
    (show part.natAbs ≤ whole.natAbs by omega)
  have positive : (decide (part < 0) != decide (whole < 0)) = false := by
    rw [decide_eq_false (by omega), decide_eq_false (by omega)]
    rfl
  refine ⟨_, share, ?_⟩
  unfold divide? ofRatio ofScaled
  rw [positive]
  generalize nearestRank _ _ = rank at share
  exact if_pos (isFinite_ofRank_iff.mpr (Nat.lt_of_le_of_lt share (by decide)))

end Binary64

namespace Summary

/-- Counts that make sense have a coverage, and it is a finite number. -/
theorem exists_coverage {s : Summary} (low : 0 ≤ s.success) (high : s.success ≤ s.total) :
    ∃ x, s.coverage? = some x ∧ x.isFinite = true := by
  unfold coverage?
  split
  · exact ⟨.zero, rfl, by decide⟩
  next some =>
  obtain ⟨rank, share, divided⟩ := Binary64.divide?_share low high some
  exact ⟨_, by rw [divided, Option.map_some], Binary64.times_hundred_isFinite share⟩

theorem coverage?_isFinite {s : Summary} {x : Binary64} (low : 0 ≤ s.success)
    (high : s.success ≤ s.total) (coverage : s.coverage? = some x) : x.isFinite = true := by
  obtain ⟨y, same, finite⟩ := exists_coverage low high
  rwa [Option.some.inj (coverage.symm.trans same)]

/-- The line of a summary with no change since the run before. -/
def unchangedLine (s : Summary) (coverage : Binary64) : String :=
  s!"{s.name}: {s.success} / {s.total} ({fixedPlaces 2 false coverage}% +0.00%)"

theorem line_of_same {s : Summary} {coverage : Binary64} (finite : coverage.isFinite = true) :
    s.line coverage coverage = s.unchangedLine coverage := by
  have zero : fixedPlaces 2 true .zero = "+0.00" := by decide +kernel
  have tail : "% " ++ ("+0.00" ++ "%)") = "% +0.00%)" := rfl
  rw [line, Binary64.sub_self finite, zero]
  show _ ++ toString (fixedPlaces 2 false coverage) ++ "% " ++ "+0.00" ++ "%)" = _
  rw [String.append_assoc, String.append_assoc, tail]
  rfl

end Summary

end ScriptLexer
