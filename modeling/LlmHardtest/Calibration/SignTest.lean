import LlmHardtest.Library.BinomialTails
import LlmHardtest.Library.Binary64
set_option autoImplicit false

/-! The exact sign test over the items that two configurations share. -/

namespace Calibration
open BinomialTails Binary64 Finset

def exactSignPValue (wins losses : Nat) : Option ℚ :=
  let trials := wins + losses
  if trials = 0 then none
  else
    let tail := ((List.range (min wins losses + 1)).map trials.choose).sum
    some (min 1 (nearest (2 * tail / 2 ^ trials)))

def binomialProbability (wins losses : Nat) : ℚ :=
  ∑ k ∈ (range (wins + losses + 1)).filter fun k : Nat =>
    |(wins : Int) - losses| ≤ |2 * (k : Int) - (wins + losses)|,
      ((wins + losses).choose k : ℚ) / 2 ^ (wins + losses)

variable {wins losses : Nat}

theorem tail_eq (n m : Nat) : ((List.range (m + 1)).map n.choose).sum = lowerTail n m := by
  rw [lowerTail, ← List.sum_toFinset _ List.nodup_range, List.toFinset_range]

theorem deviation_iff {k : Nat} : |(wins : Int) - losses| ≤ |2 * (k : Int) - (wins + losses)| ↔
    k ≤ min wins losses ∨ wins + losses ≤ k + min wins losses := by
  rw [le_abs, abs_le, abs_le]
  omega

theorem binomialProbability_eq :
    binomialProbability wins losses =
      (twoTails (wins + losses) (min wins losses) : ℚ) / 2 ^ (wins + losses) := by
  have hsame : ((range (wins + losses + 1)).filter fun k : Nat =>
      |(wins : Int) - losses| ≤ |2 * (k : Int) - (wins + losses)|) =
      (range (wins + losses + 1)).filter fun k =>
        k ≤ min wins losses ∨ wins + losses ≤ k + min wins losses :=
    filter_congr fun k _ => deviation_iff
  rw [binomialProbability, hsame, ← sum_div, twoTails, Nat.cast_sum]

theorem exactSignPValue_eq (h : 0 < wins + losses) :
    exactSignPValue wins losses = some (nearest (binomialProbability wins losses)) := by
  have hpow : (0 : ℚ) < 2 ^ (wins + losses) := by positivity
  have hmin := twoTails_eq_min (n := wins + losses) (m := min wins losses) (by omega)
  rw [exactSignPValue, if_neg h.ne', binomialProbability_eq, tail_eq, hmin, Nat.cast_min,
    ← min_div_div_right hpow.le, nearest_mono.map_min]
  push_cast
  rw [div_self hpow.ne', nearest_one]

theorem binomialProbability_pos : 0 < binomialProbability wins losses := by
  rw [binomialProbability_eq, twoTails_eq_min (by omega)]
  have htail := lowerTail_pos (wins + losses) (min wins losses)
  have hrow : 0 < 2 ^ (wins + losses) := by positivity
  have hmin : 0 < min (2 ^ (wins + losses)) (2 * lowerTail (wins + losses) (min wins losses)) := by
    omega
  positivity

theorem binomialProbability_le_one : binomialProbability wins losses ≤ 1 := by
  rw [binomialProbability_eq, div_le_one (by positivity)]
  exact_mod_cast twoTails_le _ _

theorem binomialProbability_comm : binomialProbability losses wins = binomialProbability wins losses := by
  rw [binomialProbability_eq, binomialProbability_eq, min_comm, Nat.add_comm]

/-- One more win for one less loss, where the wins are not behind. -/
theorem binomialProbability_step (h : losses + 1 ≤ wins) :
    binomialProbability (wins + 1) losses ≤ binomialProbability wins (losses + 1) := by
  have htotal : wins + 1 + losses = wins + (losses + 1) := by omega
  rw [binomialProbability_eq, binomialProbability_eq, htotal, min_eq_right (by omega : losses ≤ wins + 1),
    min_eq_right h, twoTails_eq_min (by omega), twoTails_eq_min (by omega)]
  have hmono := lowerTail_mono (wins + (losses + 1)) (Nat.le_succ losses)
  gcongr

theorem binomialProbability_shutout (n : Nat) : binomialProbability (n + 1) 0 = 2 ^ (-(n : ℤ)) := by
  have htail : lowerTail (n + 1) 0 = 1 := by simp [lowerTail]
  have hmin : min (2 ^ (n + 1)) (2 * 1) = 2 := min_eq_right (Nat.le_self_pow n.succ_ne_zero 2)
  rw [binomialProbability_eq, twoTails_eq_min (by omega), Nat.min_zero, Nat.add_zero, htail, hmin,
    zpow_neg, zpow_natCast, pow_succ]
  push_cast
  field_simp

/-- The p-value is the float nearest to the two-sided binomial probability: it treats both sides
alike, does not increase with the lead, and is zero where the probability is below all floats. -/
theorem exactSignPValue_spec (wins losses : Nat) (h : 0 < wins + losses) :
    exactSignPValue wins losses = some (nearest (binomialProbability wins losses)) ∧
      exactSignPValue losses wins = some (nearest (binomialProbability wins losses)) ∧
      0 ≤ nearest (binomialProbability wins losses) ∧
      nearest (binomialProbability wins losses) ≤ 1 ∧
      (nearest (binomialProbability wins losses) = 0 ↔
        binomialProbability wins losses ≤ 2 ^ (-1075 : ℤ)) ∧
      ∀ fewer, losses = fewer + 1 → losses ≤ wins →
        ∃ p, exactSignPValue (wins + 1) fewer = some p ∧
          p ≤ nearest (binomialProbability wins losses) := by
  have hpos : 0 < binomialProbability wins losses := binomialProbability_pos
  obtain ⟨h0, h1⟩ := nearest_mem_unit hpos.le binomialProbability_le_one
  refine ⟨exactSignPValue_eq h, ?_, h0, h1, nearest_eq_zero_iff hpos, ?_⟩
  · rw [exactSignPValue_eq (by omega), binomialProbability_comm]
  · rintro fewer rfl hle
    exact ⟨_, exactSignPValue_eq (by omega), nearest_mono (binomialProbability_step hle)⟩

/-- Three wins against one loss. -/
theorem exactSignPValue_three_one :
    exactSignPValue 3 1 = some (nearest (binomialProbability 3 1)) ∧
      exactSignPValue 1 3 = some (nearest (binomialProbability 3 1)) ∧
      0 ≤ nearest (binomialProbability 3 1) ∧ nearest (binomialProbability 3 1) ≤ 1 ∧
      (nearest (binomialProbability 3 1) = 0 ↔ binomialProbability 3 1 ≤ 2 ^ (-1075 : ℤ)) ∧
      ∀ fewer, 1 = fewer + 1 → 1 ≤ 3 →
        ∃ p, exactSignPValue 4 fewer = some p ∧ p ≤ nearest (binomialProbability 3 1) :=
  exactSignPValue_spec 3 1 (by decide)

/-- The probability of 1076 wins in a row is no float, and the one nearest to it is zero. -/
theorem exactSignPValue_underflow :
    exactSignPValue 1076 0 = some 0 ∧
      ¬ ∀ wins losses, 0 < wins + losses → ∃ p, exactSignPValue wins losses = some p ∧
        p = binomialProbability wins losses ∧ 0 < p := by
  have hzero : exactSignPValue 1076 0 = some 0 := by
    rw [exactSignPValue_eq (by decide), (nearest_eq_zero_iff binomialProbability_pos).mpr
      (binomialProbability_shutout 1075).le]
  refine ⟨hzero, fun h => ?_⟩
  obtain ⟨p, hp, -, hpos⟩ := h 1076 0 (by decide)
  rw [hzero, Option.some_inj] at hp
  exact hpos.ne hp

end Calibration
