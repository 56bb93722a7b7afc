import LlmHardtest.Community.Aggregate
import LlmHardtest.Python.Totals
set_option autoImplicit false

/-! Rates in the unit interval give intervals in it, around their estimates. -/

namespace Community
open Python

def Interval.Ordered (i : Interval) : Prop :=
  ∃ e, i.estimate = .finite e ∧ 0 ≤ i.low ∧ i.low ≤ e ∧ e ≤ i.high ∧ i.high ≤ 1

section Wilson
variable {p n s : ℚ}

/-- The width of an interval, without the factor that its two sides share. -/
def spread (p n : ℚ) : ℚ := p * (1 - p) / n + quantile ^ 2 / (4 * n ^ 2)

theorem spread_symm (p n : ℚ) : spread (1 - p) n = spread p n := by
  unfold spread
  ring

theorem spread_nonneg (hp0 : 0 ≤ p) (hp1 : p ≤ 1) (hn : 0 < n) : 0 ≤ spread p n := by
  have hvar : 0 ≤ p * (1 - p) := mul_nonneg hp0 (by linarith)
  unfold spread
  positivity

/-- The root reaches what the lower bound needs, except next to zero. -/
theorem root_reaches (hp0 : 0 ≤ p) (hp1 : p ≤ 1) (hn : 0 < n) (hs : 0 ≤ s)
    (hsq : spread p n * (1 - 1 / 2 ^ 50) ≤ s ^ 2) :
    quantile / (2 * n) * (1 - 2 * max p (1 / 10 ^ 7)) ≤ s := by
  have hy : 0 < quantile / (2 * n) := by
    unfold quantile
    positivity
  by_cases hhalf : 1 / 2 ≤ max p (1 / 10 ^ 7)
  · have hneg : quantile / (2 * n) * (1 - 2 * max p (1 / 10 ^ 7)) ≤ 0 :=
      mul_nonpos_of_nonneg_of_nonpos hy.le (by linarith)
    linarith
  · have hsplit : spread p n = p * (1 - p) / n + (quantile / (2 * n)) ^ 2 := by
      unfold spread
      field_simp
      ring
    have hvar : 0 ≤ p * (1 - p) / n := div_nonneg (mul_nonneg hp0 (by linarith)) hn.le
    rw [hsplit] at hsq
    generalize quantile / (2 * n) = y at hsq hy ⊢
    have hm0 : (0 : ℚ) < max p (1 / 10 ^ 7) := lt_max_of_lt_right (by norm_num)
    have hm1 : (1 : ℚ) / 10 ^ 7 ≤ max p (1 / 10 ^ 7) := le_max_right _ _
    -- The square of the claimed bound stays below that of the root.
    have hfactor : (1 - 2 * max p (1 / 10 ^ 7)) ^ 2 ≤ 1 - 1 / 2 ^ 50 := by
      generalize max p (1 / 10 ^ 7) = m at hhalf hm0 hm1 ⊢
      nlinarith
    have hbound : (y * (1 - 2 * max p (1 / 10 ^ 7))) ^ 2 ≤ s ^ 2 := by
      calc (y * (1 - 2 * max p (1 / 10 ^ 7))) ^ 2
          = y ^ 2 * (1 - 2 * max p (1 / 10 ^ 7)) ^ 2 := by ring
        _ ≤ y ^ 2 * (1 - 1 / 2 ^ 50) := mul_le_mul_of_nonneg_left hfactor (by positivity)
        _ ≤ (p * (1 - p) / n + y ^ 2) * (1 - 1 / 2 ^ 50) := by
            refine mul_le_mul_of_nonneg_right (by linarith) (by norm_num)
        _ ≤ s ^ 2 := hsq
    exact le_of_sq_le_sq hbound hs

theorem wilson_low (hp0 : 0 ≤ p) (hp1 : p ≤ 1) (hn : 0 < n) (hs : 0 ≤ s)
    (hsq : spread p n * (1 - 1 / 2 ^ 50) ≤ s ^ 2) :
    (p + quantile ^ 2 / (2 * n)) / (1 + quantile ^ 2 / n) - quantile / (1 + quantile ^ 2 / n) * s ≤
      max p (1 / 10 ^ 7) := by
  have hreach := root_reaches hp0 hp1 hn hs hsq
  have hz : (0 : ℚ) < quantile := by norm_num [quantile]
  have hd : 0 < 1 + quantile ^ 2 / n := by positivity
  have hjoin : (p + quantile ^ 2 / (2 * n)) / (1 + quantile ^ 2 / n) -
      quantile / (1 + quantile ^ 2 / n) * s =
        (p + quantile ^ 2 / (2 * n) - quantile * s) / (1 + quantile ^ 2 / n) := by ring
  rw [hjoin, div_le_iff₀ hd]
  have hmul := mul_le_mul_of_nonneg_left hreach hz.le
  have hexpand : quantile * (quantile / (2 * n) * (1 - 2 * max p (1 / 10 ^ 7))) =
      quantile ^ 2 / (2 * n) - max p (1 / 10 ^ 7) * (quantile ^ 2 / n) := by
    field_simp
  have hle : p ≤ max p (1 / 10 ^ 7) := le_max_left _ _
  rw [hexpand] at hmul
  linarith

theorem wilson_high (hp0 : 0 ≤ p) (hp1 : p ≤ 1) (hn : 0 < n) (hs : 0 ≤ s)
    (hsq : spread p n * (1 - 1 / 2 ^ 50) ≤ s ^ 2) :
    min p (1 - 1 / 10 ^ 7) ≤
      (p + quantile ^ 2 / (2 * n)) / (1 + quantile ^ 2 / n) + quantile / (1 + quantile ^ 2 / n) * s := by
  have hlow := wilson_low (p := 1 - p) (by linarith) (by linarith) hn hs (by rwa [spread_symm])
  have hd : 0 < 1 + quantile ^ 2 / n := by positivity
  have hmirror : (1 - p + quantile ^ 2 / (2 * n)) / (1 + quantile ^ 2 / n) =
      1 - (p + quantile ^ 2 / (2 * n)) / (1 + quantile ^ 2 / n) := by
    rw [eq_sub_iff_add_eq, ← add_div, div_eq_one_iff_eq hd.ne']
    field_simp
    ring
  rw [hmirror] at hlow
  have hminmax : min p (1 - 1 / 10 ^ 7) = 1 - max (1 - p) (1 / 10 ^ 7) := by
    rcases le_total p (1 - 1 / 10 ^ 7) with h | h
    · rw [min_eq_left h, max_eq_left (by linarith)]
      ring
    · rw [min_eq_right h, max_eq_right (by linarith)]
  rw [hminmax]
  linarith

end Wilson

def InUnit (x : PyFloat) : Prop := ∃ q : ℚ, x = .finite q ∧ 0 ≤ q ∧ q ≤ 1

theorem mean_inUnit {rates : List PyFloat} (h : ∀ r ∈ rates, InUnit r) (hne : rates ≠ []) :
    InUnit (PyFloat.mean rates) := by
  have hspecial : rates.filter (fun x => !x.isFinite) = [] := by
    rw [List.filter_eq_nil_iff]
    intro r hr
    obtain ⟨q, rfl, -, -⟩ := h r hr
    simp
  have hvalues : ∀ q ∈ rates.map PyFloat.finiteValue, 0 ≤ q ∧ q ≤ 1 := by
    intro q hq
    obtain ⟨r, hr, rfl⟩ := List.mem_map.mp hq
    obtain ⟨q, rfl, h0, h1⟩ := h r hr
    exact ⟨h0, h1⟩
  have hlen : (0 : ℚ) < rates.length := by exact_mod_cast List.length_pos_iff.mpr hne
  have hmean : 0 ≤ (rates.map PyFloat.finiteValue).sum / rates.length ∧
      (rates.map PyFloat.finiteValue).sum / rates.length ≤ 1 := by
    refine ⟨div_nonneg (List.sum_nonneg fun q hq => (hvalues q hq).1) hlen.le, ?_⟩
    rw [div_le_one hlen]
    have hsum := List.sum_le_card_nsmul (rates.map PyFloat.finiteValue) 1 fun q hq => (hvalues q hq).2
    simpa using hsum
  refine ⟨_, ?_, Binary64.nearest_mem_unit hmean.1 hmean.2⟩
  unfold PyFloat.mean
  rw [hspecial]
  rfl

theorem roundDigits_six_one : roundDigits 6 1 = 1 := by decide +kernel

theorem roundDigits_six_low : roundDigits 6 (1 / 10 ^ 7) = 0 := by decide +kernel

theorem roundDigits_six_high : roundDigits 6 (1 - 1 / 10 ^ 7) = 1 := by decide +kernel

theorem clusterInterval_ordered (sq : SquareRoot) {rates : List PyFloat} (h : ∀ r ∈ rates, InUnit r) :
    ∃ interval, clusterInterval sq rates = .ok interval ∧ ∀ i, interval = some i → i.Ordered := by
  unfold clusterInterval
  split
  · exact ⟨none, rfl, fun i hi => by cases hi⟩
  · rename_i hlt
    have hlen : 0 < rates.length := by
      unfold minBaselineSubmissions at hlt
      omega
    obtain ⟨p, hp, hp0, hp1⟩ := mean_inUnit h (List.length_pos_iff.mp hlen)
    have hn : (0 : ℚ) < rates.length := by exact_mod_cast hlen
    rw [hp]
    dsimp only
    change ∃ interval, (if spread p rates.length < 0 then _ else _) = _ ∧ _
    have hspread := spread_nonneg hp0 hp1 hn
    rw [if_neg (not_lt.mpr hspread)]
    refine ⟨_, rfl, fun i hi => ?_⟩
    cases hi
    have hs := sq.nonneg _ hspread
    have hsq := sq.lower _ hspread
    have hlow := wilson_low hp0 hp1 hn hs hsq
    have hhigh := wilson_high hp0 hp1 hn hs hsq
    refine ⟨roundDigits 6 p, rfl, roundDigits_nonneg 6 (le_max_left _ _), ?_, ?_, ?_⟩
    · rcases le_total p (1 / 10 ^ 7) with hcase | hcase
      · rw [max_eq_right hcase] at hlow
        have hround := roundDigits_mono 6 (max_le (show (0 : ℚ) ≤ 1 / 10 ^ 7 by norm_num) hlow)
        rw [roundDigits_six_low] at hround
        exact hround.trans (roundDigits_nonneg 6 hp0)
      · rw [max_eq_left hcase] at hlow
        exact roundDigits_mono 6 (max_le hp0 hlow)
    · rcases le_total p (1 - 1 / 10 ^ 7) with hcase | hcase
      · rw [min_eq_left hcase] at hhigh
        exact roundDigits_mono 6 (le_min hp1 hhigh)
      · rw [min_eq_right hcase] at hhigh
        have hround := roundDigits_mono 6 (le_min (show 1 - 1 / 10 ^ 7 ≤ (1 : ℚ) by norm_num) hhigh)
        rw [roundDigits_six_high] at hround
        exact ((roundDigits_mono 6 hp1).trans roundDigits_six_one.le).trans hround
    · exact (roundDigits_mono 6 (min_le_left _ _)).trans roundDigits_six_one.le

end Community
