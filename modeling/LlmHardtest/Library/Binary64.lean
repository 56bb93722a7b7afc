import Mathlib.Algebra.Order.Floor.Ring
import Mathlib.Data.Int.Log
import Mathlib.Data.Rat.Floor
import Mathlib.Tactic.FieldSimp
import Mathlib.Tactic.Linarith
import Mathlib.Tactic.NormNum
import Mathlib.Tactic.Positivity
import Mathlib.Tactic.Ring
set_option autoImplicit false

/-! Rounding to the nearest binary float of 53 digits, ties to even. Overflow is left to the caller. -/

namespace Binary64

/-- The nearest integer, the even one of two. -/
def roundHalfEven (q : ℚ) : ℤ :=
  if q - ⌊q⌋ < 1 / 2 then ⌊q⌋
  else if 1 / 2 < q - ⌊q⌋ then ⌊q⌋ + 1
  else if ⌊q⌋ % 2 = 0 then ⌊q⌋ else ⌊q⌋ + 1

/-- The result is the only integer within a half that is even when it is exactly a half away. -/
theorem roundHalfEven_spec (q : ℚ) : |q - roundHalfEven q| ≤ 1 / 2 ∧
    (|q - roundHalfEven q| = 1 / 2 → roundHalfEven q % 2 = 0) := by
  have h0 := Int.floor_le q
  have h1 := Int.lt_floor_add_one q
  unfold roundHalfEven
  split
  · rename_i h
    rw [abs_of_nonneg (by linarith)]
    exact ⟨h.le, fun he => absurd he (ne_of_lt h)⟩
  · split
    · rename_i h
      push_cast
      rw [abs_of_nonpos (by linarith)]
      refine ⟨by linarith, fun he => ?_⟩
      linarith
    · have hhalf : q - ⌊q⌋ = 1 / 2 := by linarith
      split
      · rename_i heven
        rw [hhalf]
        exact ⟨by norm_num, fun _ => heven⟩
      · push_cast
        have hneg : q - (⌊q⌋ + 1) = -(1 / 2) := by linarith
        rw [hneg]
        refine ⟨by norm_num, fun _ => ?_⟩
        omega

theorem roundHalfEven_unique {q : ℚ} {n : ℤ} (h : |q - n| ≤ 1 / 2)
    (heven : |q - n| = 1 / 2 → n % 2 = 0) : roundHalfEven q = n := by
  obtain ⟨hs, hseven⟩ := roundHalfEven_spec q
  set m := roundHalfEven q
  by_contra hne
  have hdist : (1 : ℚ) ≤ |(m : ℚ) - n| := by
    have hz : (1 : ℤ) ≤ |m - n| := Int.one_le_abs (sub_ne_zero.mpr hne)
    exact_mod_cast hz
  have htri : |(m : ℚ) - n| ≤ |q - m| + |q - n| := by
    have hsplit : (m : ℚ) - n = (q - n) - (q - m) := by ring
    rw [hsplit, add_comm]
    exact abs_sub _ _
  have h1 : |q - m| = 1 / 2 := by linarith
  have h2 : |q - n| = 1 / 2 := by linarith
  have hodd : |m - n| = 1 := by
    have hq : |(m : ℚ) - n| = 1 := by linarith
    exact_mod_cast hq
  have hm := hseven h1
  have hn := heven h2
  rcases abs_eq (by norm_num : (0 : ℤ) ≤ 1) |>.mp hodd with hd | hd <;> omega

theorem roundHalfEven_neg (q : ℚ) : roundHalfEven (-q) = -roundHalfEven q := by
  obtain ⟨h, heven⟩ := roundHalfEven_spec q
  have habs : |-q - ((-roundHalfEven q : ℤ) : ℚ)| = |q - roundHalfEven q| := by
    push_cast
    rw [← abs_neg]
    congr 1
    ring
  refine roundHalfEven_unique (by rw [habs]; exact h) fun he => ?_
  rw [habs] at he
  have := heven he
  omega

@[simp] theorem roundHalfEven_intCast (n : ℤ) : roundHalfEven n = n :=
  roundHalfEven_unique (by simp) fun h => by norm_num at h

theorem roundHalfEven_mono {q r : ℚ} (h : q ≤ r) : roundHalfEven q ≤ roundHalfEven r := by
  obtain ⟨hq, -⟩ := roundHalfEven_spec q
  obtain ⟨hr, -⟩ := roundHalfEven_spec r
  by_contra hlt
  have hstep : roundHalfEven r + 1 ≤ roundHalfEven q := by omega
  have hcast : (roundHalfEven r : ℚ) + 1 ≤ roundHalfEven q := by exact_mod_cast hstep
  have hqr : q = r := by
    have h1 := (abs_le.mp hq).1
    have h2 := (abs_le.mp hr).2
    linarith
  rw [hqr] at hstep
  omega

theorem roundHalfEven_nonneg {q : ℚ} (h : 0 ≤ q) : 0 ≤ roundHalfEven q := by
  have := roundHalfEven_mono h
  rwa [← Int.cast_zero, roundHalfEven_intCast] at this

theorem roundHalfEven_le_add_one {q r : ℚ} (h : q < r + 1) :
    roundHalfEven q ≤ roundHalfEven r + 1 := by
  obtain ⟨hr, -⟩ := roundHalfEven_spec r
  obtain ⟨hq, -⟩ := roundHalfEven_spec q
  have hup := (abs_le.mp hr).2
  have hlow := (abs_le.mp hq).1
  have hlt : (roundHalfEven q : ℚ) < roundHalfEven r + 2 := by linarith
  have hint : roundHalfEven q < roundHalfEven r + 2 := by exact_mod_cast hlt
  omega

theorem roundHalfEven_le_even {q : ℚ} {n : ℤ} (hn : n % 2 = 0) :
    roundHalfEven q ≤ n ↔ q ≤ n + 1 / 2 := by
  obtain ⟨h, heven⟩ := roundHalfEven_spec q
  obtain ⟨hlow, hhigh⟩ := abs_le.mp h
  constructor
  · intro hle
    have hcast : (roundHalfEven q : ℚ) ≤ n := by exact_mod_cast hle
    linarith
  · intro hle
    by_contra hgt
    have hcast : (n : ℚ) + 1 ≤ roundHalfEven q := by exact_mod_cast not_le.mp hgt
    have htie : q - roundHalfEven q = -(1 / 2) := by linarith
    have hnext : roundHalfEven q = n + 1 := by
      have : (roundHalfEven q : ℚ) = n + 1 := by linarith
      exact_mod_cast this
    have := heven (by rw [htie]; norm_num)
    omega

/-- The exponent of the last of 53 digits, or of the subnormals. -/
def lastExponent (q : ℚ) : ℤ := max (Int.log 2 |q|) (-1022) - 52

/-- The distance between the floats around a number. -/
def spacing (q : ℚ) : ℚ := 2 ^ lastExponent q

def nearest (q : ℚ) : ℚ := roundHalfEven (q / spacing q) * spacing q

/-- A float below overflow. -/
def IsFloat (q : ℚ) : Prop := ∃ m e : ℤ, |m| ≤ 2 ^ 53 ∧ -1074 ≤ e ∧ q = m * 2 ^ e

section Nearest
variable {q r : ℚ}

theorem spacing_pos (q : ℚ) : 0 < spacing q := zpow_pos two_pos _

theorem spacing_neg (q : ℚ) : spacing (-q) = spacing q := by
  rw [spacing, spacing, lastExponent, lastExponent, abs_neg]

@[simp] theorem nearest_zero : nearest 0 = 0 := by
  rw [nearest, zero_div, ← Int.cast_zero, roundHalfEven_intCast, Int.cast_zero, zero_mul]

theorem nearest_neg (q : ℚ) : nearest (-q) = -nearest q := by
  rw [nearest, nearest, spacing_neg, neg_div, roundHalfEven_neg, Int.cast_neg, neg_mul]

theorem abs_nearest_sub_le (q : ℚ) : |nearest q - q| ≤ spacing q / 2 := by
  have hpos := spacing_pos q
  obtain ⟨hround, -⟩ := roundHalfEven_spec (q / spacing q)
  calc |nearest q - q| = |q / spacing q * spacing q - nearest q| := by
        rw [div_mul_cancel₀ _ hpos.ne', abs_sub_comm]
    _ = |q / spacing q - roundHalfEven (q / spacing q)| * spacing q := by
        rw [nearest, ← sub_mul, abs_mul, abs_of_pos hpos]
    _ ≤ 1 / 2 * spacing q := mul_le_mul_of_nonneg_right hround hpos.le
    _ = spacing q / 2 := by ring

/-- A multiple of the spacing is a bound for both, the number and its float. -/
theorem le_nearest {n : ℤ} (h : n * spacing q ≤ q) : n * spacing q ≤ nearest q := by
  have hround := roundHalfEven_mono ((le_div_iff₀ (spacing_pos q)).mpr h)
  rw [roundHalfEven_intCast] at hround
  exact mul_le_mul_of_nonneg_right (by exact_mod_cast hround) (spacing_pos q).le

theorem nearest_le {n : ℤ} (h : q ≤ n * spacing q) : nearest q ≤ n * spacing q := by
  have hround := roundHalfEven_mono ((div_le_iff₀ (spacing_pos q)).mpr h)
  rw [roundHalfEven_intCast] at hround
  exact mul_le_mul_of_nonneg_right (by exact_mod_cast hround) (spacing_pos q).le

theorem nearest_nonneg (h : 0 ≤ q) : 0 ≤ nearest q := by
  simpa using le_nearest (n := 0) (by simpa using h)

theorem spacing_le {e : ℤ} (he : -1021 ≤ e) (hq : q ≠ 0) (h : |q| < 2 ^ e) :
    spacing q ≤ 2 ^ (e - 53) := by
  have hlog : Int.log 2 |q| < e := by
    rw [← Int.lt_zpow_iff_log_lt one_lt_two (abs_pos.mpr hq)]
    exact_mod_cast h
  refine zpow_le_zpow_right₀ one_le_two ?_
  rw [lastExponent]
  omega

theorem le_spacing {e : ℤ} (h : 2 ^ e ≤ |q|) : 2 ^ (e - 52) ≤ spacing q := by
  have hpos : 0 < |q| := (zpow_pos two_pos e).trans_le h
  have hlog : e ≤ Int.log 2 |q| := by
    rw [← Int.zpow_le_iff_le_log one_lt_two hpos]
    exact_mod_cast h
  refine zpow_le_zpow_right₀ one_le_two ?_
  rw [lastExponent]
  omega

theorem zpow_multiple {e : ℤ} (h : lastExponent q ≤ e) :
    ∃ n : ℤ, (2 : ℚ) ^ e = n * spacing q := by
  refine ⟨2 ^ (e - lastExponent q).toNat, ?_⟩
  rw [spacing]
  push_cast
  rw [← zpow_natCast, ← zpow_add₀ two_ne_zero]
  congr 1
  omega

theorem nearest_mono_pos (hq : 0 < q) (h : q ≤ r) : nearest q ≤ nearest r := by
  have hr : 0 < r := hq.trans_le h
  have hlog : Int.log 2 |q| ≤ Int.log 2 |r| := by
    rw [abs_of_pos hq, abs_of_pos hr]
    exact Int.log_mono_right hq h
  by_cases hsame : lastExponent q = lastExponent r
  · have hspacing : spacing q = spacing r := congrArg (fun e : ℤ => (2 : ℚ) ^ e) hsame
    rw [nearest, nearest, hspacing]
    have hround := roundHalfEven_mono (div_le_div_of_nonneg_right h (spacing_pos r).le)
    exact mul_le_mul_of_nonneg_right (by exact_mod_cast hround) (spacing_pos r).le
  · -- A power of two between both numbers is a multiple of both spacings.
    have hless : Int.log 2 |q| < Int.log 2 |r| ∧ -1022 < Int.log 2 |r| := by
      rw [lastExponent, lastExponent] at hsame
      omega
    obtain ⟨m, hm⟩ := zpow_multiple (q := q) (e := Int.log 2 |r|) (by rw [lastExponent]; omega)
    obtain ⟨n, hn⟩ := zpow_multiple (q := r) (e := Int.log 2 |r|) (by rw [lastExponent]; omega)
    have hbelow : q ≤ 2 ^ Int.log 2 |r| := by
      have hlt := Int.lt_zpow_succ_log_self one_lt_two |q|
      rw [abs_of_pos hq] at hlt hless
      have hpow : (2 : ℚ) ^ (Int.log 2 q + 1) ≤ 2 ^ Int.log 2 |r| :=
        zpow_le_zpow_right₀ one_le_two (by omega)
      exact hlt.le.trans (by exact_mod_cast hpow)
    have habove : 2 ^ Int.log 2 |r| ≤ r := by
      have hle := Int.zpow_log_le_self one_lt_two (abs_pos.mpr hr.ne')
      rw [abs_of_pos hr] at hle ⊢
      exact_mod_cast hle
    calc nearest q ≤ m * spacing q := nearest_le (hm ▸ hbelow)
      _ = n * spacing r := hm.symm.trans hn
      _ ≤ nearest r := le_nearest (hn ▸ habove)

theorem nearest_mono : Monotone nearest := by
  intro q r h
  rcases lt_trichotomy q 0 with hq | rfl | hq
  · rcases lt_or_ge r 0 with hr | hr
    · have hneg := nearest_mono_pos (neg_pos.mpr hr) (neg_le_neg h)
      rw [nearest_neg, nearest_neg] at hneg
      linarith
    · have hneg := nearest_nonneg (neg_nonneg.mpr hq.le)
      rw [nearest_neg] at hneg
      linarith [nearest_nonneg hr]
  · simpa using nearest_nonneg h
  · exact nearest_mono_pos hq h

theorem nearest_isFloat (q : ℚ) : IsFloat (nearest q) := by
  refine ⟨roundHalfEven (q / spacing q), lastExponent q, ?_, ?_, rfl⟩
  · have hdigits : |q| ≤ 2 ^ 53 * spacing q := by
      rcases eq_or_ne q 0 with rfl | hq
      · simpa using (spacing_pos 0).le
      · have hlt := Int.lt_zpow_succ_log_self one_lt_two |q|
        have hpow : (2 : ℚ) ^ (Int.log 2 |q| + 1) ≤ 2 ^ 53 * spacing q := by
          rw [spacing, ← zpow_natCast, ← zpow_add₀ two_ne_zero]
          refine zpow_le_zpow_right₀ one_le_two ?_
          rw [lastExponent]
          push_cast
          omega
        exact hlt.le.trans (by exact_mod_cast hpow)
    have hpos := spacing_pos q
    have hscaled : |q / spacing q| ≤ ((2 ^ 53 : ℤ) : ℚ) := by
      rw [abs_div, abs_of_pos hpos, div_le_iff₀ hpos]
      exact_mod_cast hdigits
    obtain ⟨hlow, hhigh⟩ := abs_le.mp hscaled
    have hup := roundHalfEven_mono hhigh
    have hdown := roundHalfEven_mono (show ((-2 ^ 53 : ℤ) : ℚ) ≤ q / spacing q by
      push_cast at hlow ⊢
      exact hlow)
    rw [roundHalfEven_intCast] at hup hdown
    exact abs_le.mpr ⟨hdown, hup⟩
  · rw [lastExponent]
    omega

theorem nearest_of_multiple {n : ℤ} (h : q = n * spacing q) : nearest q = q :=
  le_antisymm ((nearest_le h.le).trans h.ge) (h.le.trans (le_nearest h.ge))

theorem IsFloat.nearest_eq (h : IsFloat q) : nearest q = q := by
  obtain ⟨m, e, hm, he, rfl⟩ := h
  rcases eq_or_ne m 0 with rfl | hne
  · simp
  have hcast : ((m : ℚ) * 2 ^ e) ≠ 0 :=
    mul_ne_zero (by exact_mod_cast hne) (zpow_ne_zero e two_ne_zero)
  have hpow : (0 : ℚ) < 2 ^ e := zpow_pos two_pos e
  have hmagnitude : |(m : ℚ) * 2 ^ e| = |(m : ℚ)| * 2 ^ e := by
    rw [abs_mul, abs_of_pos hpow]
  have hm' : |(m : ℚ)| ≤ 2 ^ 53 := by exact_mod_cast hm
  rcases hm'.lt_or_eq with hlt | heq
  · have hlog : Int.log 2 |(m : ℚ) * 2 ^ e| < e + 53 := by
      rw [← Int.lt_zpow_iff_log_lt one_lt_two (abs_pos.mpr hcast), hmagnitude,
        Nat.cast_ofNat, zpow_add₀ two_ne_zero, mul_comm (2 ^ e)]
      exact mul_lt_mul_of_pos_right (by exact_mod_cast hlt) hpow
    obtain ⟨n, hn⟩ := zpow_multiple (q := (m : ℚ) * 2 ^ e) (e := e) (by rw [lastExponent]; omega)
    refine nearest_of_multiple (n := m * n) ?_
    rw [Int.cast_mul, mul_assoc, ← hn]
  · have hlog : Int.log 2 |(m : ℚ) * 2 ^ e| = e + 53 := by
      have hvalue : |(m : ℚ) * 2 ^ e| = ((2 : ℕ) : ℚ) ^ (e + 53) := by
        rw [hmagnitude, heq, Nat.cast_ofNat, zpow_add₀ two_ne_zero, mul_comm]
        norm_num
      rw [hvalue, Int.log_zpow one_lt_two]
    obtain ⟨n, hn⟩ := zpow_multiple (q := (m : ℚ) * 2 ^ e) (e := e + 1)
      (by rw [lastExponent]; omega)
    have heven : m % 2 = 0 := by
      have hint : |m| = 2 ^ 53 := by exact_mod_cast heq
      rcases abs_eq (by norm_num : (0 : ℤ) ≤ 2 ^ 53) |>.mp hint with h | h <;> rw [h] <;> decide
    obtain ⟨k, rfl⟩ := Int.dvd_of_emod_eq_zero heven
    refine nearest_of_multiple (n := k * n) ?_
    calc ((2 * k : ℤ) : ℚ) * 2 ^ e = k * 2 ^ (e + 1) := by
          rw [zpow_add₀ two_ne_zero]
          push_cast
          ring
      _ = (k * n : ℤ) * spacing _ := by rw [hn, Int.cast_mul k n, mul_assoc]

@[simp] theorem nearest_nearest (q : ℚ) : nearest (nearest q) = nearest q :=
  (nearest_isFloat q).nearest_eq

theorem isFloat_intCast {n : ℤ} (h : |n| ≤ 2 ^ 53) : IsFloat n := ⟨n, 0, h, by norm_num, by simp⟩

@[simp]
theorem nearest_intCast {n : ℤ} (h : |n| ≤ 2 ^ 53) : nearest n = n := (isFloat_intCast h).nearest_eq

@[simp] theorem nearest_one : nearest 1 = 1 := by
  simpa using nearest_intCast (n := 1) (by norm_num)

/-- A number between two floats rounds between them. -/
theorem nearest_mem_Icc {a b : ℚ} (ha : IsFloat a) (hb : IsFloat b) (h : q ∈ Set.Icc a b) :
    nearest q ∈ Set.Icc a b := by
  have hlow := nearest_mono h.1
  have hhigh := nearest_mono h.2
  rw [ha.nearest_eq] at hlow
  rw [hb.nearest_eq] at hhigh
  exact ⟨hlow, hhigh⟩

theorem nearest_mem_unit (h0 : 0 ≤ q) (h1 : q ≤ 1) : 0 ≤ nearest q ∧ nearest q ≤ 1 :=
  ⟨nearest_nonneg h0, nearest_one ▸ nearest_mono h1⟩

theorem nearest_error (h : |q| < 2) : |nearest q - q| ≤ 1 / 2 ^ 53 := by
  rcases eq_or_ne q 0 with rfl | hq
  · simp
  · have hspacing := spacing_le (e := 1) (by norm_num) hq (by simpa using h)
    have hvalue : (2 : ℚ) ^ ((1 : ℤ) - 53) = 1 / 2 ^ 52 := by norm_num
    rw [hvalue] at hspacing
    calc |nearest q - q| ≤ spacing q / 2 := abs_nearest_sub_le q
      _ ≤ 1 / 2 ^ 52 / 2 := by linarith
      _ = 1 / 2 ^ 53 := by norm_num

theorem nearest_le_one_iff : nearest q ≤ 1 ↔ q ≤ 1 + 1 / 2 ^ 53 := by
  rcases lt_or_ge q 1 with hq | hq
  · exact iff_of_true (nearest_one ▸ nearest_mono hq.le) (by linarith [show (0 : ℚ) < 1 / 2 ^ 53 by norm_num])
  · have hpos : 0 < q := by linarith
    rcases lt_or_ge q 2 with htwo | htwo
    · have hup := spacing_le (e := 1) (by norm_num) hpos.ne' (by rwa [abs_of_pos hpos, zpow_one])
      have hdown := le_spacing (q := q) (e := 0) (by rwa [abs_of_pos hpos, zpow_zero])
      have hspacing : spacing q = 1 / 2 ^ 52 := by
        norm_num at hup hdown ⊢
        exact le_antisymm hup hdown
      have heven := roundHalfEven_le_even (q := q * 2 ^ 52) (n := 2 ^ 52) (by norm_num)
      rw [nearest, hspacing, div_div_eq_mul_div, div_one, mul_one_div, div_le_one (by positivity)]
      push_cast at heven
      constructor
      · intro hle
        have := heven.mp (by exact_mod_cast hle)
        linarith
      · intro hle
        exact_mod_cast heven.mpr (by linarith)
    · have hnearest := nearest_mono htwo
      have hfloat : nearest 2 = 2 := by simpa using nearest_intCast (n := 2) (by norm_num)
      rw [hfloat] at hnearest
      exact iff_of_false (by linarith) (by norm_num; linarith)

theorem nearest_eq_zero_iff (h : 0 < q) : nearest q = 0 ↔ q ≤ 2 ^ (-1075 : ℤ) := by
  rcases lt_or_ge q (2 ^ (-1021 : ℤ)) with hq | hq
  · have hlog : Int.log 2 |q| < -1021 := by
      rw [abs_of_pos h, ← Int.lt_zpow_iff_log_lt one_lt_two h]
      exact_mod_cast hq
    have hspacing : spacing q = 2 ^ (-1074 : ℤ) := by
      rw [spacing, lastExponent, max_eq_right (by omega)]
      norm_num
    have hround : nearest q = 0 ↔ roundHalfEven (q / spacing q) ≤ 0 := by
      have hnonneg := roundHalfEven_nonneg (div_nonneg h.le (spacing_pos q).le)
      rw [nearest, mul_eq_zero, or_iff_left (spacing_pos q).ne', Int.cast_eq_zero]
      omega
    have hhalf : (0 + 1 / 2) * (2 : ℚ) ^ (-1074 : ℤ) = 2 ^ (-1075 : ℤ) := by
      rw [show (-1074 : ℤ) = -1075 + 1 by norm_num, zpow_add₀ two_ne_zero]
      ring
    rw [hround, roundHalfEven_le_even (by norm_num), div_le_iff₀ (spacing_pos q), hspacing,
      Int.cast_zero, hhalf]
  · have hfloat : IsFloat (2 ^ (-1021 : ℤ)) := ⟨1, -1021, by norm_num, by norm_num, by simp⟩
    have hnearest := nearest_mono hq
    rw [hfloat.nearest_eq] at hnearest
    have hpos : (0 : ℚ) < 2 ^ (-1021 : ℤ) := zpow_pos two_pos _
    have hlt : (2 : ℚ) ^ (-1075 : ℤ) < 2 ^ (-1021 : ℤ) :=
      zpow_lt_zpow_right₀ one_lt_two (by norm_num)
    exact iff_of_false (by linarith) (by linarith)

end Nearest

end Binary64
