import LlmHardtest.Library.Binary64
import Mathlib.Algebra.Order.Floor.Ring
import Mathlib.Data.List.GetD
import Mathlib.Data.List.Sort
set_option autoImplicit false

/-! Quantiles of a sample, by nearest rank and by interpolation between neighbors. -/

namespace Quantiles

variable {K : Type} [Field K] [LinearOrder K]

/-- The ordered values; the last one stands for all places after it. -/
def orderStatistic (values : List K) (i : Nat) : K :=
  (values.insertionSort (· ≤ ·)).getD (min i (values.length - 1)) 0

theorem orderStatistic_mono (values : List K) : Monotone (orderStatistic values) := by
  intro i j h
  by_cases hempty : values = []
  · simp [orderStatistic, hempty]
  · have hpos : 0 < values.length := List.length_pos_iff.mpr hempty
    have hj : min j (values.length - 1) < (values.insertionSort (· ≤ ·)).length := by
      rw [List.length_insertionSort]
      omega
    have hij : min i (values.length - 1) ≤ min j (values.length - 1) := by omega
    rw [orderStatistic, orderStatistic, List.getD_eq_getElem _ _ (hij.trans_lt hj),
      List.getD_eq_getElem _ _ hj]
    rcases hij.eq_or_lt with heq | hlt
    · simp only [heq, le_rfl]
    · exact List.pairwise_iff_getElem.mp (List.pairwise_insertionSort _ _) _ _ _ _ hlt

/-- What holds of all values and of zero holds of every place. -/
theorem orderStatistic_induction {P : K → Prop} {values : List K} (hzero : P 0)
    (h : ∀ v ∈ values, P v) (i : Nat) : P (orderStatistic values i) := by
  rw [orderStatistic, List.getD_eq_getElem?_getD]
  cases hi : (values.insertionSort (· ≤ ·))[min i (values.length - 1)]? with
  | none => exact hzero
  | some v => exact h v ((List.mem_insertionSort _).mp (List.mem_of_getElem? hi))

variable [FloorRing K]

/-- The value at a place between two numbers. -/
def interpolate (f : Nat → K) (x : K) : K :=
  f ⌊x⌋₊ * (1 - (x - ⌊x⌋₊)) + f (⌊x⌋₊ + 1) * (x - ⌊x⌋₊)

section Interpolation
variable [IsStrictOrderedRing K] {f : Nat → K} {x y : K}

theorem interpolate_le_succ (hf : Monotone f) (hx : 0 ≤ x) : interpolate f x ≤ f (⌊x⌋₊ + 1) := by
  have hfloor := Nat.floor_le hx
  have hlt := Nat.lt_floor_add_one x
  have hstep := hf (Nat.le_succ ⌊x⌋₊)
  rw [interpolate]
  nlinarith

theorem le_interpolate (hf : Monotone f) (hx : 0 ≤ x) : f ⌊x⌋₊ ≤ interpolate f x := by
  have hfloor := Nat.floor_le hx
  have hstep := hf (Nat.le_succ ⌊x⌋₊)
  rw [interpolate]
  nlinarith

theorem interpolate_mono (hf : Monotone f) (hx : 0 ≤ x) (h : x ≤ y) :
    interpolate f x ≤ interpolate f y := by
  rcases (Nat.floor_mono h).eq_or_lt with heq | hlt
  · have hstep := hf (Nat.le_succ ⌊x⌋₊)
    rw [interpolate, interpolate, ← heq]
    nlinarith
  · calc interpolate f x ≤ f (⌊x⌋₊ + 1) := interpolate_le_succ hf hx
      _ ≤ f ⌊y⌋₊ := hf hlt
      _ ≤ interpolate f y := le_interpolate hf (hx.trans h)

end Interpolation

/-- The place of the nearest rank, from a share of `n` values. -/
def nearestRank (n : Nat) (share : K) : Nat := (max 0 (min ((n : Int) - 1) (⌈share⌉ - 1))).toNat

theorem nearestRank_mono (n : Nat) {p q : K} (h : p ≤ q) : nearestRank n p ≤ nearestRank n q := by
  have hceil : ⌈p⌉ ≤ ⌈q⌉ := Int.ceil_mono h
  rw [nearestRank, nearestRank]
  omega

section Floats
open Binary64
variable {f : Nat → ℚ} {x y : ℚ}

/-- The interpolation with every operation rounded. -/
def floatInterpolate (f : Nat → ℚ) (x : ℚ) : ℚ :=
  nearest (nearest (f ⌊x⌋₊ * nearest (1 - nearest (x - ⌊x⌋₊))) +
    nearest (f (⌊x⌋₊ + 1) * nearest (x - ⌊x⌋₊)))

theorem abs_mul_le {a b c : ℚ} (ha : |a| ≤ 1) (h : |b| ≤ c) : |a * b| ≤ c := by
  rw [abs_mul]
  exact (mul_le_of_le_one_left (abs_nonneg b) ha).trans h

/-- Five operations are rounded, and the weight is rounded in both products. -/
theorem weighted_error {a b w : ℚ} (ha : |a| ≤ 1) (hb : |b| ≤ 1) (h0 : 0 ≤ w) (h1 : w ≤ 1) :
    |nearest (nearest (a * nearest (1 - nearest w)) + nearest (b * nearest w)) -
      (a * (1 - w) + b * w)| ≤ 1 / 2 ^ 50 := by
  obtain ⟨hu0, hu1⟩ := nearest_mem_unit h0 h1
  have hu := nearest_error (q := w) (by rw [abs_of_nonneg h0]; linarith)
  generalize nearest w = u at hu0 hu1 hu ⊢
  obtain ⟨hv0, hv1⟩ := nearest_mem_unit (q := 1 - u) (by linarith) (by linarith)
  have hv := nearest_error (q := 1 - u) (by rw [abs_of_nonneg (by linarith)]; linarith)
  generalize nearest (1 - u) = v at hv0 hv1 hv ⊢
  have hav := abs_mul_le ha (abs_of_nonneg hv0).le
  have hbu := abs_mul_le hb (abs_of_nonneg hu0).le
  have hp := nearest_error (q := a * v) (by linarith)
  have hq := nearest_error (q := b * u) (by linarith)
  generalize nearest (a * v) = p at hp ⊢
  generalize nearest (b * u) = q at hq ⊢
  -- the weights add up to one but for their rounding
  have hweights : |v - (1 - w)| ≤ 1 / 2 ^ 53 + 1 / 2 ^ 53 := by
    have hsplit : v - (1 - w) = (v - (1 - u)) - (u - w) := by ring
    rw [hsplit]
    exact (abs_sub _ _).trans (add_le_add hv hu)
  have hleft := abs_mul_le ha hweights
  have hright := abs_mul_le hb hu
  rw [mul_sub] at hleft hright
  rw [abs_le] at *
  norm_num at *
  have hs := nearest_error (q := p + q) (by rw [abs_lt]; constructor <;> linarith)
  rw [abs_le] at hs
  norm_num at hs
  constructor <;> linarith

theorem floatInterpolate_error (hf : ∀ i, |f i| ≤ 1) (hx : 0 ≤ x) :
    |floatInterpolate f x - interpolate f x| ≤ 1 / 2 ^ 50 := by
  have hfloor := Nat.floor_le hx
  have hlt := Nat.lt_floor_add_one x
  exact weighted_error (hf _) (hf _) (by linarith) (by linarith)

/-- Up to the rounding errors the interpolation in floats does not decrease. -/
theorem floatInterpolate_le (hf : Monotone f) (hbound : ∀ i, |f i| ≤ 1) (hx : 0 ≤ x) (h : x ≤ y) :
    floatInterpolate f x ≤ floatInterpolate f y + 1 / 2 ^ 49 := by
  have hleft := (abs_le.mp (floatInterpolate_error hbound hx)).2
  have hright := (abs_le.mp (floatInterpolate_error hbound (hx.trans h))).1
  have hmono := interpolate_mono hf hx h
  have hsum : (1 : ℚ) / 2 ^ 50 + 1 / 2 ^ 50 = 1 / 2 ^ 49 := by norm_num
  linarith

end Floats

end Quantiles
