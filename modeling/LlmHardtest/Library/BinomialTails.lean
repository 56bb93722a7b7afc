import Mathlib
set_option autoImplicit false

/-! The tails of a row of binomial coefficients. -/

namespace BinomialTails
open Finset

/-- The first `m + 1` coefficients of row `n`. -/
def lowerTail (n m : Nat) : Nat := ∑ k ∈ range (m + 1), n.choose k

/-- The coefficients of row `n` at least as far from its middle as `m` is. -/
def twoTails (n m : Nat) : Nat :=
  ∑ k ∈ (range (n + 1)).filter (fun k => k ≤ m ∨ n ≤ k + m), n.choose k

theorem lowerTail_mono (n : Nat) {m m' : Nat} (h : m ≤ m') : lowerTail n m ≤ lowerTail n m' := by
  apply sum_le_sum_of_subset
  intro k hk
  simp only [mem_range] at hk ⊢
  omega

theorem lowerTail_pos (n m : Nat) : 0 < lowerTail n m := by
  have hzero : n.choose 0 ≤ lowerTail n m :=
    single_le_sum (f := fun k => n.choose k) (fun k _ => Nat.zero_le _) (mem_range.mpr (Nat.succ_pos m))
  rw [Nat.choose_zero_right] at hzero
  omega

theorem upperTail_eq {n m : Nat} (h : m ≤ n) :
    ∑ k ∈ (range (n + 1)).filter (fun k => n ≤ k + m), n.choose k = lowerTail n m := by
  unfold lowerTail
  apply sum_nbij' (fun k => n - k) (fun k => n - k)
  · intro k hk
    simp only [mem_filter, mem_range] at hk ⊢
    omega
  · intro k hk
    simp only [mem_filter, mem_range] at hk ⊢
    omega
  · intro k hk
    simp only [mem_filter, mem_range] at hk
    omega
  · intro k hk
    simp only [mem_range] at hk
    omega
  · intro k hk
    simp only [mem_filter, mem_range] at hk
    exact (Nat.choose_symm (by omega)).symm

theorem twoTails_eq {n m : Nat} (h : 2 * m < n) : twoTails n m = 2 * lowerTail n m := by
  have hlower : (range (n + 1)).filter (fun k => k ≤ m) = range (m + 1) := by
    ext k
    simp only [mem_filter, mem_range]
    omega
  have hdisjoint : Disjoint ((range (n + 1)).filter fun k => k ≤ m)
      ((range (n + 1)).filter fun k => n ≤ k + m) := by
    rw [disjoint_filter]
    intro k _ hk
    omega
  have hupper := upperTail_eq (n := n) (m := m) (by omega)
  unfold twoTails
  rw [filter_or, sum_union hdisjoint, hupper, hlower]
  unfold lowerTail
  omega

theorem twoTails_full {n m : Nat} (h : n ≤ 2 * m) : twoTails n m = 2 ^ n := by
  have hall : (range (n + 1)).filter (fun k => k ≤ m ∨ n ≤ k + m) = range (n + 1) := by
    apply filter_true_of_mem
    intro k _
    omega
  rw [twoTails, hall, Nat.sum_range_choose]

theorem twoTails_le (n m : Nat) : twoTails n m ≤ 2 ^ n := by
  rw [← Nat.sum_range_choose]
  exact sum_le_sum_of_subset (filter_subset _ _)

theorem le_double_lowerTail {n m : Nat} (h : n ≤ 2 * m) (hm : m ≤ n) : 2 ^ n ≤ 2 * lowerTail n m := by
  have hlower : ∑ k ∈ (range (n + 1)).filter (fun k => k ≤ m), n.choose k ≤ lowerTail n m := by
    apply sum_le_sum_of_subset
    intro k hk
    simp only [mem_filter, mem_range] at hk ⊢
    omega
  have hupper := upperTail_eq hm
  have hunion : ∑ k ∈ (range (n + 1)).filter (fun k => k ≤ m) ∪
        (range (n + 1)).filter (fun k => n ≤ k + m), n.choose k +
      ∑ k ∈ (range (n + 1)).filter (fun k => k ≤ m) ∩
        (range (n + 1)).filter (fun k => n ≤ k + m), n.choose k =
      ∑ k ∈ (range (n + 1)).filter (fun k => k ≤ m), n.choose k +
        ∑ k ∈ (range (n + 1)).filter (fun k => n ≤ k + m), n.choose k := sum_union_inter
  have hall := twoTails_full h
  rw [twoTails, filter_or] at hall
  omega

/-- The two tails, as a share of the row, are twice the lower tail but at most the whole. -/
theorem twoTails_eq_min {n m : Nat} (hm : m ≤ n) : twoTails n m = min (2 ^ n) (2 * lowerTail n m) := by
  by_cases h : 2 * m < n
  · rw [twoTails_eq h, min_eq_right]
    rw [← twoTails_eq h]
    exact twoTails_le n m
  · rw [twoTails_full (by omega), min_eq_left (le_double_lowerTail (by omega) hm)]

end BinomialTails
