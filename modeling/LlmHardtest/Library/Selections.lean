import Mathlib
set_option autoImplicit false

/-! The selections of a given size from a list, by the sums that they have. -/

namespace Selections

section Sums
variable {M : Type} [AddCommMonoid M]

/-- The sums of the selections of `k` elements. -/
def sums (k : Nat) (l : List M) : Multiset M := ((l.sublistsLen k).map List.sum : List M)

@[simp] theorem sums_zero (l : List M) : sums 0 l = {0} := by
  rw [sums, List.sublistsLen_zero]
  rfl

theorem sums_cons (k : Nat) (a : M) (l : List M) :
    sums (k + 1) (a :: l) = sums (k + 1) l + (sums k l).map (a + ·) := by
  simp only [sums, List.sublistsLen_succ_cons, List.map_append, List.map_map, ← Multiset.coe_add,
    Multiset.map_coe]
  rfl

theorem sums_length (l : List M) : sums l.length l = {l.sum} := by
  rw [sums, List.sublistsLen_length]
  rfl

theorem card_sums (k : Nat) (l : List M) : (sums k l).card = l.length.choose k := by
  rw [sums, Multiset.coe_card, List.length_map, List.length_sublistsLen]

theorem sums_perm {l l' : List M} (h : l.Perm l') (k : Nat) : sums k l = sums k l' := by
  have hcard : ∀ l : List M, sums k l = ((l : Multiset M).powersetCard k).map Multiset.sum := by
    intro l
    rw [Multiset.powersetCard_coe, Multiset.map_coe, List.map_map, sums]
    congr 1
  rw [hcard, hcard, Multiset.coe_eq_coe.mpr h]

theorem sum_mem_sums {part l : List M} (h : part.Sublist l) : part.sum ∈ sums part.length l :=
  Multiset.mem_coe.mpr (List.mem_map.mpr ⟨part, List.mem_sublistsLen_self h, rfl⟩)

end Sums

/-- The selections of `k` elements leave the selections of the others. -/
theorem sums_compl {M : Type} [AddCommGroup M] {l : List M} {k j : Nat} (h : k + j = l.length) :
    sums k l = (sums j l).map fun s => l.sum - s := by
  induction l generalizing k j with
  | nil =>
    obtain ⟨rfl, rfl⟩ : k = 0 ∧ j = 0 := by
      rw [List.length_nil] at h
      omega
    simp
  | cons a l ih =>
    cases k with
    | zero =>
      obtain rfl : j = (a :: l).length := by omega
      rw [sums_length, sums_zero, Multiset.map_singleton, sub_self]
    | succ k =>
      cases j with
      | zero =>
        obtain hk : k + 1 = (a :: l).length := by omega
        rw [hk, sums_length, sums_zero, Multiset.map_singleton, sub_zero]
      | succ j =>
        have hleft : k + 1 + j = l.length := by
          rw [List.length_cons] at h
          omega
        have hright : k + (j + 1) = l.length := by
          rw [List.length_cons] at h
          omega
        rw [sums_cons, sums_cons, ih hleft, ih hright, Multiset.map_add, Multiset.map_map,
          Multiset.map_map, add_comm]
        congr 1
        · refine Multiset.map_congr rfl fun s _ => ?_
          rw [Function.comp_apply, List.sum_cons, add_sub_assoc]
        · refine Multiset.map_congr rfl fun s _ => ?_
          rw [Function.comp_apply, List.sum_cons, add_sub_add_left_eq_sub]

end Selections
