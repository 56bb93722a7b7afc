import Mathlib
set_option autoImplicit false

/-! The sums of a list under all choices of signs, by the bits of a mask, and how many of them are
certain when only part of the values may change their sign. -/

namespace SignFlips

theorem flatMap_pair {α β : Type} (l : List α) (f g : α → β) :
    (l.flatMap fun s => [f s, g s]).Perm (l.map f ++ l.map g) := by
  induction l with
  | nil => exact .nil
  | cons a l ih =>
    refine (List.Perm.cons (f a) ((List.Perm.cons (g a) ih).trans ?_))
    exact List.perm_middle.symm

theorem subperm_map {α β : Type} {l l' : List α} (f : α → β) (h : l.Subperm l') :
    (l.map f).Subperm (l'.map f) := by
  obtain ⟨k, hperm, hsub⟩ := h
  exact ⟨k.map f, hperm.map f, hsub.map f⟩

section Sums
variable {α : Type} [AddCommGroup α]

/-- The values, with a minus where the bit of the index is not set. -/
def signed (as : List α) (mask : Nat) : List α :=
  as.mapIdx fun i a => if mask.testBit i then a else -a

/-- The sums of the values under all choices of signs. -/
def flips : List α → List α
  | [] => [0]
  | a :: as => (flips as).flatMap fun s => [s - a, s + a]

/-- The sums when large values keep their signs. -/
def smallFlips (large : α → Bool) : List α → List α
  | [] => [0]
  | a :: as =>
      if large a then (smallFlips large as).map fun s => s + a
      else (smallFlips large as).flatMap fun s => [s - a, s + a]

theorem range_double (n : Nat) :
    List.range (2 * n) = (List.range n).flatMap fun m => [2 * m, 2 * m + 1] := by
  induction n with
  | zero => rfl
  | succ n ih =>
    rw [Nat.mul_succ, List.range_succ, List.range_succ, ih, List.range_succ, List.flatMap_append]
    simp

theorem signed_cons (a : α) (as : List α) (mask : Nat) :
    signed (a :: as) mask = (if mask.testBit 0 then a else -a) :: signed as (mask / 2) := by
  rw [signed, List.mapIdx_cons]
  refine congrArg _ (congrArg (List.mapIdx · as) (funext fun i => funext fun b => ?_))
  rw [Nat.testBit_add_one]

theorem sums_signed (as : List α) :
    (List.range (2 ^ as.length)).map (fun mask => (signed as mask).sum) = flips as := by
  induction as with
  | nil => rfl
  | cons a as ih =>
    have hmask : ∀ m, [(signed (a :: as) (2 * m)).sum, (signed (a :: as) (2 * m + 1)).sum] =
        [(signed as m).sum - a, (signed as m).sum + a] := by
      intro m
      have hodd : (2 * m + 1) / 2 = m := by omega
      rw [signed_cons, signed_cons, hodd, Nat.mul_div_cancel_left m (by omega)]
      simp only [Nat.testBit_zero, List.sum_cons]
      have heven : 2 * m % 2 = 0 := by omega
      have hone : (2 * m + 1) % 2 = 1 := by omega
      rw [heven, hone]
      simp [sub_eq_neg_add, add_comm]
    rw [List.length_cons, Nat.pow_succ, Nat.mul_comm, range_double, List.map_flatMap, flips, ← ih,
      List.flatMap_map]
    exact List.flatMap_congr fun m _ => hmask m

theorem length_flips (as : List α) : (flips as).length = 2 ^ as.length := by
  rw [← sums_signed, List.length_map, List.length_range]

variable (large : α → Bool)

theorem length_smallFlips (as : List α) :
    (smallFlips large as).length = 2 ^ as.countP fun a => !large a := by
  induction as with
  | nil => rfl
  | cons a as ih =>
    unfold smallFlips
    split
    · rename_i ha
      rw [List.length_map, ih, List.countP_cons_of_neg (by simp [ha])]
    · rename_i ha
      rw [(flatMap_pair _ _ _).length_eq, List.length_append, List.length_map, List.length_map, ih,
        List.countP_cons_of_pos (by simpa using ha), Nat.pow_succ, Nat.mul_two]

theorem smallFlips_subperm (as : List α) : (smallFlips large as).Subperm (flips as) := by
  induction as with
  | nil => exact List.Subperm.refl _
  | cons a as ih =>
    have hpair := flatMap_pair (flips as) (fun s => s - a) fun s => s + a
    unfold smallFlips
    split
    · refine List.Subperm.trans ?_ hpair.symm.subperm
      exact (subperm_map _ ih).trans (List.sublist_append_right _ _).subperm
    · refine (flatMap_pair _ _ _).subperm.trans (List.Subperm.trans ?_ hpair.symm.subperm)
      exact (subperm_map _ ih).append (subperm_map _ ih)

theorem map_neg_add (l : List α) (a : α) :
    (l.map fun s => s + a).map Neg.neg = (l.map Neg.neg).map fun s => s - a := by
  rw [List.map_map, List.map_map]
  exact List.map_congr_left fun s _ => by simp [neg_add_rev, sub_eq_neg_add, add_comm]

theorem map_neg_sub (l : List α) (a : α) :
    (l.map fun s => s - a).map Neg.neg = (l.map Neg.neg).map fun s => s + a := by
  rw [List.map_map, List.map_map]
  exact List.map_congr_left fun s _ => by simp [sub_eq_add_neg, add_comm]

theorem negSmallFlips_subperm (as : List α) :
    ((smallFlips large as).map Neg.neg).Subperm (flips as) := by
  induction as with
  | nil => simp [smallFlips, flips]
  | cons a as ih =>
    have hpair := flatMap_pair (flips as) (fun s => s - a) fun s => s + a
    unfold smallFlips
    split
    · rw [map_neg_add]
      refine List.Subperm.trans ?_ hpair.symm.subperm
      exact (subperm_map _ ih).trans (List.sublist_append_left _ _).subperm
    · refine ((flatMap_pair _ _ _).map Neg.neg).subperm.trans ?_
      rw [List.map_append, map_neg_sub, map_neg_add]
      refine List.Subperm.trans ?_ hpair.symm.subperm
      exact List.perm_append_comm.subperm.trans ((subperm_map _ ih).append (subperm_map _ ih))

/-- With a large value, the sums that keep its sign and those that change it are different choices. -/
theorem bothSmallFlips_subperm {as : List α} (h : ∃ a ∈ as, large a = true) :
    (smallFlips large as ++ (smallFlips large as).map Neg.neg).Subperm (flips as) := by
  induction as with
  | nil =>
    obtain ⟨a, ha, _⟩ := h
    cases ha
  | cons a as ih =>
    have hpair := flatMap_pair (flips as) (fun s => s - a) fun s => s + a
    unfold smallFlips
    refine List.Subperm.trans ?_ hpair.symm.subperm
    split
    · rw [map_neg_add]
      refine List.perm_append_comm.subperm.trans ?_
      exact (subperm_map _ (negSmallFlips_subperm large as)).append
        (subperm_map _ (smallFlips_subperm large as))
    · rename_i ha
      have hrest : ∃ b ∈ as, large b = true := by
        obtain ⟨b, hb, hlarge⟩ := h
        cases hb with
        | head => exact absurd hlarge ha
        | tail _ hb => exact ⟨b, hb, hlarge⟩
      have hsmall := flatMap_pair (smallFlips large as) (fun s => s - a) fun s => s + a
      have hneg := hsmall.map Neg.neg
      rw [List.map_append, map_neg_sub, map_neg_add] at hneg
      refine (hsmall.append hneg).subperm.trans ?_
      have hsplit := (subperm_map (fun s => s - a) (ih hrest)).append
        (subperm_map (fun s => s + a) (ih hrest))
      rw [List.map_append, List.map_append] at hsplit
      refine List.Subperm.trans (List.Perm.subperm ?_) hsplit
      classical
      refine List.perm_iff_count.mpr fun x => ?_
      simp only [List.count_append]
      omega

/-- The choices of signs that a symmetric property has for certain. -/
theorem le_countP_flips {P : α → Bool} (hneg : ∀ s, P (-s) = P s) {as : List α}
    (h : ∀ s ∈ smallFlips large as, P s = true) :
    min (2 ^ as.length) (2 * 2 ^ as.countP fun a => !large a) ≤ (flips as).countP P := by
  have hall : (smallFlips large as).countP P = (smallFlips large as).length :=
    List.countP_eq_length.mpr h
  by_cases hlarge : ∃ a ∈ as, large a = true
  · have hboth := (bothSmallFlips_subperm large hlarge).countP_le P
    have hminus : ((smallFlips large as).map Neg.neg).countP P = (smallFlips large as).countP P := by
      rw [List.countP_map]
      exact List.countP_congr fun s _ => by simp [hneg]
    rw [List.countP_append, hminus, hall, length_smallFlips] at hboth
    exact (min_le_right _ _).trans (by omega)
  · have hsmall : (as.countP fun a => !large a) = as.length :=
      List.countP_eq_length.mpr fun a ha => by
        have hno := not_exists.mp hlarge a
        simp only [not_and] at hno
        simpa using hno ha
    have hsub := (smallFlips_subperm large as).countP_le P
    rw [hall, length_smallFlips, hsmall] at hsub
    exact (min_le_left _ _).trans hsub

end Sums

section Bound
variable {α : Type} [AddCommGroup α] [LinearOrder α] [IsOrderedAddMonoid α] (large : α → Bool)

theorem abs_sub_smallFlips {as : List α} {s : α} (h : s ∈ smallFlips large as) :
    |s - as.sum| ≤ 2 • ((as.filter fun a => !large a).map abs).sum := by
  induction as generalizing s with
  | nil =>
    obtain rfl := List.mem_singleton.mp h
    simp
  | cons a as ih =>
    unfold smallFlips at h
    split at h
    · rename_i ha
      obtain ⟨t, ht, rfl⟩ := List.mem_map.mp h
      rw [List.filter_cons_of_neg (by simp [ha]), List.sum_cons]
      have hsame : t + a - (a + as.sum) = t - as.sum := by abel
      rw [hsame]
      exact ih ht
    · rename_i ha
      obtain ⟨t, ht, hs⟩ := List.mem_flatMap.mp h
      have hbound := ih ht
      rw [List.filter_cons_of_pos (by simpa using ha), List.map_cons, List.sum_cons, List.sum_cons,
        nsmul_add]
      have ha0 : 0 ≤ 2 • |a| := nsmul_nonneg (abs_nonneg a) 2
      rcases List.mem_cons.mp hs with rfl | hs
      · have hsplit : t - a - (a + as.sum) = (t - as.sum) + -(2 • a) := by
          rw [two_nsmul]
          abel
        rw [hsplit]
        refine (abs_add_le _ _).trans ?_
        rw [abs_neg, abs_nsmul, add_comm]
        exact add_le_add_right hbound _
      · obtain rfl := List.mem_singleton.mp hs
        have hsame : t + a - (a + as.sum) = t - as.sum := by abel
        rw [hsame]
        exact hbound.trans (le_add_of_nonneg_left ha0)

end Bound

end SignFlips
