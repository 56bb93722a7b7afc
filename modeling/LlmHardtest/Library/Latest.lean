import Mathlib.Data.List.Basic
set_option autoImplicit false

/-! A cell that keeps the value of the greatest stamp it was offered. Stamps are given out before the
values are known, so offers come in any order. -/

namespace Latest

/-- A cell; stamp 0 before the first offer that it took. -/
structure Cell (V : Type) where
  stamp : Nat := 0
  value : Option V

variable {V : Type}

def Cell.offer (c : Cell V) (stamp : Nat) (v : V) : Cell V :=
  if c.stamp < stamp then ⟨stamp, some v⟩ else c

/-- The cell is what the offers `es` make of a cell that began with `base`. -/
structure Reflects (base : Option V) (es : List (Nat × V)) (c : Cell V) : Prop where
  bound : ∀ e ∈ es, e.1 ≤ c.stamp
  none_taken : c.stamp = 0 → c.value = base
  taken : 0 < c.stamp → ∃ v, (c.stamp, v) ∈ es ∧ c.value = some v

section Offers
variable {base : Option V} {es fs : List (Nat × V)} {c d : Cell V} {stamp : Nat} {v : V}

theorem Reflects.start : Reflects base [] ⟨0, base⟩ where
  bound := by simp
  none_taken _ := rfl
  taken h := absurd h (Nat.lt_irrefl 0)

theorem Reflects.congr (h : Reflects base es c) (hmem : ∀ e, e ∈ fs ↔ e ∈ es) :
    Reflects base fs c where
  bound e he := h.bound e ((hmem e).mp he)
  none_taken := h.none_taken
  taken hpos := by
    obtain ⟨v, hv, hc⟩ := h.taken hpos
    exact ⟨v, (hmem _).mpr hv, hc⟩

theorem Cell.stamp_le_offer (c : Cell V) (stamp : Nat) (v : V) : c.stamp ≤ (c.offer stamp v).stamp := by
  unfold Cell.offer
  split
  · exact Nat.le_of_lt (by assumption)
  · exact Nat.le_refl _

theorem Cell.le_stamp_offer (c : Cell V) (stamp : Nat) (v : V) : stamp ≤ (c.offer stamp v).stamp := by
  unfold Cell.offer
  split
  · exact Nat.le_refl _
  · exact Nat.le_of_not_lt (by assumption)

theorem Reflects.offer (h : Reflects base es c) (hpos : 0 < stamp) :
    Reflects base ((stamp, v) :: es) (c.offer stamp v) where
  bound e he := by
    rcases List.mem_cons.mp he with rfl | he
    · exact c.le_stamp_offer stamp v
    · exact Nat.le_trans (h.bound e he) (c.stamp_le_offer stamp v)
  none_taken hzero := by
    have := c.le_stamp_offer stamp v
    omega
  taken _ := by
    unfold Cell.offer
    split
    · exact ⟨v, List.mem_cons_self, rfl⟩
    · rename_i hlt
      obtain ⟨w, hw, hc⟩ := h.taken (by omega)
      exact ⟨w, List.mem_cons_of_mem _ hw, hc⟩

theorem Reflects.value_of_max (h : Reflects base es c)
    (hstamps : ∀ e ∈ es, ∀ f ∈ es, e.1 = f.1 → e.2 = f.2) (hpos : 0 < stamp)
    (he : (stamp, v) ∈ es) (hmax : ∀ e ∈ es, e.1 ≤ stamp) : c.value = some v := by
  have hle := h.bound _ he
  obtain ⟨w, hw, hc⟩ := h.taken (Nat.lt_of_lt_of_le hpos hle)
  have hstamp : c.stamp = stamp := Nat.le_antisymm (hmax _ hw) hle
  rw [hc]
  exact congrArg some (hstamps _ hw _ he hstamp)

/-- What a cell holds does not depend on the order of the offers. -/
theorem Reflects.unique (h : Reflects base es c) (h' : Reflects base fs d)
    (hmem : ∀ e, e ∈ es ↔ e ∈ fs)
    (hstamps : ∀ e ∈ es, ∀ f ∈ es, e.1 = f.1 → e.2 = f.2) : c.value = d.value := by
  have h' := h'.congr hmem
  rcases Nat.eq_zero_or_pos c.stamp with hc | hc
  · have hd : d.stamp = 0 := by
      rcases Nat.eq_zero_or_pos d.stamp with hd | hd
      · exact hd
      · obtain ⟨v, hv, -⟩ := h'.taken hd
        have := h.bound _ hv
        omega
    rw [h.none_taken hc, h'.none_taken hd]
  · obtain ⟨v, hv, hcv⟩ := h.taken hc
    rw [hcv]
    exact (h'.value_of_max hstamps hc hv h.bound).symm

end Offers

end Latest
