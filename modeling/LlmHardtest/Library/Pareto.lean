import Mathlib
set_option autoImplicit false

/-! The elements of a list that no other one dominates. -/

namespace Pareto
variable {α : Type} {r : α → α → Prop} [DecidableRel r]

/-- Nothing in the list dominates the element. -/
def Undominated (r : α → α → Prop) (l : List α) (x : α) : Prop := ∀ z ∈ l, ¬ r z x

instance (l : List α) (x : α) : Decidable (Undominated r l x) :=
  inferInstanceAs (Decidable (∀ z ∈ l, ¬ r z x))

theorem countP_lt (hirrefl : ∀ a, ¬ r a a) (htrans : ∀ a b c, r a b → r b c → r a c) {l : List α}
    {x y : α} (hy : y ∈ l) (h : r y x) :
    l.countP (fun z => r z y) < l.countP fun z => r z x := by
  induction l with
  | nil => cases hy
  | cons a l ih =>
    have hmono : l.countP (fun z => r z y) ≤ l.countP fun z => r z x :=
      List.countP_mono_left fun z _ hz => by simpa using htrans z y x (by simpa using hz) h
    rw [List.countP_cons, List.countP_cons]
    rcases List.mem_cons.mp hy with rfl | hy
    · simp only [hirrefl, h, decide_false, decide_true, if_true, Bool.false_eq_true, if_false]
      omega
    · have hstep : (if decide (r a y) then 1 else 0) ≤ if decide (r a x) then 1 else 0 := by
        by_cases hay : r a y
        · simp [hay, htrans a y x hay h]
        · simp [hay]
      have hlt := ih hy
      omega

/-- Every element is undominated or dominated by an undominated one: the induction is on the number of
elements that dominate it. -/
theorem exists_undominated (hirrefl : ∀ a, ¬ r a a) (htrans : ∀ a b c, r a b → r b c → r a c)
    {l : List α} {x : α} (hx : x ∈ l) :
    ∃ y ∈ l, Undominated r l y ∧ (y = x ∨ r y x) := by
  induction hn : l.countP (fun z => r z x) using Nat.strong_induction_on generalizing x with
  | _ n ih =>
    by_cases hmax : Undominated r l x
    · exact ⟨x, hx, hmax, .inl rfl⟩
    · rw [Undominated] at hmax
      push Not at hmax
      obtain ⟨z, hz, hdominates⟩ := hmax
      obtain ⟨y, hy, hyu, hyz⟩ := ih _ (hn ▸ countP_lt hirrefl htrans hz hdominates) hz rfl
      refine ⟨y, hy, hyu, .inr ?_⟩
      rcases hyz with rfl | hyz
      · exact hdominates
      · exact htrans y z x hyz hdominates

end Pareto
