import LlmHardtest.Library.GroupBy
set_option autoImplicit false

/-! Lists whose values are related one by one: what searching, filtering, mapping and grouping them
gives is related again. -/

namespace Related

variable {α β κ : Type} {R : α → β → Prop}

theorem rel_cases {x : Option α} {y : Option β} (h : Option.Rel R x y) :
    x = none ∧ y = none ∨ ∃ a b, x = some a ∧ y = some b ∧ R a b := by
  cases h with
  | none => exact .inl ⟨rfl, rfl⟩
  | some hab => exact .inr ⟨_, _, rfl, rfl, hab⟩

theorem find?_related {p : α → Bool} {q : β → Bool} (hpq : ∀ a b, R a b → p a = q b) {l : List α}
    {m : List β} (h : List.Forall₂ R l m) : Option.Rel R (l.find? p) (m.find? q) := by
  induction h with
  | nil => exact .none
  | cons hab _ ih =>
    rw [List.find?_cons, List.find?_cons, hpq _ _ hab]
    split
    · exact .some hab
    · exact ih

theorem filter_related {p : α → Bool} {q : β → Bool} (hpq : ∀ a b, R a b → p a = q b) {l : List α}
    {m : List β} (h : List.Forall₂ R l m) : List.Forall₂ R (l.filter p) (m.filter q) :=
  List.rel_filter (fun a b hab => by simp [hpq a b hab]) h

theorem map_related {γ : Type} {f : α → γ} {g : β → γ} (hfg : ∀ a b, R a b → f a = g b) {l : List α}
    {m : List β} (h : List.Forall₂ R l m) : l.map f = m.map g := by
  induction h with
  | nil => rfl
  | cons hab _ ih => rw [List.map_cons, List.map_cons, hfg _ _ hab, ih]

theorem all_related {p : α → Bool} {q : β → Bool} (hpq : ∀ a b, R a b → p a = q b) {l : List α}
    {m : List β} (h : List.Forall₂ R l m) : l.all p = m.all q := by
  induction h with
  | nil => rfl
  | cons hab _ ih => rw [List.all_cons, List.all_cons, hpq _ _ hab, ih]

theorem groupBy_related [DecidableEq κ] {key : α → κ} {key' : β → κ}
    (hkey : ∀ a b, R a b → key a = key' b) {l : List α} {m : List β} (h : List.Forall₂ R l m) :
    List.Forall₂ (fun g g' => g.1 = g'.1 ∧ List.Forall₂ R g.2 g'.2) (GroupBy.groupBy key l)
      (GroupBy.groupBy key' m) := by
  have hadd : ∀ (k : κ) (a : α) (b : β) (gs : List (κ × List α)) (gs' : List (κ × List β)), R a b →
      List.Forall₂ (fun g g' => g.1 = g'.1 ∧ List.Forall₂ R g.2 g'.2) gs gs' →
      List.Forall₂ (fun g g' => g.1 = g'.1 ∧ List.Forall₂ R g.2 g'.2) (GroupBy.add k a gs)
        (GroupBy.add k b gs') := by
    intro k a b gs gs' hab hgs
    induction hgs with
    | nil => exact .cons ⟨rfl, .cons hab .nil⟩ .nil
    | cons hg hrest ih =>
      rw [GroupBy.add, GroupBy.add, hg.1]
      split
      · exact .cons ⟨rfl, List.rel_append hg.2 (.cons hab .nil)⟩ hrest
      · exact .cons hg ih
  have hfold : ∀ (gs : List (κ × List α)) (gs' : List (κ × List β)),
      List.Forall₂ (fun g g' => g.1 = g'.1 ∧ List.Forall₂ R g.2 g'.2) gs gs' →
      List.Forall₂ (fun g g' => g.1 = g'.1 ∧ List.Forall₂ R g.2 g'.2)
        (l.foldl (fun gs a => GroupBy.add (key a) a gs) gs)
        (m.foldl (fun gs a => GroupBy.add (key' a) a gs) gs') := by
    induction h with
    | nil => exact fun gs gs' hgs => hgs
    | cons hab _ ih =>
      intro gs gs' hgs
      rw [List.foldl_cons, List.foldl_cons, hkey _ _ hab]
      exact ih _ _ (hadd _ _ _ _ _ hab hgs)
  exact hfold [] [] .nil

end Related
