import Mathlib
set_option autoImplicit false

/-! Grouping a list by a key, one value after the other. -/

namespace GroupBy

variable {κ α : Type} [DecidableEq κ]

/-- A value joins the group of its key, or opens it. -/
def add (k : κ) (a : α) : List (κ × List α) → List (κ × List α)
  | [] => [(k, [a])]
  | g :: gs => if g.1 = k then (k, g.2 ++ [a]) :: gs else g :: add k a gs

/-- The groups of a list, in the order in which their keys occur first. -/
def groupBy (key : α → κ) (l : List α) : List (κ × List α) :=
  l.foldl (fun gs a => add (key a) a gs) []

@[simp] theorem groupBy_nil (key : α → κ) : groupBy key [] = [] := rfl

theorem groupBy_snoc (key : α → κ) (l : List α) (a : α) :
    groupBy key (l ++ [a]) = add (key a) a (groupBy key l) := by
  simp [groupBy]

theorem mem_keys_add {k j : κ} {a : α} {gs : List (κ × List α)} :
    j ∈ (add k a gs).map Prod.fst ↔ j = k ∨ j ∈ gs.map Prod.fst := by
  induction gs with
  | nil => simp [add]
  | cons g gs ih =>
    by_cases h : g.1 = k
    · simp [add, h]
    · simp only [add, h, if_false, List.map_cons, List.mem_cons, ih]
      tauto

theorem nodup_keys_add {k : κ} {a : α} {gs : List (κ × List α)}
    (h : (gs.map Prod.fst).Nodup) : ((add k a gs).map Prod.fst).Nodup := by
  induction gs with
  | nil => simp [add]
  | cons g gs ih =>
    rw [List.map_cons, List.nodup_cons] at h
    by_cases hk : g.1 = k
    · simpa [add, hk] using ⟨by simpa [hk] using h.1, h.2⟩
    · simp only [add, hk, if_false, List.map_cons, List.nodup_cons]
      refine ⟨?_, ih h.2⟩
      rw [mem_keys_add]
      rintro (he | he)
      · exact hk he
      · exact h.1 he

theorem mem_add {k j : κ} {a : α} {g : List α} {gs : List (κ × List α)}
    (h : (gs.map Prod.fst).Nodup) :
    (j, g) ∈ add k a gs ↔ (j ≠ k ∧ (j, g) ∈ gs) ∨
      (j = k ∧ ∃ g', g = g' ++ [a] ∧ ((k, g') ∈ gs ∨ (g' = [] ∧ k ∉ gs.map Prod.fst))) := by
  induction gs with
  | nil =>
    simp only [add, List.mem_singleton, Prod.mk.injEq, List.not_mem_nil, and_false, false_or,
      List.map_nil, not_false_eq_true, and_true]
    constructor
    · rintro ⟨rfl, rfl⟩
      exact ⟨rfl, [], rfl, rfl⟩
    · rintro ⟨rfl, g', rfl, rfl⟩
      exact ⟨rfl, rfl⟩
  | cons e gs ih =>
    obtain ⟨i, members⟩ := e
    rw [List.map_cons, List.nodup_cons] at h
    by_cases hk : i = k
    · subst hk
      have hi : ∀ g', (i, g') ∉ gs := fun g' hg => h.1 (List.mem_map.mpr ⟨_, hg, rfl⟩)
      simp only [add, if_true, List.mem_cons, Prod.mk.injEq, List.map_cons, true_or,
        not_true_eq_false, and_false, or_false, true_and]
      constructor
      · rintro (⟨rfl, rfl⟩ | hmem)
        · exact .inr ⟨rfl, members, rfl, .inl rfl⟩
        · refine .inl ⟨?_, .inr hmem⟩
          rintro rfl
          exact hi _ hmem
      · rintro (⟨hne, ⟨rfl, -⟩ | hmem⟩ | ⟨rfl, g', rfl, rfl | hmem⟩)
        · exact absurd rfl hne
        · exact .inr hmem
        · exact .inl ⟨rfl, rfl⟩
        · exact absurd hmem (hi _)
    · simp only [add, hk, if_false, List.mem_cons, ih h.2, Prod.mk.injEq, List.map_cons]
      constructor
      · rintro (⟨rfl, rfl⟩ | ⟨hne, hmem⟩ | ⟨rfl, g', rfl, hg⟩)
        · exact .inl ⟨hk, .inl ⟨rfl, rfl⟩⟩
        · exact .inl ⟨hne, .inr hmem⟩
        · refine .inr ⟨rfl, g', rfl, ?_⟩
          rcases hg with hg | ⟨rfl, hg⟩
          · exact .inl (.inr hg)
          · exact .inr ⟨rfl, by rintro (he | he); exacts [hk he.symm, hg he]⟩
      · rintro (⟨hne, ⟨rfl, rfl⟩ | hmem⟩ | ⟨rfl, g', rfl, (⟨he, -⟩ | hg) | ⟨rfl, hg⟩⟩)
        · exact .inl ⟨rfl, rfl⟩
        · exact .inr (.inl ⟨hne, hmem⟩)
        · exact absurd he.symm hk
        · exact .inr (.inr ⟨rfl, g', rfl, .inl hg⟩)
        · exact .inr (.inr ⟨rfl, [], rfl, .inr ⟨rfl, fun he => hg (.inr he)⟩⟩)

theorem nodup_keys (key : α → κ) (l : List α) : ((groupBy key l).map Prod.fst).Nodup := by
  induction l using List.reverseRecOn with
  | nil => simp
  | append_singleton l a ih =>
    rw [groupBy_snoc]
    exact nodup_keys_add ih

theorem mem_keys {key : α → κ} {l : List α} {k : κ} :
    k ∈ (groupBy key l).map Prod.fst ↔ ∃ a ∈ l, key a = k := by
  induction l using List.reverseRecOn with
  | nil => simp
  | append_singleton l a ih =>
    rw [groupBy_snoc, mem_keys_add, ih]
    simp only [List.mem_append, List.mem_singleton]
    constructor
    · rintro (rfl | ⟨b, hb, rfl⟩)
      · exact ⟨a, .inr rfl, rfl⟩
      · exact ⟨b, .inl hb, rfl⟩
    · rintro ⟨b, hb | rfl, rfl⟩
      · exact .inr ⟨b, hb, rfl⟩
      · exact .inl rfl

/-- A group holds the values of its key, in their order. -/
theorem mem_groupBy {key : α → κ} {l : List α} {k : κ} {g : List α} :
    (k, g) ∈ groupBy key l ↔ (∃ a ∈ l, key a = k) ∧ g = l.filter fun a => key a = k := by
  induction l using List.reverseRecOn generalizing g k with
  | nil => simp
  | append_singleton l a ih =>
    rw [groupBy_snoc, mem_add (nodup_keys key l), List.filter_append, mem_keys]
    simp only [ih, List.mem_append, List.mem_singleton]
    by_cases hk : k = key a
    · subst hk
      simp only [ne_eq, not_true_eq_false, false_and, true_and, false_or]
      constructor
      · rintro ⟨g', rfl, ⟨-, rfl⟩ | ⟨rfl, hnone⟩⟩
        · exact ⟨⟨a, .inr rfl, rfl⟩, by simp⟩
        · refine ⟨⟨a, .inr rfl, rfl⟩, ?_⟩
          have hempty : l.filter (fun b => decide (key b = key a)) = [] := by
            rw [List.filter_eq_nil_iff]
            intro b hb
            simpa using fun he => hnone ⟨b, hb, he⟩
          simp [hempty]
      · rintro ⟨-, rfl⟩
        refine ⟨_, by simp; rfl, ?_⟩
        by_cases hsome : ∃ b ∈ l, key b = key a
        · exact .inl ⟨hsome, rfl⟩
        · refine .inr ⟨?_, hsome⟩
          rw [List.filter_eq_nil_iff]
          intro b hb
          simpa using fun he => hsome ⟨b, hb, he⟩
    · have hka : key a ≠ k := fun he => hk he.symm
      simp only [ne_eq, hk, not_false_eq_true, true_and, false_and, or_false]
      constructor
      · rintro ⟨⟨b, hb, rfl⟩, rfl⟩
        exact ⟨⟨b, .inl hb, rfl⟩, by simp [hka]⟩
      · rintro ⟨⟨b, hb | rfl, hbk⟩, rfl⟩
        · exact ⟨⟨b, hb, hbk⟩, by simp [hka]⟩
        · exact absurd hbk hka

theorem groupBy_ne_nil {key : α → κ} {l : List α} {k : κ} {g : List α}
    (h : (k, g) ∈ groupBy key l) : g ≠ [] := by
  obtain ⟨⟨a, ha, hk⟩, rfl⟩ := mem_groupBy.mp h
  intro hempty
  rw [List.filter_eq_nil_iff] at hempty
  exact hempty a ha (by simpa using hk)

theorem filter_key_eq {β : Type} {gs : List (κ × β)} {k : κ} {b : β} (hnodup : (gs.map Prod.fst).Nodup)
    (h : (k, b) ∈ gs) : (gs.filter fun p => p.1 = k) = [(k, b)] := by
  induction gs with
  | nil => simp at h
  | cons g gs ih =>
    rw [List.map_cons, List.nodup_cons] at hnodup
    rcases List.mem_cons.mp h with rfl | h
    · have hrest : (gs.filter fun p => p.1 = k) = [] := by
        rw [List.filter_eq_nil_iff]
        intro p hp
        simpa using fun he : p.1 = k => hnodup.1 (List.mem_map.mpr ⟨p, hp, he⟩)
      simp [hrest]
    · have hne : g.1 ≠ k := fun he => hnodup.1 (he ▸ List.mem_map.mpr ⟨(k, b), h, rfl⟩)
      rw [List.filter_cons_of_neg (by simpa using hne)]
      exact ih hnodup.2 h

end GroupBy
