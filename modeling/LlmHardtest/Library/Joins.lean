import LlmHardtest.Library.GroupBy
set_option autoImplicit false

/-! Records split into two tables and joined again, and groups in the order of their keys. -/

namespace Joins

section Tables
variable {ι π χ : Type} [DecidableEq ι] {key : π → ι} {owner : χ → ι}

/-- The parts in a table that belong to an owner. -/
def partsOf (owner : χ → ι) (parts : List χ) (i : ι) : List χ := parts.filter fun c => owner c = i

theorem partsOf_append (xs ys : List χ) (i : ι) :
    partsOf owner (xs ++ ys) i = partsOf owner xs i ++ partsOf owner ys i := List.filter_append ..

theorem partsOf_perm {xs ys : List χ} (h : xs.Perm ys) (i : ι) :
    (partsOf owner xs i).Perm (partsOf owner ys i) := h.filter _

/-- Records own their parts, and no two of them have a key in common. -/
structure Keyed (key : π → ι) (owner : χ → ι) (records : List (π × List χ)) : Prop where
  owned : ∀ r ∈ records, ∀ c ∈ r.2, owner c = key r.1
  distinct : (records.map fun r => key r.1).Nodup

variable {records : List (π × List χ)}

theorem Keyed.own_parts (h : Keyed key owner records) :
    ∀ r ∈ records, partsOf owner (records.flatMap Prod.snd) (key r.1) = r.2 := by
  induction records with
  | nil => simp
  | cons s rest ih =>
    obtain ⟨howned, hdistinct⟩ := h
    rw [List.map_cons, List.nodup_cons] at hdistinct
    have hrest : Keyed key owner rest := ⟨fun r hr => howned r (List.mem_cons_of_mem _ hr), hdistinct.2⟩
    have hne : ∀ r ∈ rest, key r.1 ≠ key s.1 := fun r hr he =>
      hdistinct.1 (List.mem_map.mpr ⟨r, hr, he⟩)
    intro r hr
    rw [List.flatMap_cons, partsOf_append]
    rcases List.mem_cons.mp hr with rfl | hr
    · have hself : partsOf owner r.2 (key r.1) = r.2 := by
        rw [partsOf, List.filter_eq_self]
        intro c hc
        exact decide_eq_true (howned r List.mem_cons_self c hc)
      have hothers : partsOf owner (rest.flatMap Prod.snd) (key r.1) = [] := by
        rw [partsOf, List.filter_eq_nil_iff]
        intro c hc
        obtain ⟨q, hq, hc⟩ := List.mem_flatMap.mp hc
        rw [decide_eq_true_eq, howned q (List.mem_cons_of_mem _ hq) c hc]
        exact hne q hq
      rw [hself, hothers, List.append_nil]
    · have hfirst : partsOf owner s.2 (key r.1) = [] := by
        rw [partsOf, List.filter_eq_nil_iff]
        intro c hc
        rw [decide_eq_true_eq, howned s List.mem_cons_self c hc]
        exact fun he => hne r hr he.symm
      rw [hfirst, List.nil_append, ih hrest r hr]

/-- Joining the two tables of some records gives the records back. -/
theorem Keyed.join (h : Keyed key owner records) {parents : List π}
    (hp : parents.Perm (records.map Prod.fst)) :
    (parents.map fun p => (p, partsOf owner (records.flatMap Prod.snd) (key p))).Perm records := by
  refine (hp.map _).trans (.of_eq ?_)
  rw [List.map_map]
  conv_rhs => rw [← List.map_id records]
  exact List.map_congr_left fun r hr => Prod.ext rfl (h.own_parts r hr)

end Tables

section Keys
variable {α κ : Type} {key : α → κ}

theorem find?_key [DecidableEq κ] {l : List α} (hn : (l.map key).Nodup)
    {a : α} (ha : a ∈ l) : l.find? (fun b => key b = key a) = some a := by
  induction l with
  | nil => cases ha
  | cons b l ih =>
    rw [List.map_cons, List.nodup_cons] at hn
    rcases List.mem_cons.mp ha with rfl | ha
    · rw [List.find?_cons_of_pos (by simp)]
    · have hne : key b ≠ key a := fun he => hn.1 (he ▸ List.mem_map_of_mem ha)
      rw [List.find?_cons_of_neg (by simpa using hne)]
      exact ih hn.2 ha

theorem sort_key_perm [LinearOrder κ] {l m : List α} (h : l.Perm m)
    (hn : (l.map key).Nodup) : l.insertionSort (fun a b => key a ≤ key b) =
      m.insertionSort (fun a b => key a ≤ key b) := by
  have hl := List.perm_insertionSort (fun a b => key a ≤ key b) l
  have hm := List.perm_insertionSort (fun a b => key a ≤ key b) m
  refine List.Perm.eq_of_pairwise (fun a b ha hb hab hba => ?_)
    (List.pairwise_insertionSort _ _) (List.pairwise_insertionSort _ _) ((hl.trans h).trans hm.symm)
  exact List.inj_on_of_nodup_map hn (hl.mem_iff.mp ha) (h.mem_iff.mpr (hm.mem_iff.mp hb))
    (le_antisymm hab hba)

end Keys

section Groups
variable {κ α β : Type} [LinearOrder κ]

def sortedKeys (key : α → κ) (l : List α) : List κ := (l.map key).dedup.insertionSort (· ≤ ·)

/-- The groups of a list in the order of their keys. -/
def sortedGroups (key : α → κ) (l : List α) : List (κ × List α) :=
  (GroupBy.groupBy key l).insertionSort fun g g' => g.1 ≤ g'.1

def under (key : α → κ) (l : List α) (k : κ) : List α := l.filter fun a => key a = k

theorem mem_under {key : α → κ} {l : List α} {k : κ} {a : α} :
    a ∈ under key l k ↔ a ∈ l ∧ key a = k := by
  rw [under, List.mem_filter, decide_eq_true_eq]

theorem under_map (key : β → κ) (f : α → β) (l : List α) (k : κ) :
    under key (l.map f) k = (under (fun a => key (f a)) l k).map f := List.filter_map

theorem under_append (key : α → κ) (l m : List α) (k : κ) :
    under key (l ++ m) k = under key l k ++ under key m k := List.filter_append ..

theorem under_perm (key : α → κ) {l m : List α} (h : l.Perm m) (k : κ) :
    (under key l k).Perm (under key m k) := h.filter _

theorem under_sublist (key : α → κ) (l : List α) (k : κ) : (under key l k).Sublist l :=
  List.filter_sublist

theorem under_eq_nil {key : α → κ} {l : List α} {k : κ} (h : ∀ a ∈ l, key a ≠ k) :
    under key l k = [] := by
  rw [under, List.filter_eq_nil_iff]
  intro a ha
  rw [decide_eq_true_eq]
  exact h a ha

theorem mem_sortedKeys {key : α → κ} {l : List α} {k : κ} :
    k ∈ sortedKeys key l ↔ ∃ a ∈ l, key a = k := by
  rw [sortedKeys, List.mem_insertionSort, List.mem_dedup, List.mem_map]

theorem sortedKeys_eq {key : α → κ} {key' : β → κ} {l : List α} {m : List β}
    (h : ∀ k, (∃ a ∈ l, key a = k) ↔ ∃ b ∈ m, key' b = k) : sortedKeys key l = sortedKeys key' m := by
  have hperm : (l.map key).dedup.Perm (m.map key').dedup := by
    refine (List.perm_ext_iff_of_nodup (List.nodup_dedup _) (List.nodup_dedup _)).mpr fun k => ?_
    rw [List.mem_dedup, List.mem_dedup, List.mem_map, List.mem_map]
    exact h k
  exact (((List.perm_insertionSort _ _).trans hperm).trans
    (List.perm_insertionSort _ _).symm).eq_of_sortedLE
      List.sortedLE_insertionSort List.sortedLE_insertionSort

theorem sortedGroups_eq (key : α → κ) (l : List α) :
    sortedGroups key l = (sortedKeys key l).map fun k => (k, under key l k) := by
  have hkeys : (sortedGroups key l).map Prod.fst = sortedKeys key l := by
    have hperm : ((sortedGroups key l).map Prod.fst).Perm (l.map key).dedup := by
      refine ((List.perm_insertionSort _ _).map _).trans ?_
      refine (List.perm_ext_iff_of_nodup (GroupBy.nodup_keys _ _) (List.nodup_dedup _)).mpr fun k => ?_
      rw [GroupBy.mem_keys, List.mem_dedup, List.mem_map]
    have hsorted : ((sortedGroups key l).map Prod.fst).Pairwise (· ≤ ·) :=
      List.pairwise_map.mpr (List.pairwise_insertionSort _ _)
    exact (hperm.trans (List.perm_insertionSort _ _).symm).eq_of_sortedLE hsorted.sortedLE
      List.sortedLE_insertionSort
  rw [← hkeys, List.map_map]
  conv_lhs => rw [← List.map_id (sortedGroups key l)]
  refine List.map_congr_left fun g hg => ?_
  have hmem : (g.1, g.2) ∈ GroupBy.groupBy key l := (List.mem_insertionSort _).mp hg
  exact Prod.ext rfl (GroupBy.mem_groupBy.mp hmem).2

end Groups

end Joins
