import LlmHardtest.Calibration.Coverage
import LlmHardtest.Library.Covering
set_option autoImplicit false

/-! The greedy selection of a panel of items that covers the confirmed directions. -/

namespace Calibration
open Python Covering

/-- A decisive row of the coverage table: the item, the direction, and its margin and effect. -/
structure DecisiveRow where
  item : Str
  target : Str
  margin : ℚ
  effect : ℚ
  deriving DecidableEq, Repr

def decisiveRow (left right : Str) (row : ItemEffect) : Option DecisiveRow :=
  match row.classification, row.simultaneousInterval with
  | .leftHigher, some interval => some {
      item := row.item, target := left ++ ">".toList ++ right, margin := interval.low
      effect := |row.passRateDifference| }
  | .rightHigher, some interval => some {
      item := row.item, target := right ++ ">".toList ++ left, margin := -interval.high
      effect := |row.passRateDifference| }
  | _, _ => none

def decisiveRows (coverage : Coverage) : List DecisiveRow :=
  coverage.comparisons.flatMap fun pair => pair.items.filterMap (decisiveRow pair.left pair.right)

section Tables
variable (rows : List DecisiveRow)

def candidateItems : Finset Str := (rows.map DecisiveRow.item).toFinset

def targetsByItem (item : Str) : Finset Str :=
  ((rows.filter fun row => row.item = item).map DecisiveRow.target).toFinset

def minimumMargin (item : Str) : ℚ :=
  (((rows.filter fun row => row.item = item).map DecisiveRow.margin).min?).getD 0

def maximumEffect (item : Str) : ℚ :=
  (((rows.filter fun row => row.item = item).map DecisiveRow.effect).max?).getD 0

def allTargets : Finset Str := (candidateItems rows).biUnion (targetsByItem rows)

def dependencyPairs (relationships : List Relationship) : List (Str × Str) :=
  (relationships.filter fun row =>
    (row.robustClassification = .robustRedundancyCandidate ∨
      row.robustClassification = .robustOpposingCandidate) ∧
    row.left ∈ candidateItems rows ∧ row.right ∈ candidateItems rows).map fun row => (row.left, row.right)

end Tables

/-- `dependency[item]` -/
def dependencyOf (dependencies : List (Str × Str)) (item : Str) : Finset Str :=
  (dependencies.filterMap fun pair => if pair.1 = item then some pair.2 else none).toFinset ∪
    (dependencies.filterMap fun pair => if pair.2 = item then some pair.1 else none).toFinset

structure SelectedItem where
  item : Str
  newDirectionalTargets : List Str
  allDirectionalTargets : List Str
  minimumSimultaneousMargin : ℚ
  maximumAbsoluteEffect : ℚ
  robustDependencyDegree : Nat
  robustlyDependentWithSelected : List Str
  deriving DecidableEq, Repr

structure Selection where
  selected : List SelectedItem
  uncovered : Finset Str
  remaining : Finset Str
  deriving DecidableEq

section Loop
variable (rows : List DecisiveRow) (dependencies : List (Str × Str)) (s : Selection)

def Selection.selectedNames : Finset Str := (s.selected.map SelectedItem.item).toFinset

/-- `targets_by_item[item] & uncovered` -/
def Selection.newTargets (item : Str) : Finset Str := targetsByItem rows item ∩ s.uncovered

/-- `dependency[item] & selected_names` -/
def Selection.dependentWith (item : Str) : Finset Str := dependencyOf dependencies item ∩ s.selectedNames

/-- A tuple of `ranked`. The item is its last part that is compared, since no two tuples share it. -/
def Selection.rank (item : Str) : ℤ ×ₗ ℕ ×ₗ ℕ ×ₗ ℚ ×ₗ ℚ ×ₗ Str :=
  toLex (-((s.newTargets rows item).card : ℤ), toLex ((s.dependentWith dependencies item).card,
    toLex ((dependencyOf dependencies item).card, toLex (-minimumMargin rows item,
      toLex (-maximumEffect rows item, item)))))

def Selection.ranked : Finset Str := s.remaining.filter fun item => (s.newTargets rows item).Nonempty

def Selection.best : Option Str :=
  ((s.ranked rows).image (s.rank rows dependencies)).min.map fun rank => rank.2.2.2.2.2

def selectedItem (item : Str) : SelectedItem where
  item := item
  newDirectionalTargets := (s.newTargets rows item).sort
  allDirectionalTargets := (targetsByItem rows item).sort
  minimumSimultaneousMargin := roundDigits 6 (minimumMargin rows item)
  maximumAbsoluteEffect := roundDigits 6 (maximumEffect rows item)
  robustDependencyDegree := (dependencyOf dependencies item).card
  robustlyDependentWithSelected := (s.dependentWith dependencies item).sort

def selectionStep : Option Selection :=
  if s.uncovered = ∅ ∨ s.remaining = ∅ then none
  else (s.best rows dependencies).map fun item => {
    selected := s.selected ++ [selectedItem rows dependencies s item]
    uncovered := s.uncovered \ s.newTargets rows item
    remaining := s.remaining.erase item }

end Loop

inductive PanelStatus where
  | insufficient | noDecisiveItems | partialCover | complete
  deriving DecidableEq, Repr

structure Panel where
  status : PanelStatus
  maxItems : Option Nat
  candidateItems : Nat
  selectedItems : List SelectedItem
  directionalTargets : Nat
  coveredDirectionalTargets : Nat
  uncoveredDirectionalTargets : List Str
  robustDependencyPairsConsidered : Nat
  deriving DecidableEq, Repr

def panelLimit : Json → Outcome (Option Nat)
  | .null => .ok none
  | .int n =>
      if n < 1 then .error (.valueError "panel max items must be a positive integer".toList)
      else .ok (some n.toNat)
  | _ => .error (.valueError "panel max items must be a positive integer".toList)

/-- The selection; every pass removes an item, so that without a limit there is one pass for each. -/
def panelSelection (rows : List DecisiveRow) (dependencies : List (Str × Str)) (limit : Option Nat) :
    Selection :=
  loop (selectionStep rows dependencies) (limit.getD (candidateItems rows).card)
    ⟨[], allTargets rows, candidateItems rows⟩

def panelStatus (coverage : Coverage) (targets uncovered : Finset Str) : PanelStatus :=
  if targets = ∅ then
    if coverage.eligibleConfigurationPairs = 0 then .insufficient else .noDecisiveItems
  else if uncovered = ∅ then .complete
  else .partialCover

def discriminativeItemPanel (coverage : Coverage) (relationships : List Relationship)
    (maxItems : Json) : Outcome Panel := do
  let limit ← panelLimit maxItems
  let rows := decisiveRows coverage
  let dependencies := dependencyPairs rows relationships
  let final := panelSelection rows dependencies limit
  return {
    status := panelStatus coverage (allTargets rows) final.uncovered
    maxItems := limit
    candidateItems := (candidateItems rows).card
    selectedItems := final.selected
    directionalTargets := (allTargets rows).card
    coveredDirectionalTargets := (allTargets rows).card - final.uncovered.card
    uncoveredDirectionalTargets := final.uncovered.sort
    robustDependencyPairsConsidered := dependencies.length }

theorem decisiveRow_margin {left right : Str} {row : ItemEffect} {decisive : DecisiveRow}
    (hrow : row.separates) (h : decisiveRow left right row = some decisive) :
    itemPairEffectThreshold ≤ decisive.margin ∧ itemPairEffectThreshold ≤ decisive.effect := by
  rw [decisiveRow] at h
  split at h
  · rename_i interval hclass hinterval
    obtain rfl := Option.some.inj h
    obtain ⟨hdifference, i, hi, hlow⟩ := hrow.1 hclass
    obtain rfl := Option.some.inj (hinterval.symm.trans hi)
    exact ⟨hlow, hdifference.trans (le_abs_self _)⟩
  · rename_i interval hclass hinterval
    obtain rfl := Option.some.inj h
    obtain ⟨hdifference, i, hi, hhigh⟩ := hrow.2 hclass
    obtain rfl := Option.some.inj (hinterval.symm.trans hi)
    exact ⟨le_neg.mpr hhigh, (le_neg.mpr hdifference).trans (neg_le_abs _)⟩
  · cases h

theorem decisiveRows_margin {κ : Type} [DecidableEq κ] {text : κ → Str}
    {sampler : Community.HashSampler} {u : UnicodeData} {matrix : Matrix κ} {models : List (κ × Str)}
    {aliases : List (Str × Str)} {clusters : Option (List (κ × κ))} {coverage : Coverage}
    (h : configurationItemCoverage text sampler u matrix models aliases clusters = .ok coverage) :
    ∀ row ∈ decisiveRows coverage,
      itemPairEffectThreshold ≤ row.margin ∧ itemPairEffectThreshold ≤ row.effect := by
  intro decisive hdecisive
  obtain ⟨pair, hpair, hmem⟩ := List.mem_flatMap.mp hdecisive
  obtain ⟨row, hrow, hsome⟩ := List.mem_filterMap.mp hmem
  exact decisiveRow_margin (configurationItemCoverage_separates h pair hpair row hrow) hsome

section Step
variable {rows : List DecisiveRow} {dependencies : List (Str × Str)} {s s' : Selection}

theorem best_none (h : s.best rows dependencies = none) : s.ranked rows = ∅ := by
  cases hmin : ((s.ranked rows).image (s.rank rows dependencies)).min with
  | top => exact Finset.image_eq_empty.mp (Finset.min_eq_top.mp hmin)
  | coe rank =>
    rw [Selection.best, hmin] at h
    cases h

theorem best_some {item : Str} (h : s.best rows dependencies = some item) :
    item ∈ s.ranked rows ∧
      ∀ other ∈ s.ranked rows, s.rank rows dependencies item ≤ s.rank rows dependencies other := by
  cases hmin : ((s.ranked rows).image (s.rank rows dependencies)).min with
  | top =>
    rw [Selection.best, hmin] at h
    cases h
  | coe rank =>
    rw [Selection.best, hmin] at h
    obtain ⟨chosen, hchosen, hrank⟩ := Finset.mem_image.mp (Finset.mem_of_min hmin)
    have hitem : chosen = item := by
      rw [← hrank] at h
      exact Option.some.inj h
    rw [← hitem, hrank]
    refine ⟨hchosen, fun other hother => ?_⟩
    exact Finset.min_le_of_eq (Finset.mem_image_of_mem _ hother) hmin

theorem card_le_of_rank_le {item other : Str}
    (h : s.rank rows dependencies item ≤ s.rank rows dependencies other) :
    (s.newTargets rows other).card ≤ (s.newTargets rows item).card := by
  rcases Prod.Lex.le_iff.mp h with hlt | ⟨heq, -⟩
  · have := (neg_lt_neg_iff.mp hlt).le
    exact_mod_cast this
  · have := (neg_inj.mp heq).ge
    exact_mod_cast this

/-- What a pass does: it takes a remaining item that covers the most. -/
theorem selectionStep_cases (h : selectionStep rows dependencies s = some s') :
    ∃ item ∈ s.remaining, (s.newTargets rows item).Nonempty ∧
      (∀ other ∈ s.remaining, (s.newTargets rows other).card ≤ (s.newTargets rows item).card) ∧
      s' = { selected := s.selected ++ [selectedItem rows dependencies s item]
             uncovered := s.uncovered \ s.newTargets rows item
             remaining := s.remaining.erase item } := by
  rw [selectionStep] at h
  split at h
  · cases h
  obtain ⟨item, hbest, hs'⟩ := Option.map_eq_some_iff.mp h
  obtain ⟨hranked, hmin⟩ := best_some hbest
  obtain ⟨hmem, hne⟩ := Finset.mem_filter.mp hranked
  refine ⟨item, hmem, hne, fun other hother => ?_, hs'.symm⟩
  by_cases hnew : (s.newTargets rows other).Nonempty
  · exact card_le_of_rank_le (hmin other (Finset.mem_filter.mpr ⟨hother, hnew⟩))
  · rw [Finset.not_nonempty_iff_eq_empty.mp hnew, Finset.card_empty]
    exact Nat.zero_le _

theorem selectionStep_none (h : selectionStep rows dependencies s = none) {item target : Str}
    (hitem : item ∈ s.remaining) (htarget : target ∈ targetsByItem rows item) :
    target ∉ s.uncovered := by
  intro huncovered
  rw [selectionStep] at h
  split at h
  · rename_i hstop
    rcases hstop with hempty | hempty
    · simp [hempty] at huncovered
    · simp [hempty] at hitem
  · have hranked := best_none (Option.map_eq_none_iff.mp h)
    have hmem : item ∈ s.ranked rows :=
      Finset.mem_filter.mpr ⟨hitem, target, Finset.mem_inter.mpr ⟨htarget, huncovered⟩⟩
    simp [hranked] at hmem

end Step

def uncoveredBy (rows : List DecisiveRow) (selected : List SelectedItem) : Finset Str :=
  allTargets rows \ (selected.flatMap SelectedItem.newDirectionalTargets).toFinset

def remainingAfter (rows : List DecisiveRow) (selected : List SelectedItem) : Finset Str :=
  candidateItems rows \ (selected.map SelectedItem.item).toFinset

/-- A choice after others: a remaining item with as many targets that are not covered as any. -/
structure GreedyChoice (rows : List DecisiveRow) (before : List SelectedItem) (row : SelectedItem) :
    Prop where
  remaining : row.item ∈ remainingAfter rows before
  new : row.newDirectionalTargets = (targetsByItem rows row.item ∩ uncoveredBy rows before).sort
  most : ∀ other ∈ remainingAfter rows before,
    (targetsByItem rows other ∩ uncoveredBy rows before).card ≤ row.newDirectionalTargets.length

def newPieces (selected : List SelectedItem) : List (Finset Str) :=
  selected.map fun row => row.newDirectionalTargets.toFinset

structure Running (rows : List DecisiveRow) (s : Selection) : Prop where
  split : Split (allTargets rows) (newPieces s.selected) s.uncovered
  remaining : s.remaining = remainingAfter rows s.selected
  greedy : ∀ before row after, s.selected = before ++ row :: after → GreedyChoice rows before row

section Run
variable {rows : List DecisiveRow} {dependencies : List (Str × Str)} {s s' : Selection}

theorem Running.uncovered (h : Running rows s) : s.uncovered = uncoveredBy rows s.selected := by
  ext target
  rw [h.split.mem_rest, uncoveredBy, Finset.mem_sdiff, List.mem_toFinset]
  simp [newPieces]

theorem Running.start : Running rows ⟨[], allTargets rows, candidateItems rows⟩ where
  split := Split.start
  remaining := by simp [remainingAfter]
  greedy before row after h := by simp at h

theorem Running.step (h : Running rows s) (hstep : selectionStep rows dependencies s = some s') :
    Running rows s' := by
  obtain ⟨item, hitem, hne, hmost, rfl⟩ := selectionStep_cases hstep
  have hnew : (s.newTargets rows item).sort.toFinset = s.newTargets rows item := by simp
  refine ⟨?_, ?_, fun before row after hsplit => ?_⟩
  · have hpieces : newPieces (s.selected ++ [selectedItem rows dependencies s item]) =
        newPieces s.selected ++ [s.newTargets rows item] := by
      rw [newPieces, List.map_append, List.map_singleton, selectedItem, hnew]
      rfl
    rw [hpieces]
    exact h.split.take Finset.inter_subset_right hne
  · rw [h.remaining]
    ext other
    simp [remainingAfter, selectedItem]
    tauto
  · rcases List.eq_nil_or_concat after with rfl | ⟨after', last, rfl⟩
    · obtain ⟨rfl, hrow⟩ := List.append_inj' hsplit rfl
      obtain rfl := List.singleton_inj.mp hrow
      refine ⟨h.remaining ▸ hitem, ?_, fun other hother => ?_⟩
      · rw [← h.uncovered]
        rfl
      · rw [← h.uncovered, selectedItem, Finset.length_sort]
        exact hmost other (h.remaining ▸ hother)
    · refine h.greedy before row after' ?_
      rw [List.concat_eq_append, ← List.cons_append, ← List.append_assoc] at hsplit
      exact (List.append_inj' hsplit rfl).1

theorem running_panelSelection (rows : List DecisiveRow) (dependencies : List (Str × Str))
    (limit : Option Nat) :
    Running rows (panelSelection rows dependencies limit) :=
  loop_keeps (P := Running rows) (fun _ _ h hstep => h.step hstep) _ Running.start

theorem Running.selected_covered (h : Running rows s) {row : SelectedItem} {target : Str}
    (hrow : row ∈ s.selected) (htarget : target ∈ targetsByItem rows row.item) :
    target ∉ s.uncovered := by
  obtain ⟨before, after, hsplit⟩ := List.append_of_mem hrow
  intro huncovered
  rw [h.uncovered, uncoveredBy, Finset.mem_sdiff, List.mem_toFinset, hsplit] at huncovered
  obtain ⟨hall, hnone⟩ := huncovered
  have hbefore : target ∈ uncoveredBy rows before := by
    refine Finset.mem_sdiff.mpr ⟨hall, fun hmem => hnone ?_⟩
    rw [List.flatMap_append]
    exact List.mem_append_left _ (List.mem_toFinset.mp hmem)
  refine hnone (List.mem_flatMap.mpr ⟨row, by simp, ?_⟩)
  rw [(h.greedy before row after hsplit).new, Finset.mem_sort]
  exact Finset.mem_inter.mpr ⟨htarget, hbefore⟩

/-- The passes for all candidates are enough for the loop to stop on its own. -/
theorem unlimited_stopped :
    selectionStep rows dependencies (panelSelection rows dependencies none) = none := by
  refine loop_stopped (fun s => s.remaining.card) (fun s s' hstep => ?_) le_rfl
  obtain ⟨item, hitem, -, -, rfl⟩ := selectionStep_cases hstep
  exact Finset.card_erase_lt_of_mem hitem

theorem unlimited_uncovered : (panelSelection rows dependencies none).uncovered = ∅ := by
  have hrun := running_panelSelection rows dependencies none
  refine Finset.eq_empty_of_forall_notMem fun target htarget => ?_
  obtain ⟨item, hitem, hmem⟩ := Finset.mem_biUnion.mp
    ((hrun.split.mem_iff target).mpr (.inl htarget))
  by_cases hselected : item ∈ (panelSelection rows dependencies none).selected.map SelectedItem.item
  · obtain ⟨row, hrow, rfl⟩ := List.mem_map.mp hselected
    exact hrun.selected_covered hrow hmem htarget
  · have hremaining : item ∈ (panelSelection rows dependencies none).remaining := by
      rw [hrun.remaining, remainingAfter, Finset.mem_sdiff, List.mem_toFinset]
      exact ⟨hitem, hselected⟩
    exact selectionStep_none unlimited_stopped hremaining hmem htarget

theorem step_selected (h : selectionStep rows dependencies s = some s') :
    ∃ row, s'.selected = s.selected ++ [row] := by
  obtain ⟨item, -, -, -, rfl⟩ := selectionStep_cases h
  exact ⟨_, rfl⟩

/-- A limit takes the first items of the selection without one. -/
theorem limited_selected (k : Nat) : (panelSelection rows dependencies (some k)).selected =
    (panelSelection rows dependencies none).selected.take k := by
  let start : Selection := ⟨[], allTargets rows, candidateItems rows⟩
  have hstep : ∀ s s', selectionStep rows dependencies s = some s' →
      ∃ row, s'.selected = s.selected ++ [row] := fun _ _ => step_selected
  have hsame : loop (selectionStep rows dependencies) (max k (candidateItems rows).card) start =
      panelSelection rows dependencies none :=
    loop_of_stopped unlimited_stopped (le_max_right _ _)
  have htake := log_take Selection.selected hstep (le_max_left k (candidateItems rows).card)
    start
  rw [hsame] at htake
  change _ = List.take (0 + k) _ at htake
  rwa [Nat.zero_add] at htake

end Run

section Reordered
variable {rows rows' : List DecisiveRow} {dependencies dependencies' : List (Str × Str)}

theorem candidateItems_perm (h : rows.Perm rows') : candidateItems rows = candidateItems rows' :=
  List.toFinset_eq_of_perm _ _ (h.map _)

theorem targetsByItem_perm (h : rows.Perm rows') : targetsByItem rows = targetsByItem rows' := by
  funext item
  exact List.toFinset_eq_of_perm _ _ ((h.filter _).map _)

theorem allTargets_perm (h : rows.Perm rows') : allTargets rows = allTargets rows' := by
  rw [allTargets, allTargets, candidateItems_perm h, targetsByItem_perm h]

theorem min?_perm {l l' : List ℚ} (h : l.Perm l') : l.min? = l'.min? := by
  cases hmin : l.min? with
  | none =>
    rw [List.min?_eq_none_iff.mp hmin] at h
    rw [List.nil_perm.mp h]
    rfl
  | some a =>
    obtain ⟨hmem, hle⟩ := List.min?_eq_some_iff.mp hmin
    exact (List.min?_eq_some_iff.mpr ⟨h.mem_iff.mp hmem, fun b hb => hle b (h.mem_iff.mpr hb)⟩).symm

theorem max?_perm {l l' : List ℚ} (h : l.Perm l') : l.max? = l'.max? := by
  cases hmax : l.max? with
  | none =>
    rw [List.max?_eq_none_iff.mp hmax] at h
    rw [List.nil_perm.mp h]
    rfl
  | some a =>
    obtain ⟨hmem, hle⟩ := List.max?_eq_some_iff.mp hmax
    exact (List.max?_eq_some_iff.mpr ⟨h.mem_iff.mp hmem, fun b hb => hle b (h.mem_iff.mpr hb)⟩).symm

theorem minimumMargin_perm (h : rows.Perm rows') : minimumMargin rows = minimumMargin rows' := by
  funext item
  rw [minimumMargin, minimumMargin, min?_perm ((h.filter _).map _)]

theorem maximumEffect_perm (h : rows.Perm rows') : maximumEffect rows = maximumEffect rows' := by
  funext item
  rw [maximumEffect, maximumEffect, max?_perm ((h.filter _).map _)]

theorem dependencyPairs_perm {relationships relationships' : List Relationship}
    (h : rows.Perm rows') (hrel : relationships.Perm relationships') :
    (dependencyPairs rows relationships).Perm (dependencyPairs rows' relationships') := by
  rw [dependencyPairs, dependencyPairs, candidateItems_perm h]
  exact (hrel.filter _).map _

theorem dependencyOf_perm (h : dependencies.Perm dependencies') :
    dependencyOf dependencies = dependencyOf dependencies' := by
  funext item
  rw [dependencyOf, dependencyOf, List.toFinset_eq_of_perm _ _ (h.filterMap _),
    List.toFinset_eq_of_perm _ _ (h.filterMap fun pair => if pair.2 = item then some pair.1 else none)]

theorem selectionStep_perm (h : rows.Perm rows') (hdep : dependencies.Perm dependencies') :
    selectionStep rows dependencies = selectionStep rows' dependencies' := by
  funext s
  have hrank : s.rank rows dependencies = s.rank rows' dependencies' := by
    funext item
    simp only [Selection.rank, Selection.newTargets, Selection.dependentWith, targetsByItem_perm h,
      minimumMargin_perm h, maximumEffect_perm h, dependencyOf_perm hdep]
  have hranked : s.ranked rows = s.ranked rows' := by
    refine Finset.filter_congr fun item _ => ?_
    rw [Selection.newTargets, Selection.newTargets, targetsByItem_perm h]
  simp only [selectionStep, Selection.best, hranked, hrank, Selection.newTargets,
    Selection.dependentWith, selectedItem, targetsByItem_perm h, minimumMargin_perm h,
    maximumEffect_perm h, dependencyOf_perm hdep]

theorem panelSelection_perm (h : rows.Perm rows') (hdep : dependencies.Perm dependencies')
    (limit : Option Nat) :
    panelSelection rows dependencies limit = panelSelection rows' dependencies' limit := by
  rw [panelSelection, panelSelection, selectionStep_perm h hdep, allTargets_perm h,
    candidateItems_perm h]

def PairCoverage.reordered (a b : PairCoverage) : Prop :=
  a.left = b.left ∧ a.right = b.right ∧ a.items.Perm b.items

def Coverage.reordered (a b : Coverage) : Prop :=
  a.eligibleConfigurationPairs = b.eligibleConfigurationPairs ∧
    ∃ between, a.comparisons.Perm between ∧ List.Forall₂ PairCoverage.reordered between b.comparisons

theorem decisiveRows_perm {a b : Coverage} (h : a.reordered b) :
    (decisiveRows a).Perm (decisiveRows b) := by
  obtain ⟨-, between, hperm, hitems⟩ := h
  refine (hperm.flatMap_right _).trans ?_
  clear hperm
  rw [decisiveRows]
  generalize b.comparisons = pairs at hitems
  induction hitems with
  | nil => rfl
  | cons hpair _ ih =>
    obtain ⟨hleft, hright, hrows⟩ := hpair
    rw [List.flatMap_cons, List.flatMap_cons, hleft, hright]
    exact (hrows.filterMap _).append ih

end Reordered

/-- The panel covers its targets piece by piece and greedily; without a limit it covers all of them, a
limit takes its first items, and the order of the tables does not matter. -/
theorem discriminativeItemPanel_greedy (coverage : Coverage) (relationships : List Relationship) :
    (∀ maxItems panel, discriminativeItemPanel coverage relationships maxItems = .ok panel →
      Split (allTargets (decisiveRows coverage)) (newPieces panel.selectedItems)
        panel.uncoveredDirectionalTargets.toFinset ∧
      panel.directionalTargets = (allTargets (decisiveRows coverage)).card ∧
      panel.coveredDirectionalTargets + panel.uncoveredDirectionalTargets.length =
        panel.directionalTargets ∧
      ∀ before row after, panel.selectedItems = before ++ row :: after →
        GreedyChoice (decisiveRows coverage) before row) ∧
    (∃ full, discriminativeItemPanel coverage relationships .null = .ok full ∧
      full.uncoveredDirectionalTargets = [] ∧
      ((allTargets (decisiveRows coverage)).Nonempty → full.status = .complete) ∧
      ∀ k : Nat, 1 ≤ k → ∃ panel,
        discriminativeItemPanel coverage relationships (.int k) = .ok panel ∧
        panel.selectedItems = full.selectedItems.take k) ∧
    ∀ coverage' relationships' maxItems, coverage.reordered coverage' →
      relationships.Perm relationships' →
      discriminativeItemPanel coverage relationships maxItems =
        discriminativeItemPanel coverage' relationships' maxItems := by
  refine ⟨fun maxItems panel h => ?_, ⟨_, rfl, ?_, fun htargets => ?_, fun k hk => ?_⟩,
    fun coverage' relationships' maxItems hcoverage hrelationships => ?_⟩
  · obtain ⟨limit, -, hpanel⟩ := Failures.bind_eq_ok.mp h
    obtain rfl := Except.ok.inj hpanel
    have hrun := running_panelSelection (decisiveRows coverage)
      (dependencyPairs (decisiveRows coverage) relationships) limit
    have hsubset : (panelSelection (decisiveRows coverage)
        (dependencyPairs (decisiveRows coverage) relationships) limit).uncovered ⊆
        allTargets (decisiveRows coverage) :=
      fun target htarget => (hrun.split.mem_iff target).mpr (.inl htarget)
    refine ⟨?_, rfl, ?_, hrun.greedy⟩
    · rw [Finset.sort_toFinset]
      exact hrun.split
    · rw [Finset.length_sort]
      exact Nat.sub_add_cancel (Finset.card_le_card hsubset)
  · rw [unlimited_uncovered]
    exact Finset.sort_empty _
  · rw [panelStatus, if_neg htargets.ne_empty, if_pos unlimited_uncovered]
  · have hlimit : panelLimit (.int k) = .ok (some k) := by
      rw [panelLimit, if_neg (by omega), Int.toNat_natCast]
    rw [discriminativeItemPanel, hlimit]
    exact ⟨_, rfl, limited_selected k⟩
  · have hrows := decisiveRows_perm hcoverage
    have hdep := dependencyPairs_perm hrows hrelationships
    have hstatus : panelStatus coverage = panelStatus coverage' := by
      funext targets uncovered
      rw [panelStatus, panelStatus, hcoverage.1]
    simp only [discriminativeItemPanel, hstatus, panelSelection_perm hrows hdep, allTargets_perm hrows,
      candidateItems_perm hrows, hdep.length_eq]

def sampleCoverage (items : List ItemEffect) : Coverage where
  eligibleConfigurationPairs := 1
  bonferroniFamilywiseAlpha := some (1 / 20)
  comparisons := [{
    left := "C1".toList, right := "C2".toList, eligibleItems := 2, decisiveItems := 2
    familywiseAlpha := some (1 / 20), interval := none, classification := .separating, items }]
  itemCoverage := []

def sampleEffect (item : String) (classification : EffectClass) : ItemEffect where
  item := item.toList
  leftIndependentUnits := 5
  rightIndependentUnits := 5
  passRateDifference := 1
  simultaneousInterval := some ⟨1, 1⟩
  classification := classification

theorem discriminativeItemPanel_twoItems :
    (∃ full, discriminativeItemPanel (sampleCoverage [sampleEffect "q1" .leftHigher,
        sampleEffect "q2" .rightHigher]) [] .null = .ok full ∧ full.status = .complete ∧
      ∃ panel, discriminativeItemPanel (sampleCoverage [sampleEffect "q1" .leftHigher,
          sampleEffect "q2" .rightHigher]) [] (.int 1) = .ok panel ∧
        panel.selectedItems = full.selectedItems.take 1 ∧
        Split (allTargets (decisiveRows (sampleCoverage [sampleEffect "q1" .leftHigher,
          sampleEffect "q2" .rightHigher]))) (newPieces panel.selectedItems)
          panel.uncoveredDirectionalTargets.toFinset) ∧
    discriminativeItemPanel (sampleCoverage [sampleEffect "q1" .leftHigher,
        sampleEffect "q2" .rightHigher]) [] .null =
      discriminativeItemPanel (sampleCoverage [sampleEffect "q2" .rightHigher,
        sampleEffect "q1" .leftHigher]) [] .null := by
  obtain ⟨hpanel, ⟨full, hfull, -, hcomplete, hlimit⟩, horder⟩ := discriminativeItemPanel_greedy
    (sampleCoverage [sampleEffect "q1" .leftHigher, sampleEffect "q2" .rightHigher]) []
  obtain ⟨panel, hok, htake⟩ := hlimit 1 le_rfl
  refine ⟨⟨full, hfull, hcomplete ⟨"C1>C2".toList, by decide⟩, panel, hok, htake,
    (hpanel _ panel hok).1⟩, horder _ _ _ ⟨rfl, _, .refl _, .cons ⟨rfl, rfl, .swap _ _ _⟩ .nil⟩ (.refl _)⟩

end Calibration
