import LlmHardtest.Calibration.Permutation
import LlmHardtest.Calibration.SignTest
import LlmHardtest.Community.Rates
import LlmHardtest.Library.StepDown
set_option autoImplicit false

/-! The loops that adjust a family of p-values. -/

namespace Calibration
open Python StepDown
open Binary64 (nearest_mem_unit)
open Community (PointwiseInterval ObjectiveRow Objective testedPValues holmLe holmSteps holmAdjust)

inductive EvaluationClass where
  | pending | insufficient | weak | confirmed | reversed
  deriving DecidableEq, Repr

/-- An evaluation of a selected item in one of its directions on the held-out fold; a tested one has
its difference of pass rates and its permutation test. -/
structure HoldoutEvaluation where
  item : Str
  directionalTarget : Str
  higherHoldoutUnits : Nat
  lowerHoldoutUnits : Nat
  tested : Option (ℚ × PermutationTest)
  permutationPHolm : Option ℚ := none
  classification : EvaluationClass
  deriving DecidableEq, Repr

def HoldoutEvaluation.permutationPRaw (row : HoldoutEvaluation) : Option ℚ :=
  row.tested.map fun test => test.2.pValue

/-- The loop over the ordered p-values of the held-out tests and of the comparisons. -/
def calibrationHolmSteps {κ : Type} (tested : Nat) : ℚ → Nat → List (κ × ℚ) → List (κ × ℚ)
  | _, _, [] => []
  | previous, rank, row :: rest =>
      let adjusted := min 1 (max previous (row.2 * ((tested : ℚ) - rank + 1)))
      (row.1, adjusted) :: calibrationHolmSteps tested adjusted (rank + 1) rest

def testedEvaluations (rows : List HoldoutEvaluation) : List ((Nat × Str × Str) × ℚ) :=
  rows.zipIdx.filterMap fun entry =>
    entry.1.permutationPRaw.map fun p => ((entry.2, entry.1.directionalTarget, entry.1.item), p)

def evaluationLe (a b : (Nat × Str × Str) × ℚ) : Prop :=
  a.2 < b.2 ∨ a.2 = b.2 ∧ (a.1.2.1 < b.1.2.1 ∨ a.1.2.1 = b.1.2.1 ∧ a.1.2.2 ≤ b.1.2.2)

instance : DecidableRel evaluationLe := fun _ _ => inferInstanceAs (Decidable (_ ∨ _))

def classifyEvaluation (difference adjusted : ℚ) : EvaluationClass :=
  if familywiseAlpha ≤ adjusted ∨ |difference| < itemPairEffectThreshold then .weak
  else if 0 < difference then .confirmed
  else .reversed

def HoldoutEvaluation.adjusted (row : HoldoutEvaluation) (difference value : ℚ) : HoldoutEvaluation :=
  { row with
    permutationPHolm := some (roundDigits 8 value)
    classification := classifyEvaluation difference value }

/-- The adjustment of `_panel_holdout_validation`. -/
def adjustEvaluations (rows : List HoldoutEvaluation) : List HoldoutEvaluation :=
  let tested := testedEvaluations rows
  let values := calibrationHolmSteps tested.length 0 1 (tested.insertionSort evaluationLe)
  rows.mapIdx fun index row =>
    row.tested.elim row fun test =>
      (values.lookup (index, row.directionalTarget, row.item)).elim row (row.adjusted test.1)

inductive ComparisonClass where
  | insufficient | uncertain | leftHigher | rightHigher
  deriving DecidableEq, Repr

structure ConfigurationComparison where
  left : Str
  right : Str
  leftRespondents : Nat
  rightRespondents : Nat
  commonItems : Nat
  leftItemWins : Nat
  rightItemWins : Nat
  itemTies : Nat
  meanPassRateDifference : Option ℚ
  differenceInterval95 : Option PointwiseInterval
  signTestPRaw : Option ℚ
  signTestPHolm : Option ℚ := none
  classification : ComparisonClass

def ConfigurationComparison.eligible (row : ConfigurationComparison) : Option ℚ :=
  if row.classification = .insufficient ∨ row.signTestPRaw = none then none
  else exactSignPValue row.leftItemWins row.rightItemWins

def eligibleComparisons (rows : List ConfigurationComparison) : List (Nat × ℚ) :=
  rows.zipIdx.filterMap fun entry => entry.1.eligible.map fun p => (entry.2, p)

def comparisonLe (a b : Nat × ℚ) : Prop := a.2 < b.2 ∨ a.2 = b.2 ∧ a.1 ≤ b.1

instance : DecidableRel comparisonLe := fun _ _ => inferInstanceAs (Decidable (_ ∨ _))

def classifyComparison (row : ConfigurationComparison) (adjusted : ℚ) : ComparisonClass :=
  match row.differenceInterval95, row.meanPassRateDifference with
  | some interval, some difference =>
      if adjusted < familywiseAlpha then
        if 0 < difference ∧ 0 < interval.low then .leftHigher
        else if difference < 0 ∧ interval.high < 0 then .rightHigher
        else row.classification
      else row.classification
  | _, _ => row.classification

def ConfigurationComparison.adjusted (row : ConfigurationComparison) (value : ℚ) :
    ConfigurationComparison :=
  { row with
    signTestPHolm := some (roundDigits 6 value)
    classification := classifyComparison row value }

/-- The adjustment of `_configuration_comparisons`. -/
def adjustComparisons (rows : List ConfigurationComparison) : List ConfigurationComparison :=
  let eligible := eligibleComparisons rows
  let values := calibrationHolmSteps eligible.length 0 1 (eligible.insertionSort comparisonLe)
  rows.mapIdx fun index row =>
    row.eligible.elim row fun _ => (values.lookup index).elim row row.adjusted

section Loops
variable {κ : Type}

/-- The calibration loops are the library's loop over the ordered values. -/
theorem calibrationHolmSteps_eq {tested rank : Nat} {previous : ℚ} (l : List (κ × ℚ))
    (h : previous ≤ 1) :
    calibrationHolmSteps tested previous rank l = (l.map Prod.fst).zip
      (clipThenMax previous ((tested : ℚ) - rank + 1) (l.map Prod.snd)) := by
  rw [← maxThenClip_eq _ h]
  clear h
  induction l generalizing previous rank with
  | nil => rfl
  | cons row rest ih =>
    have hfactor : (tested : ℚ) - (rank + 1 : Nat) + 1 = (tested : ℚ) - rank + 1 - 1 := by
      push_cast
      ring
    rw [calibrationHolmSteps, ih, List.map_cons, List.map_cons, maxThenClip, List.zip_cons_cons,
      hfactor]

/-- The loop of the paired comparison rounds the values of the library's loop. -/
theorem holmSteps_eq {family rank : Nat} {previous : ℚ} (l : List (Objective × ℚ)) :
    holmSteps family previous rank l = ((l.map Prod.fst).zip
      (clipThenMax previous ((family : ℚ) - rank + 1) (l.map Prod.snd))).map
        fun e => (e.1, roundDigits 8 e.2) := by
  induction l generalizing previous rank with
  | nil => rfl
  | cons row rest ih =>
    have hfactor : (family : ℚ) - (rank + 1 : Nat) + 1 = (family : ℚ) - rank + 1 - 1 := by
      push_cast
      ring
    rw [holmSteps, ih, List.map_cons, List.map_cons, clipThenMax, List.zip_cons_cons, List.map_cons,
      hfactor]

theorem first_factor (m : Nat) : (m : ℚ) - (1 : Nat) + 1 = m := by
  push_cast
  ring

theorem lookup_map_snd [BEq κ] {V W : Type} (f : V → W) (l : List (κ × V)) (k : κ) :
    (l.map fun e => (e.1, f e.2)).lookup k = (l.lookup k).map f := by
  induction l with
  | nil => rfl
  | cons e l ih =>
    rw [List.map_cons, List.lookup_cons, List.lookup_cons]
    cases k == e.1
    · exact ih
    · rfl

end Loops

section Order
variable {α β : Type} [LinearOrder β]

theorem pairwise_sort (key : α → β) {r : α → α → Prop} [DecidableRel r]
    (h : ∀ a b, r a b ↔ key a ≤ key b) (l : List α) : (l.insertionSort r).Pairwise r := by
  have htotal : Std.Total r := ⟨fun a b => by
    rw [h, h]
    exact le_total _ _⟩
  have htrans : IsTrans α r := ⟨fun a b c => by
    rw [h, h, h]
    exact le_trans⟩
  exact List.pairwise_insertionSort r l

theorem pairwise_snd {κ : Type} (key : κ → β) {r : κ × ℚ → κ × ℚ → Prop} [DecidableRel r]
    (h : ∀ a b, r a b ↔ a.2 < b.2 ∨ a.2 = b.2 ∧ key a.1 ≤ key b.1) (l : List (κ × ℚ)) :
    ((l.insertionSort r).map Prod.snd).Pairwise (· ≤ ·) := by
  have hlex : ∀ a b, r a b ↔ toLex (a.2, key a.1) ≤ toLex (b.2, key b.1) := by
    intro a b
    rw [h, Prod.Lex.le_iff]
    rfl
  refine List.pairwise_map.mpr ((pairwise_sort _ hlex l).imp fun {a b} hab => ?_)
  rcases (h a b).mp hab with hlt | ⟨heq, -⟩
  · exact hlt.le
  · exact heq.le

theorem pairwise_evaluations (l : List ((Nat × Str × Str) × ℚ)) :
    ((l.insertionSort evaluationLe).map Prod.snd).Pairwise (· ≤ ·) := by
  refine pairwise_snd (fun k => toLex k.2) (fun a b => ?_) l
  rw [evaluationLe, Prod.Lex.le_iff]
  rfl

theorem pairwise_comparisons (l : List (Nat × ℚ)) :
    ((l.insertionSort comparisonLe).map Prod.snd).Pairwise (· ≤ ·) :=
  pairwise_snd id (fun _ _ => Iff.rfl) l

theorem pairwise_objectives (l : List (Objective × ℚ)) :
    ((l.insertionSort holmLe).map Prod.snd).Pairwise (· ≤ ·) :=
  pairwise_snd (fun objective : Objective => objective.name.toList) (fun _ _ => Iff.rfl) l

end Order

section Rows

theorem nodup_filterMap {α β γ : Type} {f : α → Option β} {id' : α → γ} {key : β → γ} {l : List α}
    (h : ∀ a b, f a = some b → key b = id' a) (hnodup : (l.map id').Nodup) :
    ((l.filterMap f).map key).Nodup := by
  have hsub : ((l.filterMap f).map key).Sublist (l.map id') := by
    clear hnodup
    induction l with
    | nil => exact .slnil
    | cons a l ih =>
      cases hf : f a with
      | none =>
        rw [List.filterMap_cons_none hf]
        exact ih.cons _
      | some b =>
        rw [List.filterMap_cons_some hf, List.map_cons, List.map_cons, h a b hf]
        exact ih.cons_cons _
  exact hnodup.sublist hsub

theorem nodup_places {α : Type} (rows : List α) : (rows.zipIdx.map Prod.snd).Nodup := by
  rw [List.zipIdx_map_snd]
  exact List.nodup_range'

section Adjust
variable {α κ : Type} [BEq κ] [LawfulBEq κ] {raw : α → Option ℚ} {key : Nat → α → κ}

def keyed (raw : α → Option ℚ) (key : Nat → α → κ) (rows : List α) : List (κ × ℚ) :=
  rows.zipIdx.filterMap fun entry => (raw entry.1).map fun p => (key entry.2 entry.1, p)

omit [BEq κ] [LawfulBEq κ] in
theorem keyed_snd (key : Nat → α → κ) (rows : List α) : (keyed raw key rows).map Prod.snd = rows.filterMap raw := by
  have hfst : rows.filterMap raw = (rows.zipIdx.map Prod.fst).filterMap raw := by
    rw [List.zipIdx_map_fst]
  rw [keyed, List.map_filterMap, hfst, List.filterMap_map]
  refine List.filterMap_congr fun entry _ => ?_
  rw [Option.map_map]
  exact Option.map_id'

/-- A loop over the sorted rows gives each one the adjusted value of its p-value. -/
theorem keyed_holm (key : Nat → α → κ) (place : κ → Nat) (hplace : ∀ i row, place (key i row) = i)
    {r : κ × ℚ → κ × ℚ → Prop} [DecidableRel r]
    (hsorted : ∀ l : List (κ × ℚ), ((l.insertionSort r).map Prod.snd).Pairwise (· ≤ ·))
    {rows : List α} (hraw : ∀ p ∈ rows.filterMap raw, 0 ≤ p ∧ p ≤ 1) :
    ∃ value, Holm (rows.filterMap raw).length (rows.filterMap raw) value ∧
      ∀ i row p, rows[i]? = some row → raw row = some p →
        (calibrationHolmSteps (keyed raw key rows).length 0 1
          ((keyed raw key rows).insertionSort r)).lookup (key i row) = some (value p) := by
  have hsize : (keyed raw key rows).length = (rows.filterMap raw).length := by
    rw [← keyed_snd key, List.length_map]
  have hnodup : ((keyed raw key rows).map Prod.fst).Nodup := by
    have hplaces : ((keyed raw key rows).map fun e => place e.1).Nodup := by
      refine nodup_filterMap (fun entry e he => ?_) (nodup_places rows)
      obtain ⟨p, -, rfl⟩ := Option.map_eq_some_iff.mp he
      exact hplace _ _
    rw [← Function.comp_def, ← List.map_map] at hplaces
    exact hplaces.of_map _
  obtain ⟨value, hholm, hlookup⟩ := holm_lookup (List.perm_insertionSort r (keyed raw key rows))
    (hsorted _) hnodup hsize.le (by rwa [keyed_snd])
  rw [keyed_snd] at hholm
  refine ⟨value, hholm, fun i row p hrow hp => ?_⟩
  have hmem : (key i row, p) ∈ keyed raw key rows := by
    refine List.mem_filterMap.mpr ⟨(row, i), List.mk_mem_zipIdx_iff_getElem?.mpr hrow, ?_⟩
    rw [hp]
    rfl
  have hvalue := hlookup _ hmem
  rw [calibrationHolmSteps_eq _ zero_le_one, first_factor, hsize]
  exact hvalue

end Adjust

theorem adjustEvaluations_holm (rows : List HoldoutEvaluation)
    (hraw : ∀ p ∈ rows.filterMap HoldoutEvaluation.permutationPRaw, 0 ≤ p ∧ p ≤ 1) :
    ∃ value, Holm (rows.filterMap HoldoutEvaluation.permutationPRaw).length
        (rows.filterMap HoldoutEvaluation.permutationPRaw) value ∧
      adjustEvaluations rows = rows.map fun row =>
        row.tested.elim row fun test => row.adjusted test.1 (value test.2.pValue) := by
  obtain ⟨value, hholm, hlookup⟩ := keyed_holm
    (fun i (row : HoldoutEvaluation) => (i, row.directionalTarget, row.item)) Prod.fst
    (fun _ _ => rfl) pairwise_evaluations hraw
  refine ⟨value, hholm, List.ext_getElem (by simp [adjustEvaluations]) fun i hi hi' => ?_⟩
  simp only [adjustEvaluations, List.getElem_mapIdx, List.getElem_map]
  have hrow : i < rows.length := by simpa using hi'
  cases htested : rows[i].tested with
  | none => rfl
  | some test =>
    have hp : rows[i].permutationPRaw = some test.2.pValue := by
      rw [HoldoutEvaluation.permutationPRaw, htested]
      rfl
    have hvalue := hlookup i rows[i] _ (List.getElem?_eq_getElem hrow) hp
    rw [Option.elim_some, Option.elim_some]
    exact (congrArg (fun o : Option ℚ => o.elim rows[i] (rows[i].adjusted test.1)) hvalue)

theorem eligible_range (rows : List ConfigurationComparison) :
    ∀ p ∈ rows.filterMap ConfigurationComparison.eligible, 0 ≤ p ∧ p ≤ 1 := by
  intro p hp
  obtain ⟨row, -, hrow⟩ := List.mem_filterMap.mp hp
  rw [ConfigurationComparison.eligible] at hrow
  split at hrow
  · cases hrow
  · by_cases hpos : 0 < row.leftItemWins + row.rightItemWins
    · rw [exactSignPValue_eq hpos, Option.some_inj] at hrow
      rw [← hrow]
      exact nearest_mem_unit binomialProbability_pos.le binomialProbability_le_one
    · have hzero : row.leftItemWins + row.rightItemWins = 0 := by omega
      simp [exactSignPValue, hzero] at hrow

theorem adjustComparisons_holm (rows : List ConfigurationComparison) :
    ∃ value, Holm (rows.filterMap ConfigurationComparison.eligible).length
        (rows.filterMap ConfigurationComparison.eligible) value ∧
      adjustComparisons rows = rows.map fun row =>
        row.eligible.elim row fun p => row.adjusted (value p) := by
  obtain ⟨value, hholm, hlookup⟩ := keyed_holm (fun i (_ : ConfigurationComparison) => i) id
    (fun _ _ => rfl) pairwise_comparisons (eligible_range rows)
  refine ⟨value, hholm, List.ext_getElem (by simp [adjustComparisons]) fun i hi hi' => ?_⟩
  simp only [adjustComparisons, List.getElem_mapIdx, List.getElem_map]
  have hrow : i < rows.length := by simpa using hi'
  cases heligible : rows[i].eligible with
  | none => rfl
  | some p =>
    have hvalue := hlookup i rows[i] _ (List.getElem?_eq_getElem hrow) heligible
    rw [Option.elim_some, Option.elim_some]
    exact (congrArg (fun o : Option ℚ => o.elim rows[i] rows[i].adjusted) hvalue)

theorem holmAdjust_holm {familySize : Nat} {rows : List ObjectiveRow}
    (hnodup : (rows.map ObjectiveRow.objective).Nodup)
    (hsize : (rows.filterMap ObjectiveRow.pRaw).length ≤ familySize)
    (hraw : ∀ p ∈ rows.filterMap ObjectiveRow.pRaw, 0 ≤ p ∧ p ≤ 1) :
    ∃ value, Holm familySize (rows.filterMap ObjectiveRow.pRaw) value ∧
      holmAdjust familySize rows = .ok (rows.map fun row =>
        { row with pHolm := row.pRaw.map fun p => roundDigits 8 (value p) }) := by
  have hsnd : (testedPValues rows).map Prod.snd = rows.filterMap ObjectiveRow.pRaw := by
    rw [testedPValues, List.map_filterMap]
    refine List.filterMap_congr fun row _ => ?_
    rw [Option.map_map]
    exact Option.map_id'
  have hlength : (testedPValues rows).length ≤ familySize := by
    rwa [← hsnd, List.length_map] at hsize
  have hkeys : ((testedPValues rows).map Prod.fst).Nodup := by
    refine nodup_filterMap (fun row e he => ?_) hnodup
    obtain ⟨p, -, rfl⟩ := Option.map_eq_some_iff.mp he
    rfl
  obtain ⟨value, hholm, hlookup⟩ := holm_lookup (List.perm_insertionSort holmLe (testedPValues rows))
    (pairwise_objectives _) hkeys hlength (by rwa [hsnd])
  rw [hsnd] at hholm
  refine ⟨value, hholm, ?_⟩
  have hsteps : ∀ row ∈ rows, (holmSteps familySize 0 1 ((testedPValues rows).insertionSort
      holmLe)).lookup row.objective = row.pRaw.map fun p => roundDigits 8 (value p) := by
    intro row hrow
    rw [holmSteps_eq, first_factor, lookup_map_snd]
    cases hp : row.pRaw with
    | none =>
      have hnone : ((((testedPValues rows).insertionSort holmLe).map Prod.fst).zip
          (clipThenMax 0 (familySize : ℚ) (((testedPValues rows).insertionSort holmLe).map
            Prod.snd))).lookup row.objective = none := by
        refine List.lookup_eq_none_iff.mpr fun e he => bne_iff_ne.mpr fun hobjective => ?_
        have hkey := (List.of_mem_zip (show (e.1, e.2) ∈ _ from he)).1
        obtain ⟨tested, htested, hfst⟩ := List.mem_map.mp hkey
        obtain ⟨row', hrow', hmap⟩ := List.mem_filterMap.mp ((List.mem_insertionSort _).mp htested)
        obtain ⟨p, hp', rfl⟩ := Option.map_eq_some_iff.mp hmap
        have hsame : row' = row :=
          List.inj_on_of_nodup_map hnodup hrow' hrow (hfst.trans hobjective.symm)
        rw [hsame, hp] at hp'
        cases hp'
      rw [hnone]
      rfl
    | some p =>
      have hmem : (row.objective, p) ∈ testedPValues rows :=
        List.mem_filterMap.mpr ⟨row, hrow, by rw [hp]; rfl⟩
      rw [hlookup _ hmem]
      rfl
  rw [holmAdjust, decide_eq_true hlength]
  exact congrArg Except.ok (List.map_congr_left fun row hrow => by rw [hsteps row hrow])

end Rows

def rejected (value : ℚ) : Prop := value < familywiseAlpha

/-- The three loops give every tested row the closed form of its p-value, rounded. The value is not
below the p-value, follows its order, depends on nothing else of the row, and the rejected rows are
the first of the sorted ones; the paired comparison rejects by the rounded value. -/
theorem holmLoops_closedForm :
    (∀ (familySize : Nat) (rows : List ObjectiveRow), (rows.map ObjectiveRow.objective).Nodup →
      (rows.filterMap ObjectiveRow.pRaw).length ≤ familySize →
      (∀ p ∈ rows.filterMap ObjectiveRow.pRaw, 0 ≤ p ∧ p ≤ 1) →
      ∃ value, Holm familySize (rows.filterMap ObjectiveRow.pRaw) value ∧
        holmAdjust familySize rows = .ok (rows.map fun row =>
          { row with pHolm := row.pRaw.map fun p => roundDigits 8 (value p) }) ∧
        ∃ k, ∀ i < (rows.filterMap ObjectiveRow.pRaw).length,
          (rejected (roundDigits 8 (value
            (((rows.filterMap ObjectiveRow.pRaw).insertionSort (· ≤ ·)).getD i 0))) ↔ i < k)) ∧
    (∀ rows : List HoldoutEvaluation,
      (∀ p ∈ rows.filterMap HoldoutEvaluation.permutationPRaw, 0 ≤ p ∧ p ≤ 1) →
      ∃ value, Holm (rows.filterMap HoldoutEvaluation.permutationPRaw).length
          (rows.filterMap HoldoutEvaluation.permutationPRaw) value ∧
        (adjustEvaluations rows = rows.map fun row =>
          row.tested.elim row fun test => row.adjusted test.1 (value test.2.pValue)) ∧
        ∃ k, ∀ i < (rows.filterMap HoldoutEvaluation.permutationPRaw).length,
          (rejected (value (((rows.filterMap HoldoutEvaluation.permutationPRaw).insertionSort
            (· ≤ ·)).getD i 0)) ↔ i < k)) ∧
    (∀ rows : List ConfigurationComparison,
      ∃ value, Holm (rows.filterMap ConfigurationComparison.eligible).length
          (rows.filterMap ConfigurationComparison.eligible) value ∧
        (adjustComparisons rows = rows.map fun row =>
          row.eligible.elim row fun p => row.adjusted (value p)) ∧
        ∃ k, ∀ i < (rows.filterMap ConfigurationComparison.eligible).length,
          (rejected (value (((rows.filterMap ConfigurationComparison.eligible).insertionSort
            (· ≤ ·)).getD i 0)) ↔ i < k)) := by
  refine ⟨fun familySize rows hnodup hsize hraw => ?_, fun rows hraw => ?_, fun rows => ?_⟩
  · obtain ⟨value, hholm, hrows⟩ := holmAdjust_holm hnodup hsize hraw
    refine ⟨value, hholm, hrows,
      hholm.rejected_first (fun v => rejected (roundDigits 8 v)) fun hle hreject => ?_⟩
    exact lt_of_le_of_lt (roundDigits_mono 8 hle) hreject
  · obtain ⟨value, hholm, hrows⟩ := adjustEvaluations_holm rows hraw
    exact ⟨value, hholm, hrows, hholm.rejected_first rejected fun hle hreject => hle.trans_lt hreject⟩
  · obtain ⟨value, hholm, hrows⟩ := adjustComparisons_holm rows
    exact ⟨value, hholm, hrows, hholm.rejected_first rejected fun hle hreject => hle.trans_lt hreject⟩

def tiedObjective (objective : Objective) (p : ℚ) : ObjectiveRow where
  objective := objective
  pairedBundles := 5
  leftMean := some 1
  rightMean := some 0
  leftAdvantage := some 1
  minimumPracticalEffect := 0
  pRaw := some p

def tiedEvaluation (target : String) (p : ℚ) : HoldoutEvaluation where
  item := "q1".toList
  directionalTarget := target.toList
  higherHoldoutUnits := 5
  lowerHoldoutUnits := 5
  classification := .pending
  tested := some (1, ⟨p, .exact, 252, 252, 2⟩)

/-- Two ties beside a smaller p-value, in a family of four and in one of three. -/
theorem holmLoops_ties :
    (∃ value : ℚ → ℚ, value (1 / 100) = 1 / 25 ∧ value (1 / 50) = 3 / 50 ∧
      holmAdjust 4 [tiedObjective .accuracy (1 / 50), tiedObjective .completion (1 / 100),
          tiedObjective .latency (1 / 50)] =
        .ok [{ tiedObjective .accuracy (1 / 50) with pHolm := some (roundDigits 8 (value (1 / 50))) },
          { tiedObjective .completion (1 / 100) with pHolm := some (roundDigits 8 (value (1 / 100))) },
          { tiedObjective .latency (1 / 50) with pHolm := some (roundDigits 8 (value (1 / 50))) }]) ∧
    ∃ value : ℚ → ℚ, value (1 / 100) = 3 / 100 ∧ value (1 / 50) = 1 / 25 ∧
      adjustEvaluations [tiedEvaluation "C1>C2" (1 / 50), tiedEvaluation "C1>C3" (1 / 100),
          tiedEvaluation "C2>C3" (1 / 50)] =
        [(tiedEvaluation "C1>C2" (1 / 50)).adjusted 1 (value (1 / 50)),
          (tiedEvaluation "C1>C3" (1 / 100)).adjusted 1 (value (1 / 100)),
          (tiedEvaluation "C2>C3" (1 / 50)).adjusted 1 (value (1 / 50))] := by
  obtain ⟨hpaired, hholdout, -⟩ := holmLoops_closedForm
  have hsorted : ([1 / 50, 1 / 100, 1 / 50] : List ℚ).insertionSort (· ≤ ·) =
      [1 / 100, 1 / 50, 1 / 50] := by decide +kernel
  constructor
  · obtain ⟨value, hholm, hrows, -⟩ := hpaired 4
      [tiedObjective .accuracy (1 / 50), tiedObjective .completion (1 / 100),
        tiedObjective .latency (1 / 50)] (by decide) (by decide) (by simp [tiedObjective]; norm_num)
    have hclosed : Holm 4 [1 / 50, 1 / 100, 1 / 50] value := hholm
    refine ⟨value, ?_, ?_, hrows⟩
    · have h := hclosed.closed 0 (by decide)
      rw [hsorted] at h
      exact h.trans (by decide +kernel)
    · have h := hclosed.closed 1 (by decide)
      rw [hsorted] at h
      exact h.trans (by decide +kernel)
  · obtain ⟨value, hholm, hrows, -⟩ := hholdout
      [tiedEvaluation "C1>C2" (1 / 50), tiedEvaluation "C1>C3" (1 / 100),
        tiedEvaluation "C2>C3" (1 / 50)]
      (by simp [HoldoutEvaluation.permutationPRaw, tiedEvaluation]; norm_num)
    have hclosed : Holm 3 [1 / 50, 1 / 100, 1 / 50] value := hholm
    refine ⟨value, ?_, ?_, hrows⟩
    · have h := hclosed.closed 0 (by decide)
      rw [hsorted] at h
      exact h.trans (by decide +kernel)
    · have h := hclosed.closed 1 (by decide)
      rw [hsorted] at h
      exact h.trans (by decide +kernel)

end Calibration
