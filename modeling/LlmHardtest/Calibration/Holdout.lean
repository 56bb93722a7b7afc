import LlmHardtest.Calibration.HolmLoops
import LlmHardtest.Calibration.Panel
set_option autoImplicit false

/-! The two-fold validation of the panel: the assignment of the units to the folds, the selection on
one fold and the tests on the other. -/

namespace Calibration
open Python
open Community (HashSampler)
open GroupBy (groupBy)
open Round5 (average)

/-- The folds so far, and how many units of each configuration a fold holds. -/
structure FoldAssignment (κ : Type) where
  foldByUnit : List (κ × Fin 2)
  configurationCounts : Fin 2 → Str → Nat

section Assignment
variable {κ : Type} [DecidableEq κ]

def FoldAssignment.empty : FoldAssignment κ := ⟨[], fun _ _ => 0⟩

def FoldAssignment.score (s : FoldAssignment κ) (configurations : List Str) (fold : Fin 2) : Nat :=
  (configurations.map (s.configurationCounts fold)).sum

/-- The fold of the next unit: the one with the smaller score, and by its index when they are equal. -/
def FoldAssignment.foldFor (s : FoldAssignment κ) (configurations : List Str) (index : Nat) : Fin 2 :=
  if s.score configurations 0 = s.score configurations 1 then Fin.ofNat 2 index
  else if s.score configurations 0 ≤ s.score configurations 1 then 0 else 1

def FoldAssignment.assign (s : FoldAssignment κ) (entry : (κ × List Str) × Nat) : FoldAssignment κ :=
  let fold := s.foldFor entry.1.2 entry.2
  { foldByUnit := s.foldByUnit ++ [(entry.1.1, fold)]
    configurationCounts := fun f configuration =>
      if f = fold ∧ configuration ∈ entry.1.2 then s.configurationCounts f configuration + 1
      else s.configurationCounts f configuration }

def configurationsByUnit (respondents : List κ) (models : List (κ × Str))
    (clusters : Option (List (κ × κ))) : Outcome (List (κ × List Str)) := do
  let members ← respondents.mapM fun respondent => do
    return (unitOf clusters respondent, ← getItem models respondent)
  return (groupBy Prod.fst members).map fun group => (group.1, (group.2.map Prod.snd).dedup)

variable (text : κ → Str)

def foldAssignment (respondents : List κ) (models : List (κ × Str))
    (clusters : Option (List (κ × κ))) : Outcome (FoldAssignment κ) := do
  let byUnit ← configurationsByUnit respondents models clusters
  let units := byUnit.insertionSort fun a b => text a.1 ≤ text b.1
  return units.zipIdx.foldl FoldAssignment.assign .empty

/-- `fold_by_unit[units_by_respondent[respondent]]` -/
def FoldAssignment.foldOf (s : FoldAssignment κ) (clusters : Option (List (κ × κ))) (respondent : κ) :
    Option (Fin 2) :=
  s.foldByUnit.lookup (unitOf clusters respondent)

def trainingMatrix (s : FoldAssignment κ) (clusters : Option (List (κ × κ))) (matrix : Matrix κ)
    (holdoutFold : Fin 2) : Matrix κ :=
  matrix.filter fun entry => s.foldOf clusters entry.1 ≠ some holdoutFold

def holdoutMatrix (s : FoldAssignment κ) (clusters : Option (List (κ × κ))) (matrix : Matrix κ)
    (holdoutFold : Fin 2) : Matrix κ :=
  matrix.filter fun entry => s.foldOf clusters entry.1 = some holdoutFold

end Assignment

abbrev Validated (α : Type) := Except (ArithmeticRaised ⊕ Raised) α

/-- The parts that the validation takes as given. -/
structure Surroundings (κ : Type) where
  text : κ → Str
  unicode : UnicodeData
  sampler : HashSampler
  sqrt : ℚ → ℚ

section Validation
variable {κ : Type} [DecidableEq κ] (env : Surroundings κ)

def trainingPanel (s : FoldAssignment κ) (matrix : Matrix κ) (models : List (κ × Str))
    (aliases : List (Str × Str)) (maxItems : Json) (clusters : Option (List (κ × κ)))
    (holdoutFold : Fin 2) : Validated Panel := do
  let training := trainingMatrix s clusters matrix holdoutFold
  let given := clusters.filter fun c => !c.isEmpty
  let relationships ← (itemRelationships env.sqrt env.sampler training given).mapError .inl
  let coverage ← (configurationItemCoverage env.text env.sampler env.unicode training models aliases
    given).mapError .inr
  (discriminativeItemPanel coverage relationships maxItems).mapError .inr

def partitionTarget (target : Str) : Option (Str × Str) :=
  if '>' ∈ target then
    some (target.takeWhile (· ≠ '>'), (target.dropWhile (· ≠ '>')).tail)
  else none

def holdoutValues (identityByAlias : List (Str × Str))
    (holdoutRows : List (Str × List (κ × List (Str × ℚ)))) (item name : Str) : List ℚ :=
  (((identityByAlias.lookup name).bind fun identity => holdoutRows.lookup identity).getD []).filterMap
    fun row => row.2.lookup item

def holdoutEvaluation (identityByAlias : List (Str × Str))
    (holdoutRows : List (Str × List (κ × List (Str × ℚ)))) (holdoutFold : Fin 2) (item target : Str) :
    Outcome HoldoutEvaluation := do
  let names := (partitionTarget target).getD (target, [])
  let higher := holdoutValues identityByAlias holdoutRows item names.1
  let lower := holdoutValues identityByAlias holdoutRows item names.2
  if (partitionTarget target).isNone || (identityByAlias.lookup names.1).isNone ||
      (identityByAlias.lookup names.2).isNone ||
      decide (higher.length < minConfigurationRespondents ∨ lower.length < minConfigurationRespondents) then
    return { item, directionalTarget := target, higherHoldoutUnits := higher.length
             lowerHoldoutUnits := lower.length, tested := none, classification := .insufficient }
  else
    let test ← permutationDifferenceTest env.sampler higher lower
      ("panel-holdout:".toList ++ natStr holdoutFold ++ ":".toList ++ item ++ ":".toList ++ target)
    return { item, directionalTarget := target, higherHoldoutUnits := higher.length
             lowerHoldoutUnits := lower.length
             tested := some (roundDigits 6 (average higher - average lower), test)
             classification := .pending }

structure FoldReport where
  fold : Nat
  trainingIndependentUnits : List (Str × Nat)
  holdoutIndependentUnits : List (Str × Nat)
  trainingPanelStatus : PanelStatus
  selectedItems : List Str
  selectedDirectionalTargets : Nat
  holdoutEvaluations : List HoldoutEvaluation
  deriving DecidableEq, Repr

def independentUnits (s : FoldAssignment κ) (aliases : List (Str × Str)) (fold : Fin 2) :
    List (Str × Nat) :=
  aliases.foldl (fun d entry => dictSet entry.2 (s.configurationCounts fold entry.1) d) []

def foldReport (s : FoldAssignment κ) (matrix : Matrix κ) (models : List (κ × Str))
    (aliases : List (Str × Str)) (maxItems : Json) (clusters : Option (List (κ × κ)))
    (holdoutFold : Fin 2) : Validated FoldReport := do
  let panel ← trainingPanel env s matrix models aliases maxItems clusters holdoutFold
  let given := clusters.filter fun c => !c.isEmpty
  let holdoutRows ← (clusterItemRows (holdoutMatrix s clusters matrix holdoutFold) models given).mapError
    .inr
  let identityByAlias := aliases.foldl (fun d entry => dictSet entry.2 entry.1 d) []
  let directions := panel.selectedItems.flatMap fun selected =>
    selected.newDirectionalTargets.map fun target => (selected.item, target)
  let evaluations ← (directions.mapM fun direction =>
    holdoutEvaluation env identityByAlias holdoutRows holdoutFold direction.1 direction.2).mapError .inr
  return {
    fold := holdoutFold + 1
    trainingIndependentUnits := independentUnits s aliases (1 - holdoutFold)
    holdoutIndependentUnits := independentUnits s aliases holdoutFold
    trainingPanelStatus := panel.status
    selectedItems := panel.selectedItems.map SelectedItem.item
    selectedDirectionalTargets :=
      (panel.selectedItems.map fun row => row.newDirectionalTargets.length).sum
    holdoutEvaluations := evaluations }

inductive ValidationStatus where
  | reversedSignal | insufficient | weakGeneralization | stable
  deriving DecidableEq, Repr

structure HoldoutValidation where
  status : ValidationStatus
  foldsEvaluated : Nat
  eligibleDirectionEvaluations : Nat
  confirmedDirectionEvaluations : Nat
  weakDirectionEvaluations : Nat
  reversedDirectionEvaluations : Nat
  insufficientDirectionEvaluations : Nat
  directionConfirmationRate : Option ℚ
  selectionJaccard : Option ℚ
  folds : List FoldReport
  deriving DecidableEq, Repr

def validationStatus (foldsEvaluated confirmed weak reversed insufficient : Nat) : ValidationStatus :=
  if reversed ≠ 0 then .reversedSignal
  else if foldsEvaluated < 2 ∨ confirmed + weak + reversed = 0 ∨ insufficient ≠ 0 then .insufficient
  else if weak ≠ 0 then .weakGeneralization
  else .stable

def selectionJaccard (first second : List Str) : Option ℚ :=
  let union := (first ++ second).dedup
  if union.isEmpty then none
  else some (((first.dedup.filter fun item => decide (item ∈ second)).length : ℚ) / union.length)

def panelHoldoutValidation (matrix : Matrix κ) (models : List (κ × Str)) (aliases : List (Str × Str))
    (maxItems : Json) (clusters : Option (List (κ × κ))) : Validated HoldoutValidation := do
  let s ← (foldAssignment env.text (matrix.map Prod.fst) models clusters).mapError .inr
  let first ← foldReport env s matrix models aliases maxItems clusters 0
  let second ← foldReport env s matrix models aliases maxItems clusters 1
  -- The rows of the folds are the adjusted ones.
  let all := adjustEvaluations (first.holdoutEvaluations ++ second.holdoutEvaluations)
  let folds := [
    { first with holdoutEvaluations := all.take first.holdoutEvaluations.length },
    { second with holdoutEvaluations := all.drop first.holdoutEvaluations.length }]
  let count := fun c => all.countP fun row => row.classification = c
  let eligible := count .confirmed + count .weak + count .reversed
  let foldsEvaluated := folds.countP fun fold =>
    fold.holdoutEvaluations.any fun row => row.classification ≠ .insufficient
  return {
    status := validationStatus foldsEvaluated (count .confirmed) (count .weak) (count .reversed)
      (count .insufficient)
    foldsEvaluated
    eligibleDirectionEvaluations := eligible
    confirmedDirectionEvaluations := count .confirmed
    weakDirectionEvaluations := count .weak
    reversedDirectionEvaluations := count .reversed
    insufficientDirectionEvaluations := count .insufficient
    directionConfirmationRate :=
      if eligible = 0 then none else some (roundDigits 6 ((count .confirmed : ℚ) / eligible))
    selectionJaccard := (selectionJaccard first.selectedItems second.selectedItems).map (roundDigits 6)
    folds }

end Validation

section Balance
variable {κ : Type} {s : FoldAssignment κ} {entry : (κ × List Str) × Nat}

def FoldAssignment.total (s : FoldAssignment κ) (configuration : Str) : Nat :=
  s.configurationCounts 0 configuration + s.configurationCounts 1 configuration

def FoldAssignment.balanced (s : FoldAssignment κ) : Prop :=
  ∀ configuration, s.configurationCounts 0 configuration ≤ s.configurationCounts 1 configuration + 1 ∧
    s.configurationCounts 1 configuration ≤ s.configurationCounts 0 configuration + 1

theorem assign_counts (fold : Fin 2) (configuration : Str) :
    (s.assign entry).configurationCounts fold configuration =
      s.configurationCounts fold configuration +
        if fold = s.foldFor entry.1.2 entry.2 ∧ configuration ∈ entry.1.2 then 1 else 0 := by
  rw [FoldAssignment.assign]
  split <;> simp_all

theorem assign_total (configuration : Str) : (s.assign entry).total configuration =
    s.total configuration + if configuration ∈ entry.1.2 then 1 else 0 := by
  rw [FoldAssignment.total, assign_counts, assign_counts, FoldAssignment.total]
  generalize s.foldFor entry.1.2 entry.2 = fold
  fin_cases fold <;> by_cases h : configuration ∈ entry.1.2 <;> simp [h] <;> omega

theorem foldFor_le (configuration : Str) (index : Nat) (other : Fin 2) :
    s.configurationCounts (s.foldFor [configuration] index) configuration ≤
      s.configurationCounts other configuration := by
  have hscore : ∀ fold, s.score [configuration] fold = s.configurationCounts fold configuration := by
    intro fold
    simp [FoldAssignment.score]
  rw [FoldAssignment.foldFor, hscore, hscore]
  split
  · rename_i heq
    generalize Fin.ofNat 2 index = fold
    fin_cases fold <;> fin_cases other <;> simp [heq]
  · split
    · fin_cases other
      · exact le_rfl
      · assumption
    · fin_cases other
      · exact (Nat.lt_of_not_le (by assumption)).le
      · exact le_rfl

theorem assign_balanced (hsingle : ∀ c ∈ entry.1.2, entry.1.2 = [c]) (h : s.balanced) :
    (s.assign entry).balanced := by
  intro configuration
  rw [assign_counts, assign_counts]
  have hc := h configuration
  by_cases hmem : configuration ∈ entry.1.2
  · have hle := foldFor_le (s := s) configuration entry.2
    rw [hsingle configuration hmem]
    generalize s.foldFor [configuration] entry.2 = fold at hle ⊢
    have h0 := hle 0
    have h1 := hle 1
    fin_cases fold <;> simp at h0 h1 ⊢ <;> omega
  · simpa [hmem] using hc

variable {l : List ((κ × List Str) × Nat)}

theorem foldl_units (s : FoldAssignment κ) : (l.foldl FoldAssignment.assign s).foldByUnit.map Prod.fst =
    s.foldByUnit.map Prod.fst ++ l.map fun entry => entry.1.1 := by
  induction l generalizing s with
  | nil => simp
  | cons entry l ih =>
    rw [List.foldl_cons, ih]
    simp [FoldAssignment.assign]

theorem foldl_total (s : FoldAssignment κ) (configuration : Str) :
    (l.foldl FoldAssignment.assign s).total configuration =
      s.total configuration + l.countP fun entry => configuration ∈ entry.1.2 := by
  induction l generalizing s with
  | nil => rfl
  | cons entry l ih =>
    rw [List.foldl_cons, ih, assign_total, List.countP_cons]
    simp only [decide_eq_true_eq]
    omega

theorem foldl_balanced (hsingle : ∀ entry ∈ l, ∀ c ∈ entry.1.2, entry.1.2 = [c]) (h : s.balanced) :
    (l.foldl FoldAssignment.assign s).balanced := by
  induction l generalizing s with
  | nil => exact h
  | cons entry l ih =>
    rw [List.foldl_cons]
    exact ih (fun e he => hsingle e (by simp [he])) (assign_balanced (hsingle entry (by simp)) h)

end Balance

section Units
variable {κ : Type} [DecidableEq κ] {respondents : List κ} {models : List (κ × Str)}
variable {clusters : Option (List (κ × κ))} {byUnit : List (κ × List Str)}

theorem getItem_ok {α : Type} {d : List (κ × α)} {key : κ} {value : α} :
    getItem d key = .ok value ↔ d.lookup key = some value := by
  rw [getItem]
  cases d.lookup key with
  | none => exact ⟨fun h => (nomatch h), fun h => (nomatch h)⟩
  | some v => exact ⟨fun h => congrArg some (Except.ok.inj h), fun h => congrArg Except.ok (Option.some.inj h)⟩

theorem configurationsByUnit_spec (h : configurationsByUnit respondents models clusters = .ok byUnit) :
    (byUnit.map Prod.fst).Nodup ∧
    (∀ unit, unit ∈ byUnit.map Prod.fst ↔ ∃ r ∈ respondents, unitOf clusters r = unit) ∧
    ∀ entry ∈ byUnit, entry.2.Nodup ∧ ∀ c, c ∈ entry.2 ↔
      ∃ r ∈ respondents, unitOf clusters r = entry.1 ∧ models.lookup r = some c := by
  obtain ⟨members, hmembers, h⟩ := Failures.bind_eq_ok.mp h
  obtain rfl := Except.ok.inj h
  have hmem : ∀ unit c, (unit, c) ∈ members ↔
      ∃ r ∈ respondents, unitOf clusters r = unit ∧ models.lookup r = some c := by
    intro unit c
    constructor
    · intro hm
      obtain ⟨r, hr, hstep⟩ := (Outcome.mapM_mem hmembers).2 _ hm
      obtain ⟨model, hmodel, hpair⟩ := Failures.bind_eq_ok.mp hstep
      obtain ⟨rfl, rfl⟩ := Prod.mk.inj (Except.ok.inj hpair)
      exact ⟨r, hr, rfl, getItem_ok.mp hmodel⟩
    · rintro ⟨r, hr, rfl, hmodel⟩
      obtain ⟨pair, hpair, hstep⟩ := (Outcome.mapM_mem hmembers).1 r hr
      rw [getItem_ok.mpr hmodel] at hstep
      obtain rfl := Except.ok.inj hstep
      exact hpair
  have hkeys : ∀ unit, (∃ pair ∈ members, pair.1 = unit) ↔ ∃ r ∈ respondents, unitOf clusters r = unit := by
    intro unit
    constructor
    · rintro ⟨pair, hpair, rfl⟩
      obtain ⟨r, hr, hunit, -⟩ := (hmem pair.1 pair.2).mp hpair
      exact ⟨r, hr, hunit⟩
    · rintro ⟨r, hr, rfl⟩
      obtain ⟨pair, hpair, hstep⟩ := (Outcome.mapM_mem hmembers).1 r hr
      obtain ⟨model, -, hstep⟩ := Failures.bind_eq_ok.mp hstep
      obtain rfl := Except.ok.inj hstep
      exact ⟨_, hpair, rfl⟩
  have hfst : ((groupBy Prod.fst members).map fun group => (group.1, (group.2.map Prod.snd).dedup)).map
      Prod.fst = (groupBy Prod.fst members).map Prod.fst := by
    rw [List.map_map]
    rfl
  rw [hfst]
  refine ⟨GroupBy.nodup_keys _ _, fun unit => GroupBy.mem_keys.trans (hkeys unit), ?_⟩
  intro entry hentry
  obtain ⟨group, hgroup, rfl⟩ := List.mem_map.mp hentry
  obtain ⟨-, hfilter⟩ := GroupBy.mem_groupBy.mp hgroup
  refine ⟨List.nodup_dedup _, fun c => ?_⟩
  rw [List.mem_dedup, ← hmem, hfilter, List.mem_map]
  constructor
  · rintro ⟨pair, hpair, rfl⟩
    obtain ⟨hpair, hkey⟩ := List.mem_filter.mp hpair
    rw [← of_decide_eq_true hkey]
    exact hpair
  · intro hpair
    exact ⟨_, List.mem_filter.mpr ⟨hpair, by simp⟩, rfl⟩

end Units

section Folds
variable {κ : Type} [DecidableEq κ] {text : κ → Str} {models : List (κ × Str)}
variable {clusters : Option (List (κ × κ))} {matrix : Matrix κ} {s : FoldAssignment κ}

def unitsOf (matrix : Matrix κ) (models : List (κ × Str)) (clusters : Option (List (κ × κ)))
    (configuration : Str) : Finset κ :=
  ((matrix.filter fun entry => models.lookup entry.1 = some configuration).map fun entry =>
    unitOf clusters entry.1).toFinset

/-- The assignment is the loop over the units, each of which comes once. -/
theorem foldAssignment_spec {respondents : List κ}
    (h : foldAssignment text respondents models clusters = .ok s) :
    ∃ units : List (κ × List Str), s = units.zipIdx.foldl FoldAssignment.assign .empty ∧ (units.map Prod.fst).Nodup ∧
      (∀ unit, unit ∈ units.map Prod.fst ↔ ∃ r ∈ respondents, unitOf clusters r = unit) ∧
      ∀ entry ∈ units, entry.2.Nodup ∧ ∀ c, c ∈ entry.2 ↔
        ∃ r ∈ respondents, unitOf clusters r = entry.1 ∧ models.lookup r = some c := by
  obtain ⟨byUnit, hbyUnit, h⟩ := Failures.bind_eq_ok.mp h
  obtain rfl := Except.ok.inj h
  obtain ⟨hnodup, hkeys, hentries⟩ := configurationsByUnit_spec hbyUnit
  have hperm := List.perm_insertionSort (fun a b : κ × List Str => text a.1 ≤ text b.1) byUnit
  refine ⟨_, rfl, (hperm.map _).nodup_iff.mpr hnodup, fun unit => ?_, fun entry hentry => ?_⟩
  · rw [(hperm.map _).mem_iff]
    exact hkeys unit
  · exact hentries entry (hperm.mem_iff.mp hentry)

theorem foldAssignment_returns {respondents : List κ} :
    (∃ s, foldAssignment text respondents models clusters = .ok s) ↔
      ∀ r ∈ respondents, ∃ configuration, models.lookup r = some configuration := by
  have hmembers : (∃ members, (respondents.mapM fun r => do
      return (unitOf clusters r, ← getItem models r) : Outcome (List (κ × Str))) = .ok members) ↔
      ∀ r ∈ respondents, ∃ configuration, models.lookup r = some configuration := by
    rw [Outcome.mapM_returns]
    refine forall₂_congr fun r _ => ⟨?_, ?_⟩
    · rintro ⟨pair, hpair⟩
      obtain ⟨configuration, hconfiguration, -⟩ := Failures.bind_eq_ok.mp hpair
      exact ⟨configuration, getItem_ok.mp hconfiguration⟩
    · rintro ⟨configuration, hconfiguration⟩
      rw [getItem_ok.mpr hconfiguration]
      exact ⟨_, rfl⟩
  rw [← hmembers]
  constructor
  · rintro ⟨s, h⟩
    obtain ⟨byUnit, hbyUnit, -⟩ := Failures.bind_eq_ok.mp h
    obtain ⟨members, h, -⟩ := Failures.bind_eq_ok.mp hbyUnit
    exact ⟨members, h⟩
  · rintro ⟨members, h⟩
    rw [foldAssignment, configurationsByUnit, h]
    exact ⟨_, rfl⟩

theorem foldByUnit_keys (h : foldAssignment text (matrix.map Prod.fst) models clusters = .ok s) :
    (s.foldByUnit.map Prod.fst).Nodup ∧
      ∀ unit, unit ∈ s.foldByUnit.map Prod.fst ↔ ∃ entry ∈ matrix, unitOf clusters entry.1 = unit := by
  obtain ⟨units, rfl, hnodup, hkeys, -⟩ := foldAssignment_spec h
  have hplaces : (units.zipIdx.map fun entry => entry.1.1) = units.map Prod.fst := by
    rw [← Function.comp_def Prod.fst Prod.fst, ← List.map_map, List.zipIdx_map_fst]
  rw [foldl_units, hplaces, FoldAssignment.empty, List.map_nil, List.nil_append]
  refine ⟨hnodup, fun unit => (hkeys unit).trans ?_⟩
  simp

theorem lookup_iff_mem {α : Type} {d : List (κ × α)} (h : (d.map Prod.fst).Nodup) {key : κ} {value : α} :
    d.lookup key = some value ↔ (key, value) ∈ d := by
  induction d with
  | nil => simp
  | cons entry d ih =>
    obtain ⟨k, v⟩ := entry
    rw [List.map_cons, List.nodup_cons] at h
    rw [List.lookup_cons, List.mem_cons]
    by_cases hk : key = k
    · have hnot : (key, value) ∉ d := fun hd => h.1 (hk ▸ List.mem_map.mpr ⟨_, hd, rfl⟩)
      simp [hk, eq_comm, hk ▸ hnot]
    · simp [hk, ih h.2, beq_eq_false_iff_ne.mpr hk]

theorem total_eq (h : foldAssignment text (matrix.map Prod.fst) models clusters = .ok s)
    (configuration : Str) : s.total configuration = (unitsOf matrix models clusters configuration).card := by
  obtain ⟨units, rfl, hnodup, hkeys, hentries⟩ := foldAssignment_spec h
  have hplaces : (units.zipIdx.countP fun entry => decide (configuration ∈ entry.1.2)) =
      units.countP fun entry => decide (configuration ∈ entry.2) := by
    conv_rhs => rw [← List.zipIdx_map_fst 0 units, List.countP_map]
    rfl
  rw [foldl_total, hplaces, List.countP_eq_length_filter]
  have hset : unitsOf matrix models clusters configuration =
      ((units.filter fun entry => configuration ∈ entry.2).map Prod.fst).toFinset := by
    ext unit
    simp only [unitsOf, List.mem_toFinset, List.mem_map, List.mem_filter, decide_eq_true_eq]
    constructor
    · rintro ⟨row, ⟨hrow, hmodel⟩, rfl⟩
      obtain ⟨entry, hentry, hunit⟩ := List.mem_map.mp
        ((hkeys (unitOf clusters row.1)).mpr ⟨row.1, List.mem_map_of_mem hrow, rfl⟩)
      exact ⟨entry, ⟨hentry, ((hentries entry hentry).2 _).mpr
        ⟨row.1, List.mem_map_of_mem hrow, hunit.symm, hmodel⟩⟩, hunit⟩
    · rintro ⟨entry, ⟨hentry, hmem⟩, rfl⟩
      obtain ⟨r, hr, hunit, hmodel⟩ := ((hentries entry hentry).2 _).mp hmem
      obtain ⟨row, hrow, rfl⟩ := List.mem_map.mp hr
      exact ⟨row, ⟨hrow, hmodel⟩, hunit⟩
  rw [hset, List.toFinset_card_of_nodup (hnodup.sublist (List.filter_sublist.map _)), List.length_map]
  simp [FoldAssignment.total, FoldAssignment.empty]

theorem foldAssignment_balanced
    (h : foldAssignment text (matrix.map Prod.fst) models clusters = .ok s)
    (hsingle : ∀ a ∈ matrix, ∀ b ∈ matrix, unitOf clusters a.1 = unitOf clusters b.1 →
      models.lookup a.1 = models.lookup b.1) : s.balanced := by
  obtain ⟨units, rfl, -, -, hentries⟩ := foldAssignment_spec h
  refine foldl_balanced (fun entry hentry c hc => ?_) fun _ => ⟨Nat.zero_le _, Nat.zero_le _⟩
  have hmem : entry.1 ∈ units := by
    rw [← List.zipIdx_map_fst 0 units]
    exact List.mem_map_of_mem hentry
  obtain ⟨hnodup, hconfigurations⟩ := hentries entry.1 hmem
  obtain ⟨r, hr, hunit, hmodel⟩ := (hconfigurations c).mp hc
  obtain ⟨row, hrow, rfl⟩ := List.mem_map.mp hr
  have honly : ∀ d ∈ entry.1.2, d = c := by
    intro d hd
    obtain ⟨r', hr', hunit', hmodel'⟩ := (hconfigurations d).mp hd
    obtain ⟨row', hrow', rfl⟩ := List.mem_map.mp hr'
    have hsame := hsingle row' hrow' row hrow (hunit'.trans hunit.symm)
    rw [hmodel', hmodel] at hsame
    exact Option.some.inj hsame
  refine List.perm_singleton.mp ((List.perm_ext_iff_of_nodup hnodup (List.nodup_singleton c)).mpr
    fun d => ⟨fun hd => List.mem_singleton.mpr (honly d hd), fun hd => ?_⟩)
  exact List.mem_singleton.mp hd ▸ hc

omit [DecidableEq κ] in
theorem balanced_half (hbalanced : s.balanced) {configuration : Str} {n : Nat}
    (h : 2 * n ≤ s.total configuration) (fold : Fin 2) : n ≤ s.configurationCounts fold configuration := by
  have hc := hbalanced configuration
  rw [FoldAssignment.total] at h
  fin_cases fold
  · change n ≤ s.configurationCounts 0 configuration
    omega
  · change n ≤ s.configurationCounts 1 configuration
    omega

end Folds

section Panels
variable {κ : Type} [DecidableEq κ] (env : Surroundings κ) {models : List (κ × Str)}
variable {aliases : List (Str × Str)} {maxItems : Json} {clusters : Option (List (κ × κ))}
variable {matrix matrix' : Matrix κ} {s : FoldAssignment κ} {holdoutFold : Fin 2}

/-- Matrices of the same respondents that agree outside a holdout fold. -/
def differInFold (s : FoldAssignment κ) (clusters : Option (List (κ × κ))) (holdoutFold : Fin 2)
    (matrix matrix' : Matrix κ) : Prop :=
  List.Forall₂ (fun a b => a.1 = b.1 ∧ (s.foldOf clusters a.1 ≠ some holdoutFold → a.2 = b.2))
    matrix matrix'

theorem differInFold_respondents (h : differInFold s clusters holdoutFold matrix matrix') :
    matrix.map Prod.fst = matrix'.map Prod.fst := by
  induction h with
  | nil => rfl
  | cons hab _ ih => rw [List.map_cons, List.map_cons, hab.1, ih]

/-- The training matrix does not hold the statuses of the holdout fold. -/
theorem trainingMatrix_eq (h : differInFold s clusters holdoutFold matrix matrix') :
    trainingMatrix s clusters matrix holdoutFold = trainingMatrix s clusters matrix' holdoutFold := by
  rw [trainingMatrix, trainingMatrix]
  induction h with
  | nil => rfl
  | @cons a b _ _ hab _ ih =>
    by_cases hfold : s.foldOf clusters a.1 ≠ some holdoutFold
    · have heq : a = b := Prod.ext hab.1 (hab.2 hfold)
      rw [List.filter_cons_of_pos (by simpa using hfold), heq,
        List.filter_cons_of_pos (by simpa [← heq] using hfold), ih]
    · rw [List.filter_cons_of_neg (by simpa using hfold),
        List.filter_cons_of_neg (by simpa [← hab.1] using hfold), ih]

theorem trainingPanel_eq (h : differInFold s clusters holdoutFold matrix matrix') :
    trainingPanel env s matrix models aliases maxItems clusters holdoutFold =
      trainingPanel env s matrix' models aliases maxItems clusters holdoutFold := by
  rw [trainingPanel, trainingPanel, trainingMatrix_eq h]

theorem validated_bind {α β : Type} {x : Validated α} {f : α → Validated β} {b : β}
    (h : x >>= f = .ok b) : ∃ a, x = .ok a ∧ f a = .ok b := by
  cases x with
  | error e => cases h
  | ok a => exact ⟨a, rfl, h⟩

theorem mapError_ok {ε α : Type} {g : ε → ArithmeticRaised ⊕ Raised} {x : Except ε α} {a : α}
    (h : x.mapError g = .ok a) : x = .ok a := by
  cases x with
  | error e => cases h
  | ok b => exact congrArg Except.ok (Except.ok.inj h)

structure FoldReport.of (s : FoldAssignment κ) (aliases : List (Str × Str)) (holdoutFold : Fin 2)
    (panel : Panel) (report : FoldReport) : Prop where
  training : report.trainingIndependentUnits = independentUnits s aliases (1 - holdoutFold)
  holdout : report.holdoutIndependentUnits = independentUnits s aliases holdoutFold
  status : report.trainingPanelStatus = panel.status
  selected : report.selectedItems = panel.selectedItems.map SelectedItem.item
  targets : report.selectedDirectionalTargets =
    (panel.selectedItems.map fun row => row.newDirectionalTargets.length).sum

theorem foldReport_of {report : FoldReport}
    (h : foldReport env s matrix models aliases maxItems clusters holdoutFold = .ok report) :
    ∃ panel, trainingPanel env s matrix models aliases maxItems clusters holdoutFold = .ok panel ∧
      FoldReport.of s aliases holdoutFold panel report := by
  obtain ⟨panel, hpanel, h⟩ := validated_bind h
  obtain ⟨rows, -, h⟩ := validated_bind h
  obtain ⟨evaluations, -, h⟩ := validated_bind h
  obtain rfl := Except.ok.inj h
  exact ⟨panel, hpanel, rfl, rfl, rfl, rfl, rfl⟩

theorem panelHoldoutValidation_fold {v : HoldoutValidation}
    (h : panelHoldoutValidation env matrix models aliases maxItems clusters = .ok v)
    (hs : foldAssignment env.text (matrix.map Prod.fst) models clusters = .ok s) (holdoutFold : Fin 2) :
    ∃ panel report, trainingPanel env s matrix models aliases maxItems clusters holdoutFold =
        .ok panel ∧
      v.folds[(holdoutFold : Nat)]? = some report ∧ FoldReport.of s aliases holdoutFold panel report := by
  obtain ⟨s', hs', h⟩ := validated_bind h
  obtain rfl : s' = s := Except.ok.inj ((mapError_ok hs').symm.trans hs)
  obtain ⟨first, hfirst, h⟩ := validated_bind h
  obtain ⟨second, hsecond, h⟩ := validated_bind h
  obtain rfl := Except.ok.inj h
  fin_cases holdoutFold
  · obtain ⟨panel, hpanel, hof⟩ := foldReport_of env hfirst
    exact ⟨panel, _, hpanel, rfl, hof.1, hof.2, hof.3, hof.4, hof.5⟩
  · obtain ⟨panel, hpanel, hof⟩ := foldReport_of env hsecond
    exact ⟨panel, _, hpanel, rfl, hof.1, hof.2, hof.3, hof.4, hof.5⟩

/-- Each unit has one fold; the panel of a holdout fold does not depend on the statuses in it, nor do
the items that its report names; and where the respondents of a unit share their configuration the
folds are balanced. -/
theorem panelHoldoutValidation_sound (env : Surroundings κ) (matrix : Matrix κ)
    (models : List (κ × Str)) (aliases : List (Str × Str)) (maxItems : Json)
    (clusters : Option (List (κ × κ))) (s : FoldAssignment κ)
    (hs : foldAssignment env.text (matrix.map Prod.fst) models clusters = .ok s) :
    (∀ entry ∈ matrix, ∃! fold : Fin 2, (unitOf clusters entry.1, fold) ∈ s.foldByUnit) ∧
    (∀ fold entry, entry ∈ holdoutMatrix s clusters matrix fold ↔
      entry ∈ matrix ∧ (unitOf clusters entry.1, fold) ∈ s.foldByUnit) ∧
    (∀ fold entry, entry ∈ trainingMatrix s clusters matrix fold ↔
      entry ∈ matrix ∧ (unitOf clusters entry.1, fold) ∉ s.foldByUnit) ∧
    (∀ holdoutFold matrix', differInFold s clusters holdoutFold matrix matrix' →
      foldAssignment env.text (matrix'.map Prod.fst) models clusters = .ok s ∧
      trainingPanel env s matrix models aliases maxItems clusters holdoutFold =
        trainingPanel env s matrix' models aliases maxItems clusters holdoutFold ∧
      ∀ v v', panelHoldoutValidation env matrix models aliases maxItems clusters = .ok v →
        panelHoldoutValidation env matrix' models aliases maxItems clusters = .ok v' →
        ∃ panel report report', v.folds[(holdoutFold : Nat)]? = some report ∧
          v'.folds[(holdoutFold : Nat)]? = some report' ∧
          FoldReport.of s aliases holdoutFold panel report ∧
          FoldReport.of s aliases holdoutFold panel report') ∧
    ((∀ a ∈ matrix, ∀ b ∈ matrix, unitOf clusters a.1 = unitOf clusters b.1 →
        models.lookup a.1 = models.lookup b.1) →
      s.balanced ∧ ∀ configuration, 10 ≤ (unitsOf matrix models clusters configuration).card →
        ∀ fold, 5 ≤ s.configurationCounts fold configuration) := by
  obtain ⟨hnodup, hkeys⟩ := foldByUnit_keys hs
  refine ⟨fun entry hentry => ?_, fun fold entry => ?_, fun fold entry => ?_,
    fun holdoutFold matrix' hdiffer => ⟨?_, trainingPanel_eq env hdiffer, fun v v' hv hv' => ?_⟩,
    fun hsingle => ⟨foldAssignment_balanced hs hsingle, fun configuration hten fold => ?_⟩⟩
  · obtain ⟨⟨unit, fold⟩, hmem, hunit⟩ := List.mem_map.mp ((hkeys _).mpr ⟨entry, hentry, rfl⟩)
    change unit = unitOf clusters entry.1 at hunit
    rw [hunit] at hmem
    refine ⟨fold, hmem, fun other hother => ?_⟩
    have hlookup := (lookup_iff_mem hnodup).mpr hmem
    rw [(lookup_iff_mem hnodup).mpr hother] at hlookup
    exact Option.some.inj hlookup
  · rw [holdoutMatrix, List.mem_filter, decide_eq_true_eq, FoldAssignment.foldOf, lookup_iff_mem hnodup]
  · rw [trainingMatrix, List.mem_filter, decide_eq_true_eq, FoldAssignment.foldOf, Ne,
      lookup_iff_mem hnodup]
  · rw [← differInFold_respondents hdiffer]
    exact hs
  · have hs' : foldAssignment env.text (matrix'.map Prod.fst) models clusters = .ok s := by
      rw [← differInFold_respondents hdiffer]
      exact hs
    obtain ⟨panel, report, hpanel, hreport, hof⟩ := panelHoldoutValidation_fold env hv hs
      holdoutFold
    obtain ⟨panel', report', hpanel', hreport', hof'⟩ := panelHoldoutValidation_fold env hv' hs'
      holdoutFold
    obtain rfl : panel = panel' := by
      rw [trainingPanel_eq env hdiffer, hpanel'] at hpanel
      exact (Except.ok.inj hpanel).symm
    exact ⟨panel, report, report', hreport, hreport', hof, hof'⟩
  · refine balanced_half (foldAssignment_balanced hs hsingle) (n := 5) ?_ fold
    rw [total_eq hs]
    exact hten

end Panels

/-- Ten respondents of one configuration pass the item and ten of another one fail it; the first
respondent has a status of its own. -/
def sampleMatrix (first : ItemStatus) : Matrix Nat :=
  (0, [("q1".toList, first)]) :: (List.range' 1 19).map fun respondent =>
    (respondent, [("q1".toList, if respondent < 10 then .pass else .fail)])

def sampleModels : List (Nat × Str) :=
  (List.range 20).map fun respondent =>
    (respondent, if respondent < 10 then "m".toList else "n".toList)

def sampleAliases : List (Str × Str) := [("m".toList, "C1".toList), ("n".toList, "C2".toList)]

def sampleSurroundings : Surroundings Nat := ⟨natStr, asciiData, fun _ counter => counter, id⟩

/-- Both configurations have five units on each side, and the panel for the first fold, which has the
item, does not see a status in it. -/
theorem panelHoldoutValidation_tenUnits :
    ∃ s, foldAssignment natStr ((sampleMatrix .pass).map Prod.fst) sampleModels none = .ok s ∧
      (∀ fold, 5 ≤ s.configurationCounts fold "m".toList) ∧
      (∀ fold, 5 ≤ s.configurationCounts fold "n".toList) ∧
      trainingPanel sampleSurroundings s (sampleMatrix .pass) sampleModels sampleAliases .null none 0 =
        trainingPanel sampleSurroundings s (sampleMatrix .fail) sampleModels sampleAliases .null
          none 0 := by
  obtain ⟨-, -, -, hpanel, hbalanced⟩ := panelHoldoutValidation_sound sampleSurroundings
    (sampleMatrix .pass) sampleModels sampleAliases .null none _ rfl
  obtain ⟨-, hunits⟩ := hbalanced (by decide)
  refine ⟨_, rfl, hunits "m".toList (by decide), hunits "n".toList (by decide),
    (hpanel 0 (sampleMatrix .fail) ?_).2.1⟩
  exact .cons ⟨rfl, fun hne => absurd (by decide) hne⟩
    (List.forall₂_same.mpr fun _ _ => ⟨rfl, fun _ => rfl⟩)

end Calibration
