import LlmHardtest.Calibration.Correlation
import LlmHardtest.Calibration.Permutation
import LlmHardtest.Community.Rates
set_option autoImplicit false

/-! The tables that an item panel is selected from: how items go together over the respondents, and
which items separate which configurations. The numbers are exact up to the square root, which is a
parameter. -/

namespace Calibration
open Python
open Binary64 (nearest)
open Community (HashSampler samplePercentile)
open GroupBy (groupBy)
open Round5 (average pairs)

def minItemObservations : Nat := 5
def minItemIntervalObservations : Nat := 10
def minConfigurationRespondents : Nat := 5
def bootstrapSamples : Nat := 2000
def itemRelationshipThreshold : ℚ := 1 / 2
def itemRedundancyThreshold : ℚ := 4 / 5

inductive ItemStatus where
  | pass | fail | incomplete | review | invalid
  deriving DecidableEq, Repr

def ItemStatus.scored : ItemStatus → Option ℚ
  | .pass => some 1
  | .fail => some 0
  | _ => none

/-- The statuses of the items by respondent, in the order of the dictionary. A respondent and a unit
are keys of the type `κ`. -/
abbrev Matrix (κ : Type) := List (κ × List (Str × ItemStatus))

/-- `d[key]` -/
def getItem {κ α : Type} [BEq κ] (d : List (κ × α)) (key : κ) : Outcome α :=
  (d.lookup key).elim (.error .keyError) .ok

section Units
variable {κ : Type} [DecidableEq κ]

/-- `clusters.get(respondent, respondent) if clusters else respondent` -/
def unitOf (clusters : Option (List (κ × κ))) (respondent : κ) : κ :=
  ((clusters.getD []).lookup respondent).getD respondent

end Units

/-- `[generator.choice(values) for _ in values]`; the choices of the sampler are counted from `start`. -/
def resampled {α : Type} (sampler : HashSampler) (seed : Str) (start : Nat) (values : List α) : List α :=
  (List.range values.length).filterMap fun i => values[sampler seed (start + i) % values.length]?

/-- An interval is withheld when fewer than 0.8 of the draws are valid. -/
def tooFewDraws {α : Type} (valid : List α) : Bool := decide (5 * valid.length < 4 * bootstrapSamples)

inductive RelationshipClass where
  | insufficient | lowInformation | redundancyCandidate | opposingCandidate | related | distinct
  deriving DecidableEq, Repr

inductive RobustRelationship where
  | robustRedundancyCandidate | robustOpposingCandidate | uncertain | unstable | insufficient
  deriving DecidableEq, Repr

structure CorrelationInterval where
  low : ℚ
  high : ℚ
  samples : Nat
  validSamples : Nat
  independentClusters : Nat
  deriving DecidableEq, Repr

structure Relationship where
  left : Str
  right : Str
  commonScored : Nat
  independentUnits : Nat
  outcomeAgreement : Option ℚ
  clusteredOutcomeAgreement : Option ℚ
  phiCorrelation : Option ℚ
  clusteredPhiCorrelation : Option ℚ
  correlationInterval95 : Option CorrelationInterval
  classification : RelationshipClass
  robustClassification : RobustRelationship
  deriving DecidableEq, Repr

section Relationships
variable {κ : Type} [DecidableEq κ] (sqrt : ℚ → ℚ) (sampler : HashSampler)

def itemDiscriminationInterval (pairClusters : List (List (ℚ × ℚ))) (seed : Str) :
    Except ArithmeticRaised (Option CorrelationInterval) :=
  if pairClusters.length < minItemIntervalObservations then .ok none
  else do
    let clusterStats ← pairClusters.mapM clusterMoments
    let correlations := (List.range bootstrapSamples).filterMap fun draw =>
      correlationFromMoments sqrt (resampled sampler seed (draw * clusterStats.length) clusterStats)
    if tooFewDraws correlations then return none
    else return some {
      low := roundDigits 6 (samplePercentile correlations (nearest (1 / 40)))
      high := roundDigits 6 (samplePercentile correlations (nearest (39 / 40)))
      samples := bootstrapSamples
      validSamples := correlations.length
      independentClusters := pairClusters.length }

def scoredPairs (matrix : Matrix κ) (clusters : Option (List (κ × κ))) (left right : Str) :
    List (κ × ℚ × ℚ) :=
  matrix.filterMap fun entry => do
    let x ← (← entry.2.lookup left).scored
    let y ← (← entry.2.lookup right).scored
    return (unitOf clusters entry.1, x, y)

def agreement (cluster : List (ℚ × ℚ)) : ℚ :=
  average (cluster.map fun pair => if pair.1 = pair.2 then 1 else 0)

def classifyRelationship (observations : Nat) (correlation : Option ℚ) : RelationshipClass :=
  if observations < minItemObservations then .insufficient
  else correlation.elim .lowInformation fun r =>
    if itemRedundancyThreshold ≤ r then .redundancyCandidate
    else if r ≤ -itemRedundancyThreshold then .opposingCandidate
    else if itemRelationshipThreshold ≤ |r| then .related
    else .distinct

def classifyRobust (units : Nat) (clustered : Option ℚ) (interval : Option CorrelationInterval) :
    RobustRelationship :=
  if units < minItemIntervalObservations then .insufficient
  else clustered.elim .unstable fun r =>
    if |r| < itemRedundancyThreshold then .uncertain
    else interval.elim .unstable fun i =>
      if itemRedundancyThreshold ≤ r ∧ itemRedundancyThreshold ≤ i.low then .robustRedundancyCandidate
      else if r ≤ -itemRedundancyThreshold ∧ i.high ≤ -itemRedundancyThreshold then
        .robustOpposingCandidate
      else .uncertain

def itemRelationship (matrix : Matrix κ) (clusters : Option (List (κ × κ))) (left right : Str) :
    Except ArithmeticRaised Relationship := do
  let scored := scoredPairs matrix clusters left right
  let rawPairs := scored.map Prod.snd
  let clusterRows := (groupBy Prod.fst scored).map fun group => group.2.map Prod.snd
  let rawCorrelation := correlation sqrt (rawPairs.map Prod.fst) (rawPairs.map Prod.snd)
  let clusteredCorrelation ← clusterWeightedCorrelation sqrt clusterRows
  let interval ←
    if minItemIntervalObservations ≤ clusterRows.length ∧
        clusteredCorrelation.any fun r => itemRedundancyThreshold ≤ |r| then
      itemDiscriminationInterval sqrt sampler clusterRows
        ("relationship:".toList ++ left ++ ":".toList ++ right)
    else .ok none
  return {
    left, right
    commonScored := rawPairs.length
    independentUnits := clusterRows.length
    outcomeAgreement := if rawPairs.isEmpty then none else some (roundDigits 6 (agreement rawPairs))
    clusteredOutcomeAgreement :=
      if clusterRows.isEmpty then none else some (roundDigits 6 (average (clusterRows.map agreement)))
    phiCorrelation := rawCorrelation.map (roundDigits 6)
    clusteredPhiCorrelation := clusteredCorrelation.map (roundDigits 6)
    correlationInterval95 := interval
    classification := classifyRelationship rawPairs.length rawCorrelation
    robustClassification := classifyRobust clusterRows.length clusteredCorrelation interval }

def RobustRelationship.order : RobustRelationship → Nat
  | .robustRedundancyCandidate => 0
  | .robustOpposingCandidate => 1
  | .uncertain => 2
  | .unstable => 3
  | .insufficient => 4

def Relationship.ranking (row : Relationship) : ℕ ×ₗ ℚ ×ₗ Str ×ₗ Str :=
  toLex (row.robustClassification.order,
    toLex ((row.clusteredPhiCorrelation.map fun r => -|r|).getD 0, toLex (row.left, row.right)))

def itemRelationships (matrix : Matrix κ) (clusters : Option (List (κ × κ))) :
    Except ArithmeticRaised (List Relationship) := do
  let itemIds := sortedNames (matrix.flatMap fun entry => entry.2.map Prod.fst)
  let relationships ← (pairs itemIds).mapM fun pair =>
    itemRelationship sqrt sampler matrix clusters pair.1 pair.2
  return relationships.insertionSort fun a b => a.ranking ≤ b.ranking

end Relationships

inductive EffectClass where
  | leftHigher | rightHigher | uncertain | unstable
  deriving DecidableEq, Repr

/-- `classification in {"LEFT_HIGHER", "RIGHT_HIGHER"}` -/
def EffectClass.decisive : EffectClass → Bool
  | .leftHigher => true
  | .rightHigher => true
  | _ => false

structure EffectInterval where
  low : ℚ
  high : ℚ
  deriving DecidableEq, Repr

structure ItemEffect where
  item : Str
  leftIndependentUnits : Nat
  rightIndependentUnits : Nat
  passRateDifference : ℚ
  simultaneousInterval : Option EffectInterval
  classification : EffectClass
  deriving DecidableEq, Repr

inductive BootstrapMethod where
  | sharedClusterMaxError | configurationClusterMaxError
  deriving DecidableEq, Repr

structure PairInterval where
  criticalValue : ℚ
  confidence : ℚ
  method : BootstrapMethod
  samples : Nat
  validSamples : Nat
  deriving DecidableEq, Repr

inductive CoverageClass where
  | insufficient | unstable | separating | uncertain
  deriving DecidableEq, Repr

structure PairCoverage where
  left : Str
  right : Str
  eligibleItems : Nat
  decisiveItems : Nat
  familywiseAlpha : Option ℚ
  interval : Option PairInterval
  classification : CoverageClass
  items : List ItemEffect
  deriving DecidableEq, Repr

structure ItemCoverage where
  item : Str
  eligibleConfigurationPairs : Nat
  decisiveConfigurationPairs : Nat
  maximumAbsoluteEffect : ℚ
  deriving DecidableEq, Repr

structure Coverage where
  eligibleConfigurationPairs : Nat
  bonferroniFamilywiseAlpha : Option ℚ
  comparisons : List PairCoverage
  itemCoverage : List ItemCoverage
  deriving DecidableEq, Repr

section Clusters
variable {κ : Type} [DecidableEq κ]

def scoredRows (configuration : Str) (unit : κ) (rows : List (Str × ItemStatus)) :
    List (Str × κ × Str × ℚ) :=
  rows.filterMap fun row => row.2.scored.map fun value => (configuration, unit, row.1, value)

def clusterItemRows (matrix : Matrix κ) (models : List (κ × Str)) (clusters : Option (List (κ × κ))) :
    Outcome (List (Str × List (κ × List (Str × ℚ)))) := do
  let scored ← matrix.mapM fun entry => do
    let configuration ← getItem models entry.1
    return scoredRows configuration (unitOf clusters entry.1) entry.2
  return (groupBy Prod.fst scored.flatten).map fun byCluster =>
    (byCluster.1, (groupBy (fun row => row.2.1) byCluster.2).map fun items =>
      (items.1, (groupBy (fun row => row.2.2.1) items.2).map fun values =>
        (values.1, average (values.2.map fun row => row.2.2.2))))

/-- The largest error of a draw; a draw in which a side misses an item has none. -/
def maximumError (left right : List (List (Str × ℚ))) (effects : List (Str × ℚ)) : Option ℚ := do
  let errors ← effects.mapM fun effect =>
    let leftValues := left.filterMap fun row => row.lookup effect.1
    let rightValues := right.filterMap fun row => row.lookup effect.1
    if leftValues.isEmpty || rightValues.isEmpty then none
    else some |average leftValues - average rightValues - effect.2|
  errors.max?

variable (text : κ → Str) (sampler : HashSampler)

def sortedByText (keys : List κ) : List κ := keys.dedup.insertionSort fun a b => text a ≤ text b

def simultaneousPairInterval (leftRows rightRows : List (κ × List (Str × ℚ)))
    (effects : List (Str × ℚ)) (seed : Str) (alpha : ℚ) (sharedClusters : Bool) :
    Option PairInterval :=
  let sampled : Nat → List (List (Str × ℚ)) × List (List (Str × ℚ)) := fun draw =>
    if sharedClusters then
      let population := sortedByText text (leftRows.map Prod.fst ++ rightRows.map Prod.fst)
      let selected := resampled sampler seed (draw * population.length) population
      (selected.filterMap fun cluster => leftRows.lookup cluster,
        selected.filterMap fun cluster => rightRows.lookup cluster)
    else
      let start := draw * (leftRows.length + rightRows.length)
      (resampled sampler seed start (leftRows.map Prod.snd),
        resampled sampler seed (start + leftRows.length) (rightRows.map Prod.snd))
  let maximumErrors := (List.range bootstrapSamples).filterMap fun draw =>
    maximumError (sampled draw).1 (sampled draw).2 effects
  if tooFewDraws maximumErrors then none
  else some {
    criticalValue := roundDigits 6 (samplePercentile maximumErrors (nearest (1 - alpha)))
    confidence := roundDigits 6 (1 - alpha)
    method := if sharedClusters then .sharedClusterMaxError else .configurationClusterMaxError
    samples := bootstrapSamples
    validSamples := maximumErrors.length }

end Clusters

def aliasOrder (u : UnicodeData) (aliases : List (Str × Str)) (identity : Str) : Outcome (ℕ ⊕ₗ Str) := do
  let name ← getItem aliases identity
  if name.head? = some 'C' ∧ name.tail ≠ [] ∧ name.tail.all fun c => (u.decimal c).isSome then
    return Sum.inlₗ (← pyInt u name.tail)
  else return Sum.inrₗ name

/-- A pair of configurations with the items that both have enough units for. -/
structure Candidate where
  left : Str
  right : Str
  effects : List (Str × ℚ)
  leftItems : List (Str × List ℚ)
  rightItems : List (Str × List ℚ)

section Coverage
variable {κ : Type} [DecidableEq κ]

def itemValues (rows : List (κ × List (Str × ℚ))) : List (Str × List ℚ) :=
  (groupBy Prod.fst (rows.flatMap Prod.snd)).map fun group => (group.1, group.2.map Prod.snd)

def valuesOf (items : List (Str × List ℚ)) (item : Str) : List ℚ := (items.lookup item).getD []

def candidate (left right : Str × List (κ × List (Str × ℚ))) : Candidate :=
  let leftItems := itemValues left.2
  let rightItems := itemValues right.2
  let common := sortedNames ((leftItems.map Prod.fst).filter fun item =>
    decide (item ∈ rightItems.map Prod.fst ∧
      minConfigurationRespondents ≤ (valuesOf leftItems item).length ∧
      minConfigurationRespondents ≤ (valuesOf rightItems item).length))
  { left := left.1, right := right.1, leftItems, rightItems
    effects := common.map fun item =>
      (item, average (valuesOf leftItems item) - average (valuesOf rightItems item)) }

def classifyEffect (effect low high : ℚ) : EffectClass :=
  if itemPairEffectThreshold ≤ effect ∧ itemPairEffectThreshold ≤ low then .leftHigher
  else if effect ≤ -itemPairEffectThreshold ∧ high ≤ -itemPairEffectThreshold then .rightHigher
  else .uncertain

def itemEffect (c : Candidate) (interval : Option PairInterval) (effect : Str × ℚ) : ItemEffect where
  item := effect.1
  leftIndependentUnits := (valuesOf c.leftItems effect.1).length
  rightIndependentUnits := (valuesOf c.rightItems effect.1).length
  passRateDifference := roundDigits 6 effect.2
  simultaneousInterval := interval.map fun i =>
    ⟨roundDigits 6 (max (-1) (effect.2 - i.criticalValue)),
      roundDigits 6 (min 1 (effect.2 + i.criticalValue))⟩
  classification := interval.elim .unstable fun i =>
    classifyEffect effect.2 (max (-1) (effect.2 - i.criticalValue)) (min 1 (effect.2 + i.criticalValue))

def ItemEffect.ranking (row : ItemEffect) : ℕ ×ₗ ℚ ×ₗ Str :=
  toLex (if row.classification.decisive then 0 else 1, toLex (-|row.passRateDifference|, row.item))

def ItemCoverage.ranking (row : ItemCoverage) : ℤ ×ₗ ℚ ×ₗ Str :=
  toLex (-(row.decisiveConfigurationPairs : ℤ), toLex (-row.maximumAbsoluteEffect, row.item))

variable (text : κ → Str) (sampler : HashSampler)

def pairCoverage (aliases : List (Str × Str)) (rows : List (Str × List (κ × List (Str × ℚ))))
    (alpha : ℚ) (sharedClusters : Bool) (c : Candidate) : Outcome PairCoverage := do
  let left ← getItem aliases c.left
  let right ← getItem aliases c.right
  if c.effects.isEmpty then
    return { left, right, eligibleItems := 0, decisiveItems := 0, familywiseAlpha := none
             interval := none, classification := .insufficient, items := [] }
  else
    let interval := simultaneousPairInterval text sampler (← getItem rows c.left)
      (← getItem rows c.right) c.effects
      ("item-coverage:".toList ++ c.left ++ ":".toList ++ c.right) alpha sharedClusters
    let itemRows := (c.effects.map (itemEffect c interval)).insertionSort fun a b =>
      a.ranking ≤ b.ranking
    let decisive := itemRows.countP fun row => row.classification.decisive
    return {
      left, right
      eligibleItems := itemRows.length
      decisiveItems := decisive
      familywiseAlpha := some (roundDigits 8 alpha)
      interval
      classification :=
        if interval.isNone then .unstable else if decisive = 0 then .uncertain else .separating
      items := itemRows }

def itemCoverage (candidates : List Candidate) (comparisons : List PairCoverage) : List ItemCoverage :=
  let effects := candidates.flatMap Candidate.effects
  let rows := comparisons.flatMap PairCoverage.items
  ((groupBy Prod.fst effects).map fun group => {
    item := group.1
    eligibleConfigurationPairs := group.2.length
    decisiveConfigurationPairs := rows.countP fun row =>
      row.item = group.1 && row.classification.decisive
    maximumAbsoluteEffect := roundDigits 6 ((group.2.map fun effect => |effect.2|).foldl max 0)
    : ItemCoverage }).insertionSort fun a b => a.ranking ≤ b.ranking

def configurationItemCoverage (u : UnicodeData) (matrix : Matrix κ) (models : List (κ × Str))
    (aliases : List (Str × Str)) (clusters : Option (List (κ × κ))) : Outcome Coverage := do
  let rows ← clusterItemRows matrix models clusters
  let keyed ← rows.mapM fun row => return (← aliasOrder u aliases row.1, row)
  let configurations := (keyed.insertionSort fun a b => a.1 ≤ b.1).map Prod.snd
  let candidates := (pairs configurations).map fun pair => candidate pair.1 pair.2
  let eligiblePairs := candidates.countP fun c => !c.effects.isEmpty
  let alpha := familywiseAlpha / eligiblePairs
  let comparisons ← candidates.mapM (pairCoverage text sampler aliases rows alpha clusters.isSome)
  return {
    eligibleConfigurationPairs := eligiblePairs
    bonferroniFamilywiseAlpha := if eligiblePairs = 0 then none else some (roundDigits 8 alpha)
    comparisons
    itemCoverage := itemCoverage candidates comparisons }

end Coverage

section Defined
variable {κ : Type} [DecidableEq κ] (sqrt : ℚ → ℚ) (sampler : HashSampler)

/-- No unit is without pairs, so that no mean divides by zero. -/
theorem clusters_ne_nil {α : Type} (scored : List (κ × α)) :
    ∀ cluster ∈ (groupBy Prod.fst scored).map fun group => group.2.map Prod.snd, cluster ≠ [] := by
  intro cluster hcluster
  obtain ⟨group, hgroup, rfl⟩ := List.mem_map.mp hcluster
  exact fun hnil => GroupBy.groupBy_ne_nil hgroup (List.map_eq_nil_iff.mp hnil)

theorem itemDiscriminationInterval_ok {pairClusters : List (List (ℚ × ℚ))} (seed : Str)
    (h : ∀ cluster ∈ pairClusters, cluster ≠ []) :
    ∃ interval, itemDiscriminationInterval sqrt sampler pairClusters seed = .ok interval := by
  rw [itemDiscriminationInterval]
  split
  · exact ⟨_, rfl⟩
  · rw [mapM_clusterMoments h]
    dsimp only [bind, Except.bind]
    split <;> exact ⟨_, rfl⟩

theorem itemRelationship_ok (matrix : Matrix κ) (clusters : Option (List (κ × κ))) (left right : Str) :
    ∃ row, itemRelationship sqrt sampler matrix clusters left right = .ok row := by
  have hne := clusters_ne_nil (scoredPairs matrix clusters left right)
  obtain ⟨interval, hinterval⟩ := itemDiscriminationInterval_ok sqrt sampler
    ("relationship:".toList ++ left ++ ":".toList ++ right) hne
  rw [itemRelationship, clusterWeightedCorrelation, mapM_clusterMoments hne]
  dsimp only [bind, Except.bind, pure, Except.pure]
  split
  · rw [hinterval]
    exact ⟨_, rfl⟩
  · exact ⟨_, rfl⟩

theorem itemRelationships_ok (matrix : Matrix κ) (clusters : Option (List (κ × κ))) :
    ∃ rows, itemRelationships sqrt sampler matrix clusters = .ok rows := by
  have hmapM : ∀ l : List (Str × Str), ∃ rows, (l.mapM fun pair =>
      itemRelationship sqrt sampler matrix clusters pair.1 pair.2) = .ok rows := by
    intro l
    induction l with
    | nil => exact ⟨[], rfl⟩
    | cons pair l ih =>
      obtain ⟨row, hrow⟩ := itemRelationship_ok sqrt sampler matrix clusters pair.1 pair.2
      obtain ⟨rows, hrows⟩ := ih
      rw [List.mapM_cons, hrow, hrows]
      exact ⟨row :: rows, rfl⟩
  obtain ⟨rows, hrows⟩ := hmapM (pairs (sortedNames (matrix.flatMap fun entry => entry.2.map Prod.fst)))
  rw [itemRelationships, hrows]
  exact ⟨_, rfl⟩

end Defined

section Decisive

theorem threshold_round {x : ℚ} (h : itemPairEffectThreshold ≤ x) :
    itemPairEffectThreshold ≤ roundDigits 6 x := by
  have hfixed : roundDigits 6 itemPairEffectThreshold = itemPairEffectThreshold := by decide +kernel
  exact hfixed ▸ roundDigits_mono 6 h

theorem round_threshold {x : ℚ} (h : x ≤ -itemPairEffectThreshold) :
    roundDigits 6 x ≤ -itemPairEffectThreshold := by
  have hfixed : roundDigits 6 (-itemPairEffectThreshold) = -itemPairEffectThreshold := by decide +kernel
  exact hfixed ▸ roundDigits_mono 6 h

def ItemEffect.separates (row : ItemEffect) : Prop :=
  (row.classification = .leftHigher → itemPairEffectThreshold ≤ row.passRateDifference ∧
    ∃ i, row.simultaneousInterval = some i ∧ itemPairEffectThreshold ≤ i.low) ∧
  (row.classification = .rightHigher → row.passRateDifference ≤ -itemPairEffectThreshold ∧
    ∃ i, row.simultaneousInterval = some i ∧ i.high ≤ -itemPairEffectThreshold)

theorem classifyEffect_left {effect low high : ℚ} (h : classifyEffect effect low high = .leftHigher) :
    itemPairEffectThreshold ≤ effect ∧ itemPairEffectThreshold ≤ low := by
  rw [classifyEffect] at h
  split at h
  · assumption
  · split at h <;> cases h

theorem classifyEffect_right {effect low high : ℚ}
    (h : classifyEffect effect low high = .rightHigher) :
    effect ≤ -itemPairEffectThreshold ∧ high ≤ -itemPairEffectThreshold := by
  rw [classifyEffect] at h
  split at h
  · cases h
  · split at h
    · assumption
    · cases h

theorem itemEffect_separates (c : Candidate) (interval : Option PairInterval) (effect : Str × ℚ) :
    (itemEffect c interval effect).separates := by
  cases interval with
  | none => exact ⟨fun h => (nomatch h), fun h => (nomatch h)⟩
  | some i =>
    constructor
    · intro h
      obtain ⟨heffect, hlow⟩ := classifyEffect_left h
      exact ⟨threshold_round heffect, _, rfl, threshold_round hlow⟩
    · intro h
      obtain ⟨heffect, hhigh⟩ := classifyEffect_right h
      exact ⟨round_threshold heffect, _, rfl, round_threshold hhigh⟩

variable {κ : Type} [DecidableEq κ] {text : κ → Str} {sampler : HashSampler} {u : UnicodeData}
variable {matrix : Matrix κ} {models : List (κ × Str)} {aliases : List (Str × Str)}
variable {clusters : Option (List (κ × κ))} {coverage : Coverage}

theorem configurationItemCoverage_separates
    (h : configurationItemCoverage text sampler u matrix models aliases clusters = .ok coverage) :
    ∀ pair ∈ coverage.comparisons, ∀ row ∈ pair.items, row.separates := by
  obtain ⟨rows, -, h⟩ := Failures.bind_eq_ok.mp h
  obtain ⟨keyed, -, h⟩ := Failures.bind_eq_ok.mp h
  obtain ⟨comparisons, hcomparisons, h⟩ := Failures.bind_eq_ok.mp h
  obtain rfl := Except.ok.inj h
  intro pair hpair row hrow
  obtain ⟨c, -, hc⟩ := (Outcome.mapM_mem hcomparisons).2 pair hpair
  obtain ⟨left, -, hc⟩ := Failures.bind_eq_ok.mp hc
  obtain ⟨right, -, hc⟩ := Failures.bind_eq_ok.mp hc
  split at hc
  · obtain rfl := Except.ok.inj hc
    cases hrow
  · obtain ⟨leftRows, -, hc⟩ := Failures.bind_eq_ok.mp hc
    obtain ⟨rightRows, -, hc⟩ := Failures.bind_eq_ok.mp hc
    obtain rfl := Except.ok.inj hc
    obtain ⟨effect, -, rfl⟩ := List.mem_map.mp ((List.mem_insertionSort _).mp hrow)
    exact itemEffect_separates _ _ _

end Decisive

end Calibration
