import LlmHardtest.Community.Recommend
import LlmHardtest.Library.SignFlips
import LlmHardtest.Round5.Outcomes
set_option autoImplicit false

/-! The paired comparison of two configurations over the bundles that hold both. -/

namespace Community
open Python Binary64
open Round5 (require average)

def signFlipExactLimit : Nat := 65536
def signFlipMonteCarloSamples : Nat := 20000
def signFlipAbsoluteTolerance : ℚ := 1 / 10 ^ 12
def familywiseAlpha : ℚ := 1 / 20
def minExpectedBootstrapTailDraws : Nat := 100
def bootstrapSamples : Nat := 2000

/-- `_HashSampler`: the digest of a seed and a counter, as a number. -/
abbrev HashSampler := Str → Nat → Nat

structure PairedObservation where
  bundle : Str
  round : RoundNumber
  pack : Fingerprint
  configuration : ConfigurationId
  identity : Identity
  metrics : Objective → Option ℚ

structure PointwiseInterval where
  low : ℚ
  high : ℚ
  samples : Nat

structure SimultaneousInterval where
  low : ℚ
  high : ℚ
  confidence : ℚ
  samples : Nat
  familySize : Nat
  expectedTailDraws : ℚ

structure SignFlipTest where
  pValue : ℚ
  assignments : Nat
  evaluatedPermutations : Nat
  extremePermutations : Nat

/-- `min(1.0, math.ceil(p * 100_000_000) / 100_000_000)` -/
def ceilP (p : ℚ) : ℚ := min 1 (⌈p * 100000000⌉ / 100000000)

/-- The means that are at least as far from zero as the observed one, up to the tolerance. -/
def isExtreme (effects signs : List ℚ) : Bool :=
  decide (|average effects| ≤ |average signs| + signFlipAbsoluteTolerance)

def sampledSigns (sampler : HashSampler) (seed : Str) (effects : List ℚ) (draw : Nat) : List ℚ :=
  effects.mapIdx fun i e => if sampler seed (draw * effects.length + i) % 2 = 1 then e else -e

def signFlipTest (sampler : HashSampler) (effects : List ℚ) (seed : Str) : Outcome SignFlipTest :=
  if effects.isEmpty then .error (.valueError "mean requires at least one data point".toList)
  else
    let assignments := 2 ^ effects.length
    if assignments ≤ signFlipExactLimit then
      let extreme := (List.range assignments).countP fun mask =>
        isExtreme effects (SignFlips.signed effects mask)
      .ok {
        pValue := ceilP (extreme / assignments), assignments
        evaluatedPermutations := assignments, extremePermutations := extreme }
    else
      let extreme := (List.range signFlipMonteCarloSamples).countP fun draw =>
        isExtreme effects (sampledSigns sampler seed effects draw)
      .ok {
        pValue := ceilP ((extreme + 1) / (signFlipMonteCarloSamples + 1)), assignments
        evaluatedPermutations := signFlipMonteCarloSamples, extremePermutations := extreme }

def bootstrapSampleCount (familySize : Nat) : Nat :=
  if familySize = 0 then 0
  else max bootstrapSamples
    ⌈2 * familySize * minExpectedBootstrapTailDraws / familywiseAlpha⌉.toNat

/-- `min(1.0, 2.0 ** (1 - nonzero_pairs))` -/
def rawPFloor (nonzeroPairs : Nat) : ℚ := min 1 (2 / 2 ^ nonzeroPairs)

/-- The loop of `_minimum_nonzero_pairs_for_holm` ends. -/
theorem resolution_reached (familySize : Nat) :
    ∃ k, ¬ familywiseAlpha ≤ rawPFloor k * familySize := by
  obtain ⟨k, hk⟩ := exists_nat_gt (40 * familySize : ℚ)
  refine ⟨k, not_le.mpr ?_⟩
  have hpow : (k : ℚ) < 2 ^ k := by exact_mod_cast Nat.lt_two_pow_self
  have hpos : (0 : ℚ) < 2 ^ k := by positivity
  have hfloor : rawPFloor k * familySize ≤ 2 / 2 ^ k * familySize :=
    mul_le_mul_of_nonneg_right (min_le_right _ _) (by positivity)
  refine hfloor.trans_lt ?_
  rw [div_mul_eq_mul_div, div_lt_iff₀ hpos, familywiseAlpha]
  linarith

def minimumNonzeroPairsForHolm (familySize : Nat) : Nat :=
  if familySize = 0 then 0 else Nat.find (resolution_reached familySize)

inductive ResolutionStatus where
  | resolutionAvailable | discretePLimit
  deriving DecidableEq, Repr

structure InferenceResolution where
  status : ResolutionStatus
  nonzeroEffectTolerance : ℚ
  nonzeroPairedBundles : Nat
  bestCaseRawPFloor : ℚ
  strictestHolmMultiplier : Nat
  bestCaseStrictestHolmPFloor : ℚ
  minimumNonzeroPairs : Nat
  additionalNonzeroPairs : Nat

/-- `SIGN_FLIP_ABSOLUTE_TOLERANCE * len(effects) / 2` -/
def nonzeroTolerance (effects : List ℚ) : ℚ := signFlipAbsoluteTolerance * effects.length / 2

def inferenceResolution (effects : List ℚ) (familySize : Nat) : InferenceResolution :=
  let nonzeroPairs := effects.countP fun e => decide (nonzeroTolerance effects < |e|)
  let rawFloor := rawPFloor nonzeroPairs
  let required := minimumNonzeroPairsForHolm familySize
  let additional := required - nonzeroPairs
  { status := if additional = 0 then .resolutionAvailable else .discretePLimit
    nonzeroEffectTolerance := nonzeroTolerance effects
    nonzeroPairedBundles := nonzeroPairs
    bestCaseRawPFloor := rawFloor
    strictestHolmMultiplier := familySize
    bestCaseStrictestHolmPFloor := min 1 (rawFloor * familySize)
    minimumNonzeroPairs := required
    additionalNonzeroPairs := additional }

def samplePercentile (values : List ℚ) (probability : ℚ) : ℚ :=
  let ordered := values.insertionSort (· ≤ ·)
  let index := max 0 (min ((ordered.length : Int) - 1) (⌈nearest (probability * ordered.length)⌉ - 1))
  ordered.getD index.toNat 0

def bootstrapMean (sampler : HashSampler) (seed : Str) (effects : List ℚ) (draw : Nat) : ℚ :=
  nearest (average ((List.range effects.length).map fun i =>
    effects.getD (sampler seed (draw * effects.length + i) % effects.length) 0))

/-- `FAMILYWISE_ALPHA / (2 * family_size)` -/
def tailProbability (familySize : Nat) : ℚ := nearest (nearest familywiseAlpha / (2 * familySize))

/-- `1 - FAMILYWISE_ALPHA / family_size`, rounded to 8 digits. -/
def simultaneousConfidence (familySize : Nat) : ℚ :=
  roundDigits 8 (nearest (1 - nearest (nearest familywiseAlpha / familySize)))

def pairedIntervals (sampler : HashSampler) (effects : List ℚ) (seed : Str) (familySize samples : Nat) :
    PointwiseInterval × SimultaneousInterval :=
  let draws := (List.range samples).map (bootstrapMean sampler seed effects)
  let tailProbability := tailProbability familySize
  ({ low := roundDigits 6 (samplePercentile draws (nearest (1 / 40)))
     high := roundDigits 6 (samplePercentile draws (nearest (39 / 40))), samples },
   { low := roundDigits 6 (samplePercentile draws tailProbability)
     high := roundDigits 6 (samplePercentile draws (nearest (1 - tailProbability)))
     confidence := simultaneousConfidence familySize, samples, familySize
     expectedTailDraws := roundDigits 6 (nearest (samples * tailProbability)) })

inductive Classification where
  | insufficient | pending | leftBetter | rightBetter | leftSmallEffect | rightSmallEffect
  | inconclusive
  deriving DecidableEq, Repr

structure ObjectiveRow where
  objective : Objective
  pairedBundles : Nat
  leftMean : Option ℚ
  rightMean : Option ℚ
  leftAdvantage : Option ℚ
  minimumPracticalEffect : ℚ
  interval95 : Option PointwiseInterval := none
  simultaneousInterval : Option SimultaneousInterval := none
  inferenceResolution : Option InferenceResolution := none
  pRaw : Option ℚ := none
  pHolm : Option ℚ := none
  test : Option SignFlipTest := none
  practicalThresholdMet : Option Bool := none
  classification : Classification := .insufficient

def roundedMean (values : List ℚ) : Option ℚ :=
  if values.isEmpty then none else some (roundDigits 6 (average values))

def pairsOf (objective : Objective) (shared : List (PairedObservation × PairedObservation)) :
    List (ℚ × ℚ) :=
  shared.filterMap fun pair =>
    match pair.1.metrics objective, pair.2.metrics objective with
    | some left, some right => some (left, right)
    | _, _ => none

/-- The effects of an objective; a positive one favors the left configuration. -/
def effectsOf (objective : Objective) (shared : List (PairedObservation × PairedObservation)) : List ℚ :=
  (pairsOf objective shared).map fun pair =>
    if objective = .latency then pair.2 - pair.1 else pair.1 - pair.2

def untestedRow (objective : Objective) (shared : List (PairedObservation × PairedObservation))
    (minimumEffect : ℚ) : ObjectiveRow :=
  let pairs := pairsOf objective shared
  { objective
    pairedBundles := pairs.length
    leftMean := roundedMean (pairs.map Prod.fst)
    rightMean := roundedMean (pairs.map Prod.snd)
    leftAdvantage := roundedMean (effectsOf objective shared)
    minimumPracticalEffect := minimumEffect }

def isTested (shared : List (PairedObservation × PairedObservation)) (objective : Objective) : Bool :=
  decide (minBaselineSubmissions ≤ (effectsOf objective shared).length)

def testedRow (sampler : HashSampler) (seed : Str) (familySize samples : Nat) (effects : List ℚ)
    (row : ObjectiveRow) : Outcome ObjectiveRow := do
  let intervals := pairedIntervals sampler effects seed familySize samples
  let test ← signFlipTest sampler effects seed
  return { row with
    interval95 := some intervals.1, simultaneousInterval := some intervals.2
    inferenceResolution := some (inferenceResolution effects familySize)
    test := some test, pRaw := some test.pValue, classification := .pending }

def holmLe (a b : Objective × ℚ) : Prop :=
  a.2 < b.2 ∨ a.2 = b.2 ∧ a.1.name.toList ≤ b.1.name.toList

instance : DecidableRel holmLe := fun _ _ => inferInstanceAs (Decidable (_ ∨ _))

def holmSteps (familySize : Nat) : ℚ → Nat → List (Objective × ℚ) → List (Objective × ℚ)
  | _, _, [] => []
  | previous, rank, tested :: rest =>
      let adjusted := min 1 (tested.2 * ((familySize : ℚ) - rank + 1))
      let previous := max previous adjusted
      (tested.1, roundDigits 8 previous) :: holmSteps familySize previous (rank + 1) rest

def testedPValues (rows : List ObjectiveRow) : List (Objective × ℚ) :=
  rows.filterMap fun row => row.pRaw.map fun p => (row.objective, p)

def holmAdjust (familySize : Nat) (rows : List ObjectiveRow) : Outcome (List ObjectiveRow) := do
  require (decide ((testedPValues rows).length ≤ familySize))
    "Holm family cannot be smaller than tested objectives"
  let adjusted := holmSteps familySize 0 1 ((testedPValues rows).insertionSort holmLe)
  return rows.map fun row => { row with pHolm := adjusted.lookup row.objective }

def verdictOf (threshold pHolm : ℚ) (interval : PointwiseInterval)
    (simultaneous : SimultaneousInterval) : Bool × Classification :=
  let leftThresholdMet :=
    if threshold = 0 then decide (0 < interval.low) else decide (threshold < simultaneous.low)
  let rightThresholdMet :=
    if threshold = 0 then decide (interval.high < 0) else decide (simultaneous.high < -threshold)
  if pHolm < familywiseAlpha && leftThresholdMet then (true, .leftBetter)
  else if pHolm < familywiseAlpha && rightThresholdMet then (true, .rightBetter)
  else if pHolm < familywiseAlpha && decide (0 < interval.low) then (false, .leftSmallEffect)
  else if pHolm < familywiseAlpha && decide (interval.high < 0) then (false, .rightSmallEffect)
  else (false, .inconclusive)

/-- The last loop over the rows; a row without intervals stays insufficient. -/
def classifyRow (row : ObjectiveRow) : ObjectiveRow :=
  match row.interval95, row.simultaneousInterval, row.pHolm with
  | some interval, some simultaneous, some pHolm =>
      let verdict := verdictOf row.minimumPracticalEffect pHolm interval simultaneous
      { row with practicalThresholdMet := some verdict.1, classification := verdict.2 }
  | _, _, _ => row

inductive ComparisonStatus where
  | noObservations | packRequired | noMatch | insufficientEvidence | leftDirectionalEvidence
  | rightDirectionalEvidence | mixedDirectionalEvidence | statisticalOnlyEvidence
  | resolutionLimited | inconclusive
  deriving DecidableEq, Repr

def hasClassification (rows : List ObjectiveRow) (c : Classification) : Bool :=
  rows.any fun row => row.classification = c

def resolutionLimited (rows : List ObjectiveRow) : Nat :=
  rows.countP fun row => row.inferenceResolution.any fun r => decide (r.status = .discretePLimit)

def comparisonStatus (testedObjectives : Nat) (rows : List ObjectiveRow) : ComparisonStatus :=
  let left := hasClassification rows .leftBetter
  let right := hasClassification rows .rightBetter
  if testedObjectives = 0 then .insufficientEvidence
  else if left && !right then .leftDirectionalEvidence
  else if right && !left then .rightDirectionalEvidence
  else if left && right then .mixedDirectionalEvidence
  else if hasClassification rows .leftSmallEffect || hasClassification rows .rightSmallEffect then
    .statisticalOnlyEvidence
  else if resolutionLimited rows = testedObjectives then .resolutionLimited
  else .inconclusive

structure PairedQuery where
  roundNumber : Int
  leftConfiguration : Str
  rightConfiguration : Str
  pack : Option Str := none
  objectives : Option (List Str) := none
  minimumEffects : Option Json := none
  multiplicityFamilySize : Option Int := none

structure Comparison where
  pack : Option Str
  availablePacks : List Fingerprint
  objectives : List Objective
  minimumPracticalEffects : Objective → ℚ
  multiplicityFamilySize : Nat
  bootstrapSamples : Nat := 0
  simultaneousConfidence : Option ℚ := none
  minimumNonzeroPairs : Nat
  resolutionLimitedObjectives : Nat := 0
  status : ComparisonStatus := .noObservations
  left : Option Identity := none
  right : Option Identity := none
  sharedConfigurationBundles : Nat := 0
  testedObjectives : Nat := 0
  objectivesResult : List ObjectiveRow := []

def minimumEffect (values : List (Str × Json)) (objective : Objective) : Outcome ℚ :=
  let message := "minimum " ++ objective.name ++ " effect must be a finite non-negative number"
  match (Json.fieldD values objective.name (.float (.finite 0))).number with
  | none => .error (.valueError message.toList)
  | some n =>
      match n.toFloat with
      | .ok (.finite q) => do
          require (decide (0 ≤ q)) message
          require (!(decide (objective = .accuracy ∨ objective = .completion)) || decide (q ≤ 1))
            ("minimum " ++ objective.name ++ " effect cannot exceed 1")
          return q
      | _ => .error (.valueError message.toList)

def minimumEffects (objectives : List Objective) (values : Option Json) :
    Outcome (List (Objective × ℚ)) := do
  let values ← match values with
    | none => .ok []
    | some (.obj fields) => .ok fields
    | some _ => .error (.valueError "comparison minimum effects must be an object".toList)
  let unknown := (values.map Prod.fst).filter fun key =>
    !objectives.any fun o => decide (o.name.toList = key)
  require unknown.isEmpty ("minimum effect supplied for unselected objective(s): " ++
    String.ofList (joinStr ", ".toList (sortedNames unknown)))
  objectives.mapM fun o => do
    let q ← minimumEffect values o
    return (o, q)

structure CheckedComparison where
  round : Int
  left : Str
  right : Str
  pack : Option Str
  objectives : List Objective
  minimumEffects : List (Objective × ℚ)
  familySize : Option Nat

def checkComparison (q : PairedQuery) : Outcome CheckedComparison := do
  require (decide (1 ≤ q.roundNumber) && decide (q.roundNumber ≤ 4))
    "comparison round must be one of 1, 2, 3, or 4"
  require (isConfigurationId q.leftConfiguration) "left configuration must be an exact 10-character ID"
  require (isConfigurationId q.rightConfiguration)
    "right configuration must be an exact 10-character ID"
  require (decide (q.leftConfiguration ≠ q.rightConfiguration))
    "paired comparison requires two distinct configurations"
  require (q.pack.all isFingerprint) "comparison pack must be an exact sha256 fingerprint"
  let objectives ← checkObjectives q.objectives
  require (q.multiplicityFamilySize.all fun n =>
      decide ((objectives.length : Int) ≤ n) && decide (n ≤ (allObjectives.length : Int)))
    "multiplicity family size must be an integer from the selected objective count through 4"
  let minimumEffects ← minimumEffects objectives q.minimumEffects
  return { round := q.roundNumber, left := q.leftConfiguration, right := q.rightConfiguration
           pack := q.pack, objectives, minimumEffects
           familySize := q.multiplicityFamilySize.map Int.toNat }

def CheckedComparison.minimumEffect (c : CheckedComparison) (o : Objective) : ℚ :=
  (c.minimumEffects.lookup o).getD 0

def comparedPacks (rows : List PairedObservation) : List Fingerprint :=
  (rows.map PairedObservation.pack).dedup.insertionSort fun a b => a.1 ≤ b.1

def identityIn (rows : List PairedObservation) (configuration : Str) : Option Identity :=
  (rows.find? fun row => row.configuration.1 = configuration).map PairedObservation.identity

def identitiesAgree (rows : List PairedObservation) : Bool :=
  rows.all fun row => (identityIn rows row.configuration.1).all fun first => first.same row.identity

/-- `previous == row` for rows of one bundle and configuration whose identities agree. -/
def PairedObservation.sameMetrics (a b : PairedObservation) : Bool :=
  allObjectives.all fun o => decide (a.metrics o = b.metrics o)

def byBundle (c : CheckedComparison) (rows : List PairedObservation) :
    List (Str × List PairedObservation) :=
  GroupBy.groupBy PairedObservation.bundle
    (rows.filter fun row => row.configuration.1 = c.left || row.configuration.1 = c.right)

def rowIn (group : List PairedObservation) (configuration : Str) : Option PairedObservation :=
  group.find? fun row => row.configuration.1 = configuration

/-- A bundle has one row of a configuration, whatever its copies. -/
def bundleAgrees (group : List PairedObservation) : Bool :=
  group.all fun row => (rowIn group row.configuration.1).all fun first => first.sameMetrics row

def sharedPairs (c : CheckedComparison) (rows : List PairedObservation) :
    List (PairedObservation × PairedObservation) :=
  (byBundle c rows).filterMap fun group =>
    match rowIn group.2 c.left, rowIn group.2 c.right with
    | some left, some right => some (left, right)
    | _, _ => none

/-- The seed of an objective's samples; the two configurations come in order. -/
def comparisonSeed (c : CheckedComparison) (pack : Str) (o : Objective) : Str :=
  let pair := if c.left ≤ c.right then c.left ++ ":".toList ++ c.right
    else c.right ++ ":".toList ++ c.left
  "paired:".toList ++ pack ++ ":".toList ++ (toString c.round).toList ++ ":".toList ++ pair ++
    ":".toList ++ o.name.toList

def objectiveRows (sampler : HashSampler) (c : CheckedComparison) (pack : Str)
    (shared : List (PairedObservation × PairedObservation)) (familySize samples : Nat) :
    Outcome (List ObjectiveRow) :=
  c.objectives.mapM fun o =>
    let row := untestedRow o shared (c.minimumEffect o)
    if isTested shared o then
      testedRow sampler (comparisonSeed c pack o) familySize samples (effectsOf o shared) row
    else .ok row

/-- `compare_paired_observations` from the shared bundles on. -/
def compareShared (sampler : HashSampler) (c : CheckedComparison) (pack : Str)
    (shared : List (PairedObservation × PairedObservation)) (initial : Comparison) :
    Outcome Comparison := do
  let testedObjectives := c.objectives.countP (isTested shared)
  let familySize := c.familySize.getD testedObjectives
  let samples := if testedObjectives = 0 then 0 else bootstrapSampleCount familySize
  let rows ← objectiveRows sampler c pack shared familySize samples
  let adjusted ← holmAdjust familySize rows
  let rows := adjusted.map classifyRow
  return { initial with
    sharedConfigurationBundles := shared.length
    multiplicityFamilySize := familySize
    bootstrapSamples := samples
    simultaneousConfidence :=
      if testedObjectives = 0 then none else some (simultaneousConfidence familySize)
    minimumNonzeroPairs := minimumNonzeroPairsForHolm familySize
    resolutionLimitedObjectives := resolutionLimited rows
    status := comparisonStatus testedObjectives rows
    testedObjectives
    objectivesResult := rows }

def comparedRows (c : CheckedComparison) (observations : List PairedObservation) : List PairedObservation :=
  observations.filter fun row => decide ((row.round.1 : Int) = c.round)

def selectedComparisonPack (c : CheckedComparison) (observations : List PairedObservation) : Option Str :=
  match c.pack with
  | some pack => some pack
  | none =>
      let available := comparedPacks (comparedRows c observations)
      if available.length = 1 then available.head?.map Subtype.val else none

def packRows (c : CheckedComparison) (observations : List PairedObservation) (pack : Str) :
    List PairedObservation :=
  (comparedRows c observations).filter fun row => decide (row.pack.1 = pack)

def compareChecked (sampler : HashSampler) (c : CheckedComparison)
    (observations : List PairedObservation) : Outcome Comparison :=
  let available := comparedPacks (comparedRows c observations)
  let initial : Comparison := {
    pack := selectedComparisonPack c observations, availablePacks := available
    objectives := c.objectives, minimumPracticalEffects := c.minimumEffect
    multiplicityFamilySize := c.familySize.getD 0
    minimumNonzeroPairs := minimumNonzeroPairsForHolm (c.familySize.getD 0) }
  if c.pack.isNone && decide (1 < available.length) then .ok { initial with status := .packRequired }
  else match selectedComparisonPack c observations with
    | none => .ok initial
    | some pack =>
        if pack ∉ available.map Subtype.val then .ok initial
        else do
          let rows := packRows c observations pack
          require (identitiesAgree rows) "paired comparison configuration identity collision"
          match identityIn rows c.left, identityIn rows c.right with
          | some left, some right => do
              require ((byBundle c rows).all fun group => bundleAgrees group.2)
                "duplicate paired bundle observation"
              compareShared sampler c pack (sharedPairs c rows)
                { initial with left := some left, right := some right }
          | _, _ => .ok { initial with status := .noMatch }

def comparePairedObservations (sampler : HashSampler) (observations : List PairedObservation)
    (q : PairedQuery) : Outcome Comparison := do
  let c ← checkComparison q
  compareChecked sampler c observations

end Community
