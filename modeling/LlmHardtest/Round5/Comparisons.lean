import LlmHardtest.Round5.Configurations
set_option autoImplicit false

/-! The pairwise part of a portfolio: what two configurations share, whether that is enough to infer
from, and what is inferred. -/

namespace Round5
open Python

/-- An entry of `scenario_distances`: a pilot and pack that both configurations attempted. -/
structure SharedVersion where
  pilotId : PilotId
  pack : Str
  attemptPairs : Nat
  leftAttempts : Nat
  rightAttempts : Nat
  leftComplete : Nat
  rightComplete : Nat
  leftWithinPairs : Nat
  rightWithinPairs : Nat
  leftWithinDistance : Option ℚ
  rightWithinDistance : Option ℚ
  meanDistance : Option ℚ
  repeatNoise : Option ℚ
  adjustedSeparation : Option ℚ
  axisDistances : OutcomeAxis → AxisDistance
  directionalContrast : DirectionalContrast
  axisDirectionalContrasts : OutcomeAxis → DirectionalContrast

def sharedVersion (pilotId : PilotId) (pack : Str) (lefts rights : List Metrics) :
    SharedVersion :=
  let distances := crossMap distance lefts rights
  let between := mean distances
  let repeatNoise := noise (withinDistance lefts).2 (withinDistance rights).2
  { pilotId, pack
    attemptPairs := distances.length
    leftAttempts := lefts.length
    rightAttempts := rights.length
    leftComplete := lefts.countP (·.complete)
    rightComplete := rights.countP (·.complete)
    leftWithinPairs := (withinDistance lefts).1
    rightWithinPairs := (withinDistance rights).1
    leftWithinDistance := (withinDistance lefts).2
    rightWithinDistance := (withinDistance rights).2
    meanDistance := between
    repeatNoise
    adjustedSeparation := difference between repeatNoise
    axisDistances := axisDistance lefts rights
    directionalContrast :=
      contrast (mean (lefts.filterMap outcomeMean)) (mean (rights.filterMap outcomeMean))
    axisDirectionalContrasts := axisDirectionalContrast lefts rights }

structure RepeatDeficit where
  pilotId : PilotId
  pack : Str
  left : Nat
  right : Nat
  deriving DecidableEq, Repr

def SharedVersion.deficit (v : SharedVersion) : Option RepeatDeficit :=
  let left := minCompleteRepeats - v.leftComplete
  let right := minCompleteRepeats - v.rightComplete
  if left = 0 ∧ right = 0 then none else some ⟨v.pilotId, v.pack, left, right⟩

structure EvidenceGates where
  minimumExactSharedScenarios : Bool
  oneExactVersionPerSharedPilot : Bool
  minimumCompleteRepeatsPerSide : Bool
  allSharedAttemptsTransportComplete : Bool
  allSharedAttemptsAuthoritySafe : Bool
  allSharedAxesObserved : Bool
  deriving DecidableEq, Repr

def EvidenceGates.all (g : EvidenceGates) : Bool :=
  g.minimumExactSharedScenarios && g.oneExactVersionPerSharedPilot &&
    g.minimumCompleteRepeatsPerSide && g.allSharedAttemptsTransportComplete &&
    g.allSharedAttemptsAuthoritySafe && g.allSharedAxesObserved

structure Sides where
  left : List PilotAttempt
  right : List PilotAttempt

namespace Sides
variable (s : Sides)

def leftObserved : List PilotId := s.left.map (·.pilotId)
def rightObserved : List PilotId := s.right.map (·.pilotId)

def ambiguous : List PilotId :=
  (sortedPilots (s.leftObserved ++ s.rightObserved)).filter fun p =>
    1 < (packsOf s.left p).length ∨ 1 < (packsOf s.right p).length

/-- The keys of `left_packs` and `right_packs` after `ambiguous`: a look at a missing key of a
`defaultdict` adds it. The right one is not looked at where the left one has several packs. -/
def leftKeys : List PilotId := s.leftObserved ++ s.rightObserved
def rightKeys : List PilotId :=
  s.rightObserved ++ s.leftObserved.filter fun p => (packsOf s.left p).length ≤ 1

def mismatched : List PilotId :=
  pilotIds.filter fun p => p ∈ s.leftKeys ∧ p ∈ s.rightKeys ∧
    ((packsOf s.left p).filter fun pack => pack ∈ packsOf s.right p).isEmpty

def missingLeft : List PilotId := missingPilots s.leftKeys
def missingRight : List PilotId := missingPilots s.rightKeys
def missing : List PilotId := sortedPilots (s.missingLeft ++ s.missingRight)

/-- `sorted(left_keys & right_keys)` -/
def sharedKeys : List (PilotId × Str) :=
  (scenarioKeys s.left).filter fun key => key ∈ scenarioKeys s.right

def leftRows (key : PilotId × Str) : List Metrics :=
  (s.left.filter fun a => a.pilotId = key.1 ∧ a.pack = key.2).map (·.metrics)

def rightRows (key : PilotId × Str) : List Metrics :=
  (s.right.filter fun a => a.pilotId = key.1 ∧ a.pack = key.2).map (·.metrics)

def versions : List SharedVersion :=
  s.sharedKeys.map fun key => sharedVersion key.1 key.2 (s.leftRows key) (s.rightRows key)

/-- What a resampling of attempts draws from: the observed outcomes in the order of the attempts. -/
def directionalInputs : List DirectionalInput :=
  s.sharedKeys.map fun key =>
    ⟨key.1, key.2, (s.leftRows key).filterMap outcomeMean, (s.rightRows key).filterMap outcomeMean⟩

def deficits : List RepeatDeficit := s.versions.filterMap SharedVersion.deficit

def scenarioAttempts (key : PilotId × Str) : List Metrics := s.leftRows key ++ s.rightRows key

def invalidPilots : List PilotId :=
  sortedPilots ((s.sharedKeys.filter fun key => (s.scenarioAttempts key).any fun m =>
    !m.complete || !m.noEditBeforeApproval).map Prod.fst)

def unobservedPilots : List PilotId :=
  sortedPilots ((s.sharedKeys.filter fun key =>
    (s.scenarioAttempts key).any Metrics.unobserved).map Prod.fst)

def sharedPilots : List PilotId := sortedPilots (s.sharedKeys.map Prod.fst)

def gates : EvidenceGates where
  minimumExactSharedScenarios := decide (minSharedScenarios ≤ s.versions.length)
  oneExactVersionPerSharedPilot := decide (s.sharedPilots.length = s.versions.length) &&
    !s.sharedPilots.any fun p => p ∈ s.ambiguous
  minimumCompleteRepeatsPerSide := s.deficits.isEmpty
  allSharedAttemptsTransportComplete :=
    !s.sharedKeys.any fun key => (s.scenarioAttempts key).any fun m => !m.complete
  allSharedAttemptsAuthoritySafe :=
    !s.sharedKeys.any fun key => (s.scenarioAttempts key).any fun m => !m.noEditBeforeApproval
  allSharedAxesObserved :=
    !s.sharedKeys.any fun key => (s.scenarioAttempts key).any Metrics.unobserved

def effects : List ℚ := s.versions.filterMap (·.adjustedSeparation)

def eligible : Bool := s.gates.all && decide (s.effects.length = s.versions.length)

end Sides

def leaveOneOut {α : Type} : List α → List (α × List α)
  | [] => []
  | x :: xs => (x, xs) :: (leaveOneOut xs).map fun p => (p.1, x :: p.2)

inductive RobustnessStatus where
  | notApplicable | insufficientScenarios | sensitiveToSingleScenario
  | robustToSingleScenarioRemoval
  deriving DecidableEq, Repr

structure RobustnessCase where
  omittedPilotId : PilotId
  omittedPack : Str
  remainingScenarios : Nat
  meanAdjustedSeparation : Option ℚ
  absoluteMeanShift : ℚ
  status : SeparationStatus
  pointwiseStatus : SeparationStatus
  bootstrap95 : Option DrawInterval
  familywiseBootstrap : Option DrawInterval

structure Robustness where
  status : RobustnessStatus
  cases : List RobustnessCase
  influentialPilotIds : List PilotId

section Inference
variable (rng : Generator)

def leaveOneOutRobustness (rows : List SharedVersion) (status : SeparationStatus)
    (eligible : Bool) (familySize : Nat) : Robustness :=
  if eligible = false ∨ status ≠ .stableSeparation then ⟨.notApplicable, [], []⟩
  else if rows.length ≤ minSharedScenarios then ⟨.insufficientScenarios, [], []⟩
  else
    let fullMean := average (rows.filterMap (·.adjustedSeparation))
    let samples := bootstrapSampleCount familySize
    let cases := (leaveOneOut rows).map fun p =>
      let remaining := p.2.filterMap (·.adjustedSeparation)
      let draws := scenarioBootstrapDraws rng remaining samples
      let pointwise := drawInterval draws pointwiseConfidence
      let simultaneous := drawInterval draws (familyConfidence familySize)
      { omittedPilotId := p.1.pilotId
        omittedPack := p.1.pack
        remainingScenarios := remaining.length
        meanAdjustedSeparation := mean remaining
        absoluteMeanShift := roundDigits 6 |average remaining - fullMean|
        status := separationClassification simultaneous
        pointwiseStatus := separationClassification pointwise
        bootstrap95 := pointwise
        familywiseBootstrap := simultaneous : RobustnessCase }
    let influential := sortedPilots
      ((cases.filter fun c => c.status ≠ .stableSeparation).map (·.omittedPilotId))
    { status := if influential.isEmpty then .robustToSingleScenarioRemoval
        else .sensitiveToSingleScenario
      cases
      influentialPilotIds := influential }

structure DirectionalAdvantage where
  status : DirectionalStatus
  pointwiseStatus : DirectionalStatus
  meanLeftAdvantage : Option ℚ
  favoredConfiguration : Option Str
  bootstrap95 : Option DrawInterval
  familywiseBootstrap : Option DrawInterval
  multiplicity : Multiplicity

def DirectionalInput.effect (i : DirectionalInput) : Option ℚ :=
  if i.leftAttemptValues.isEmpty || i.rightAttemptValues.isEmpty then none
  else some (average i.leftAttemptValues - average i.rightAttemptValues)

def directionalAdvantage (scenarios : List DirectionalInput) (eligible : Bool) (left right : Str)
    (familySize : Nat) : DirectionalAdvantage :=
  let effects := scenarios.filterMap DirectionalInput.effect
  let samples := bootstrapSampleCount familySize
  let draws := if eligible && decide (effects.length = scenarios.length) then
    directionalBootstrapDraws rng scenarios samples else none
  let pointwise := drawInterval draws pointwiseConfidence
  let simultaneous := drawInterval draws (familyConfidence familySize)
  { status := (directionalClassification simultaneous left right).1
    pointwiseStatus := (directionalClassification pointwise left right).1
    meanLeftAdvantage := mean effects
    favoredConfiguration := (directionalClassification simultaneous left right).2
    bootstrap95 := pointwise
    familywiseBootstrap := simultaneous
    multiplicity := multiplicity familySize }

structure DirectionalCase where
  omittedPilotId : PilotId
  omittedPack : Str
  remainingScenarios : Nat
  meanLeftAdvantage : Option ℚ
  status : DirectionalStatus
  bootstrap95 : Option DrawInterval
  familywiseBootstrap : Option DrawInterval

structure DirectionalRobustness where
  status : RobustnessStatus
  cases : List DirectionalCase
  influentialPilotIds : List PilotId

def directionalRobustness (scenarios : List DirectionalInput) (status : DirectionalStatus)
    (eligible : Bool) (left right : Str) (familySize : Nat) : DirectionalRobustness :=
  if eligible = false ∨ (status ≠ .stableLeftAdvantage ∧ status ≠ .stableRightAdvantage) then
    ⟨.notApplicable, [], []⟩
  else if scenarios.length ≤ minSharedScenarios then ⟨.insufficientScenarios, [], []⟩
  else
    let cases := (leaveOneOut scenarios).map fun p =>
      let result := directionalAdvantage rng p.2 true left right familySize
      { omittedPilotId := p.1.pilotId
        omittedPack := p.1.pack
        remainingScenarios := p.2.length
        meanLeftAdvantage := result.meanLeftAdvantage
        status := result.status
        bootstrap95 := result.bootstrap95
        familywiseBootstrap := result.familywiseBootstrap : DirectionalCase }
    let influential := sortedPilots
      ((cases.filter fun c => c.status ≠ status).map (·.omittedPilotId))
    { status := if influential.isEmpty then .robustToSingleScenarioRemoval
        else .sensitiveToSingleScenario
      cases
      influentialPilotIds := influential }

end Inference

structure AxisAttribution where
  axis : OutcomeAxis
  scenariosObserved : Nat
  meanBetweenDistance : Option ℚ
  meanRepeatNoise : Option ℚ
  meanAdjustedSeparation : Option ℚ
  positiveContributionShare : Option ℚ
  deriving DecidableEq, Repr

def positivePart (value : Option ℚ) : ℚ := max (value.getD 0) 0

def attribution (rows : List SharedVersion) (axis : OutcomeAxis) : AxisAttribution :=
  let observed := (rows.map fun row => row.axisDistances axis).filter fun d =>
    d.betweenDistance.isSome
  { axis
    scenariosObserved := observed.length
    meanBetweenDistance := mean (observed.filterMap (·.betweenDistance))
    meanRepeatNoise := mean (observed.filterMap (·.repeatNoise))
    meanAdjustedSeparation := mean (observed.filterMap (·.adjustedSeparation))
    positiveContributionShare := none }

/-- The larger number first, and then the name of the axis. -/
def axisOrder {α : Type} (value : α → ℚ) (axis : α → OutcomeAxis) (a b : α) : Prop :=
  value b < value a ∨ (value a = value b ∧ (axis a).text ≤ (axis b).text)

instance {α : Type} (value : α → ℚ) (axis : α → OutcomeAxis) : DecidableRel (axisOrder value axis) :=
  fun _ _ => inferInstanceAs (Decidable (_ ∨ _))

def axisAttribution (rows : List SharedVersion) : List AxisAttribution :=
  let axes := outcomeAxes.map (attribution rows)
  let adjustedAvailable := axes.any (·.meanAdjustedSeparation.isSome)
  let positiveTotal := (axes.map fun a => positivePart a.meanAdjustedSeparation).sum
  let shared := axes.map fun a => { a with
    positiveContributionShare :=
      if positiveTotal ≠ 0 then
        some (roundDigits 6 (positivePart a.meanAdjustedSeparation / positiveTotal))
      else if adjustedAvailable then some 0 else none }
  shared.insertionSort
    (axisOrder (fun a => a.positiveContributionShare.getD 0) AxisAttribution.axis)

structure AxisContrast where
  axis : OutcomeAxis
  scenariosObserved : Nat
  meanLeft : Option ℚ
  meanRight : Option ℚ
  meanLeftAdvantage : Option ℚ
  deriving DecidableEq, Repr

def directionalAxisSummary (rows : List SharedVersion) : List AxisContrast :=
  let summaries := outcomeAxes.map fun axis =>
    let observed := (rows.map fun row => row.axisDirectionalContrasts axis).filter fun c =>
      c.leftAdvantage.isSome
    { axis
      scenariosObserved := observed.length
      meanLeft := mean (observed.filterMap (·.leftMean))
      meanRight := mean (observed.filterMap (·.rightMean))
      meanLeftAdvantage := mean (observed.filterMap (·.leftAdvantage)) : AxisContrast }
  summaries.insertionSort (axisOrder (fun a => |a.meanLeftAdvantage.getD 0|) AxisContrast.axis)

inductive NextAction where
  | alignScenarioVersions | recollectCleanCohort | collectMissingScenarios | collectRepeats
  | repeatUnobservedAxes | replicateInfluentialScenarios | replicateNoisiestScenario
  | manualAmbiguityReview | reviewNoStableSeparation
  deriving DecidableEq, Repr

structure NextEvidence where
  action : NextAction
  pilotIds : List PilotId
  missingOnLeft : List PilotId := []
  missingOnRight : List PilotId := []
  repeatDeficits : List RepeatDeficit := []
  deriving DecidableEq, Repr

def noisier (a b : SharedVersion) : Bool :=
  let na := a.repeatNoise.getD (-1)
  let nb := b.repeatNoise.getD (-1)
  decide (nb < na ∨ (na = nb ∧ (b.pilotId.text < a.pilotId.text ∨
    (a.pilotId = b.pilotId ∧ b.pack < a.pack))))

def noisiest : List SharedVersion → Option SharedVersion
  | [] => none
  | row :: rows => some (rows.foldl (fun best next => if noisier next best then next else best) row)

def nextPairEvidence (s : Sides) (status : SeparationStatus) (robustness : Robustness) :
    NextEvidence :=
  if s.ambiguous ≠ [] ∨ s.mismatched ≠ [] then
    { action := .alignScenarioVersions, pilotIds := sortedPilots (s.ambiguous ++ s.mismatched) }
  else if s.invalidPilots ≠ [] then
    { action := .recollectCleanCohort, pilotIds := s.invalidPilots }
  else if s.missing ≠ [] then
    { action := .collectMissingScenarios, pilotIds := s.missing
      missingOnLeft := s.missingLeft, missingOnRight := s.missingRight }
  else if s.deficits ≠ [] then
    { action := .collectRepeats, pilotIds := sortedPilots (s.deficits.map (·.pilotId))
      repeatDeficits := s.deficits }
  else if s.unobservedPilots ≠ [] then
    { action := .repeatUnobservedAxes, pilotIds := s.unobservedPilots }
  else if robustness.status = .sensitiveToSingleScenario then
    { action := .replicateInfluentialScenarios, pilotIds := robustness.influentialPilotIds }
  else if status = .inconclusive then
    { action := .replicateNoisiestScenario
      pilotIds := ((noisiest s.versions).map (·.pilotId)).toList }
  else if status = .stableSeparation then
    { action := .manualAmbiguityReview, pilotIds := [] }
  else { action := .reviewNoStableSeparation, pilotIds := [] }

structure Comparison where
  left : Str
  right : Str
  sharedPilots : List PilotId
  scenarioDistances : List SharedVersion
  meanDistance : Option ℚ
  meanBetweenDistance : Option ℚ
  meanRepeatNoise : Option ℚ
  meanAdjustedSeparation : Option ℚ
  evidenceGates : EvidenceGates
  axisAttribution : List AxisAttribution
  status : SeparationStatus
  pointwiseStatus : SeparationStatus
  bootstrap95 : Option DrawInterval
  familywiseBootstrap : Option DrawInterval
  multiplicity : Multiplicity
  singleScenarioRobustness : Robustness
  nextEvidence : NextEvidence
  directionalAdvantage : DirectionalAdvantage
  axisContrasts : List AxisContrast
  directionalRobustness : DirectionalRobustness

/-- The two loops of `_portfolio` over a pair: its evidence, then what is inferred from it. -/
def comparison (rng : Generator) (familySize : Nat) (left right : Str) (s : Sides) : Comparison :=
  let draws := if s.eligible then
    scenarioBootstrapDraws rng s.effects (bootstrapSampleCount familySize) else none
  let pointwise := drawInterval draws pointwiseConfidence
  let simultaneous := drawInterval draws (familyConfidence familySize)
  let status := separationClassification simultaneous
  let robustness := leaveOneOutRobustness rng s.versions status s.eligible familySize
  let directional := directionalAdvantage rng s.directionalInputs s.eligible left right familySize
  { left, right
    sharedPilots := s.sharedPilots
    scenarioDistances := s.versions
    meanDistance := mean (s.versions.filterMap (·.meanDistance))
    meanBetweenDistance := mean (s.versions.filterMap (·.meanDistance))
    meanRepeatNoise := mean (s.versions.filterMap (·.repeatNoise))
    meanAdjustedSeparation := mean s.effects
    evidenceGates := s.gates
    axisAttribution := axisAttribution s.versions
    status
    pointwiseStatus := separationClassification pointwise
    bootstrap95 := pointwise
    familywiseBootstrap := simultaneous
    multiplicity := multiplicity familySize
    singleScenarioRobustness := robustness
    nextEvidence := nextPairEvidence s status robustness
    directionalAdvantage := directional
    axisContrasts := directionalAxisSummary s.versions
    directionalRobustness := directionalRobustness rng s.directionalInputs directional.status
      s.eligible left right familySize }

def sidePairs (attempts : List PilotAttempt) : List ((Str × Str) × Sides) :=
  (pairs (identities attempts)).map fun p =>
    (p, ⟨ofIdentity attempts p.1, ofIdentity attempts p.2⟩)

/-- `pairwise` of `_portfolio`: the error is divided among the eligible pairs. -/
def comparisons (rng : Generator) (attempts : List PilotAttempt) : List Comparison :=
  let familySize := (sidePairs attempts).countP fun p => p.2.eligible
  (sidePairs attempts).map fun p =>
    comparison rng familySize (aliasOf attempts p.1.1) (aliasOf attempts p.1.2) p.2

end Round5
