import LlmHardtest.Library.Quantiles
import LlmHardtest.Round5.Outcomes
set_option autoImplicit false

/-! Resampling of scenario effects: draws of a seeded generator, their intervals, and the verdicts
that are read off an interval. -/

namespace Round5
open Python Binary64

def minSharedScenarios : Nat := 3
def minCompleteRepeats : Nat := 2
def minAdjustedSeparation : ℚ := 1 / 20
def minDirectionalAdvantage : ℚ := 1 / 20
def familywiseAlpha : ℚ := 1 / 20
def bootstrapSamples : Nat := 5000
def minExpectedFamilywiseTailDraws : Nat := 100

/-- `random.Random`: a state for each seed, and the choice of an index below a positive bound. -/
structure Generator where
  State : Type
  seed : Nat → State
  below : Nat → State → Nat × State
  below_lt : ∀ (n : Nat) (s : State), 0 < n → (below n s).1 < n

section Draws
variable (rng : Generator)

def choice {α : Type} [Inhabited α] (values : List α) (s : rng.State) : α × rng.State :=
  (values.getD (rng.below values.length s).1 default, (rng.below values.length s).2)

/-- `[step() for _ in range(n)]` -/
def repeated {β : Type} (step : rng.State → β × rng.State) : Nat → rng.State → List β × rng.State
  | 0, s => ([], s)
  | n + 1, s =>
      let (b, s) := step s
      let (bs, s) := repeated step n s
      (b :: bs, s)

def resampledMean (values : List ℚ) (s : rng.State) : ℚ × rng.State :=
  let (chosen, s) := repeated rng (choice rng values) values.length s
  (nearest (average chosen), s)

def scenarioBootstrapDraws (values : List ℚ) (samples : Nat) : Option (List ℚ) :=
  if values.length < minSharedScenarios then none
  else some (repeated rng (resampledMean rng values) samples (rng.seed 730031)).1

structure DirectionalInput where
  pilotId : PilotId
  pack : Str
  leftAttemptValues : List ℚ
  rightAttemptValues : List ℚ
  deriving DecidableEq, Repr

instance : Inhabited DirectionalInput := ⟨⟨.q32RetryCompatibility, [], [], []⟩⟩

def resampledEffect (scenarios : List DirectionalInput) (s : rng.State) : ℚ × rng.State :=
  let (scenario, s) := choice rng scenarios s
  let (leftMean, s) := resampledMean rng scenario.leftAttemptValues s
  let (rightMean, s) := resampledMean rng scenario.rightAttemptValues s
  (nearest (leftMean - rightMean), s)

def directionalBootstrapDraws (scenarios : List DirectionalInput) (samples : Nat) :
    Option (List ℚ) :=
  if scenarios.length < minSharedScenarios then none
  else some (repeated rng (fun s =>
    let (effects, s) := repeated rng (resampledEffect rng scenarios) scenarios.length s
    (nearest (average effects), s)) samples (rng.seed 730032)).1

end Draws

/-- `_percentile` of draws, each operation rounded. -/
def drawPercentile (values : List ℚ) (quantile : ℚ) : ℚ :=
  let ordered := values.insertionSort (· ≤ ·)
  let position := nearest (nearest (ordered.length - 1 : ℚ) * quantile)
  let lower := ⌊position⌋.toNat
  let upper := min (lower + 1) (ordered.length - 1)
  let weight := nearest (position - lower)
  -- from 2 ^ 53 draws on a place can be rounded past the last one, which then stands for it
  nearest (nearest (ordered.getD lower (ordered.getLastD 0) * nearest (1 - weight)) +
    nearest (ordered.getD upper 0 * weight))

def bootstrapSampleCount (familySize : Nat) : Nat :=
  let divisor := max 1 familySize
  let required :=
    ⌈nearest (2 * divisor * minExpectedFamilywiseTailDraws / nearest familywiseAlpha)⌉.toNat
  max bootstrapSamples required

structure Resolution where
  tailProbability : ℚ
  expectedDrawsPerTail : ℚ
  deriving DecidableEq, Repr

def bootstrapResolution (samples : Nat) (confidence : ℚ) : Resolution :=
  let tailProbability := nearest (nearest (1 - confidence) / 2)
  ⟨roundDigits 12 tailProbability, roundDigits 6 (nearest (samples * tailProbability))⟩

structure DrawInterval where
  confidence : ℚ
  samples : Nat
  monteCarloResolution : Resolution
  lower : ℚ
  upper : ℚ
  deriving DecidableEq, Repr

/-- `_scenario_interval` and `_directional_interval`, for a confidence between 0 and 1. -/
def drawInterval (draws : Option (List ℚ)) (confidence : ℚ) : Option DrawInterval :=
  draws.map fun draws =>
    let alpha := nearest (1 - confidence)
    { confidence := roundDigits 12 confidence
      samples := draws.length
      monteCarloResolution := bootstrapResolution draws.length confidence
      lower := roundDigits 6 (drawPercentile draws (nearest (alpha / 2)))
      upper := roundDigits 6 (drawPercentile draws (nearest (1 - nearest (alpha / 2)))) }

inductive SeparationStatus where
  | insufficientEvidence | stableSeparation | noStableSeparation | inconclusive
  deriving DecidableEq, Repr

def separationClassification (interval : Option DrawInterval) : SeparationStatus :=
  match interval with
  | none => .insufficientEvidence
  | some i =>
      if minAdjustedSeparation < i.lower then .stableSeparation
      else if i.upper ≤ minAdjustedSeparation then .noStableSeparation
      else .inconclusive

inductive DirectionalStatus where
  | insufficientEvidence | stableLeftAdvantage | stableRightAdvantage | noMaterialAdvantage
  | inconclusive
  deriving DecidableEq, Repr

def directionalClassification (interval : Option DrawInterval) (left right : Str) :
    DirectionalStatus × Option Str :=
  match interval with
  | none => (.insufficientEvidence, none)
  | some i =>
      if minDirectionalAdvantage < i.lower then (.stableLeftAdvantage, some left)
      else if i.upper < -minDirectionalAdvantage then (.stableRightAdvantage, some right)
      else if -minDirectionalAdvantage ≤ i.lower ∧ i.upper ≤ minDirectionalAdvantage then
        (.noMaterialAdvantage, none)
      else (.inconclusive, none)

def pointwiseConfidence : ℚ := nearest (19 / 20)

/-- The confidence of each comparison when the family's error is divided among them. -/
def familyConfidence (familySize : Nat) : ℚ :=
  nearest (1 - nearest (nearest familywiseAlpha / (max 1 familySize : Nat)))

structure Multiplicity where
  eligibleComparisons : Nat
  adjustmentDivisor : Nat
  simultaneousConfidence : Option ℚ
  bootstrapSamples : Option Nat
  expectedFamilywiseTailDraws : Option ℚ
  deriving DecidableEq, Repr

def multiplicity (familySize : Nat) : Multiplicity :=
  let samples := bootstrapSampleCount familySize
  { eligibleComparisons := familySize
    adjustmentDivisor := max 1 familySize
    simultaneousConfidence :=
      if familySize = 0 then none else some (roundDigits 12 (familyConfidence familySize))
    bootstrapSamples := if familySize = 0 then none else some samples
    expectedFamilywiseTailDraws :=
      if familySize = 0 then none
      else some (roundDigits 6 (nearest
        (nearest (samples * nearest familywiseAlpha) / (2 * familySize)))) }

section Percentile
open Quantiles
variable {values : List ℚ} {p q : ℚ}

theorem getD_last (values : List ℚ) (i : Nat) : (values.insertionSort (· ≤ ·)).getD i
    ((values.insertionSort (· ≤ ·)).getLastD 0) = orderStatistic values i := by
  rcases Nat.lt_or_ge i values.length with hi | hi
  · have hin : i < (values.insertionSort (· ≤ ·)).length := by rwa [List.length_insertionSort]
    rw [orderStatistic, min_eq_left (by omega), List.getD_eq_getElem _ _ hin,
      List.getD_eq_getElem _ _ hin]
  · rw [orderStatistic, min_eq_right (by omega), List.getD_eq_default _ _ (by simpa using hi),
      List.getLastD_eq_getLast?, List.getLast?_eq_getElem?, List.length_insertionSort,
      List.getD_eq_getElem?_getD]

theorem drawPercentile_eq : drawPercentile values q =
    floatInterpolate (orderStatistic values) (nearest (nearest ((values.length : ℚ) - 1) * q)) := by
  simp only [drawPercentile, List.length_insertionSort, Int.floor_toNat, floatInterpolate, getD_last]
  rfl

/-- Draws of a unit range: the interpolated percentile does not decrease but for its rounding. -/
theorem drawPercentile_lt (hbound : ∀ v ∈ values, |v| ≤ 1) (hp : 0 ≤ p) (hpq : p ≤ q) :
    drawPercentile values p < drawPercentile values q + 1 / 10 ^ 6 := by
  by_cases hempty : values = []
  · have hzero : ∀ x, floatInterpolate (orderStatistic values) x = 0 := by
      simp [hempty, floatInterpolate, orderStatistic]
    rw [drawPercentile_eq, drawPercentile_eq, hzero, hzero]
    norm_num
  · have hone : (1 : ℚ) ≤ values.length := by exact_mod_cast List.length_pos_iff.mpr hempty
    have hlength : 0 ≤ nearest ((values.length : ℚ) - 1) := nearest_nonneg (by linarith)
    have hplace := nearest_mono (mul_le_mul_of_nonneg_left hpq hlength)
    have hle := floatInterpolate_le (orderStatistic_mono values)
      (orderStatistic_induction (by simp) hbound) (nearest_nonneg (mul_nonneg hlength hp)) hplace
    rw [← drawPercentile_eq, ← drawPercentile_eq] at hle
    have hsmall : (1 : ℚ) / 2 ^ 49 < 1 / 10 ^ 6 := by norm_num
    linarith

theorem drawPercentile_replicate {n : Nat} (hn : 0 < n) {x : ℚ} (hx : |x| ≤ 1) (hq : 0 ≤ q) :
    |drawPercentile (List.replicate n x) q - x| ≤ 1 / 2 ^ 50 := by
  have hsorted : (List.replicate n x).insertionSort (· ≤ ·) = List.replicate n x :=
    List.Pairwise.insertionSort_eq (List.pairwise_replicate.mpr (.inr le_rfl))
  have hconstant : orderStatistic (List.replicate n x) = fun _ => x := by
    funext i
    have hlt : min i (n - 1) < n := by omega
    simp [orderStatistic, hsorted, List.getD_eq_getElem?_getD, hlt]
  have hone : (1 : ℚ) ≤ n := by exact_mod_cast hn
  have hplace : 0 ≤ nearest (nearest (((List.replicate n x).length : ℚ) - 1) * q) := by
    rw [List.length_replicate]
    exact nearest_nonneg (mul_nonneg (nearest_nonneg (by linarith)) hq)
  have herror := floatInterpolate_error (f := fun _ => x) (fun _ => hx) hplace
  rw [drawPercentile_eq, hconstant]
  rwa [interpolate, ← mul_add, sub_add_cancel, mul_one] at herror

end Percentile

end Round5
