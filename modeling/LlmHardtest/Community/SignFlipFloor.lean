import LlmHardtest.Community.PairedComparison
import LlmHardtest.Community.Rates
set_option autoImplicit false

/-! The least p-value that the sign-flip test can have, and what comparisons that cannot reach the
level report. -/

namespace Community
open Python
open Round5 (require average)

def isLarge (effects : List ℚ) (e : ℚ) : Bool := decide (nonzeroTolerance effects < |e|)

/-- Other signs of the effects within the tolerance, however many of them change, leave the size of
the mean at least at the observed one, up to the tolerance of the test. -/
def QuietSmallEffects (effects : List ℚ) : Prop :=
  ∀ s ∈ SignFlips.smallFlips (isLarge effects) effects,
    |average effects| ≤ |s / effects.length| + signFlipAbsoluteTolerance

section Test
variable {sampler : HashSampler} {effects : List ℚ} {seed : Str} {t : SignFlipTest}

theorem quiet_of_sum_le (hne : effects ≠ [])
    (h : ((effects.filter fun e => !isLarge effects e).map abs).sum ≤ nonzeroTolerance effects) :
    QuietSmallEffects effects := by
  intro s hs
  have hlen : (0 : ℚ) < effects.length := by
    exact_mod_cast List.length_pos_iff.mpr hne
  have hmove := SignFlips.abs_sub_smallFlips (isLarge effects) hs
  rw [nsmul_eq_mul, Nat.cast_ofNat] at hmove
  have htol : 2 * nonzeroTolerance effects = signFlipAbsoluteTolerance * effects.length := by
    unfold nonzeroTolerance
    ring
  have hsum : |effects.sum| ≤ |s| + signFlipAbsoluteTolerance * effects.length := by
    have htri : |effects.sum| ≤ |s| + |s - effects.sum| := by
      have hsplit : effects.sum = s - (s - effects.sum) := by ring
      rw [hsplit]
      exact (abs_sub _ _).trans (by rw [sub_sub_cancel])
    linarith
  rw [average, abs_div, abs_div, Nat.abs_cast, div_le_iff₀ hlen, add_mul, div_mul_cancel₀ _ hlen.ne']
  exact hsum

def extremeSum (effects : List ℚ) (s : ℚ) : Bool :=
  decide (|average effects| ≤ |s / effects.length| + signFlipAbsoluteTolerance)

theorem extremeSum_neg (s : ℚ) : extremeSum effects (-s) = extremeSum effects s := by
  rw [extremeSum, neg_div, abs_neg, extremeSum]

theorem extremeMasks_eq :
    ((List.range (2 ^ effects.length)).countP fun mask =>
      isExtreme effects (SignFlips.signed effects mask)) =
    (SignFlips.flips effects).countP (extremeSum effects) := by
  rw [← SignFlips.sums_signed, List.countP_map]
  refine List.countP_congr fun mask _ => ?_
  have hlen : (SignFlips.signed effects mask).length = effects.length := List.length_mapIdx
  simp only [isExtreme, extremeSum, average, hlen, Function.comp]
  exact Iff.rfl

theorem signFlipTest_exact (hexact : 2 ^ effects.length ≤ signFlipExactLimit)
    (h : signFlipTest sampler effects seed = .ok t) :
    t.pValue = ceilP (((SignFlips.flips effects).countP (extremeSum effects) : ℕ) / 2 ^ effects.length) := by
  unfold signFlipTest at h
  split at h
  · cases h
  · simp only [if_pos hexact] at h
    cases h
    rw [extremeMasks_eq]
    norm_cast

theorem le_ceilP {a p : ℚ} (ha : a ≤ 1) (h : a ≤ p) : a ≤ ceilP p := by
  refine le_min ha (h.trans ?_)
  rw [le_div_iff₀ (by norm_num)]
  exact Int.le_ceil _

theorem ceilP_lt_one {p : ℚ} (h : p ≤ 1 - 1 / 100000000) : ceilP p < 1 := by
  have hceil : ⌈p * 100000000⌉ ≤ 99999999 := by
    rw [Int.ceil_le]
    push_cast
    linarith
  have hcast : (⌈p * 100000000⌉ : ℚ) ≤ 99999999 := by exact_mod_cast hceil
  refine (min_le_right _ _).trans_lt ?_
  rw [div_lt_one (by norm_num)]
  linarith

theorem countP_small : (effects.countP fun e => !isLarge effects e) =
    effects.length - effects.countP (isLarge effects) := by
  have hneg : (effects.countP fun e => !isLarge effects e) =
      effects.countP fun e => decide ¬isLarge effects e = true :=
    List.countP_congr fun e _ => by simp
  have h := List.length_eq_countP_add_countP (isLarge effects) (l := effects)
  omega

/-- The floor of quiet effects, as a share of all choices of signs. -/
theorem rawPFloor_le_share (h : QuietSmallEffects effects) :
    rawPFloor (effects.countP (isLarge effects)) ≤
      ((SignFlips.flips effects).countP (extremeSum effects) : ℕ) / 2 ^ effects.length := by
  have hcount : min (2 ^ effects.length) (2 * 2 ^ effects.countP fun e => !isLarge effects e) ≤
      (SignFlips.flips effects).countP (extremeSum effects) :=
    SignFlips.le_countP_flips (isLarge effects) extremeSum_neg fun s hs => decide_eq_true (h s hs)
  have hk : effects.countP (isLarge effects) ≤ effects.length := List.countP_le_length
  have hpow : (2 : ℚ) ^ effects.length =
      2 ^ (effects.length - effects.countP (isLarge effects)) * 2 ^ effects.countP (isLarge effects) := by
    rw [← pow_add, Nat.sub_add_cancel hk]
  rw [countP_small] at hcount
  rw [le_div_iff₀ (by positivity)]
  have hcast : min ((2 : ℚ) ^ effects.length)
      (2 * 2 ^ (effects.length - effects.countP (isLarge effects))) ≤
        ((SignFlips.flips effects).countP (extremeSum effects) : ℕ) := by
    exact_mod_cast hcount
  refine le_trans (le_of_eq ?_) hcast
  rw [rawPFloor, min_mul_of_nonneg _ _ (by positivity), one_mul]
  congr 1
  rw [hpow]
  field_simp

theorem rawPFloor_le (hexact : 2 ^ effects.length ≤ signFlipExactLimit) (hquiet : QuietSmallEffects effects)
    (h : signFlipTest sampler effects seed = .ok t) :
    rawPFloor (effects.countP (isLarge effects)) ≤ t.pValue := by
  rw [signFlipTest_exact hexact h]
  exact le_ceilP (min_le_left _ _) (rawPFloor_le_share hquiet)

theorem quiet_of_rawPFloor_le (hexact : 2 ^ effects.length ≤ signFlipExactLimit)
    (hsmall : ∀ e ∈ effects, isLarge effects e = false)
    (h : signFlipTest sampler effects seed = .ok t)
    (hfloor : rawPFloor (effects.countP (isLarge effects)) ≤ t.pValue) : QuietSmallEffects effects := by
  have hnone : effects.countP (isLarge effects) = 0 :=
    List.countP_eq_zero.mpr fun e he => by simp [hsmall e he]
  have hone : rawPFloor 0 = 1 := by norm_num [rawPFloor]
  rw [hnone, hone, signFlipTest_exact hexact h] at hfloor
  intro s hs
  by_contra hfar
  have hmem : s ∈ SignFlips.flips effects := (SignFlips.smallFlips_subperm _ _).subset hs
  have hlt : (SignFlips.flips effects).countP (extremeSum effects) < 2 ^ effects.length := by
    rw [← SignFlips.length_flips]
    refine lt_of_le_of_ne List.countP_le_length fun hall => ?_
    exact hfar (of_decide_eq_true (List.countP_eq_length.mp hall s hmem))
  refine absurd hfloor (not_le.mpr (ceilP_lt_one ?_))
  have hpos : (0 : ℚ) < 2 ^ effects.length := by positivity
  have hle : (((SignFlips.flips effects).countP (extremeSum effects) : ℕ) : ℚ) ≤ 2 ^ effects.length - 1 := by
    have hnat : (SignFlips.flips effects).countP (extremeSum effects) + 1 ≤ 2 ^ effects.length := hlt
    have hcast : (((SignFlips.flips effects).countP (extremeSum effects) : ℕ) : ℚ) + 1 ≤
        2 ^ effects.length := by exact_mod_cast hnat
    linarith
  have hlimit : (2 : ℚ) ^ effects.length ≤ 65536 := by exact_mod_cast hexact
  rw [div_le_iff₀ hpos]
  linarith

end Test

/-! Holm's adjustment. -/

section Holm
variable {familySize : Nat}

theorem familywiseAlpha_rounded : roundDigits 8 familywiseAlpha = familywiseAlpha := by
  decide +kernel

theorem holmSteps_ge {previous : ℚ} {rank : Nat} {l : List (Objective × ℚ)}
    (h : familywiseAlpha ≤ previous) :
    ∀ e ∈ holmSteps familySize previous rank l, familywiseAlpha ≤ e.2 := by
  induction l generalizing previous rank with
  | nil => simp [holmSteps]
  | cons tested rest ih =>
    have hle := h.trans (le_max_left previous (min 1 (tested.2 * ((familySize : ℚ) - rank + 1))))
    intro e he
    cases he with
    | head =>
      rw [← familywiseAlpha_rounded]
      exact roundDigits_mono 8 hle
    | tail _ he => exact ih hle e he

/-- When no p-value reaches the level at the strictest rank, no adjusted one does. -/
theorem holm_ge {l : List (Objective × ℚ)} (h : ∀ e ∈ l, familywiseAlpha ≤ e.2 * familySize) :
    ∀ e ∈ holmSteps familySize 0 1 l, familywiseAlpha ≤ e.2 := by
  cases l with
  | nil => simp [holmSteps]
  | cons tested rest =>
    have hone : familywiseAlpha ≤ 1 := by norm_num [familywiseAlpha]
    have hfirst : familywiseAlpha ≤
        max 0 (min 1 (tested.2 * ((familySize : ℚ) - (1 : ℕ) + 1))) := by
      refine le_max_of_le_right (le_min hone ?_)
      rw [Nat.cast_one, sub_add_cancel]
      exact h tested (by simp)
    intro e he
    cases he with
    | head =>
      rw [← familywiseAlpha_rounded]
      exact roundDigits_mono 8 hfirst
    | tail _ he => exact holmSteps_ge hfirst e he

/-- A limited resolution means that the floor does not reach the level. -/
theorem floor_of_limited {effects : List ℚ}
    (h : (inferenceResolution effects familySize).status = .discretePLimit) :
    familywiseAlpha ≤ rawPFloor (effects.countP (isLarge effects)) * familySize := by
  simp only [inferenceResolution] at h
  split at h
  · cases h
  · rename_i hadditional
    unfold minimumNonzeroPairsForHolm at hadditional
    split at hadditional
    · omega
    · have hlt : effects.countP (isLarge effects) < Nat.find (resolution_reached familySize) := by
        have hsame : (effects.countP fun e => decide (nonzeroTolerance effects < |e|)) =
            effects.countP (isLarge effects) := rfl
        omega
      exact not_not.mp (Nat.find_min (resolution_reached familySize) hlt)

end Holm

/-! A whole comparison. -/

def ExactAndQuiet (c : CheckedComparison) (observations : List PairedObservation) : Prop :=
  ∀ pack, selectedComparisonPack c observations = some pack → ∀ o ∈ c.objectives,
    isTested (sharedPairs c (packRows c observations pack)) o = true →
      2 ^ (effectsOf o (sharedPairs c (packRows c observations pack))).length ≤ signFlipExactLimit ∧
        QuietSmallEffects (effectsOf o (sharedPairs c (packRows c observations pack)))

/-- Every objective that was tested has a limited resolution. -/
def AllLimited (r : Comparison) : Prop :=
  ∀ row ∈ r.objectivesResult, ∀ resolution, row.inferenceResolution = some resolution →
    resolution.status = .discretePLimit

/-- No adjusted p-value reaches the level, and nothing favors a side. -/
structure NoEvidence (r : Comparison) : Prop where
  pHolm : ∀ row ∈ r.objectivesResult, ∀ p, row.pHolm = some p → familywiseAlpha ≤ p
  status : r.status ∉ [.leftDirectionalEvidence, .rightDirectionalEvidence,
    .mixedDirectionalEvidence, .statisticalOnlyEvidence]

section Compare
variable {sampler : HashSampler} {c : CheckedComparison} {pack : Str}
variable {shared : List (PairedObservation × PairedObservation)} {familySize samples : Nat}

theorem objectiveRows_spec {rows : List ObjectiveRow}
    (h : objectiveRows sampler c pack shared familySize samples = .ok rows) :
    ∀ row ∈ rows, row.classification ∈ [.insufficient, .pending] ∧
      (row.pRaw = none ∧ row.inferenceResolution = none ∨
        ∃ o ∈ c.objectives, ∃ seed t, isTested shared o = true ∧
          signFlipTest sampler (effectsOf o shared) seed = .ok t ∧ row.pRaw = some t.pValue ∧
          row.inferenceResolution = some (inferenceResolution (effectsOf o shared) familySize)) := by
  intro row hrow
  obtain ⟨o, ho, hmade⟩ := (Outcome.mapM_mem h).2 row hrow
  simp only at hmade
  split at hmade
  · rename_i htested
    obtain ⟨t, ht, hmade⟩ := Failures.bind_eq_ok.mp hmade
    cases hmade
    exact ⟨by simp, .inr ⟨o, ho, _, t, htested, ht, rfl, rfl⟩⟩
  · cases hmade
    exact ⟨by simp [untestedRow], .inl ⟨rfl, rfl⟩⟩

theorem classifyRow_kept (row : ObjectiveRow) : (classifyRow row).pHolm = row.pHolm ∧
    (classifyRow row).inferenceResolution = row.inferenceResolution := by
  unfold classifyRow
  split <;> exact ⟨rfl, rfl⟩

theorem verdictOf_inconclusive {threshold p : ℚ} {interval : PointwiseInterval}
    {simultaneous : SimultaneousInterval} (h : familywiseAlpha ≤ p) :
    (verdictOf threshold p interval simultaneous).2 = .inconclusive := by
  have hno : decide (p < familywiseAlpha) = false := decide_eq_false (not_lt.mpr h)
  simp [verdictOf, hno]

theorem classifyRow_neutral {row : ObjectiveRow}
    (hclass : row.classification ∈ [.insufficient, .pending])
    (h : ∀ p, row.pHolm = some p → familywiseAlpha ≤ p) :
    (classifyRow row).classification ∈ [.insufficient, .pending, .inconclusive] := by
  unfold classifyRow
  split
  · rename_i p _ _ hp
    simp [verdictOf_inconclusive (h p hp)]
  · simp only [List.mem_cons, List.not_mem_nil, or_false] at hclass ⊢
    tauto

theorem comparisonStatus_neutral {tested : Nat} {rows : List ObjectiveRow}
    (h : ∀ row ∈ rows, row.classification ∈ [.insufficient, .pending, .inconclusive]) :
    comparisonStatus tested rows ∉ [.leftDirectionalEvidence, .rightDirectionalEvidence,
      .mixedDirectionalEvidence, .statisticalOnlyEvidence] := by
  have hnone : ∀ k : Classification, k ∉ [.insufficient, .pending, .inconclusive] →
      hasClassification rows k = false := by
    intro k hk
    refine List.any_eq_false.mpr fun row hrow => ?_
    simp only [decide_eq_true_eq]
    intro heq
    exact hk (heq ▸ h row hrow)
  have hleft := hnone .leftBetter (by decide)
  have hright := hnone .rightBetter (by decide)
  have hleftSmall := hnone .leftSmallEffect (by decide)
  have hrightSmall := hnone .rightSmallEffect (by decide)
  unfold comparisonStatus
  simp only [hleft, hright, hleftSmall, hrightSmall, Bool.false_and, Bool.or_self,
    Bool.false_eq_true, if_false]
  split
  · decide
  · split <;> decide

theorem compareShared_noEvidence {initial r : Comparison}
    (hquiet : ∀ o ∈ c.objectives, isTested shared o = true →
      2 ^ (effectsOf o shared).length ≤ signFlipExactLimit ∧ QuietSmallEffects (effectsOf o shared))
    (h : compareShared sampler c pack shared initial = .ok r) (hlimited : AllLimited r) :
    NoEvidence r := by
  unfold compareShared at h
  simp only at h
  obtain ⟨rows, hrows, h⟩ := Failures.bind_eq_ok.mp h
  obtain ⟨adjusted, hadjusted, h⟩ := Failures.bind_eq_ok.mp h
  cases h
  have hspec := objectiveRows_spec hrows
  unfold holmAdjust at hadjusted
  obtain ⟨_, hadjusted⟩ := Round5.require_bind.mp hadjusted
  cases hadjusted
  set family := c.familySize.getD (c.objectives.countP (isTested shared))
  set holm := holmSteps family 0 1 ((testedPValues rows).insertionSort holmLe)
  have hresolution : ∀ row ∈ rows, ∀ resolution, row.inferenceResolution = some resolution →
      resolution.status = .discretePLimit := by
    intro row hrow resolution hres
    refine hlimited (classifyRow { row with pHolm := holm.lookup row.objective }) ?_ resolution ?_
    · exact List.mem_map.mpr ⟨_, List.mem_map.mpr ⟨row, hrow, rfl⟩, rfl⟩
    · rw [(classifyRow_kept _).2]
      exact hres
  have hraw : ∀ e ∈ (testedPValues rows).insertionSort holmLe, familywiseAlpha ≤ e.2 * family := by
    intro e he
    rw [List.mem_insertionSort] at he
    obtain ⟨row, hrow, he⟩ := List.mem_filterMap.mp he
    obtain ⟨p, hp, rfl⟩ := Option.map_eq_some_iff.mp he
    rcases (hspec row hrow).2 with ⟨hnone, _⟩ | ⟨o, ho, seed, t, htested, ht, hpraw, hres⟩
    · rw [hnone] at hp
      cases hp
    · rw [hpraw] at hp
      cases hp
      obtain ⟨hexact, hq⟩ := hquiet o ho htested
      have hfloor := floor_of_limited (hresolution row hrow _ hres)
      exact hfloor.trans (mul_le_mul_of_nonneg_right (rawPFloor_le hexact hq ht) (by positivity))
  have hholm : ∀ row ∈ rows, ∀ p, holm.lookup row.objective = some p → familywiseAlpha ≤ p := by
    intro row _ p hp
    obtain ⟨before, after, hmem, _⟩ := List.lookup_eq_some_iff.mp hp
    have hin : (row.objective, p) ∈ holm := by rw [hmem]; simp
    exact holm_ge hraw _ hin
  refine ⟨fun row hrow p hp => ?_, comparisonStatus_neutral fun row hrow => ?_⟩
  · obtain ⟨_, hmid, rfl⟩ := List.mem_map.mp hrow
    obtain ⟨row, hin, rfl⟩ := List.mem_map.mp hmid
    rw [(classifyRow_kept _).1] at hp
    exact hholm row hin p hp
  · obtain ⟨_, hmid, rfl⟩ := List.mem_map.mp hrow
    obtain ⟨row, hin, rfl⟩ := List.mem_map.mp hmid
    exact classifyRow_neutral (hspec row hin).1 (hholm row hin)

theorem compareChecked_noEvidence {observations : List PairedObservation} {r : Comparison}
    (hquiet : ExactAndQuiet c observations) (h : compareChecked sampler c observations = .ok r)
    (hlimited : AllLimited r) : NoEvidence r := by
  have hempty : ∀ r' : Comparison, r'.objectivesResult = [] →
      r'.status ∈ [.noObservations, .packRequired, .noMatch] → NoEvidence r' := by
    intro r' hrows hstatus
    refine ⟨by simp [hrows], ?_⟩
    simp only [List.mem_cons, List.not_mem_nil, or_false] at hstatus
    rcases hstatus with hs | hs | hs <;> rw [hs] <;> decide
  unfold compareChecked at h
  simp only at h
  split at h
  · cases h
    exact hempty _ rfl (by simp)
  · split at h
    · cases h
      exact hempty _ rfl (by simp)
    · rename_i pack hpack
      split at h
      · cases h
        exact hempty _ rfl (by simp)
      · obtain ⟨_, h⟩ := Round5.require_bind.mp h
        split at h
        · obtain ⟨_, h⟩ := Round5.require_bind.mp h
          exact compareShared_noEvidence (hquiet pack hpack) h hlimited
        · cases h
          exact hempty _ rfl (by simp)

end Compare

/-- The floor bounds the p-value of an exact test whose effects within the tolerance are quiet; with
such effects a comparison whose tested objectives are all limited reports no evidence. Without an
effect beyond the tolerance the floor holds for quiet effects only. -/
theorem signFlip_floor (sampler : HashSampler) :
    (∀ effects seed t familySize, 2 ^ effects.length ≤ signFlipExactLimit →
      signFlipTest sampler effects seed = .ok t →
        (QuietSmallEffects effects →
          (inferenceResolution effects familySize).bestCaseRawPFloor ≤ t.pValue) ∧
        ((inferenceResolution effects familySize).nonzeroPairedBundles = 0 →
          (inferenceResolution effects familySize).bestCaseRawPFloor ≤ t.pValue →
            QuietSmallEffects effects)) ∧
    ∀ observations q c r, checkComparison q = .ok c →
      comparePairedObservations sampler observations q = .ok r → ExactAndQuiet c observations →
        AllLimited r → NoEvidence r := by
  constructor
  · intro effects seed t familySize hexact ht
    refine ⟨fun hquiet => rawPFloor_le hexact hquiet ht, fun hnone hfloor => ?_⟩
    refine quiet_of_rawPFloor_le hexact (fun e he => ?_) ht hfloor
    simpa [isLarge] using List.countP_eq_zero.mp hnone e he
  · intro observations q c r hc h hquiet hlimited
    obtain ⟨c', hc', h⟩ := Failures.bind_eq_ok.mp h
    obtain rfl : c = c' := Except.ok.inj (hc.symm.trans hc')
    exact compareChecked_noEvidence hquiet h hlimited

/-! Five pairs with the same effect and one within the tolerance, and nine effects within it. -/

def comparedPack : Fingerprint := ⟨"sha256:".toList ++ List.replicate 64 'b', by decide⟩

def comparedId (left : Bool) : ConfigurationId :=
  if left then ⟨List.replicate 10 'a', by decide⟩ else ⟨List.replicate 10 'b', by decide⟩

def pairedRow (bundle : Nat) (left : Bool) : PairedObservation where
  bundle := natStr bundle
  round := firstRound
  pack := comparedPack
  configuration := comparedId left
  identity := ⟨⟨"Linux".toList, "x86_64".toList, "3.12".toList⟩,
    ⟨"unreported".toList, none, none⟩, "model".toList, "codex_cli".toList, [], []⟩
  metrics o :=
    if o ≠ .accuracy then none
    else if bundle < 5 then some (if left then 1 else 0)
    else some (if left then 2 / 3 + 1 / 10 ^ 13 else 2 / 3)

def quietPairs : List PairedObservation :=
  (List.range 6).flatMap fun bundle => [pairedRow bundle true, pairedRow bundle false]

def quietPairsQuery : PairedQuery where
  roundNumber := 1
  leftConfiguration := (comparedId true).1
  rightConfiguration := (comparedId false).1

def quietPairsChecked : CheckedComparison where
  round := 1
  left := (comparedId true).1
  right := (comparedId false).1
  pack := none
  objectives := [.accuracy]
  minimumEffects := [(.accuracy, 0)]
  familySize := none

def constantSampler : HashSampler := fun _ _ => 0

def quietEffects : List ℚ := [1, 1, 1, 1, 1, 1 / 10 ^ 13]

theorem quietEffects_small : QuietSmallEffects quietEffects :=
  quiet_of_sum_le (by decide) (by decide +kernel)

theorem quietPairs_checked : checkComparison quietPairsQuery = .ok quietPairsChecked := by rfl

theorem quietPairs_effects {pack : Str}
    (h : selectedComparisonPack quietPairsChecked quietPairs = some pack) :
    effectsOf .accuracy (sharedPairs quietPairsChecked (packRows quietPairsChecked quietPairs pack)) =
      quietEffects := by
  have hpack : selectedComparisonPack quietPairsChecked quietPairs = some comparedPack.1 := by
    decide +kernel
  obtain rfl := Option.some.inj (h.symm.trans hpack)
  decide +kernel

theorem quietPairs_limited : (comparePairedObservations constantSampler quietPairs quietPairsQuery).toOption.map
    (fun r => (r.resolutionLimitedObjectives, r.objectivesResult.map fun row =>
      row.inferenceResolution.map InferenceResolution.status)) =
        some (1, [some .discretePLimit]) := by
  decide +kernel

theorem quietPairs_noEvidence :
    (∃ t, signFlipTest constantSampler quietEffects [] = .ok t ∧
      (inferenceResolution quietEffects 1).bestCaseRawPFloor ≤ t.pValue) ∧
    ∃ r, comparePairedObservations constantSampler quietPairs quietPairsQuery = .ok r ∧
      r.resolutionLimitedObjectives = 1 ∧ NoEvidence r := by
  obtain ⟨hfloor, hcompare⟩ := signFlip_floor constantSampler
  constructor
  · obtain ⟨t, ht⟩ : ∃ t, signFlipTest constantSampler quietEffects [] = .ok t := ⟨_, rfl⟩
    exact ⟨t, ht, (hfloor quietEffects [] t 1 (by decide +kernel) ht).1 quietEffects_small⟩
  · obtain ⟨r, hr, hlimited⟩ := Option.map_eq_some_iff.mp quietPairs_limited
    rw [Failures.toOption_eq_some] at hr
    obtain ⟨hcount, hrows⟩ := Prod.mk.inj hlimited
    refine ⟨r, hr, hcount, hcompare _ _ _ r quietPairs_checked hr ?_ ?_⟩
    · intro pack hpack o ho _
      obtain rfl := List.mem_singleton.mp ho
      rw [quietPairs_effects hpack]
      exact ⟨by decide +kernel, quietEffects_small⟩
    · intro row hrow resolution hres
      have hmem := List.mem_map_of_mem (f := fun row : ObjectiveRow =>
        row.inferenceResolution.map InferenceResolution.status) hrow
      rw [hrows] at hmem
      simpa [hres] using hmem

def nineEffects : List ℚ := List.replicate 9 (signFlipAbsoluteTolerance * 9 / 2)

/-- Nothing counts as a nonzero pair, and still the p-value is below the level. -/
theorem nineEffects_below : ¬ ∀ effects seed t familySize, 2 ^ effects.length ≤ signFlipExactLimit →
    signFlipTest constantSampler effects seed = .ok t →
      (inferenceResolution effects familySize).bestCaseRawPFloor ≤ t.pValue := by
  intro h
  obtain ⟨t, ht, hlevel⟩ : ∃ t, signFlipTest constantSampler nineEffects [] = .ok t ∧
      t.pValue < familywiseAlpha := ⟨_, rfl, by decide +kernel⟩
  have hle := h nineEffects [] t 1 (by decide +kernel) ht
  have hfloor : (inferenceResolution nineEffects 1).bestCaseRawPFloor = 1 := by decide +kernel
  rw [hfloor] at hle
  have hone : familywiseAlpha < 1 := by decide +kernel
  linarith

end Community
