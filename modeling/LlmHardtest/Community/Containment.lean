import LlmHardtest.Community.SignFlipFloor
import LlmHardtest.Library.Quantiles
import LlmHardtest.Round5.DrawRange
set_option autoImplicit false

/-! The interval of a family contains the interval of one comparison: exactly where it is read off by
rank, and up to the last digit where it is interpolated in floats. -/

namespace Round5
open Python Quantiles Binary64

section Draws

theorem pointwiseConfidence_le (familySize : Nat) : pointwiseConfidence ≤ familyConfidence familySize := by
  have hone : (1 : ℚ) ≤ (max 1 familySize : Nat) := by exact_mod_cast le_max_left 1 familySize
  have halpha : 0 ≤ nearest familywiseAlpha := nearest_nonneg (by norm_num [familywiseAlpha])
  have hdiv := nearest_mono (div_le_self halpha hone)
  rw [nearest_nearest] at hdiv
  calc pointwiseConfidence = nearest (1 - nearest familywiseAlpha) := by decide +kernel
    _ ≤ familyConfidence familySize := nearest_mono (by linarith)

theorem familyConfidence_le_one (familySize : Nat) : familyConfidence familySize ≤ 1 := by
  have hnonneg : 0 ≤ nearest (nearest familywiseAlpha / (max 1 familySize : Nat)) :=
    nearest_nonneg (div_nonneg (nearest_nonneg (by norm_num [familywiseAlpha])) (Nat.cast_nonneg _))
  have hle := nearest_mono (show 1 - nearest (nearest familywiseAlpha / (max 1 familySize : Nat)) ≤ 1 by
    linarith)
  rwa [nearest_one] at hle

/-- An interval has the other one between its ends, but for one in the last digit. -/
def DrawInterval.nearlyContains (outer inner : DrawInterval) : Prop :=
  outer.lower ≤ inner.lower + 1 / 10 ^ 6 ∧ inner.upper ≤ outer.upper + 1 / 10 ^ 6

/-- More confidence reads the draws further outside. -/
theorem drawInterval_nearlyContains {draws : List ℚ}
    (hbound : ∀ d ∈ draws, d ∈ Set.Icc (-1) 1) {c c' : ℚ} (h0 : 0 ≤ c) (hle : c ≤ c') (h1 : c' ≤ 1) :
    ∃ outer inner, drawInterval (some draws) c' = some outer ∧
      drawInterval (some draws) c = some inner ∧ outer.nearlyContains inner := by
  have habs : ∀ d ∈ draws, |d| ≤ 1 := fun d hd => abs_le.mpr (hbound d hd)
  have hwide : 0 ≤ nearest (1 - c') := nearest_nonneg (by linarith)
  have hnarrow : nearest (1 - c) ≤ 1 := (nearest_mem_unit (by linarith) (by linarith)).2
  have halpha : nearest (1 - c') ≤ nearest (1 - c) := nearest_mono (by linarith)
  have htail : nearest (nearest (1 - c') / 2) ≤ nearest (nearest (1 - c) / 2) :=
    nearest_mono (by linarith)
  have htail0 : 0 ≤ nearest (nearest (1 - c') / 2) := nearest_nonneg (by linarith)
  have htail1 : nearest (nearest (1 - c) / 2) ≤ 1 :=
    (nearest_mem_unit (by linarith) (by linarith)).2
  refine ⟨_, _, rfl, rfl, roundDigits_le_add 6 ?_, roundDigits_le_add 6 ?_⟩
  · exact drawPercentile_lt habs htail0 htail
  · exact drawPercentile_lt habs (nearest_nonneg (by linarith)) (nearest_mono (by linarith))

theorem family_nearlyContains {draws : List ℚ}
    (hbound : ∀ d ∈ draws, d ∈ Set.Icc (-1) 1) (familySize : Nat) :
    ∃ outer inner, drawInterval (some draws) (familyConfidence familySize) = some outer ∧
      drawInterval (some draws) pointwiseConfidence = some inner ∧ outer.nearlyContains inner :=
  drawInterval_nearlyContains hbound (nearest_nonneg (by norm_num)) (pointwiseConfidence_le familySize)
    (familyConfidence_le_one familySize)

theorem digits_step {digits : Nat} {m n : ℤ} (h : (m : ℚ) / 10 ^ digits < n / 10 ^ digits) :
    (m : ℚ) / 10 ^ digits + 1 / 10 ^ digits ≤ n / 10 ^ digits := by
  have hpow : (0 : ℚ) < 10 ^ digits := by positivity
  rw [← add_div]
  have hlt : m + 1 ≤ n := by exact_mod_cast (div_lt_div_iff_of_pos_right hpow).mp h
  exact div_le_div_of_nonneg_right (by exact_mod_cast hlt) hpow.le

variable {draws : Option (List ℚ)} {confidence : ℚ} {i : DrawInterval}

theorem lower_beyond (hi : drawInterval draws confidence = some i) (h : 1 / 20 < i.lower) :
    1 / 20 + 1 / 10 ^ 6 ≤ i.lower := by
  obtain ⟨draws, -, rfl⟩ := Option.map_eq_some_iff.mp hi
  have hvalue : ((50000 : ℤ) : ℚ) / 10 ^ 6 = 1 / 20 := by norm_num
  rw [← hvalue] at h ⊢
  exact digits_step h

theorem upper_beyond (hi : drawInterval draws confidence = some i) (h : i.upper < -(1 / 20)) :
    i.upper + 1 / 10 ^ 6 ≤ -(1 / 20) := by
  obtain ⟨draws, -, rfl⟩ := Option.map_eq_some_iff.mp hi
  have hvalue : ((-50000 : ℤ) : ℚ) / 10 ^ 6 = -(1 / 20) := by norm_num
  rw [← hvalue] at h ⊢
  exact digits_step h

end Draws

section Status
variable {draws : Option (List ℚ)} {familySize : Nat} {left right : Str}

def InRange (draws : Option (List ℚ)) : Prop :=
  ∀ values, draws = some values → ∀ d ∈ values, d ∈ Set.Icc (-1) 1

theorem intervals_nearlyContain (h : InRange draws) {outer : DrawInterval}
    (houter : drawInterval draws (familyConfidence familySize) = some outer) :
    ∃ inner, drawInterval draws pointwiseConfidence = some inner ∧ outer.nearlyContains inner := by
  obtain ⟨values, hvalues, -⟩ := Option.map_eq_some_iff.mp houter
  subst hvalues
  obtain ⟨outer', inner, houter', hinner, hcontains⟩ :=
    family_nearlyContains (h values rfl) familySize
  rw [houter', Option.some_inj] at houter
  exact ⟨inner, hinner, houter ▸ hcontains⟩

/-- A separation that is stable in the family reaches the minimum by itself. -/
theorem stableSeparation_lower (hdraws : InRange draws)
    (h : separationClassification (drawInterval draws (familyConfidence familySize)) =
      .stableSeparation) :
    ∃ i, drawInterval draws pointwiseConfidence = some i ∧ minAdjustedSeparation ≤ i.lower := by
  unfold separationClassification at h
  split at h
  · cases h
  · rename_i outer houter
    obtain ⟨inner, hinner, hlower, -⟩ := intervals_nearlyContain hdraws houter
    split at h
    · rename_i hstable
      have hbeyond := lower_beyond houter hstable
      exact ⟨inner, hinner, show 1 / 20 ≤ inner.lower by linarith⟩
    · split at h <;> cases h

theorem stableAdvantage_bounds (hdraws : InRange draws) {status : DirectionalStatus}
    (h : (directionalClassification (drawInterval draws (familyConfidence familySize)) left right).1 =
      status) :
    (status = .stableLeftAdvantage →
      ∃ i, drawInterval draws pointwiseConfidence = some i ∧ minDirectionalAdvantage ≤ i.lower) ∧
    (status = .stableRightAdvantage →
      ∃ i, drawInterval draws pointwiseConfidence = some i ∧ i.upper ≤ -minDirectionalAdvantage) := by
  subst h
  unfold directionalClassification
  split
  · simp
  · rename_i outer houter
    obtain ⟨inner, hinner, hlower, hupper⟩ := intervals_nearlyContain hdraws houter
    split
    · rename_i hleft
      have hbeyond := lower_beyond houter hleft
      exact ⟨fun _ => ⟨inner, hinner, show 1 / 20 ≤ inner.lower by linarith⟩, by simp⟩
    · split
      · rename_i hright
        have hbeyond := upper_beyond houter hright
        exact ⟨by simp, fun _ => ⟨inner, hinner, show inner.upper ≤ -(1 / 20) by linarith⟩⟩
      · split <;> simp

/-- What the verdicts in the family say of the intervals by themselves. -/
structure Comparison.Supported (c : Comparison) : Prop where
  separation : c.status = .stableSeparation →
    ∃ i, c.bootstrap95 = some i ∧ minAdjustedSeparation ≤ i.lower
  left : c.directionalAdvantage.status = .stableLeftAdvantage →
    ∃ i, c.directionalAdvantage.bootstrap95 = some i ∧ minDirectionalAdvantage ≤ i.lower
  right : c.directionalAdvantage.status = .stableRightAdvantage →
    ∃ i, c.directionalAdvantage.bootstrap95 = some i ∧ i.upper ≤ -minDirectionalAdvantage
  separationInterval : ∀ outer, c.familywiseBootstrap = some outer →
    ∃ inner, c.bootstrap95 = some inner ∧ outer.nearlyContains inner
  directionalInterval : ∀ outer, c.directionalAdvantage.familywiseBootstrap = some outer →
    ∃ inner, c.directionalAdvantage.bootstrap95 = some inner ∧ outer.nearlyContains inner

theorem comparison_supported {rng : Generator} {s : Sides} (hs : s.Scored) :
    (comparison rng familySize left right s).Supported := by
  have hseparation : InRange (if s.eligible then
      scenarioBootstrapDraws rng s.effects (bootstrapSampleCount familySize) else none) := by
    intro values hvalues
    split at hvalues
    · exact scenarioBootstrapDraws_mem hs.effects hvalues
    · cases hvalues
  have hdirectional : ∀ eligible : Bool, InRange (if eligible then
      directionalBootstrapDraws rng s.directionalInputs (bootstrapSampleCount familySize) else none) := by
    intro eligible values hvalues
    split at hvalues
    · exact directionalBootstrapDraws_mem hs.directionalInputs hvalues
    · cases hvalues
  exact {
    separation := stableSeparation_lower hseparation
    left := (stableAdvantage_bounds (hdirectional _) rfl).1
    right := (stableAdvantage_bounds (hdirectional _) rfl).2
    separationInterval := fun _ => intervals_nearlyContain hseparation
    directionalInterval := fun _ => intervals_nearlyContain (hdirectional _) }

theorem analyzePilots_supported {r : Release} {rng : Generator} {labels : Bool}
    {dirs : List RunDirectory} {a : Analysis} (h : analyzePilots r rng labels dirs = .ok a) :
    ∀ c ∈ a.portfolio.pairwise, c.Supported := by
  obtain ⟨attempts, hattempts, h⟩ := Failures.bind_eq_ok.mp h
  rw [analyzeAttempts_pairwise h]
  intro c hc
  obtain ⟨p, hp, rfl⟩ := List.mem_map.mp hc
  exact comparison_supported (sidePairs_scored (collectPilotAttempts_scored hattempts) p hp)

end Status

end Round5

namespace Community
open Python Quantiles Binary64

section Intervals

theorem samplePercentile_eq (values : List ℚ) (p : ℚ) : samplePercentile values p =
    orderStatistic values (nearestRank values.length (nearest (p * values.length))) := by
  have hrank : nearestRank values.length (nearest (p * values.length)) ≤ values.length - 1 := by
    rw [nearestRank]
    omega
  rw [orderStatistic, min_eq_left hrank, samplePercentile, nearestRank, List.length_insertionSort]

theorem samplePercentile_mono (values : List ℚ) {p q : ℚ} (h : p ≤ q) :
    samplePercentile values p ≤ samplePercentile values q := by
  rw [samplePercentile_eq, samplePercentile_eq]
  exact orderStatistic_mono values (nearestRank_mono _
    (nearest_mono (mul_le_mul_of_nonneg_right h (Nat.cast_nonneg _))))

variable {familySize : Nat}

theorem tailProbability_le (h : 1 ≤ familySize) : tailProbability familySize ≤ nearest (1 / 40) := by
  have hone : (1 : ℚ) ≤ familySize := by exact_mod_cast h
  have halpha : 0 ≤ nearest familywiseAlpha := nearest_nonneg (by norm_num [familywiseAlpha])
  calc tailProbability familySize ≤ nearest (nearest familywiseAlpha / 2) :=
        nearest_mono (div_le_div_of_nonneg_left halpha two_pos (by linarith))
    _ = nearest (1 / 40) := by decide +kernel

theorem samplePercentile_tails (draws : List ℚ) (h : 1 ≤ familySize) :
    roundDigits 6 (samplePercentile draws (tailProbability familySize)) ≤
        roundDigits 6 (samplePercentile draws (nearest (1 / 40))) ∧
      roundDigits 6 (samplePercentile draws (nearest (39 / 40))) ≤
        roundDigits 6 (samplePercentile draws (nearest (1 - tailProbability familySize))) := by
  have htail := tailProbability_le h
  have hupper : nearest (39 / 40) ≤ nearest (1 - tailProbability familySize) :=
    calc nearest (39 / 40) = nearest (1 - nearest (1 / 40)) := by decide +kernel
      _ ≤ nearest (1 - tailProbability familySize) := nearest_mono (by linarith)
  exact ⟨roundDigits_mono 6 (samplePercentile_mono _ htail),
    roundDigits_mono 6 (samplePercentile_mono _ hupper)⟩

theorem pairedIntervals_contains (sampler : HashSampler) (effects : List ℚ) (seed : Str) (samples : Nat)
    (h : 1 ≤ familySize) :
    (pairedIntervals sampler effects seed familySize samples).2.low ≤
        (pairedIntervals sampler effects seed familySize samples).1.low ∧
      (pairedIntervals sampler effects seed familySize samples).1.high ≤
        (pairedIntervals sampler effects seed familySize samples).2.high :=
  samplePercentile_tails _ h

end Intervals

section Floors
variable {objectives : List Objective} {values : List (Str × Json)}

theorem minimumEffect_nonneg {o : Objective} {q : ℚ} (h : minimumEffect values o = .ok q) :
    0 ≤ q := by
  unfold minimumEffect at h
  simp only at h
  split at h
  · cases h
  · split at h
    · obtain ⟨hq, h⟩ := Round5.require_bind.mp h
      obtain ⟨_, h⟩ := Round5.require_bind.mp h
      cases h
      exact of_decide_eq_true hq
    · cases h

theorem minimumEffects_nonneg {values : Option Json} {effects : List (Objective × ℚ)}
    (h : minimumEffects objectives values = .ok effects) : ∀ e ∈ effects, 0 ≤ e.2 := by
  have hfields : ∀ (fields : List (Str × Json)) (known : Bool) (message : String),
      (Round5.require known message >>= fun _ => objectives.mapM fun o => do
        let q ← minimumEffect fields o
        return (o, q)) = .ok effects → ∀ e ∈ effects, 0 ≤ e.2 := by
    intro fields known message h e he
    obtain ⟨_, h⟩ := Round5.require_bind.mp h
    obtain ⟨o, _, hmade⟩ := (Outcome.mapM_mem h).2 e he
    obtain ⟨q, hq, hmade⟩ := Failures.bind_eq_ok.mp hmade
    cases hmade
    exact minimumEffect_nonneg hq
  unfold minimumEffects at h
  split at h
  · obtain ⟨fields, _, h⟩ := Failures.bind_eq_ok.mp h
    exact hfields fields _ _ h
  · obtain ⟨fields, _, h⟩ := Failures.bind_eq_ok.mp h
    exact hfields fields _ _ h
  · cases h

theorem checkComparison_floors {q : PairedQuery} {c : CheckedComparison}
    (h : checkComparison q = .ok c) (o : Objective) : 0 ≤ c.minimumEffect o := by
  unfold checkComparison at h
  obtain ⟨_, h⟩ := Round5.require_bind.mp h
  obtain ⟨_, h⟩ := Round5.require_bind.mp h
  obtain ⟨_, h⟩ := Round5.require_bind.mp h
  obtain ⟨_, h⟩ := Round5.require_bind.mp h
  obtain ⟨_, h⟩ := Round5.require_bind.mp h
  obtain ⟨objectives, _, h⟩ := Failures.bind_eq_ok.mp h
  obtain ⟨_, h⟩ := Round5.require_bind.mp h
  obtain ⟨effects, heffects, h⟩ := Failures.bind_eq_ok.mp h
  cases h
  rw [CheckedComparison.minimumEffect]
  cases hfound : effects.lookup o with
  | none => exact le_rfl
  | some floor =>
    obtain ⟨before, after, hmem, -⟩ := List.lookup_eq_some_iff.mp hfound
    exact minimumEffects_nonneg heffects (o, floor) (by simp [hmem])

end Floors

section Compare
variable {sampler : HashSampler} {c : CheckedComparison} {pack : Str}
variable {shared : List (PairedObservation × PairedObservation)} {familySize samples : Nat}

theorem objectiveRows_intervals {rows : List ObjectiveRow}
    (h : objectiveRows sampler c pack shared familySize samples = .ok rows) :
    ∀ row ∈ rows, (∃ o, row.minimumPracticalEffect = c.minimumEffect o) ∧
      row.classification ∈ [.insufficient, .pending] ∧
      (row.interval95 = none ∨ row.pRaw ≠ none ∧ ∃ effects seed,
        row.interval95 = some (pairedIntervals sampler effects seed familySize samples).1 ∧
        row.simultaneousInterval = some (pairedIntervals sampler effects seed familySize samples).2) := by
  intro row hrow
  obtain ⟨o, _, hmade⟩ := (Outcome.mapM_mem h).2 row hrow
  simp only at hmade
  split at hmade
  · obtain ⟨t, _, hmade⟩ := Failures.bind_eq_ok.mp hmade
    cases hmade
    exact ⟨⟨o, rfl⟩, by simp, .inr ⟨by simp, _, _, rfl, rfl⟩⟩
  · cases hmade
    exact ⟨⟨o, rfl⟩, by simp [untestedRow], .inl rfl⟩

/-- What a directional verdict says of the interval of one comparison. -/
structure Directional (row : ObjectiveRow) : Prop where
  left : row.classification = .leftBetter → ∃ interval, row.interval95 = some interval ∧
    0 < interval.low ∧
    (row.minimumPracticalEffect ≠ 0 → row.minimumPracticalEffect < interval.low)
  right : row.classification = .rightBetter → ∃ interval, row.interval95 = some interval ∧
    interval.high < 0 ∧
    (row.minimumPracticalEffect ≠ 0 → interval.high < -row.minimumPracticalEffect)

theorem verdict_met : ∀ left right smallLeft smallRight : Bool,
    ((if left then (true, Classification.leftBetter) else if right then (true, .rightBetter)
      else if smallLeft then (false, .leftSmallEffect)
      else if smallRight then (false, .rightSmallEffect) else (false, .inconclusive)).2 = .leftBetter →
        left = true) ∧
    ((if left then (true, Classification.leftBetter) else if right then (true, .rightBetter)
      else if smallLeft then (false, .leftSmallEffect)
      else if smallRight then (false, .rightSmallEffect) else (false, .inconclusive)).2 = .rightBetter →
        right = true) := by
  decide

theorem verdictOf_left {threshold p : ℚ} {interval : PointwiseInterval}
    {simultaneous : SimultaneousInterval} (hfloor : 0 ≤ threshold)
    (hlow : simultaneous.low ≤ interval.low)
    (h : (verdictOf threshold p interval simultaneous).2 = .leftBetter) :
    0 < interval.low ∧ (threshold ≠ 0 → threshold < interval.low) := by
  have hmet := ((Bool.and_eq_true _ _).mp ((verdict_met _ _ _ _).1 h)).2
  split at hmet
  · rename_i hzero
    exact ⟨of_decide_eq_true hmet, fun hne => absurd hzero hne⟩
  · have hlt := (of_decide_eq_true hmet).trans_le hlow
    exact ⟨hfloor.trans_lt hlt, fun _ => hlt⟩

theorem verdictOf_right {threshold p : ℚ} {interval : PointwiseInterval}
    {simultaneous : SimultaneousInterval} (hfloor : 0 ≤ threshold)
    (hhigh : interval.high ≤ simultaneous.high)
    (h : (verdictOf threshold p interval simultaneous).2 = .rightBetter) :
    interval.high < 0 ∧ (threshold ≠ 0 → interval.high < -threshold) := by
  have hmet := ((Bool.and_eq_true _ _).mp ((verdict_met _ _ _ _).2 h)).2
  split at hmet
  · rename_i hzero
    exact ⟨of_decide_eq_true hmet, fun hne => absurd hzero hne⟩
  · have hlt := hhigh.trans_lt (of_decide_eq_true hmet)
    exact ⟨by linarith, fun _ => hlt⟩

/-- The last loop leaves a row as it is or gives it the verdict on its intervals. -/
theorem classifyRow_directional {row : ObjectiveRow} (hfloor : 0 ≤ row.minimumPracticalEffect)
    (hclass : row.classification ∈ [.insufficient, .pending])
    (hcontains : ∀ interval simultaneous, row.interval95 = some interval →
      row.simultaneousInterval = some simultaneous →
        simultaneous.low ≤ interval.low ∧ interval.high ≤ simultaneous.high) :
    Directional (classifyRow row) := by
  unfold classifyRow
  split
  · rename_i interval simultaneous p hinterval hsimultaneous _
    obtain ⟨hlow, hhigh⟩ := hcontains _ _ hinterval hsimultaneous
    exact ⟨fun h => ⟨interval, hinterval, verdictOf_left hfloor hlow h⟩,
      fun h => ⟨interval, hinterval, verdictOf_right hfloor hhigh h⟩⟩
  · constructor
    · intro h
      simp [h] at hclass
    · intro h
      simp [h] at hclass

theorem compareShared_directional {initial r : Comparison} (hfloors : ∀ o, 0 ≤ c.minimumEffect o)
    (h : compareShared sampler c pack shared initial = .ok r) :
    ∀ row ∈ r.objectivesResult, Directional row := by
  unfold compareShared at h
  simp only at h
  obtain ⟨rows, hrows, h⟩ := Failures.bind_eq_ok.mp h
  obtain ⟨adjusted, hadjusted, h⟩ := Failures.bind_eq_ok.mp h
  cases h
  unfold holmAdjust at hadjusted
  obtain ⟨hsize, hadjusted⟩ := Round5.require_bind.mp hadjusted
  cases hadjusted
  have hsize := of_decide_eq_true hsize
  intro row hrow
  obtain ⟨_, hmid, rfl⟩ := List.mem_map.mp hrow
  obtain ⟨row, hin, rfl⟩ := List.mem_map.mp hmid
  obtain ⟨⟨o, ho⟩, hclass, hintervals⟩ := objectiveRows_intervals hrows row hin
  refine classifyRow_directional (ho ▸ hfloors o) hclass fun interval simultaneous hi hs => ?_
  rcases hintervals with hnone | ⟨htested, effects, seed, hinterval, hsimultaneous⟩
  · exact absurd (hnone.symm.trans hi) (by simp)
  · obtain ⟨p, hp⟩ := Option.ne_none_iff_exists'.mp htested
    -- a tested row is one of the family
    have hmem : (row.objective, p) ∈ testedPValues rows :=
      List.mem_filterMap.mpr ⟨row, hin, by rw [hp]; rfl⟩
    obtain rfl := Option.some.inj (hinterval.symm.trans hi)
    obtain rfl := Option.some.inj (hsimultaneous.symm.trans hs)
    exact pairedIntervals_contains _ _ _ _ ((List.length_pos_of_mem hmem).trans_le hsize)

theorem compareChecked_directional {observations : List PairedObservation} {r : Comparison}
    (hfloors : ∀ o, 0 ≤ c.minimumEffect o) (h : compareChecked sampler c observations = .ok r) :
    ∀ row ∈ r.objectivesResult, Directional row := by
  have hempty : ∀ r' : Comparison, r'.objectivesResult = [] →
      ∀ row ∈ r'.objectivesResult, Directional row := by
    intro r' hrows row hrow
    rw [hrows] at hrow
    cases hrow
  unfold compareChecked at h
  simp only at h
  split at h
  · cases h
    exact hempty _ rfl
  · split at h
    · cases h
      exact hempty _ rfl
    · split at h
      · cases h
        exact hempty _ rfl
      · obtain ⟨_, h⟩ := Round5.require_bind.mp h
        split at h
        · obtain ⟨_, h⟩ := Round5.require_bind.mp h
          exact compareShared_directional hfloors h
        · cases h
          exact hempty _ rfl

end Compare

end Community
