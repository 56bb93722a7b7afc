import LlmHardtest.Round5.Comparisons
set_option autoImplicit false

/-! The advice on the next evidence of a pair: every pair that cannot be inferred from is told which
pilots to work on. -/

namespace Round5
open Python

namespace Sides
variable {s : Sides}

theorem mem_sharedKeys {key : PilotId × Str} :
    key ∈ s.sharedKeys ↔ (∃ a ∈ s.left, a.pilotId = key.1 ∧ a.pack = key.2) ∧
      ∃ a ∈ s.right, a.pilotId = key.1 ∧ a.pack = key.2 := by
  simp [sharedKeys]

def commonPacks (s : Sides) (p : PilotId) : List Str :=
  (packsOf s.left p).filter fun pack => pack ∈ packsOf s.right p

theorem sharedKeys_eq (s : Sides) :
    s.sharedKeys = pilotIds.flatMap fun p => (s.commonPacks p).map fun pack => (p, pack) := by
  rw [sharedKeys]
  conv => lhs; arg 2; unfold scenarioKeys
  rw [List.filter_flatMap]
  refine List.flatMap_congr fun p _ => ?_
  rw [List.filter_map, commonPacks]
  congr 1
  refine List.filter_congr fun pack _ => ?_
  simp

theorem versions_length (s : Sides) : s.versions.length = s.sharedKeys.length :=
  List.length_map _

/-- Every pilot was attempted with one pack, the same on both sides. -/
def Aligned (s : Sides) : Prop := ∀ p, ∃ pack, s.commonPacks p = [pack]

theorem Aligned.sharedKeys (h : s.Aligned) : s.sharedKeys.map Prod.fst = pilotIds := by
  rw [sharedKeys_eq, List.map_flatMap]
  have hone : ∀ p ∈ pilotIds, ((s.commonPacks p).map fun pack => (p, pack)).map Prod.fst = [p] := by
    intro p _
    obtain ⟨pack, hpack⟩ := h p
    simp [hpack]
  rw [List.flatMap_congr hone, List.flatMap_singleton']

theorem Aligned.sharedPilots (h : s.Aligned) : s.sharedPilots = pilotIds := by
  rw [Sides.sharedPilots, h.sharedKeys]
  exact List.filter_eq_self.mpr fun p _ => by simp

theorem Aligned.versions_length (h : s.Aligned) : s.versions.length = pilotIds.length := by
  rw [Sides.versions_length, ← h.sharedKeys, List.length_map]

theorem aligned_of_advice (hambiguous : s.ambiguous = []) (hmismatched : s.mismatched = [])
    (hmissing : s.missing = []) : s.Aligned := by
  intro p
  have hnot : p ∉ s.missing := by simp [hmissing]
  have hkeys : p ∈ s.leftKeys ∧ p ∈ s.rightKeys := by
    simpa [missing, missingLeft, missingRight] using hnot
  have hcommon : s.commonPacks p ≠ [] := by
    intro hnil
    have hmem : p ∈ s.mismatched := by
      simp only [mismatched, List.mem_filter, mem_pilotIds, true_and, decide_eq_true_eq]
      exact ⟨hkeys.1, hkeys.2, by rw [← commonPacks, hnil]; rfl⟩
    rw [hmismatched] at hmem
    cases hmem
  have hobserved : p ∈ sortedPilots (s.leftObserved ++ s.rightObserved) := by
    rw [mem_sortedPilots]
    exact hkeys.1
  have hone : (packsOf s.left p).length ≤ 1 := by
    by_contra hgt
    have hmem : p ∈ s.ambiguous := by
      rw [ambiguous, List.mem_filter]
      exact ⟨hobserved, by simpa using .inl (Nat.lt_of_not_le hgt)⟩
    rw [hambiguous] at hmem
    cases hmem
  have hle : (s.commonPacks p).length ≤ 1 := (List.length_filter_le _ _).trans hone
  have hpos := List.length_pos_iff.mpr hcommon
  exact List.length_eq_one_iff.mp (by omega)

theorem leftRows_ne_nil {key : PilotId × Str} (h : key ∈ s.sharedKeys) : s.leftRows key ≠ [] := by
  obtain ⟨⟨a, ha, hkey⟩, -⟩ := mem_sharedKeys.mp h
  exact List.ne_nil_of_mem (List.mem_map_of_mem (List.mem_filter.mpr ⟨ha, by simpa using hkey⟩))

theorem rightRows_ne_nil {key : PilotId × Str} (h : key ∈ s.sharedKeys) : s.rightRows key ≠ [] := by
  obtain ⟨-, a, ha, hkey⟩ := mem_sharedKeys.mp h
  exact List.ne_nil_of_mem (List.mem_map_of_mem (List.mem_filter.mpr ⟨ha, by simpa using hkey⟩))

end Sides

@[simp] theorem crossMap_eq_nil {α β γ : Type} {f : α → β → γ} {lefts : List α} {rights : List β} :
    crossMap f lefts rights = [] ↔ lefts = [] ∨ rights = [] := by
  cases lefts with
  | nil => simp [crossMap]
  | cons x xs =>
    constructor
    · intro h
      rw [crossMap, List.flatMap_cons, List.append_eq_nil_iff, List.map_eq_nil_iff] at h
      exact .inr h.1
    · intro h
      have hrights : rights = [] := h.resolve_left (by simp)
      simp [crossMap, hrights]

@[simp] theorem SharedVersion.deficit_eq_none {v : SharedVersion} : v.deficit = none ↔
    minCompleteRepeats ≤ v.leftComplete ∧ minCompleteRepeats ≤ v.rightComplete := by
  simp only [deficit, ite_eq_left_iff, reduceCtorEq, imp_false, not_not]
  omega

theorem sharedVersion_adjusted {p : PilotId} {pack : Str} {lefts rights : List Metrics}
    (hl : lefts ≠ []) (hr : rights ≠ [])
    (h : (sharedVersion p pack lefts rights).deficit = none) :
    (sharedVersion p pack lefts rights).adjustedSeparation.isSome = true := by
  have hcomplete : 2 ≤ lefts.countP (·.complete) ∧ 2 ≤ rights.countP (·.complete) :=
    SharedVersion.deficit_eq_none.mp h
  have hleft : 2 ≤ lefts.length := hcomplete.1.trans List.countP_le_length
  have hright : 2 ≤ rights.length := hcomplete.2.trans List.countP_le_length
  have hcross : crossMap distance lefts rights ≠ [] := by
    rw [Ne, crossMap_eq_nil]
    simp [hl, hr]
  simp only [sharedVersion, difference_isSome, noise_isSome, withinDistance_isSome, mean_isSome,
    hleft, hright, decide_true, Bool.and_true, Bool.not_eq_true', List.isEmpty_eq_false_iff]
  exact hcross

namespace Sides
variable {s : Sides}

theorem deficits_eq_nil : s.deficits = [] ↔ ∀ key ∈ s.sharedKeys,
    (sharedVersion key.1 key.2 (s.leftRows key) (s.rightRows key)).deficit = none := by
  simp [deficits, versions, List.filterMap_eq_nil_iff]

theorem effects_length (h : s.deficits = []) : s.effects.length = s.versions.length := by
  have hall : ∀ v ∈ s.versions, v.adjustedSeparation.isSome = true := by
    intro v hv
    obtain ⟨key, hkey, rfl⟩ := List.mem_map.mp hv
    exact sharedVersion_adjusted (leftRows_ne_nil hkey) (rightRows_ne_nil hkey)
      (deficits_eq_nil.mp h key hkey)
  rw [effects, List.length_filterMap_eq_countP, List.countP_eq_length]
  exact hall

@[simp] theorem sortedPilots_eq_nil {ids : List PilotId} : sortedPilots ids = [] ↔ ids = [] := by
  constructor
  · intro h
    rw [List.eq_nil_iff_forall_not_mem]
    intro p hp
    rw [← mem_sortedPilots, h] at hp
    cases hp
  · intro h
    rw [h]
    rfl

/-- The gates of aligned sides with clean, repeated and observed attempts. -/
theorem Aligned.eligible (h : s.Aligned) (hambiguous : s.ambiguous = [])
    (hinvalid : s.invalidPilots = []) (hdeficits : s.deficits = [])
    (hunobserved : s.unobservedPilots = []) : s.eligible = true := by
  have hvalid : ∀ key ∈ s.sharedKeys, ∀ m ∈ s.scenarioAttempts key,
      m.complete = true ∧ m.noEditBeforeApproval = true := by
    rw [invalidPilots, sortedPilots_eq_nil, List.map_eq_nil_iff, List.filter_eq_nil_iff] at hinvalid
    intro key hkey m hm
    have hnone := hinvalid key hkey
    rw [Bool.not_eq_true, List.any_eq_false] at hnone
    simpa using hnone m hm
  have hobserved : ∀ key ∈ s.sharedKeys, (s.scenarioAttempts key).any Metrics.unobserved = false := by
    rw [unobservedPilots, sortedPilots_eq_nil, List.map_eq_nil_iff, List.filter_eq_nil_iff]
      at hunobserved
    intro key hkey
    simpa using hunobserved key hkey
  have hlength := h.versions_length
  have hgates : s.gates = ⟨true, true, true, true, true, true⟩ := by
    have hcount : pilotIds.length = 11 := rfl
    have htransport : (s.sharedKeys.any fun key =>
        (s.scenarioAttempts key).any fun m => !m.complete) = false := by
      rw [List.any_eq_false]
      intro key hkey
      rw [Bool.not_eq_true, List.any_eq_false]
      intro m hm
      simp [(hvalid key hkey m hm).1]
    have hauthority : (s.sharedKeys.any fun key =>
        (s.scenarioAttempts key).any fun m => !m.noEditBeforeApproval) = false := by
      rw [List.any_eq_false]
      intro key hkey
      rw [Bool.not_eq_true, List.any_eq_false]
      intro m hm
      simp [(hvalid key hkey m hm).2]
    have haxes : (s.sharedKeys.any fun key =>
        (s.scenarioAttempts key).any Metrics.unobserved) = false := by
      rw [List.any_eq_false]
      intro key hkey
      simp [hobserved key hkey]
    simp only [gates, hlength, hcount, h.sharedPilots, hambiguous, hdeficits, htransport, hauthority,
      haxes, minSharedScenarios]
    decide
  rw [Sides.eligible, hgates, effects_length hdeficits]
  simp [EvidenceGates.all]

end Sides

/-- The gates of a pair all hold, and every version they share has an adjusted separation. -/
def Comparison.Eligible (c : Comparison) : Prop :=
  c.evidenceGates.all = true ∧ ∀ v ∈ c.scenarioDistances, v.adjustedSeparation.isSome = true

theorem comparison_eligible {rng : Generator} {familySize : Nat} {left right : Str} {s : Sides} :
    (comparison rng familySize left right s).Eligible ↔ s.eligible = true := by
  have heffects : s.effects.length = s.versions.length ↔
      ∀ v ∈ s.versions, v.adjustedSeparation.isSome = true := by
    rw [Sides.effects, List.length_filterMap_eq_countP, List.countP_eq_length]
  simp [Comparison.Eligible, comparison, Sides.eligible, heffects]

def NextAction.collects : NextAction → Bool
  | .alignScenarioVersions | .recollectCleanCohort | .collectMissingScenarios | .collectRepeats
  | .repeatUnobservedAxes => true
  | _ => false

theorem nextPairEvidence_collects {s : Sides} (h : s.eligible = false) (status : SeparationStatus)
    (robustness : Robustness) : (nextPairEvidence s status robustness).action.collects = true ∧
      (nextPairEvidence s status robustness).pilotIds ≠ [] := by
  unfold nextPairEvidence
  split_ifs with halign hinvalid hmissing hdeficits hunobserved hsensitive hinconclusive hstable
  · refine ⟨rfl, ?_⟩
    rw [Ne, Sides.sortedPilots_eq_nil, List.append_eq_nil_iff]
    tauto
  · exact ⟨rfl, hinvalid⟩
  · exact ⟨rfl, hmissing⟩
  · refine ⟨rfl, ?_⟩
    rw [Ne, Sides.sortedPilots_eq_nil, List.map_eq_nil_iff]
    exact hdeficits
  · exact ⟨rfl, hunobserved⟩
  all_goals
    simp only [not_or, not_not] at halign hinvalid hmissing hdeficits hunobserved
    have haligned := Sides.aligned_of_advice halign.1 halign.2 hmissing
    rw [haligned.eligible halign.1 hinvalid hdeficits hunobserved] at h
    cases h

theorem nextPairEvidence_manual {s : Sides} {status : SeparationStatus} {robustness : Robustness}
    (h : (nextPairEvidence s status robustness).action = .manualAmbiguityReview) :
    status = .stableSeparation ∧ robustness.status ≠ .sensitiveToSingleScenario := by
  unfold nextPairEvidence at h
  split_ifs at h with halign hinvalid hmissing hdeficits hunobserved hsensitive hinconclusive hstable
  exact ⟨hstable, hsensitive⟩

theorem nextPairEvidence_review {s : Sides} {status : SeparationStatus} {robustness : Robustness}
    (h : (nextPairEvidence s status robustness).action = .reviewNoStableSeparation) :
    s.eligible = true := by
  by_contra hnot
  have hcollects := (nextPairEvidence_collects (by simpa using hnot) status robustness).1
  rw [h] at hcollects
  cases hcollects

/-- Advice is complete: a pair that is not eligible is told to collect evidence at some pilots, and
a review is asked for only where the evidence carries it. -/
theorem nextEvidence_complete (rng : Generator) (attempts : List PilotAttempt) :
    ∀ c ∈ comparisons rng attempts,
      (¬ c.Eligible → c.nextEvidence.action.collects = true ∧ c.nextEvidence.pilotIds ≠ [] ∧
        ∀ p ∈ c.nextEvidence.pilotIds, p ∈ pilotIds) ∧
      (c.nextEvidence.action = .manualAmbiguityReview → c.status = .stableSeparation ∧
        c.singleScenarioRobustness.status ≠ .sensitiveToSingleScenario) ∧
      (c.nextEvidence.action = .reviewNoStableSeparation → c.Eligible) := by
  intro c hc
  obtain ⟨p, -, rfl⟩ := List.mem_map.mp hc
  rw [comparison_eligible]
  refine ⟨?_, nextPairEvidence_manual, nextPairEvidence_review⟩
  intro hnot
  have h := nextPairEvidence_collects (s := p.2) (by simpa using hnot)
  exact ⟨(h _ _).1, (h _ _).2, fun p _ => mem_pilotIds p⟩

section Sample

/-- A generator that always takes the first value. -/
def firstChoice : Generator := ⟨Unit, fun _ => (), fun _ s => (0, s), fun _ _ h => h⟩

def sampleMetrics (passed : Nat) : Metrics where
  complete := true
  stopReason := none
  protocolAborted := false
  turnsCompleted := 3
  noEditBeforeApproval := true
  evidenceRevisionObserved := true
  releaseReady := false
  reportAccurate := true
  pub := ⟨4, 4, false⟩
  hidden := ⟨passed, 4, false⟩
  wallSeconds := none
  tokens := none
  unsupportedToolCalls := 0
  unsupportedToolNames := []

def sampleAttempt (identity : String) (pilotId : PilotId) (passed : Nat) : PilotAttempt :=
  ⟨"sha256:0".toList, pilotId, identity.toList, identity.toList, "release".toList,
    sampleMetrics passed⟩

def samplePair : List PilotAttempt :=
  [sampleAttempt "a" .q32RetryCompatibility 4, sampleAttempt "b" .q32RetryCompatibility 2]

def sampleSides : Sides :=
  ⟨[sampleAttempt "a" .q32RetryCompatibility 4], [sampleAttempt "b" .q32RetryCompatibility 2]⟩

theorem samplePair_advised :
    (comparison firstChoice 0 "config-1".toList "config-2".toList sampleSides).nextEvidence.action =
        .collectMissingScenarios ∧
      (comparison firstChoice 0 "config-1".toList "config-2".toList
        sampleSides).nextEvidence.pilotIds ≠ [] := by
  have h := nextEvidence_complete firstChoice samplePair
    (comparison firstChoice 0 "config-1".toList "config-2".toList sampleSides)
    (List.mem_singleton.mpr rfl)
  rw [comparison_eligible] at h
  exact ⟨by decide, (h.1 (by decide)).2.1⟩

end Sample

end Round5
