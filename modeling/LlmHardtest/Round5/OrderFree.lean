import LlmHardtest.Round5.Reordered
set_option autoImplicit false

/-! How far the analysis depends on the order of the run directories. Everything but the resampling
of attempts is made of means, counts and sorted names. That resampling draws by position from lists
in the order of the attempts, so these have to come out the same. -/

namespace Round5
open Python Binary64

/-! Two configurations, each with its attempts in another order. -/

structure Sides.Reordered (s t : Sides) : Prop where
  left : s.left.Perm t.left
  right : s.right.Perm t.right

namespace Sides.Reordered
variable {s t : Sides} (h : s.Reordered t)
include h

theorem leftObserved (p : PilotId) : p ∈ s.leftObserved ↔ p ∈ t.leftObserved :=
  (h.left.map _).mem_iff

theorem rightObserved (p : PilotId) : p ∈ s.rightObserved ↔ p ∈ t.rightObserved :=
  (h.right.map _).mem_iff

theorem ambiguous : s.ambiguous = t.ambiguous := by
  have hobserved : sortedPilots (s.leftObserved ++ s.rightObserved) =
      sortedPilots (t.leftObserved ++ t.rightObserved) :=
    sortedPilots_congr fun p => by
      simp only [List.mem_append, h.leftObserved, h.rightObserved]
  simp only [Sides.ambiguous, hobserved, packsOf_perm h.left, packsOf_perm h.right]

theorem leftKeys (p : PilotId) : p ∈ s.leftKeys ↔ p ∈ t.leftKeys := by
  simp only [Sides.leftKeys, List.mem_append, h.leftObserved, h.rightObserved]

theorem rightKeys (p : PilotId) : p ∈ s.rightKeys ↔ p ∈ t.rightKeys := by
  simp only [Sides.rightKeys, List.mem_append, List.mem_filter, h.leftObserved, h.rightObserved,
    packsOf_perm h.left]

theorem mismatched : s.mismatched = t.mismatched := by
  simp only [Sides.mismatched, h.leftKeys, h.rightKeys, packsOf_perm h.left, packsOf_perm h.right]

theorem missingLeft : s.missingLeft = t.missingLeft := missingPilots_congr h.leftKeys

theorem missingRight : s.missingRight = t.missingRight := missingPilots_congr h.rightKeys

theorem missing : s.missing = t.missing := by
  simp only [Sides.missing, h.missingLeft, h.missingRight]

theorem sharedKeys : s.sharedKeys = t.sharedKeys := by
  simp only [Sides.sharedKeys, scenarioKeys_perm h.left, scenarioKeys_perm h.right]

theorem leftRows (key : PilotId × Str) : (s.leftRows key).Perm (t.leftRows key) :=
  (h.left.filter _).map _

theorem rightRows (key : PilotId × Str) : (s.rightRows key).Perm (t.rightRows key) :=
  (h.right.filter _).map _

theorem versions : s.versions = t.versions := by
  simp only [Sides.versions, h.sharedKeys,
    sharedVersion_perm _ _ (h.leftRows _) (h.rightRows _)]

theorem scenarioAttempts (key : PilotId × Str) (p : Metrics → Bool) :
    (s.scenarioAttempts key).any p = (t.scenarioAttempts key).any p :=
  any_eq_of_perm ((h.leftRows key).append (h.rightRows key)) p

theorem deficits : s.deficits = t.deficits := by
  simp only [Sides.deficits, h.versions]

theorem sharedPilots : s.sharedPilots = t.sharedPilots := by
  simp only [Sides.sharedPilots, h.sharedKeys]

theorem invalidPilots : s.invalidPilots = t.invalidPilots := by
  simp only [Sides.invalidPilots, h.sharedKeys, h.scenarioAttempts]

theorem unobservedPilots : s.unobservedPilots = t.unobservedPilots := by
  simp only [Sides.unobservedPilots, h.sharedKeys, h.scenarioAttempts]

theorem gates : s.gates = t.gates := by
  simp only [Sides.gates, h.versions, h.sharedPilots, h.ambiguous, h.deficits, h.sharedKeys,
    h.scenarioAttempts]

theorem effects : s.effects = t.effects := by
  simp only [Sides.effects, h.versions]

theorem eligible : s.eligible = t.eligible := by
  simp only [Sides.eligible, h.gates, h.effects, h.versions]

theorem nextPairEvidence (status : SeparationStatus) (robustness : Robustness) :
    Round5.nextPairEvidence s status robustness = Round5.nextPairEvidence t status robustness := by
  rw [Round5.nextPairEvidence, Round5.nextPairEvidence, h.ambiguous, h.mismatched, h.invalidPilots,
    h.missing, h.missingLeft, h.missingRight, h.deficits, h.unobservedPilots, h.versions]

theorem directionalEffects : s.directionalInputs.filterMap DirectionalInput.effect =
    t.directionalInputs.filterMap DirectionalInput.effect := by
  have heffect : ∀ key : PilotId × Str,
      (⟨key.1, key.2, (s.leftRows key).filterMap outcomeMean,
        (s.rightRows key).filterMap outcomeMean⟩ : DirectionalInput).effect =
      (⟨key.1, key.2, (t.leftRows key).filterMap outcomeMean,
        (t.rightRows key).filterMap outcomeMean⟩ : DirectionalInput).effect := by
    intro key
    have hl := (h.leftRows key).filterMap outcomeMean
    have hr := (h.rightRows key).filterMap outcomeMean
    simp only [DirectionalInput.effect, hl.isEmpty_eq, hr.isEmpty_eq, average_perm hl,
      average_perm hr]
  simp only [Sides.directionalInputs, List.filterMap_map, Function.comp_def, heffect, h.sharedKeys]

theorem directionalAdvantage (rng : Generator) (left right : Str) (familySize : Nat) :
    Round5.directionalAdvantage rng s.directionalInputs false left right familySize =
      Round5.directionalAdvantage rng t.directionalInputs false left right familySize := by
  simp only [Round5.directionalAdvantage, Bool.false_and, Bool.false_eq_true, if_false,
    h.directionalEffects]

theorem comparison (rng : Generator) (familySize : Nat) (left right : Str)
    (hinputs : s.eligible = true → s.directionalInputs = t.directionalInputs) :
    Round5.comparison rng familySize left right s = Round5.comparison rng familySize left right t := by
  cases hs : s.eligible with
  | true =>
    simp only [Round5.comparison, h.eligible, h.effects, h.versions, h.sharedPilots, h.gates,
      h.nextPairEvidence, hinputs hs]
  | false =>
    have hdirectional := h.directionalAdvantage rng left right familySize
    have ht : t.eligible = false := h.eligible ▸ hs
    simp only [Round5.comparison, h.effects, h.versions, h.sharedPilots, h.gates,
      h.nextPairEvidence, hs, ht, hdirectional, directionalRobustness, true_or, if_true]

end Sides.Reordered

/-! The analysis of reordered attempts. -/

section Attempts
variable {xs ys : List PilotAttempt} (h : xs.Perm ys)
include h

theorem sides_reordered (i j : Str) : Sides.Reordered ⟨ofIdentity xs i, ofIdentity xs j⟩
    ⟨ofIdentity ys i, ofIdentity ys j⟩ :=
  ⟨ofIdentity_perm h i, ofIdentity_perm h j⟩

theorem comparisons_perm (rng : Generator)
    (hinputs : ∀ p ∈ pairs (identities xs),
      (⟨ofIdentity xs p.1, ofIdentity xs p.2⟩ : Sides).eligible = true →
      (⟨ofIdentity xs p.1, ofIdentity xs p.2⟩ : Sides).directionalInputs =
        (⟨ofIdentity ys p.1, ofIdentity ys p.2⟩ : Sides).directionalInputs) :
    comparisons rng xs = comparisons rng ys := by
  have hfamily : (sidePairs xs).countP (fun p => p.2.eligible) =
      (sidePairs ys).countP fun p => p.2.eligible := by
    simp only [sidePairs, identities_perm h, List.countP_map, Function.comp_def,
      (sides_reordered h _ _).eligible]
  simp only [comparisons, hfamily, aliasOf_perm h]
  simp only [sidePairs, ← identities_perm h, List.map_map, Function.comp_def]
  exact List.map_congr_left fun p hp =>
    (sides_reordered h p.1 p.2).comparison rng _ _ _ (hinputs p hp)

theorem analyzeAttempts_perm (rng : Generator) (labels : Bool) (n : Nat)
    (hinputs : ∀ p ∈ pairs (identities xs),
      (⟨ofIdentity xs p.1, ofIdentity xs p.2⟩ : Sides).eligible = true →
      (⟨ofIdentity xs p.1, ofIdentity xs p.2⟩ : Sides).directionalInputs =
        (⟨ofIdentity ys p.1, ofIdentity ys p.2⟩ : Sides).directionalInputs) :
    analyzeAttempts rng labels n xs = analyzeAttempts rng labels n ys := by
  have hgroup : ∀ key : PilotId × Str, groupAnalysis labels (aliasOf ys) key.1 key.2
      (xs.filter fun a => a.pilotId = key.1 ∧ a.pack = key.2) =
      groupAnalysis labels (aliasOf ys) key.1 key.2
        (ys.filter fun a => a.pilotId = key.1 ∧ a.pack = key.2) :=
    fun key => groupAnalysis_perm (h.filter _) _ _ _ _
  simp only [analyzeAttempts, portfolio, scenarioKeys_perm h, aliasOf_perm h, hgroup,
    portfolioConfigurations_perm h, comparisons_perm h rng hinputs]

end Attempts

/-! The lists that attempts are drawn from, directory by directory. -/

/-- The outcomes that a run directory adds to the list of a configuration at a pilot and pack. -/
def observedOutcomes (identity : Str) (key : PilotId × Str) (run : List PilotAttempt) : List ℚ :=
  (((ofIdentity run identity).filter fun a => a.pilotId = key.1 ∧ a.pack = key.2).map
    (·.metrics)).filterMap outcomeMean

/-- Wherever a pair of configurations is eligible, the outcomes of any two directories are the same
list whichever directory comes first. -/
def Interchangeable (runs : List (List PilotAttempt)) : Prop :=
  ∀ p ∈ sidePairs runs.flatten, p.2.eligible = true → ∀ key ∈ p.2.sharedKeys,
    ∀ identity ∈ [p.1.1, p.1.2], ∀ x ∈ runs, ∀ y ∈ runs,
      observedOutcomes identity key x ++ observedOutcomes identity key y =
        observedOutcomes identity key y ++ observedOutcomes identity key x

instance : DecidablePred Interchangeable :=
  fun _ => inferInstanceAs (Decidable (∀ p ∈ _, _))

def InterchangeableRuns (r : Release) (dirs : List RunDirectory) : Prop :=
  ∀ runs, dirs.mapM (collectRun r) = .ok runs → Interchangeable runs

/-- Lists that commute with each other are joined to the same list in any order. -/
theorem flatMap_eq_of_commute {α β : Type} {f : α → List β} {xs ys : List α} (h : xs.Perm ys)
    (hf : ∀ x ∈ xs, ∀ y ∈ xs, f x ++ f y = f y ++ f x) : xs.flatMap f = ys.flatMap f := by
  have hjoin : ∀ zs : List α, zs.flatMap f = zs.foldl (fun acc z => acc ++ f z) [] := by
    intro zs
    rw [List.flatMap_eq_foldl]
  rw [hjoin, hjoin]
  refine h.foldl_eq' (fun x hx y hy acc => ?_) []
  rw [List.append_assoc, List.append_assoc, hf x hx y hy]

theorem observedOutcomes_flatten (identity : Str) (key : PilotId × Str)
    (runs : List (List PilotAttempt)) : observedOutcomes identity key runs.flatten =
      runs.flatMap (observedOutcomes identity key) := by
  induction runs with
  | nil => rfl
  | cons run runs ih =>
    rw [List.flatten_cons, List.flatMap_cons, ← ih]
    simp only [observedOutcomes, ofIdentity, List.filter_append, List.map_append,
      List.filterMap_append]

theorem directionalInputs_eq {runs runs' : List (List PilotAttempt)} (h : runs.Perm runs')
    (hruns : Interchangeable runs) {p : Str × Str} (hp : p ∈ pairs (identities runs.flatten))
    (heligible : (⟨ofIdentity runs.flatten p.1, ofIdentity runs.flatten p.2⟩ : Sides).eligible = true) :
    (⟨ofIdentity runs.flatten p.1, ofIdentity runs.flatten p.2⟩ : Sides).directionalInputs =
      (⟨ofIdentity runs'.flatten p.1, ofIdentity runs'.flatten p.2⟩ : Sides).directionalInputs := by
  have hreordered := sides_reordered h.flatten p.1 p.2
  have hmem : (p, (⟨ofIdentity runs.flatten p.1, ofIdentity runs.flatten p.2⟩ : Sides)) ∈
      sidePairs runs.flatten := List.mem_map.mpr ⟨p, hp, rfl⟩
  have hside : ∀ key ∈ (⟨ofIdentity runs.flatten p.1, ofIdentity runs.flatten p.2⟩ : Sides).sharedKeys,
      ∀ identity ∈ [p.1, p.2], observedOutcomes identity key runs.flatten =
        observedOutcomes identity key runs'.flatten := by
    intro key hkey identity hidentity
    rw [observedOutcomes_flatten, observedOutcomes_flatten]
    exact flatMap_eq_of_commute h fun x hx y hy =>
      hruns _ hmem heligible key hkey identity hidentity x hx y hy
  rw [Sides.directionalInputs, Sides.directionalInputs, ← hreordered.sharedKeys]
  refine List.map_congr_left fun key hkey => ?_
  have hl := hside key hkey p.1 (by simp)
  have hr := hside key hkey p.2 (by simp)
  exact congrArg₂ (DirectionalInput.mk key.1 key.2) hl hr

theorem collectPilotAttempts_intro {r : Release} {dirs : List RunDirectory}
    {runs : List (List PilotAttempt)} (hnodup : (dirs.map (·.path)).Nodup)
    (hruns : dirs.mapM (collectRun r) = .ok runs) (hempty : runs.flatten.isEmpty = false) :
    collectPilotAttempts r dirs = .ok runs.flatten := by
  unfold collectPilotAttempts
  refine require_bind.mpr ⟨decide_eq_true hnodup, ?_⟩
  rw [hruns, Outcome.ok_bind]
  exact require_bind.mpr ⟨by rw [hempty]; rfl, rfl⟩

/-- Accepted run directories whose attempts are interchangeable can be listed in any order. -/
theorem analyzePilots_perm {r : Release} {dirs dirs' : List RunDirectory}
    {attempts : List PilotAttempt} (haccepted : collectPilotAttempts r dirs = .ok attempts)
    (hruns : InterchangeableRuns r dirs) (h : dirs.Perm dirs') (rng : Generator) (labels : Bool) :
    analyzePilots r rng labels dirs' = analyzePilots r rng labels dirs := by
  obtain ⟨hnodup, runs, hcollected, hempty, rfl⟩ := collectPilotAttempts_ok haccepted
  obtain ⟨runs', hcollected', hperm⟩ := mapM_perm h hcollected
  have haccepted' : collectPilotAttempts r dirs' = .ok runs'.flatten :=
    collectPilotAttempts_intro ((h.map (·.path)).nodup_iff.mp hnodup) hcollected'
      (hperm.flatten.isEmpty_eq ▸ hempty)
  rw [analyzePilots, analyzePilots, haccepted, haccepted', Outcome.ok_bind, Outcome.ok_bind,
    h.length_eq]
  exact (analyzeAttempts_perm hperm.flatten rng labels dirs'.length fun p hp heligible =>
    directionalInputs_eq hperm (hruns runs hcollected) hp heligible).symm

/-! Runs of two configurations. -/

section Sample

deriving instance DecidableEq for Score
deriving instance DecidableEq for Metrics
deriving instance DecidableEq for PilotAttempt

def sampleGrading : Grading := ⟨[], [], fun _ => true, fun _ => true, fun _ => true⟩

def sampleRelease : Release where
  interpreter := Interpreter.ofTable []
  checks := ⟨asciiData, exactFloats, fun _ => true⟩
  grading _ := .ok sampleGrading
  fingerprintContract _ _ := .ok (sampleGrading, [])
  modelIdentity model := (Json.field model "model").showShort

def savedTurn (number : Nat) : Json :=
  .obj [("returncode".toList, .int 0), ("timed_out".toList, .bool false),
    ("content".toList, .str "x".toList), ("sandbox".toList, .str (sandboxOf number)),
    ("output_valid".toList, .bool true)]

def savedScore (passed : Nat) : Json :=
  .obj [("passed".toList, .int passed), ("total".toList, .int 4), ("timed_out".toList, .bool false)]

def savedGrade (pilotId : PilotId) (attempt passed : Nat) : Json :=
  .obj [("pilot_id".toList, .str pilotId.text), ("attempt".toList, .int attempt),
    ("status".toList, .str "COMPLETE".toList), ("turns_completed".toList, .int 3),
    ("no_edit_before_approval".toList, .bool true),
    ("evidence_revision_observed".toList, .bool true),
    ("release_ready".toList, .bool (decide (passed = 4))),
    ("final_report".toList, .obj [("accurate".toList, .bool false)]),
    ("public".toList, savedScore 4), ("hidden".toList, savedScore passed),
    ("final_changed_files".toList, .arr []),
    ("turns".toList, .arr [savedTurn 1, savedTurn 2, savedTurn 3])]

def savedModel (key : String) : Json :=
  .obj [("key".toList, .str key.toList), ("model".toList, .str key.toList)]

def sampleRun (path : String) (pilotId : PilotId) (scores : List (String × Nat × Nat)) :
    RunDirectory where
  path := path.toList
  config := .ok (.obj [("models".toList, .arr [savedModel "a", savedModel "b"])])
  pilotSummary := .ok (.obj [("schema_version".toList, .int 1),
    ("canonical_score".toList, .bool false), ("pilot_id".toList, .str pilotId.text),
    ("pack".toList, .str ("sha256:".toList ++ List.replicate 64 '0')),
    ("attempts".toList, .arr (scores.map fun s => .obj [("model".toList, .str s.1.toList),
      ("grade".toList, savedGrade pilotId s.2.1 s.2.2)]))])
  researchGrade key attempt :=
    match scores.find? fun s => s.1.toList = key ∧ (s.2.1 : Int) = attempt with
    | some s => .ok (savedGrade pilotId s.2.1 s.2.2)
    | none => .error (.valueError "missing pilot evidence file".toList)
  evidence _ _ := ⟨fun _ => some [], []⟩

def sampleScores (passed : Nat) : List (String × Nat × Nat) :=
  [("a", 1, passed), ("a", 2, passed), ("b", 1, 2), ("b", 2, 2)]

def repeatRun (path : String) (passed : Nat) : RunDirectory :=
  sampleRun path .q32RetryCompatibility [("a", 1, passed), ("b", 1, 2)]

def sampleDirs (first second : RunDirectory) : List RunDirectory :=
  [first, second, sampleRun "r" .q33BatchDelivery (sampleScores 2),
    sampleRun "s" .q34ConfigOverlay (sampleScores 2)]

/-! With a generator that always takes the first value, every draw is the difference of the first
attempts at the first scenario. -/

theorem repeated_firstChoice {β : Type} {step : firstChoice.State → β × firstChoice.State} {b : β}
    (h : ∀ s, step s = (b, s)) (n : Nat) (s : firstChoice.State) :
    repeated firstChoice step n s = (List.replicate n b, s) := by
  induction n with
  | zero => rfl
  | succ n ih =>
    unfold repeated
    simp only [h, ih, List.replicate_succ]

theorem average_replicate {n : Nat} (hn : 0 < n) (x : ℚ) : average (List.replicate n x) = x := by
  have hn' : (n : ℚ) ≠ 0 := by exact_mod_cast hn.ne'
  rw [average, List.sum_replicate, List.length_replicate, nsmul_eq_mul]
  field_simp

theorem resampledMean_firstChoice {x : ℚ} (hx : nearest x = x) (xs : List ℚ) (s : firstChoice.State) :
    resampledMean firstChoice (x :: xs) s = (x, s) := by
  have hchoice : ∀ t, choice firstChoice (x :: xs) t = (x, t) := fun _ => rfl
  unfold resampledMean
  simp only [repeated_firstChoice hchoice, List.length_cons,
    average_replicate (Nat.succ_pos xs.length), hx]

section Draws
variable {l r : ℚ} {ls rs : List ℚ} {p : PilotId} {pack : Str} {rest : List DirectionalInput}
variable (hl : nearest l = l) (hr : nearest r = r) (hlr : nearest (l - r) = l - r)
include hl hr hlr

theorem resampledEffect_firstChoice (s : firstChoice.State) :
    resampledEffect firstChoice (⟨p, pack, l :: ls, r :: rs⟩ :: rest) s = (l - r, s) := by
  have hchoice : choice firstChoice (⟨p, pack, l :: ls, r :: rs⟩ :: rest) s =
      (⟨p, pack, l :: ls, r :: rs⟩, s) := rfl
  unfold resampledEffect
  simp only [hchoice, resampledMean_firstChoice hl, resampledMean_firstChoice hr, hlr]

theorem directionalBootstrapDraws_firstChoice (h : 2 ≤ rest.length) (samples : Nat) :
    directionalBootstrapDraws firstChoice (⟨p, pack, l :: ls, r :: rs⟩ :: rest) samples =
      some (List.replicate samples (l - r)) := by
  have hlong : ¬ (⟨p, pack, l :: ls, r :: rs⟩ :: rest : List DirectionalInput).length <
      minSharedScenarios := by
    simp only [List.length_cons, minSharedScenarios]
    omega
  rw [directionalBootstrapDraws, if_neg hlong]
  refine congrArg (fun d => some (Prod.fst d)) (repeated_firstChoice (fun s => ?_) samples _)
  simp only [repeated_firstChoice (resampledEffect_firstChoice hl hr hlr), List.length_cons,
    average_replicate (Nat.succ_pos rest.length), hlr]

/-- The configuration that such draws favour. -/
theorem favored_firstChoice (h : 2 ≤ rest.length)
    (heffects : ((⟨p, pack, l :: ls, r :: rs⟩ :: rest).filterMap DirectionalInput.effect).length =
      rest.length + 1) {n : ℤ} (hn : l - r = n / 10 ^ 6) (hone : |l - r| ≤ 1) (left right : Str) :
    (directionalAdvantage firstChoice (⟨p, pack, l :: ls, r :: rs⟩ :: rest) true left right
      1).favoredConfiguration =
    if minDirectionalAdvantage < l - r then some left
    else if l - r < -minDirectionalAdvantage then some right else none := by
  have hsamples : 0 < bootstrapSampleCount 1 :=
    lt_of_lt_of_le (by decide : 0 < bootstrapSamples) (le_max_left _ _)
  have hround (q : ℚ) (hq : 0 ≤ q) :
      roundDigits 6 (drawPercentile (List.replicate (bootstrapSampleCount 1) (l - r)) q) = l - r := by
    have herror := drawPercentile_replicate hsamples hone hq
    rw [hn] at herror ⊢
    exact roundDigits_near (herror.trans_lt (by norm_num))
  have hlower : 0 ≤ nearest (nearest (1 - familyConfidence 1) / 2) := by decide +kernel
  have hupper : 0 ≤ nearest (1 - nearest (nearest (1 - familyConfidence 1) / 2)) := by decide +kernel
  simp only [directionalAdvantage, heffects, List.length_cons, decide_true, Bool.and_self, if_true,
    directionalBootstrapDraws_firstChoice hl hr hlr h, drawInterval, Option.map_some,
    hround _ hlower, hround _ hupper, directionalClassification]
  split_ifs <;> rfl

end Draws

def favored (o : Outcome Analysis) : List (Option Str) :=
  match o with
  | .ok a => a.portfolio.pairwise.map (·.directionalAdvantage.favoredConfiguration)
  | .error _ => []

def favoredInputs (attempts : List PilotAttempt) : List (Str × Str × Bool × List DirectionalInput) :=
  (sidePairs attempts).map fun p => (aliasOf attempts p.1.1, aliasOf attempts p.1.2, p.2.eligible,
    p.2.directionalInputs)

theorem favored_eq {rng : Generator} {labels : Bool} {n : Nat} {attempts : List PilotAttempt}
    (h : (analyzeAttempts rng labels n attempts).isOk = true) :
    favored (analyzeAttempts rng labels n attempts) = (favoredInputs attempts).map fun i =>
      (directionalAdvantage rng i.2.2.2 i.2.2.1 i.1 i.2.1
        ((favoredInputs attempts).countP fun j => j.2.2.1)).favoredConfiguration := by
  obtain ⟨a, ha⟩ := Failures.isOk_iff.mp h
  rw [ha]
  simp only [favored, analyzeAttempts_pairwise ha, comparisons, favoredInputs, List.map_map,
    List.countP_map, Function.comp_def]
  rfl

def sampleAttempts (first second : RunDirectory) : List PilotAttempt :=
  (collectPilotAttempts sampleRelease (sampleDirs first second)).toOption.getD []

theorem sampleAttempts_spec {first second : RunDirectory}
    (h : (collectPilotAttempts sampleRelease (sampleDirs first second)).isOk = true) :
    collectPilotAttempts sampleRelease (sampleDirs first second) =
      .ok (sampleAttempts first second) := by
  obtain ⟨attempts, hattempts⟩ := Failures.isOk_iff.mp h
  rw [sampleAttempts, hattempts]
  rfl

def sampleInputs (lefts : List ℚ) : List DirectionalInput :=
  let pack := "sha256:".toList ++ List.replicate 64 '0'
  let same : List ℚ := [11 / 16, 11 / 16]
  [⟨.q32RetryCompatibility, pack, lefts, same⟩, ⟨.q33BatchDelivery, pack, same, same⟩,
    ⟨.q34ConfigOverlay, pack, same, same⟩]

theorem better_first : favoredInputs (sampleAttempts (repeatRun "p" 4) (repeatRun "q" 0)) =
    [("config-1".toList, "config-2".toList, true, sampleInputs [7 / 8, 5 / 8])] := by
  decide +kernel

theorem worse_first : favoredInputs (sampleAttempts (repeatRun "q" 0) (repeatRun "p" 4)) =
    [("config-1".toList, "config-2".toList, true, sampleInputs [5 / 8, 7 / 8])] := by
  decide +kernel

theorem favored_sample {first second : RunDirectory} {lefts : List ℚ} {l : ℚ} {ls : List ℚ}
    (hcollect : (collectPilotAttempts sampleRelease (sampleDirs first second)).isOk = true)
    (hanalyze : (analyzeAttempts firstChoice false 4 (sampleAttempts first second)).isOk = true)
    (hinputs : favoredInputs (sampleAttempts first second) =
      [("config-1".toList, "config-2".toList, true, sampleInputs lefts)]) (hl : lefts = l :: ls)
    (hfloat : nearest l = l ∧ nearest (l - 11 / 16) = l - 11 / 16) {n : ℤ}
    (hn : l - 11 / 16 = n / 10 ^ 6) (hone : |l - 11 / 16| ≤ 1) :
    favored (analyzePilots sampleRelease firstChoice false (sampleDirs first second)) =
      [if minDirectionalAdvantage < l - 11 / 16 then some "config-1".toList
        else if l - 11 / 16 < -minDirectionalAdvantage then some "config-2".toList
        else none] := by
  subst hl
  have hanalysis : analyzePilots sampleRelease firstChoice false (sampleDirs first second) =
      analyzeAttempts firstChoice false 4 (sampleAttempts first second) := by
    rw [analyzePilots, sampleAttempts_spec hcollect, Outcome.ok_bind]
    rfl
  rw [hanalysis, favored_eq hanalyze, hinputs]
  simp only [List.map_cons, List.map_nil, List.countP_singleton, if_true]
  rw [sampleInputs, favored_firstChoice hfloat.1 (by decide +kernel) hfloat.2 (le_refl 2) (by rfl) hn hone]

/-- Swapping two run directories can favour the other configuration. -/
theorem sampleDirs_swapped : ¬ ∀ (r : Release) (dirs dirs' : List RunDirectory)
    (attempts : List PilotAttempt), collectPilotAttempts r dirs = .ok attempts → dirs.Perm dirs' →
    ∀ (rng : Generator) (labels : Bool),
      analyzePilots r rng labels dirs' = analyzePilots r rng labels dirs := by
  intro h
  have hsame := h sampleRelease (sampleDirs (repeatRun "p" 4) (repeatRun "q" 0))
    (sampleDirs (repeatRun "q" 0) (repeatRun "p" 4)) _
    (sampleAttempts_spec (by decide +kernel)) (List.Perm.swap _ _ _) firstChoice false
  have hbetter := favored_sample (by decide +kernel) (by decide +kernel) better_first rfl
    (by decide +kernel) (n := 187500) (by norm_num) (by decide +kernel)
  have hworse := favored_sample (by decide +kernel) (by decide +kernel) worse_first rfl
    (by decide +kernel) (n := -62500) (by norm_num) (by decide +kernel)
  rw [hsame, hbetter] at hworse
  revert hworse
  decide +kernel

/-- Two runs with the same scores can be listed either way round. -/
theorem sampleDirs_equal :
    analyzePilots sampleRelease firstChoice false (sampleDirs (repeatRun "q" 4) (repeatRun "p" 4)) =
      analyzePilots sampleRelease firstChoice false
        (sampleDirs (repeatRun "p" 4) (repeatRun "q" 4)) := by
  refine analyzePilots_perm (sampleAttempts_spec (by decide +kernel)) ?_ (List.Perm.swap _ _ _)
    firstChoice false
  intro runs hruns
  have hinterchangeable : Interchangeable (((sampleDirs (repeatRun "p" 4) (repeatRun "q" 4)).mapM
      (collectRun sampleRelease)).toOption.getD []) := by
    decide +kernel
  rw [hruns] at hinterchangeable
  exact hinterchangeable

end Sample

end Round5
