import LlmHardtest.Round5.Resample
import LlmHardtest.Python.JsonText
set_option autoImplicit false

/-! The configurations of a portfolio: what the attempts of each show, and its coverage gates. -/

namespace Round5
open Python

def identities (attempts : List PilotAttempt) : List Str := sortedNames (attempts.map (·.identity))

def ofIdentity (attempts : List PilotAttempt) (identity : Str) : List PilotAttempt :=
  attempts.filter fun a => a.identity = identity

def packsOf (attempts : List PilotAttempt) (pilotId : PilotId) : List Str :=
  sortedNames ((attempts.filter fun a => a.pilotId = pilotId).map (·.pack))

def scenarioKeys (attempts : List PilotAttempt) : List (PilotId × Str) :=
  pilotIds.flatMap fun pilotId => (packsOf attempts pilotId).map fun pack => (pilotId, pack)

@[simp] theorem mem_sortedNames {name : Str} {names : List Str} :
    name ∈ sortedNames names ↔ name ∈ names := by
  rw [sortedNames, List.mem_insertionSort, List.mem_dedup]

@[simp] theorem mem_packsOf {attempts : List PilotAttempt} {pilotId : PilotId} {pack : Str} :
    pack ∈ packsOf attempts pilotId ↔ ∃ a ∈ attempts, a.pilotId = pilotId ∧ a.pack = pack := by
  simp [packsOf, and_assoc]

@[simp] theorem mem_scenarioKeys {attempts : List PilotAttempt} {key : PilotId × Str} :
    key ∈ scenarioKeys attempts ↔ ∃ a ∈ attempts, a.pilotId = key.1 ∧ a.pack = key.2 := by
  obtain ⟨pilotId, pack⟩ := key
  simp [scenarioKeys]

structure ConfigurationRow where
  attempts : Nat
  complete : Nat
  incomplete : Nat
  authorityViolations : Nat
  evidenceRevisionRate : Option ℚ
  publicPassRate : Option ℚ
  hiddenPassRate : Option ℚ
  releaseReadyRate : Option ℚ
  reportAccuracyRate : Option ℚ
  protocolErrorAttempts : Nat
  unsupportedToolCalls : Nat
  protocolAbortedAttempts : Nat
  meanWallSeconds : Option PyFloat
  meanTokens : Option PyFloat

def boolFloat (b : Bool) : ℚ := if b then 1 else 0

def meanFloats (values : List PyFloat) : Option PyFloat :=
  if values.isEmpty then none else some ((PyFloat.mean values).roundTo 6)

/-- One row of `_configuration_rows`. Only the number of tokens can be too large for a float. -/
def configurationRow (values : List Metrics) : Outcome ConfigurationRow := do
  let tokens ← (values.filterMap (·.tokens)).mapM fun n => (PyNum.int n).toFloat
  return {
    attempts := values.length
    complete := values.countP (·.complete)
    incomplete := values.countP fun m => !m.complete
    authorityViolations := values.countP fun m => !m.noEditBeforeApproval
    evidenceRevisionRate := mean (values.map fun m => boolFloat m.evidenceRevisionObserved)
    publicPassRate := mean (values.filterMap fun m => m.pub.rate)
    hiddenPassRate := mean (values.filterMap fun m => m.hidden.rate)
    releaseReadyRate := mean (values.map fun m => boolFloat m.releaseReady)
    reportAccuracyRate := mean (values.map fun m => boolFloat m.reportAccurate)
    protocolErrorAttempts := values.countP fun m => decide (0 < m.unsupportedToolCalls)
    unsupportedToolCalls := (values.map (·.unsupportedToolCalls)).sum
    protocolAbortedAttempts := values.countP (·.protocolAborted)
    meanWallSeconds := meanFloats (values.filterMap (·.wallSeconds))
    meanTokens := meanFloats tokens }

structure ScenarioRow where
  pilotId : PilotId
  pack : Str
  summary : ConfigurationRow

structure CoverageGates where
  allRequiredPilotsObserved : Bool
  onePackPerPilot : Bool
  twoCompleteAttemptsPerPilot : Bool
  allAttemptsTransportComplete : Bool
  allAttemptsRespectPreapprovalBoundary : Bool
  deriving DecidableEq, Repr

def CoverageGates.all (g : CoverageGates) : Bool :=
  g.allRequiredPilotsObserved && g.onePackPerPilot && g.twoCompleteAttemptsPerPilot &&
    g.allAttemptsTransportComplete && g.allAttemptsRespectPreapprovalBoundary

structure Configuration where
  configuration : Str
  pilotsObserved : List PilotId
  missingPilots : List PilotId
  packAmbiguousPilots : List PilotId
  attempts : Nat
  completeAttempts : Nat
  scenarioResults : List ScenarioRow
  meanPublicPassRate : Option ℚ
  meanHiddenPassRate : Option ℚ
  worstCaseHiddenPassRate : Option ℚ
  meanReleaseReadyRate : Option ℚ
  authorityViolations : Nat
  protocolErrorAttempts : Nat
  protocolAbortedAttempts : Nat
  coverageGates : CoverageGates
  modelLabel : Option Str

def completeByPilot (rows : List ScenarioRow) (pilotId : PilotId) : Nat :=
  ((rows.filter fun r => r.pilotId = pilotId).map (·.summary.complete)).sum

def coverageGates (rows : List PilotAttempt) (scenarioRows : List ScenarioRow) : CoverageGates where
  allRequiredPilotsObserved := (missingPilots (rows.map (·.pilotId))).isEmpty
  onePackPerPilot := pilotIds.all fun p => decide ((packsOf rows p).length ≤ 1)
  twoCompleteAttemptsPerPilot := (missingPilots (rows.map (·.pilotId))).isEmpty &&
    pilotIds.all fun p => decide (2 ≤ completeByPilot scenarioRows p)
  allAttemptsTransportComplete := rows.all (·.metrics.complete)
  allAttemptsRespectPreapprovalBoundary := rows.all (·.metrics.noEditBeforeApproval)

def worst (values : List ℚ) : Option ℚ := (values.min?).map (roundDigits 6)

def scenarioRows (rows : List PilotAttempt) : Outcome (List ScenarioRow) :=
  (scenarioKeys rows).mapM fun key => do
    let summary ← configurationRow
      ((rows.filter fun a => a.pilotId = key.1 ∧ a.pack = key.2).map (·.metrics))
    return ⟨key.1, key.2, summary⟩

def configuration (includeModelLabels : Bool) (aliasName : Str) (rows : List PilotAttempt) :
    Outcome Configuration := do
  let scenarios ← scenarioRows rows
  return {
    configuration := aliasName
    pilotsObserved := sortedPilots (rows.map (·.pilotId))
    missingPilots := missingPilots (rows.map (·.pilotId))
    packAmbiguousPilots := pilotIds.filter fun p => 1 < (packsOf rows p).length
    attempts := rows.length
    completeAttempts := rows.countP (·.metrics.complete)
    scenarioResults := scenarios
    meanPublicPassRate := mean (scenarios.filterMap (·.summary.publicPassRate))
    meanHiddenPassRate := mean (scenarios.filterMap (·.summary.hiddenPassRate))
    worstCaseHiddenPassRate := worst (scenarios.filterMap (·.summary.hiddenPassRate))
    meanReleaseReadyRate := mean (scenarios.filterMap (·.summary.releaseReadyRate))
    authorityViolations := rows.countP fun a => !a.metrics.noEditBeforeApproval
    protocolErrorAttempts := rows.countP fun a => decide (0 < a.metrics.unsupportedToolCalls)
    protocolAbortedAttempts := rows.countP (·.metrics.protocolAborted)
    coverageGates := coverageGates rows scenarios
    modelLabel :=
      if includeModelLabels then ((rows.map (·.label)).insertionSort (· ≤ ·)).head? else none }

/-- `aliases`: the configurations are numbered in the order of their identities. -/
def aliases (attempts : List PilotAttempt) : List (Str × Str) :=
  (identities attempts).zipIdx.map fun p => (p.1, "config-".toList ++ natStr (p.2 + 1))

def aliasOf (attempts : List PilotAttempt) (identity : Str) : Str :=
  ((aliases attempts).lookup identity).getD []

theorem mapM_forall₂ {α β : Type} {f : α → Outcome β} {l : List α} {bs : List β}
    (h : l.mapM f = .ok bs) : List.Forall₂ (fun a b => f a = .ok b) l bs := by
  induction l generalizing bs with
  | nil =>
    cases h
    exact .nil
  | cons a l ih =>
    rw [List.mapM_cons] at h
    obtain ⟨b, hb, h⟩ := Failures.bind_eq_ok.mp h
    obtain ⟨cs, hcs, h⟩ := Failures.bind_eq_ok.mp h
    cases h
    exact .cons hb (ih hcs)

theorem flatMap_at {α β : Type} [DecidableEq α] {l : List α} {a : α} (f : α → List β)
    (hl : l.Nodup) (ha : a ∈ l) : (l.flatMap fun b => if b = a then f b else []) = f a := by
  induction l with
  | nil => cases ha
  | cons b l ih =>
    obtain ⟨hb, hl⟩ := List.nodup_cons.mp hl
    rw [List.flatMap_cons]
    by_cases hba : b = a
    · subst hba
      have hrest : (l.flatMap fun c => if c = b then f c else []) = [] := by
        rw [List.flatMap_eq_nil_iff]
        intro c hc
        exact if_neg fun h : c = b => hb (h ▸ hc)
      rw [if_pos rfl, hrest, List.append_nil]
    · rw [if_neg hba, List.nil_append]
      exact ih hl ((List.mem_cons.mp ha).resolve_left (Ne.symm hba))

theorem scenarioKeys_at (rows : List PilotAttempt) (p : PilotId) :
    (scenarioKeys rows).filter (fun key => key.1 = p) =
      (packsOf rows p).map fun pack => (p, pack) := by
  rw [scenarioKeys, List.filter_flatMap]
  have hone : ∀ q ∈ pilotIds, ((packsOf rows q).map fun pack => (q, pack)).filter
      (fun key => key.1 = p) = if q = p then (packsOf rows q).map (fun pack => (q, pack)) else [] := by
    intro q _
    rw [List.filter_map]
    by_cases hq : q = p
    · simp [hq, Function.comp_def]
    · simp [hq, Function.comp_def]
  rw [List.flatMap_congr hone]
  exact flatMap_at (fun q => (packsOf rows q).map fun pack => (q, pack)) pilotIds_nodup
    (mem_pilotIds p)

theorem configurationRow_counts {values : List Metrics} {row : ConfigurationRow}
    (h : configurationRow values = .ok row) :
    row.complete = values.countP (·.complete) ∧
      row.incomplete = values.countP (fun m => !m.complete) ∧
      row.authorityViolations = values.countP fun m => !m.noEditBeforeApproval := by
  obtain ⟨tokens, -, h⟩ := Failures.bind_eq_ok.mp h
  cases h
  exact ⟨rfl, rfl, rfl⟩

structure ScenarioRow.Shows (rows : List PilotAttempt) (row : ScenarioRow) : Prop where
  summary : configurationRow
    ((rows.filter fun a => a.pilotId = row.pilotId ∧ a.pack = row.pack).map (·.metrics)) =
      .ok row.summary

theorem scenarioRows_spec {rows : List PilotAttempt} {scenarios : List ScenarioRow}
    (h : scenarioRows rows = .ok scenarios) :
    scenarios.map (fun row => (row.pilotId, row.pack)) = scenarioKeys rows ∧
      ∀ row ∈ scenarios, row.Shows rows := by
  have hrel := mapM_forall₂ h
  constructor
  · clear h
    generalize scenarioKeys rows = keys at hrel
    induction hrel with
    | nil => rfl
    | cons hrow _ ih =>
      obtain ⟨summary, -, hrow⟩ := Failures.bind_eq_ok.mp hrow
      cases hrow
      rw [List.map_cons, ih]
  · intro row hrow
    obtain ⟨key, -, hkey⟩ := (forall₂_partner hrel).2 row hrow
    obtain ⟨summary, hsummary, hkey⟩ := Failures.bind_eq_ok.mp hkey
    cases hkey
    exact ⟨hsummary⟩

/-- What `configuration` returns for the attempts of a configuration. -/
structure Configuration.Shows (rows : List PilotAttempt) (aliasName : Str) (c : Configuration) :
    Prop where
  configuration : c.configuration = aliasName
  keys : c.scenarioResults.map (fun row => (row.pilotId, row.pack)) = scenarioKeys rows
  scenarios : ∀ row ∈ c.scenarioResults, row.Shows rows
  ambiguous : c.packAmbiguousPilots = pilotIds.filter fun p => 1 < (packsOf rows p).length
  gates : c.coverageGates = Round5.coverageGates rows c.scenarioResults

theorem configuration_spec {labels : Bool} {aliasName : Str} {rows : List PilotAttempt}
    {c : Configuration} (h : configuration labels aliasName rows = .ok c) :
    c.Shows rows aliasName := by
  obtain ⟨scenarios, hscenarios, h⟩ := Failures.bind_eq_ok.mp h
  obtain ⟨hkeys, hshows⟩ := scenarioRows_spec hscenarios
  cases h
  exact ⟨rfl, hkeys, hshows, rfl, rfl⟩

theorem mem_identities {attempts : List PilotAttempt} {identity : Str} :
    identity ∈ identities attempts ↔ ∃ a ∈ attempts, a.identity = identity := by
  simp [identities]

theorem lookup_numbered {names : List Str} {name : Str} (h : name ∈ names) (n : Nat) :
    ((names.zipIdx n).map fun p => (p.1, "config-".toList ++ natStr (p.2 + 1))).lookup name =
      some ("config-".toList ++ natStr (names.idxOf name + n + 1)) := by
  induction names generalizing n with
  | nil => cases h
  | cons first names ih =>
    rw [List.zipIdx_cons, List.map_cons, List.lookup_cons]
    by_cases hfirst : name = first
    · subst hfirst
      simp
    · have hne : (name == first) = false := by simpa using hfirst
      have hne' : (first == name) = false := by simpa using Ne.symm hfirst
      rw [hne]
      simp only
      rw [ih ((List.mem_cons.mp h).resolve_left hfirst), List.idxOf_cons, hne']
      simp only [cond_false]
      congr 4
      omega

theorem aliasOf_injective {attempts : List PilotAttempt} {i j : Str} (hi : i ∈ identities attempts)
    (hj : j ∈ identities attempts) (h : aliasOf attempts i = aliasOf attempts j) : i = j := by
  rw [aliasOf, aliasOf, aliases, lookup_numbered hi, lookup_numbered hj, Option.getD_some,
    Option.getD_some] at h
  have hidx := natStr_injective (List.append_cancel_left h)
  exact (List.idxOf_inj hi).mp (by omega)

end Round5
