import LlmHardtest.Campaign.Names
import LlmHardtest.Python.Documents
import LlmHardtest.Round5.EvidencePlan
set_option autoImplicit false

/-! The analysis of Round 5 pilots: the attempts that run directories hold, the groups of one pilot
and pack, and the portfolio. -/

namespace Round5
open Python

/-- What the analysis takes from the installed release: the task and registry of each pilot, and the
digest of a model's public settings. -/
structure Release where
  interpreter : Interpreter
  checks : Checks
  grading : PilotId → Outcome Grading
  fingerprintContract : PilotId → Str → Outcome (Grading × Str)
  modelIdentity : List (Str × Json) → Str

/-- A run directory: its resolved path and the files that the analysis reads, for each model key and
attempt. -/
structure RunDirectory where
  path : Str
  config : Outcome Json
  pilotSummary : Outcome Json
  researchGrade : Str → Int → Outcome Json
  evidence : Str → Int → Evidence

def pilotOfText (s : Str) : Option PilotId := pilotIds.find? fun p => p.text = s

/-- `PACK_PATTERN.fullmatch(pack)` -/
def isPack (pack : Str) : Bool :=
  startsWith pack "sha256:".toList && decide (pack.length = 71) &&
    (pack.drop 7).all fun c => ('0' ≤ c && c ≤ '9') || ('a' ≤ c && c ≤ 'f')

/-- The check of `_safe_model_root`. A key that is its own slug is also its own last component. -/
def safeModelKey (u : UnicodeData) : Json → Outcome Str
  | .str key =>
      if key = [] ∨ key = ['.'] ∨ key = ['.', '.'] ∨ Campaign.slug u key ≠ key then
        .error (.valueError "unsafe model key in pilot config".toList)
      else .ok key
  | _ => .error (.valueError "unsafe model key in pilot config".toList)

def modelMap (u : UnicodeData) : List Json → List (Str × List (Str × Json)) →
    Outcome (List (Str × List (Str × Json)))
  | [], models => .ok models
  | .obj model :: rest, models => do
      let key ← safeModelKey u (Json.field model "key")
      require (!(models.any fun m => m.1 = key)) "duplicate pilot model key"
      modelMap u rest (models ++ [(key, model)])
  | _ :: _, _ => .error (.valueError "invalid pilot model configuration".toList)

structure RunHeader where
  pack : Str
  pilotId : PilotId
  grading : Grading
  fingerprintVerification : Str
  models : List (Str × List (Str × Json))
  rows : List Json

/-- `summary_schema in {1, 2}`, and whether it is 2; a list or an object cannot be looked up. -/
def summarySchema (summary : List (Str × Json)) : Outcome Bool :=
  match Json.field summary "schema_version" with
  | .arr _ | .obj _ => .error .typeError
  | schema =>
      if schema.eqInt 2 then .ok true
      else if schema.eqInt 1 then .ok false
      else .error (.valueError "invalid non-canonical pilot summary".toList)

def isFalse : Json → Bool
  | .bool b => !b
  | _ => false

def asStr (message : String) : Json → Outcome Str
  | .str s => .ok s
  | _ => .error (.valueError message.toList)

def asArr (message : String) : Json → Outcome (List Json)
  | .arr items => .ok items
  | _ => .error (.valueError message.toList)

def asObj (message : String) : Json → Outcome (List (Str × Json))
  | .obj fields => .ok fields
  | _ => .error (.valueError message.toList)

def runHeader (r : Release) (d : RunDirectory) : Outcome RunHeader := do
  let config ← asObj "invalid non-canonical pilot summary" (← d.config)
  let summary ← asObj "invalid non-canonical pilot summary" (← d.pilotSummary)
  let perScenario ← summarySchema summary
  require (isFalse (Json.field summary "canonical_score")) "invalid non-canonical pilot summary"
  let pack ← asStr "invalid pilot pack fingerprint" (Json.field summary "pack")
  require (isPack pack) "invalid pilot pack fingerprint"
  let pilotText ← asStr "invalid pilot ID" (Json.field summary "pilot_id")
  require (!pilotText.isEmpty) "invalid pilot ID"
  let pilotId ← (pilotOfText pilotText).elim
    (.error (.valueError "unsupported Round 5 pilot ID".toList)) .ok
  let grading ← r.grading pilotId
  let (grading, verification) ←
    if perScenario then do
      require ((Json.field summary "fingerprint_scope").eqStr "scenario".toList)
        "invalid pilot fingerprint scope"
      r.fingerprintContract pilotId pack
    else .ok (grading, "legacy-summary".toList)
  let models ← asArr "invalid pilot model configuration" (Json.field config "models")
  let models ← modelMap r.checks.unicode models []
  let rows ← asArr "pilot summary contains no attempts" (Json.field summary "attempts")
  require (!rows.isEmpty) "pilot summary contains no attempts"
  return ⟨pack, pilotId, grading, verification, models, rows⟩

def gradeAttemptNumber (grade : Json) : Outcome Int :=
  match grade with
  | .obj fields =>
      match Json.field fields "attempt" with
      | .int n => if n < 1 then .error (.valueError "pilot grade has invalid attempt number".toList)
          else .ok n
      | _ => .error (.valueError "pilot grade has invalid attempt number".toList)
  | _ => .error (.valueError "pilot grade has invalid attempt number".toList)

/-- `model_map[row["model"]]` -/
def knownModel (models : List (Str × List (Str × Json))) : Json →
    Outcome (Str × List (Str × Json))
  | .str key =>
      match models.find? fun m => m.1 = key with
      | some m => .ok m
      | none => .error (.valueError "pilot summary references an unknown model".toList)
  | .arr _ | .obj _ => .error .typeError
  | _ => .error (.valueError "pilot summary references an unknown model".toList)

def collectAttempt (r : Release) (d : RunDirectory) (h : RunHeader) (seen : List (Str × Int))
    (row : Json) : Outcome ((Str × Int) × PilotAttempt) := do
  let row ← asObj "pilot summary references an unknown model" row
  let (key, model) ← knownModel h.models (Json.field row "model")
  let grade := Json.field row "grade"
  let attempt ← gradeAttemptNumber grade
  require (decide ((key, attempt) ∉ seen)) "duplicate pilot attempt"
  let saved ← d.researchGrade key attempt
  require (saved.pyEq grade) "pilot summary grade does not match raw evidence"
  require ((Json.field (objFields grade) "pilot_id").eqStr h.pilotId.text)
    "pilot grade ID does not match its summary"
  let metrics ← validatedGrade r.checks h.grading (d.evidence key attempt) grade
  let label := Json.field model "label"
  return ((key, attempt), {
    pack := h.pack
    pilotId := h.pilotId
    identity := r.modelIdentity model
    label := if label.truthy then r.interpreter.str label else key
    fingerprintVerification := h.fingerprintVerification
    metrics })

def collectRows (r : Release) (d : RunDirectory) (h : RunHeader) : List (Str × Int) → List Json →
    Outcome (List PilotAttempt)
  | _, [] => .ok []
  | seen, row :: rows => do
      let (respondent, attempt) ← collectAttempt r d h seen row
      let attempts ← collectRows r d h (respondent :: seen) rows
      return attempt :: attempts

def collectRun (r : Release) (d : RunDirectory) : Outcome (List PilotAttempt) := do
  let h ← runHeader r d
  collectRows r d h [] h.rows

def collectPilotAttempts (r : Release) (dirs : List RunDirectory) : Outcome (List PilotAttempt) := do
  require (decide (dirs.map (·.path)).Nodup)
    "the same pilot directory cannot be analyzed more than once"
  let collected ← dirs.mapM (collectRun r)
  require (!collected.flatten.isEmpty) "no Round 5 pilot attempts were found"
  return collected.flatten

structure GroupPairwise where
  withinConfigurationPairs : Nat
  withinConfigurationDistance : Option ℚ
  withinExactAgreement : Option ℚ
  betweenConfigurationPairs : Nat
  betweenConfigurationDistance : Option ℚ
  netSeparation : Option ℚ
  deriving DecidableEq, Repr

def groupPairwise (attempts : List PilotAttempt) : GroupPairwise :=
  let gaps := (pairs attempts).map fun p =>
    (decide (p.1.identity = p.2.identity), distance p.1.metrics p.2.metrics)
  let within := (gaps.filter (·.1)).map Prod.snd
  let between := (gaps.filter fun g => !g.1).map Prod.snd
  { withinConfigurationPairs := within.length
    withinConfigurationDistance := mean within
    withinExactAgreement := mean (within.map fun d => boolFloat (decide (d = 0)))
    betweenConfigurationPairs := between.length
    betweenConfigurationDistance := mean between
    netSeparation :=
      if within.isEmpty || between.isEmpty then none
      else some (roundDigits 6 (average between - average within)) }

structure GroupGates where
  twoDistinctConfigurations : Bool
  twoCompleteAttemptsPerConfiguration : Bool
  allAttemptsTransportComplete : Bool
  allAttemptsRespectPreapprovalBoundary : Bool
  deriving DecidableEq, Repr

/-- A row of `_configuration_rows`, under the alias of its configuration. -/
structure AliasedRow where
  configuration : Str
  row : ConfigurationRow
  modelLabel : Option Str

structure GroupAnalysis where
  pilotId : PilotId
  pack : Str
  fingerprintVerification : List Str
  attempts : Nat
  modelConfigurations : Nat
  configurations : List AliasedRow
  pairwise : GroupPairwise
  automaticGates : GroupGates

def configurationRows (includeModelLabels : Bool) (aliasName : Str → Str)
    (attempts : List PilotAttempt) : Outcome (List AliasedRow) :=
  (identities attempts).mapM fun identity => do
    let values := ofIdentity attempts identity
    let row ← configurationRow (values.map (·.metrics))
    return ⟨aliasName identity, row,
      if includeModelLabels then ((values.map (·.label)).insertionSort (· ≤ ·)).head? else none⟩

def groupAnalysis (includeModelLabels : Bool) (aliasName : Str → Str) (pilotId : PilotId)
    (pack : Str) (rows : List PilotAttempt) : Outcome GroupAnalysis := do
  let configurations ← configurationRows includeModelLabels aliasName rows
  let distinct := configurations.length
  return {
    pilotId, pack
    fingerprintVerification := sortedNames (rows.map (·.fingerprintVerification))
    attempts := rows.length
    modelConfigurations := distinct
    configurations
    pairwise := groupPairwise rows
    automaticGates := {
      twoDistinctConfigurations := decide (2 ≤ distinct)
      twoCompleteAttemptsPerConfiguration :=
        decide (2 ≤ distinct) && configurations.all fun c => decide (2 ≤ c.row.complete)
      allAttemptsTransportComplete := configurations.all fun c => c.row.incomplete == 0
      allAttemptsRespectPreapprovalBoundary :=
        configurations.all fun c => c.row.authorityViolations == 0 } }

structure Analysis where
  sourceRuns : Nat
  modelLabelsIncluded : Bool
  portfolio : Portfolio
  groups : List GroupAnalysis

def analyzeAttempts (rng : Generator) (includeModelLabels : Bool) (sourceRuns : Nat)
    (attempts : List PilotAttempt) : Outcome Analysis := do
  let groups ← (scenarioKeys attempts).mapM fun key =>
    groupAnalysis includeModelLabels (aliasOf attempts) key.1 key.2
      (attempts.filter fun a => a.pilotId = key.1 ∧ a.pack = key.2)
  let portfolio ← portfolio rng includeModelLabels attempts
  return ⟨sourceRuns, includeModelLabels, portfolio, groups⟩

def analyzePilots (r : Release) (rng : Generator) (includeModelLabels : Bool)
    (dirs : List RunDirectory) : Outcome Analysis := do
  let attempts ← collectPilotAttempts r dirs
  analyzeAttempts rng includeModelLabels dirs.length attempts

theorem collectPilotAttempts_ok {r : Release} {dirs : List RunDirectory}
    {attempts : List PilotAttempt} (h : collectPilotAttempts r dirs = .ok attempts) :
    (dirs.map (·.path)).Nodup ∧ ∃ runs, dirs.mapM (collectRun r) = .ok runs ∧
      runs.flatten.isEmpty = false ∧ attempts = runs.flatten := by
  unfold collectPilotAttempts at h
  obtain ⟨hnodup, h⟩ := require_bind.mp h
  obtain ⟨runs, hruns, h⟩ := Failures.bind_eq_ok.mp h
  obtain ⟨hempty, h⟩ := require_bind.mp h
  cases h
  exact ⟨of_decide_eq_true hnodup, runs, hruns, by simpa using hempty, rfl⟩

theorem analyzeAttempts_pairwise {rng : Generator} {labels : Bool} {n : Nat}
    {attempts : List PilotAttempt} {a : Analysis} (h : analyzeAttempts rng labels n attempts = .ok a) :
    a.portfolio.pairwise = comparisons rng attempts := by
  obtain ⟨groups, -, h⟩ := Failures.bind_eq_ok.mp h
  obtain ⟨folio, hfolio, h⟩ := Failures.bind_eq_ok.mp h
  obtain ⟨configurations, -, hfolio⟩ := Failures.bind_eq_ok.mp hfolio
  cases hfolio
  cases h
  rfl

end Round5
