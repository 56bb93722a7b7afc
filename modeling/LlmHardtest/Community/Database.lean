import LlmHardtest.Community.Validate
import LlmHardtest.Library.Joins
set_option autoImplicit false

/-! The observation database: the rows that public bundles are mapped to, and what comes back when
they are stored. -/

namespace Community
open Python

/-- Float arithmetic below overflow; small integers are floats. -/
structure FloatRounding where
  nearest : ℚ → ℚ
  exact : ∀ n : ℕ, n ≤ 2 ^ 53 → nearest n = n

def FiniteNum.toFloat (fl : FloatRounding) : FiniteNum → ℚ
  | .int n => fl.nearest n
  | .float q => q

def Hashing.canonicalText (h : Hashing) (v : Json) : Str := dumps ⟨false, false⟩ h.floats v

def Hashing.stableId (h : Hashing) (kind : String) (parts : List Json) : Str :=
  "sha256:".toList ++
    h.sha.hexdigest (utf8Encode (h.canonicalText (.arr (.str kind.toList :: parts))))

def optionalBoolean : Json → Option Bool
  | .null => none
  | v => some v.truthy

structure BundleRow where
  bundleId : Str
  publicSchemaVersion : Nat
  environment : Environment

/-- A row of `configurations`; the lists hold the columns of the parameters and the metadata. -/
structure ConfigurationRow where
  configurationId : ConfigurationId
  publicName : Str
  transport : Str
  scaffold : Scaffold
  environment : Environment
  servingScope : Str
  servingOs : Option Str
  servingArchitecture : Option Str
  servingEnvironmentJson : Str
  parameters : List (Option Setting)
  publicMetadata : List (Option Setting)
  parametersJson : Str
  publicMetadataJson : Str

inductive ScoreColumn where
  | passed | total | incomplete | manualReview | infrastructureErrors
  deriving DecidableEq

def ScoreColumn.metric (round : RoundNumber) : ScoreColumn → String
  | .passed => (if round.1 = 4 then "release_ready" else "passed")
  | .total => (if round.1 = 4 then "attempts" else "total")
  | .incomplete => "incomplete"
  | .manualReview => "manual_review"
  | .infrastructureErrors => "infrastructure_errors"

structure RunRow where
  runId : Str
  bundleId : Str
  configurationId : ConfigurationId
  modelOrdinal : Nat
  round : RoundNumber
  pack : Fingerprint
  score : ScoreColumn → Option FiniteNum
  meanWallSeconds : Option FiniteNum
  metricsJson : Str

structure ItemRow where
  observationId : Str
  runId : Str
  item : Str
  attempt : Int
  status : Campaign.Status
  wallSeconds : Option FiniteNum
  completionTokens : Option Int

structure TaskRow where
  observationId : Str
  runId : Str
  taskOrdinal : Nat
  task : Json
  attempt : Json
  scores : List Json
  verdicts : List (Option Bool)
  wallSeconds : Json
  completionTokens : Json

structure Rows where
  bundles : List BundleRow
  configurations : List ConfigurationRow
  benchmarkRuns : List RunRow
  itemObservations : List ItemRow
  taskObservations : List TaskRow

/-! ## Rows of bundles -/

section Normalize
variable (h : Hashing)

def bundleRow (b : Bundle) : BundleRow := ⟨b.bundleId, b.schemaVersion, b.environment⟩

def configurationRow (b : Bundle) (m : Model) : Outcome ConfigurationRow := do
  let configurationId ← configurationId h b m
  let serving ← normalizedServing b m
  let scaffold ← normalizedScaffold b m
  return {
    configurationId, publicName := m.publicName, transport := m.transport, scaffold
    environment := b.environment, servingScope := serving.scope, servingOs := serving.os
    servingArchitecture := serving.architecture
    servingEnvironmentJson := h.canonicalText serving.json
    parameters := parameterFields.map fun key => m.parameters.get key.toList
    publicMetadata := metadataFields.map fun key => m.publicMetadata.get key.toList
    parametersJson := h.canonicalText m.parameters.json
    publicMetadataJson := h.canonicalText m.publicMetadata.json }

def RoundResult.summary (r : RoundResult) : Json :=
  .obj (r.metrics.map fun e => (e.1, (e.2.map FiniteNum.json).getD .null))

def itemRow (runId : Str) (item : ItemOutcome) : ItemRow where
  observationId := h.stableId "item-observation" [.str runId, .str item.item, .int item.attempt]
  runId := runId
  item := item.item
  attempt := item.attempt
  status := item.status
  wallSeconds := item.wallSeconds
  completionTokens := item.tokens

def taskScores : List String :=
  ["public_passed", "public_total", "hidden_passed", "hidden_total", "auto_score"]

def taskVerdicts : List String :=
  ["release_ready", "handoff_utility", "false_green", "tampering", "timed_out"]

def taskRow (runId : Str) (task : List (Str × Json) × Nat) : Outcome TaskRow := do
  let name ← ofKey (task.1.lookup "task".toList)
  let attempt := Json.field task.1 "attempt"
  return {
    observationId := h.stableId "task-observation" [.str runId, .int task.2, name, attempt]
    runId, taskOrdinal := task.2, task := name, attempt
    scores := taskScores.map (Json.field task.1)
    verdicts := taskVerdicts.map fun key => optionalBoolean (Json.field task.1 key)
    wallSeconds := Json.field task.1 "wall_seconds"
    completionTokens := Json.field task.1 "tokens" }

structure RoundRows where
  run : RunRow
  items : List ItemRow
  tasks : List TaskRow

def rowsOfRound (b : Bundle) (configuration : ConfigurationId) (modelOrdinal : Nat)
    (r : RoundNumber × RoundResult) : Outcome RoundRows := do
  let pack ← ofKey (b.packs.lookup r.1)
  let runId := h.stableId "benchmark-run"
    [.str b.bundleId, .str configuration.1, .int modelOrdinal, .int r.1.1, .str pack.1]
  let tasks ← ((r.2.tasks.getD []).zipIdx 1).mapM (taskRow h runId)
  return {
    run := {
      runId, bundleId := b.bundleId, configurationId := configuration, modelOrdinal, round := r.1
      pack, score := fun column => r.2.metric (column.metric r.1)
      meanWallSeconds := r.2.metric "mean_wall_seconds"
      metricsJson := h.canonicalText r.2.summary }
    items := (r.2.items.getD []).map (itemRow h runId)
    tasks }

structure ModelRows where
  configuration : ConfigurationRow
  rounds : List RoundRows

def modelRows (b : Bundle) (m : Model × Nat) : Outcome ModelRows := do
  let configuration ← configurationRow h b m.1
  let rounds ← (m.1.rounds.insertionSort fun r s => r.1 ≤ s.1).mapM
    (rowsOfRound h b configuration.configurationId m.2)
  return { configuration, rounds }

def bundleRows (b : Bundle) : Outcome (List ModelRows) := (b.models.zipIdx 1).mapM (modelRows h b)

/-- `previous == configuration` -/
def ConfigurationRow.same (c d : ConfigurationRow) : Bool :=
  c.configurationId == d.configurationId && c.publicName == d.publicName &&
    c.transport == d.transport && c.scaffold == d.scaffold && c.environment == d.environment &&
    c.servingScope == d.servingScope && c.servingOs == d.servingOs &&
    c.servingArchitecture == d.servingArchitecture &&
    c.servingEnvironmentJson == d.servingEnvironmentJson &&
    decide (c.parameters.map (·.map Setting.value) = d.parameters.map (·.map Setting.value)) &&
    decide (c.publicMetadata.map (·.map Setting.value) = d.publicMetadata.map (·.map Setting.value)) &&
    c.parametersJson == d.parametersJson && c.publicMetadataJson == d.publicMetadataJson

def setConfigurations (known : List ConfigurationRow) :
    List ConfigurationRow → Outcome (List ConfigurationRow)
  | [] => .ok known
  | c :: cs =>
      match known.find? fun d => d.configurationId = c.configurationId with
      | none => setConfigurations (known ++ [c]) cs
      | some previous =>
          if previous.same c then setConfigurations known cs
          else .error (.valueError "public configuration ID collision".toList)

def normalizeSubmissions (submissions : List Bundle) : Outcome Rows := do
  let ordered := submissions.insertionSort fun a b => a.bundleId ≤ b.bundleId
  let models ← ordered.mapM (bundleRows h)
  let configurations ← setConfigurations [] (models.flatten.map ModelRows.configuration)
  let rounds := models.flatten.flatMap ModelRows.rounds
  return {
    bundles := (ordered.map bundleRow).insertionSort fun a b => a.bundleId ≤ b.bundleId
    configurations := configurations.insertionSort fun a b => a.configurationId.1 ≤ b.configurationId.1
    benchmarkRuns := (rounds.map RoundRows.run).insertionSort fun a b => a.runId ≤ b.runId
    itemObservations :=
      (rounds.flatMap RoundRows.items).insertionSort fun a b => a.observationId ≤ b.observationId
    taskObservations :=
      (rounds.flatMap RoundRows.tasks).insertionSort fun a b => a.observationId ≤ b.observationId }

end Normalize

/-! ## Storage -/

section Storage
variable (fl : FloatRounding)

def FiniteNum.stored (n : FiniteNum) : FiniteNum := .float (n.toFloat fl)

/-- A REAL column gives back an equal number. -/
def FiniteNum.survives (n : FiniteNum) : Bool := decide (n.toFloat fl = n.value)

def Setting.stored : Setting → Setting
  | .number n => .number (n.stored fl)
  | .text s => .text s

def Setting.survives : Setting → Bool
  | .number n => n.survives fl
  | .text _ => true

def storedJson : Json → Json
  | .int n => .float (.finite (fl.nearest n))
  | v => v

def jsonSurvives : Json → Bool
  | .int n => (FiniteNum.int n).survives fl
  | _ => true

def ConfigurationRow.stored (c : ConfigurationRow) : ConfigurationRow :=
  { c with
    parameters := c.parameters.map (·.map (Setting.stored fl))
    publicMetadata := c.publicMetadata.map (·.map (Setting.stored fl)) }

def RunRow.stored (run : RunRow) : RunRow :=
  { run with
    score := fun column => (run.score column).map (FiniteNum.stored fl)
    meanWallSeconds := run.meanWallSeconds.map (FiniteNum.stored fl) }

def ItemRow.stored (item : ItemRow) : ItemRow :=
  { item with wallSeconds := item.wallSeconds.map (FiniteNum.stored fl) }

def TaskRow.stored (task : TaskRow) : TaskRow :=
  { task with
    scores := task.scores.map (storedJson fl), wallSeconds := storedJson fl task.wallSeconds }

def Rows.stored (rows : Rows) : Rows where
  bundles := rows.bundles
  configurations := rows.configurations.map (ConfigurationRow.stored fl)
  benchmarkRuns := rows.benchmarkRuns.map (RunRow.stored fl)
  itemObservations := rows.itemObservations.map (ItemRow.stored fl)
  taskObservations := rows.taskObservations.map (TaskRow.stored fl)

def ScoreColumn.all : List ScoreColumn :=
  [.passed, .total, .incomplete, .manualReview, .infrastructureErrors]

/-- `actual == expected` in `_validate_database`: only REAL columns can differ. -/
def Rows.survive (rows : Rows) : Bool :=
  (rows.configurations.all fun c =>
    (c.parameters ++ c.publicMetadata).all fun s => s.all (Setting.survives fl)) &&
  (rows.benchmarkRuns.all fun run =>
    (run.meanWallSeconds :: ScoreColumn.all.map run.score).all fun n => n.all (FiniteNum.survives fl)) &&
  (rows.itemObservations.all fun item => item.wallSeconds.all (FiniteNum.survives fl)) &&
  rows.taskObservations.all fun task => (task.wallSeconds :: task.scores).all (jsonSurvives fl)

def Rows.keysDistinct (rows : Rows) : Bool :=
  decide (rows.bundles.map BundleRow.bundleId).Nodup &&
    decide (rows.configurations.map ConfigurationRow.configurationId).Nodup &&
    decide (rows.benchmarkRuns.map RunRow.runId).Nodup &&
    decide (rows.itemObservations.map ItemRow.observationId).Nodup &&
    decide (rows.taskObservations.map TaskRow.observationId).Nodup

/-- `build_database`: the rows of the new database, after it was read back. -/
def buildDatabase (h : Hashing) (temporary : Str) (submissions : List Bundle) : Outcome Rows := do
  let rows ← normalizeSubmissions h submissions
  if !rows.keysDistinct then .error (.runtimeError "UNIQUE constraint failed".toList)
  else if rows.survive fl then return rows.stored fl
  else .error (.valueError ("community database is stale; rebuild ".toList ++ temporary))

end Storage

end Community
