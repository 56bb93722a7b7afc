import LlmHardtest.Community.Database
import LlmHardtest.Community.PairedComparison
set_option autoImplicit false

/-! The observations of a paired comparison, from public bundles and from the database. -/

namespace Community
open Python
open Round5 (average)

structure RunValues where
  score : ScoreColumn → Option FiniteNum
  items : List (Option FiniteNum × Option Int)

/-! ## The metrics of a group -/

section Metrics
variable (fl : FloatRounding)

/-- `tokens / wall` -/
def FloatRounding.ratio (tokens : Int) : FiniteNum → ℚ
  | .int n => fl.nearest (tokens / n)
  | .float q => fl.nearest (fl.nearest tokens / q)

def addScore (total : ℚ) : Option FiniteNum → ℚ
  | none => total
  | some value => fl.nearest (total + value.toFloat fl)

variable (values : List RunValues)

def groupTotal (column : ScoreColumn) : ℚ :=
  (values.map fun v => v.score column).foldl (addScore fl) 0

def groupWalls : List ℚ :=
  (values.flatMap RunValues.items).filterMap fun item => item.1.map (FiniteNum.toFloat fl)

def itemRate (item : Option FiniteNum × Option Int) : Option ℚ :=
  match item.1, item.2 with
  | some wall, some tokens => if 0 < wall.value then some (fl.ratio tokens wall) else none
  | _, _ => none

/-- `group["token_rates"]` -/
def groupRates : List ℚ := (values.flatMap RunValues.items).filterMap (itemRate fl)

/-- `statistics.mean(values) if values else None`; the mean is rounded once. -/
def meanOrNone (values : List ℚ) : Option ℚ :=
  if values.isEmpty then none else some (fl.nearest (average values))

def groupAttempted : ℚ :=
  fl.nearest (fl.nearest (fl.nearest (groupTotal fl values .total + groupTotal fl values .incomplete) +
    groupTotal fl values .manualReview) + groupTotal fl values .infrastructureErrors)

def groupMetrics : Objective → Option ℚ
  | .accuracy =>
      if 0 < groupTotal fl values .total then
        some (fl.nearest (groupTotal fl values .passed / groupTotal fl values .total))
      else none
  | .completion =>
      if 0 < groupAttempted fl values then
        some (fl.nearest (groupTotal fl values .total / groupAttempted fl values))
      else none
  | .latency => meanOrNone fl (groupWalls fl values)
  | .throughput => meanOrNone fl (groupRates fl values)

end Metrics

/-- Bundle, round, pack and configuration, in the order of tuples. -/
abbrev ObservationKey := Str ×ₗ RoundNumber ×ₗ Fingerprint ×ₗ ConfigurationId

def observationKey (bundle : Str) (round : RoundNumber) (pack : Fingerprint)
    (configuration : ConfigurationId) : ObservationKey :=
  toLex (bundle, toLex (round, toLex (pack, configuration)))

def ObservationKey.bundle (k : ObservationKey) : Str := (ofLex k).1
def ObservationKey.round (k : ObservationKey) : RoundNumber := (ofLex (ofLex k).2).1
def ObservationKey.pack (k : ObservationKey) : Fingerprint := (ofLex (ofLex (ofLex k).2).2).1
def ObservationKey.configuration (k : ObservationKey) : ConfigurationId :=
  (ofLex (ofLex (ofLex k).2).2).2

def observationOf (fl : FloatRounding) (k : ObservationKey) (identity : Identity)
    (values : List RunValues) : PairedObservation where
  bundle := k.bundle
  round := k.round
  pack := k.pack
  configuration := k.configuration
  identity := identity
  metrics := groupMetrics fl values

/-! ## From bundles -/

section Bundles
variable (fl : FloatRounding) (h : Hashing)

def RunValues.ofResult (round : RoundNumber) (r : RoundResult) : RunValues where
  score column := r.metric (column.metric round)
  items := (r.items.getD []).map fun item => (item.wallSeconds, item.tokens)

def Cell.observed (b : Bundle) (c : Cell) : ObservationKey × RunValues :=
  (observationKey b.bundleId c.key.round c.key.pack c.key.configuration,
    .ofResult c.key.round c.result)

def observedRuns (b : Bundle) : Outcome (List (ObservationKey × RunValues)) := do
  let es ← entries h b
  let cs ← cells b es
  return cs.map (Cell.observed b)

def bundleObservations (submissions : List Bundle) : Outcome (List PairedObservation) := do
  let es ← submissions.mapM (entries h)
  let identities ← register [] es.flatten
  let runs ← submissions.mapM (observedRuns h)
  (Joins.sortedGroups Prod.fst runs.flatten).mapM fun g => do
    let identity ← ofKey (identities.lookup g.1.configuration)
    return observationOf fl g.1 identity (g.2.map Prod.snd)

def compareSubmissions (sampler : HashSampler) (submissions : List Bundle) (q : PairedQuery) :
    Outcome Comparison := do
  let observations ← bundleObservations fl h submissions
  comparePairedObservations sampler observations q

end Bundles

/-! ## From the database -/

section Tables

def settingOf : Json → Outcome Setting
  | .str s => .ok (.text s)
  | .int n => .ok (.number (.int n))
  | .float (.finite q) => .ok (.number (.float q))
  | _ => .error .typeError

/-- The settings in a parsed object; the checks of the database allow texts and numbers only. -/
def settingsOf : Json → Outcome Settings
  | .obj fields => fields.mapM fun e => do
      let s ← settingOf e.2
      return (e.1, s)
  | _ => .error .typeError

def textOf : Json → Outcome Str
  | .str s => .ok s
  | _ => .error .typeError

def textOrNoneOf : Json → Outcome (Option Str)
  | .null => .ok none
  | v => do return some (← textOf v)

def servingOf : Json → Outcome Serving
  | .obj fields => do
      let scope ← textOf (Json.field fields "scope")
      let os ← textOrNoneOf (Json.field fields "os")
      let architecture ← textOrNoneOf (Json.field fields "architecture")
      return { scope, os, architecture }
  | _ => .error .typeError

variable (fl : FloatRounding) (py : Interpreter)

def ConfigurationRow.identity (c : ConfigurationRow) : Outcome Identity := do
  let serving ← servingOf (← py.loads c.servingEnvironmentJson)
  let parameters ← settingsOf (← py.loads c.parametersJson)
  let publicMetadata ← settingsOf (← py.loads c.publicMetadataJson)
  return { environment := c.environment, serving, model := c.publicName, transport := c.transport
           parameters, publicMetadata }

def RunRow.key (run : RunRow) : ObservationKey :=
  observationKey run.bundleId run.round run.pack run.configurationId

def RunRow.values (run : RunRow) (items : List ItemRow) : RunValues where
  score := run.score
  items := items.map fun item => (item.wallSeconds, item.completionTokens)

def pairedDatabaseObservations (rows : Rows) : Outcome (List PairedObservation) :=
  (Joins.sortedGroups RunRow.key rows.benchmarkRuns).mapM fun g => do
    let c ← ofKey (rows.configurations.find? fun c => c.configurationId = g.1.configuration)
    let identity ← c.identity py
    return observationOf fl g.1 identity (g.2.map fun run =>
      run.values (Joins.partsOf ItemRow.runId rows.itemObservations run.runId))

def compareDatabase (sampler : HashSampler) (rows : Rows) (q : PairedQuery) : Outcome Comparison := do
  let observations ← pairedDatabaseObservations fl py rows
  comparePairedObservations sampler observations q

end Tables

end Community
