import LlmHardtest.Community.Recommend
set_option autoImplicit false

/-! The catalog of the serving configurations that were observed, with the values that constraints
on them can take. -/

namespace Community
open Python
open Round5 (require)

def facetFields : List String :=
  ["configuration", "model", "os", "architecture", "python", "transport", "serving_scope",
    "serving_os", "serving_architecture", "reasoning_effort", "context_window", "max_tokens",
    "temperature", "top_p", "top_k", "min_p", "model_revision", "quantization", "model_format",
    "parameter_count_b", "server", "server_version", "accelerator", "accelerator_count",
    "memory_gb", "system_memory_gb"]

def parameterFacets : List String :=
  ["reasoning_effort", "context_window", "max_tokens", "temperature", "top_p", "top_k", "min_p"]

def metadataFacets : List String :=
  ["model_revision", "quantization", "model_format", "parameter_count_b", "server",
    "server_version", "accelerator", "accelerator_count", "memory_gb", "system_memory_gb"]

def optionalFacets : List String :=
  parameterFacets ++ metadataFacets ++ ["serving_os", "serving_architecture"]

def validateFilters (roundNumber : Option Int) (pack : Option Str) : Outcome Unit := do
  require (roundNumber.all fun n => decide (1 ≤ n) && decide (n ≤ 4))
    "catalog round must be one of 1, 2, 3, or 4"
  require (pack.all isFingerprint) "catalog pack must be an exact sha256 fingerprint"

def facetValue (row : AggregateRow) (field : String) : Option Setting :=
  if field = "configuration" then some (.text row.key.configuration.1)
  else if field = "model" then some (.text row.key.model)
  else if field = "os" then some (.text row.identity.environment.os)
  else if field = "architecture" then some (.text row.identity.environment.architecture)
  else if field = "python" then some (.text row.identity.environment.python)
  else if field = "serving_scope" then some (.text row.identity.serving.scope)
  else if field = "serving_os" then row.identity.serving.os.map .text
  else if field = "serving_architecture" then row.identity.serving.architecture.map .text
  else if field = "transport" then some (.text row.identity.transport)
  else if field ∈ parameterFacets then row.identity.parameters.get field.toList
  else row.identity.publicMetadata.get field.toList

structure Observation where
  round : RoundNumber
  pack : Fingerprint
  independentBundles : Nat
  readiness : Objective → Bool
  metrics : CandidateMetrics

def observation (row : AggregateRow) : Observation :=
  let metrics := candidateMetrics row
  let accuracyReady := metrics.accuracyLower95.isSome
  { round := row.key.round, pack := row.key.pack, independentBundles := row.observedSubmissions
    readiness := fun
      | .accuracy => accuracyReady
      | .completion => accuracyReady && metrics.completionLower95.isSome
      | .latency => accuracyReady && metrics.latencyP90.isSome
      | .throughput => accuracyReady && metrics.tokensPerSecondP50.isSome
    metrics }

inductive FacetIdentity where
  | text (folded : Str)
  | number (x : ℚ)
  deriving DecidableEq

/-- `float(value)` -/
def facetNumber : FiniteNum → Outcome ℚ
  | .int n => if floatOverflow ≤ |n| then .error .overflowError else .ok (Binary64.nearest n)
  | .float q => .ok q

def FacetIdentity.le : FacetIdentity → FacetIdentity → Bool
  | .number x, .number y => decide (x ≤ y)
  | .number _, .text _ => true
  | .text _, .number _ => false
  | .text s, .text t => decide (s ≤ t)

structure FacetEntry where
  identity : FacetIdentity
  value : Setting
  row : AggregateRow

structure Facet where
  value : Setting
  configurations : Nat
  observations : Nat
  maxIndependentBundles : Nat
  recommendationReadyObservations : Nat

structure MissingCoordinate where
  configurations : Nat
  observations : Nat

def countConfigurations (rows : List AggregateRow) : Nat :=
  (rows.map fun row => row.key.configuration).dedup.length

section Catalog
variable (cf : Casefold)

def facetIdentity : Setting → Outcome FacetIdentity
  | .text s => .ok (.text (cf.fold s))
  | .number n => do return .number (← facetNumber n)

def facetEntries (rows : List AggregateRow) (field : String) : Outcome (List FacetEntry) :=
  (rows.filterMap fun row => (facetValue row field).map fun value => (row, value)).mapM fun e => do
    return { identity := ← facetIdentity cf e.2, value := e.2, row := e.1 }

def spellingLe (s t : Str) : Prop := cf.fold s < cf.fold t ∨ cf.fold s = cf.fold t ∧ s ≤ t

instance : DecidableRel (spellingLe cf) := fun _ _ => inferInstanceAs (Decidable (_ ∨ _))

def spellings (entries : List FacetEntry) : List Str :=
  entries.filterMap fun e =>
    match e.value with
    | .text s => some s
    | .number _ => none

/-- The first spelling of a text, or the float of a number. -/
def representative (identity : FacetIdentity) (entries : List FacetEntry) : Setting :=
  match identity with
  | .text _ => .text (((spellings entries).dedup.insertionSort (spellingLe cf)).headD [])
  | .number x => .number (.float x)

def facetOf (g : FacetIdentity × List FacetEntry) : Facet :=
  let rows := g.2.map FacetEntry.row
  { value := representative cf g.1 g.2
    configurations := countConfigurations rows
    observations := rows.length
    maxIndependentBundles := (rows.map AggregateRow.observedSubmissions).foldr max 0
    recommendationReadyObservations := rows.countP fun row => row.passInterval.isSome }

/-- The rows that lack a coordinate, for the fields that may be absent. -/
def missingCoordinate (rows : List AggregateRow) (field : String) : Option MissingCoordinate :=
  let missing := rows.filter fun row => (facetValue row field).isNone
  if field ∈ optionalFacets then
    some { configurations := countConfigurations missing, observations := missing.length }
  else none

def facetRows (rows : List AggregateRow) (field : String) :
    Outcome (List Facet × Option MissingCoordinate) := do
  let entries ← facetEntries cf rows field
  let groups := (GroupBy.groupBy FacetEntry.identity entries).insertionSort
    fun g h => g.1.le h.1 = true
  return (groups.map (facetOf cf), missingCoordinate rows field)

structure CatalogSummary where
  configurations : Nat
  observations : Nat
  models : Nat
  rounds : List RoundNumber
  packs : List Str
  recommendationReadyObservations : Nat

inductive CatalogStatus where
  | observed | empty | noMatch
  deriving DecidableEq, Repr

structure CatalogConfiguration where
  configuration : ConfigurationId
  model : Str
  identity : Identity
  observations : List Observation

structure Catalog where
  roundNumber : Option Int
  pack : Option Str
  status : CatalogStatus
  summary : CatalogSummary
  facets : List (String × List Facet)
  missingCoordinates : List (String × MissingCoordinate)
  configurations : List CatalogConfiguration

def catalogLe (a b : AggregateRow) : Prop :=
  cf.fold a.key.model < cf.fold b.key.model ∨ cf.fold a.key.model = cf.fold b.key.model ∧
    (a.key.configuration.1 < b.key.configuration.1 ∨ a.key.configuration.1 = b.key.configuration.1 ∧
      (a.key.round < b.key.round ∨ a.key.round = b.key.round ∧ a.key.pack.1 ≤ b.key.pack.1))

instance : DecidableRel (catalogLe cf) := fun _ _ => inferInstanceAs (Decidable (_ ∨ _))

def configurationLe (a b : CatalogConfiguration) : Prop :=
  cf.fold a.model < cf.fold b.model ∨ cf.fold a.model = cf.fold b.model ∧
    a.configuration.1 ≤ b.configuration.1

instance : DecidableRel (configurationLe cf) := fun _ _ => inferInstanceAs (Decidable (_ ∨ _))

/-- The rows of a configuration, which have one identity. -/
def catalogConfiguration (g : ConfigurationId × List AggregateRow) : Outcome CatalogConfiguration :=
  match g.2 with
  | [] => .error .keyError
  | first :: rest => do
      require (rest.all fun row => row.key.model == first.key.model &&
        row.identity.same first.identity) "catalog configuration identity collision"
      return { configuration := g.1, model := first.key.model, identity := first.identity
               observations := g.2.map observation }

def catalogRows (rows : List AggregateRow) (roundNumber : Option Int) (pack : Option Str) :
    List AggregateRow :=
  (rows.filter fun row => roundNumber.all (fun n => decide ((row.key.round.1 : Int) = n)) &&
    pack.all fun p => decide (row.key.pack.1 = p)).insertionSort (catalogLe cf)

def buildCatalog (aggregateRows : List AggregateRow) (roundNumber : Option Int)
    (pack : Option Str) : Outcome Catalog := do
  validateFilters roundNumber pack
  let rows := catalogRows cf aggregateRows roundNumber pack
  let configurations ← (GroupBy.groupBy (fun row => row.key.configuration) rows).mapM
    catalogConfiguration
  let facets ← facetFields.mapM fun field => do
    let found ← facetRows cf rows field
    return (field, found)
  return {
    roundNumber, pack
    status := if rows.isEmpty then (if aggregateRows.isEmpty then .empty else .noMatch) else .observed
    summary := {
      configurations := configurations.length
      observations := rows.length
      models := (rows.map fun row => cf.fold row.key.model).dedup.length
      rounds := (rows.map fun row => row.key.round).dedup.insertionSort (· ≤ ·)
      packs := sortedNames (rows.map fun row => row.key.pack.1)
      recommendationReadyObservations := rows.countP fun row => row.passInterval.isSome }
    facets := facets.map fun e => (e.1, e.2.1)
    missingCoordinates := facets.filterMap fun e => e.2.2.map fun missing => (e.1, missing)
    configurations := configurations.insertionSort (configurationLe cf) }

end Catalog

end Community
