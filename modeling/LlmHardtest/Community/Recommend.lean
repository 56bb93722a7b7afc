import LlmHardtest.Community.Aggregate
import LlmHardtest.Round5.Validate
set_option autoImplicit false

/-! The recommender: which configurations match a query and have enough evidence for it. -/

namespace Community
open Python
open Round5 (require)

inductive Objective where
  | accuracy | completion | latency | throughput
  deriving DecidableEq, Repr

def Objective.name : Objective → String
  | .accuracy => "accuracy"
  | .completion => "completion"
  | .latency => "latency"
  | .throughput => "throughput"

def allObjectives : List Objective := [.accuracy, .completion, .latency, .throughput]

def Objective.parse (s : Str) : Option Objective :=
  allObjectives.find? fun o => o.name.toList == s

structure Query where
  roundNumber : Int
  pack : Option Str := none
  constraints : Option (List (Str × Json)) := none
  objectives : Option (List Str) := none
  accuracyFloor : Option PyNum := none

def textConstraints : List String :=
  ["configuration", "model", "os", "architecture", "python", "transport", "serving_scope",
    "serving_os", "serving_architecture", "reasoning_effort", "model_revision", "quantization",
    "model_format", "server", "server_version", "accelerator"]

def numericConstraints : List String :=
  ["context_window", "max_tokens", "temperature", "top_p", "top_k", "min_p", "parameter_count_b",
    "accelerator_count", "memory_gb", "system_memory_gb"]

def maxConstraints : List String := ["max_memory_gb", "max_system_memory_gb", "max_parameter_count_b"]

def parameterConstraints : List String :=
  ["reasoning_effort", "context_window", "max_tokens", "temperature", "top_p", "top_k", "min_p"]

/-- `not isinstance(value, bool) and isinstance(value, (int, float)) and math.isfinite(value)`, and
the value. -/
def finiteNumber (v : Json) (message : String) : Outcome ℚ :=
  match v.number with
  | none => .error (.valueError message.toList)
  | some n => do
      require (← n.isFinite) message
      return n.value.getD 0

def safeText (s : Str) : Bool :=
  !(strip s).isEmpty && decide (s.length ≤ 160) && s.all fun c => decide (32 ≤ c.toNat)

/-- A constraint that is present has to pass its check. -/
def checkEach (constraints : List (Str × Json)) (names : List String)
    (check : String → Json → Outcome Unit) : Outcome Unit :=
  names.forM fun key =>
    match constraints.lookup key.toList with
    | none => .ok ()
    | some v => check key v

def checkMax (key : String) (v : Json) : Outcome Unit := do
  let n ← finiteNumber v ("recommendation constraint " ++ key ++ " must be positive")
  require (decide (0 < n)) ("recommendation constraint " ++ key ++ " must be positive")

def checkNumeric (key : String) (v : Json) : Outcome Unit := do
  let _ ← finiteNumber v ("recommendation constraint " ++ key ++ " must be finite numeric")

def checkSafeText (key : String) : Json → Outcome Unit
  | .str s => require (safeText s) ("recommendation constraint " ++ key ++ " must be safe text")
  | _ => .error (.valueError ("recommendation constraint " ++ key ++ " must be safe text").toList)

def constraintText (constraints : List (Str × Json)) (key : String) : Option Str :=
  match constraints.lookup key.toList with
  | some (.str s) => some s
  | _ => none

def checkText (constraints : List (Str × Json)) (key : String) (ok : Str → Bool)
    (message : String) : Outcome Unit :=
  match constraintText constraints key with
  | none => .ok ()
  | some s => require (ok s) message

def checkConstraints (constraints : List (Str × Json)) : Outcome Unit := do
  let unknown := (constraints.map Prod.fst).filter fun key =>
    !inNames (textConstraints ++ numericConstraints ++ maxConstraints) key
  require unknown.isEmpty ("unknown recommendation constraint(s): " ++
    String.ofList (joinStr ", ".toList (sortedNames unknown)))
  checkEach constraints maxConstraints checkMax
  checkEach constraints numericConstraints checkNumeric
  checkEach constraints textConstraints checkSafeText
  checkText constraints "configuration" isConfigurationId
    "recommendation constraint configuration must be an exact 10-character ID"
  checkText constraints "python" isVersion
    "recommendation constraint python must be a major.minor version"
  checkText constraints "transport" (inNames ["openai_compat", "codex_cli"])
    "recommendation constraint transport is unsupported"
  checkText constraints "serving_scope" (inNames ["same_host", "remote", "unreported"])
    "recommendation constraint serving_scope is unsupported"
  checkText constraints "serving_os" (inNames ["Linux", "Darwin", "Windows", "Other"])
    "recommendation constraint serving_os is unsupported"
  checkText constraints "serving_architecture" (fun s => decide (s.length ≤ 32))
    "recommendation constraint serving_architecture must be at most 32 characters"

def checkObjectives (objectives : Option (List Str)) : Outcome (List Objective) := do
  let names := match objectives with
    | none => ["accuracy".toList]
    | some [] => ["accuracy".toList]
    | some names => names
  let message := "recommendation objectives must be unique values from: accuracy, completion, " ++
    "latency, throughput"
  require (decide names.Nodup) message
  match names.mapM Objective.parse with
  | none => .error (.valueError message.toList)
  | some parsed => return parsed

def checkFloor : Option PyNum → Outcome (Option ℚ)
  | none => .ok none
  | some n => do
      require (← n.isFinite) "accuracy floor must be between 0 and 1"
      let q := n.value.getD 0
      require (decide (0 ≤ q) && decide (q ≤ 1)) "accuracy floor must be between 0 and 1"
      return some q

structure Checked where
  round : Int
  pack : Option Str
  constraints : List (Str × Json)
  objectives : List Objective
  accuracyFloor : Option ℚ

def checkQuery (q : Query) : Outcome Checked := do
  require (decide (1 ≤ q.roundNumber) && decide (q.roundNumber ≤ 4))
    "recommendation round must be one of 1, 2, 3, or 4"
  let constraints := q.constraints.getD []
  checkConstraints constraints
  let objectives ← checkObjectives q.objectives
  let accuracyFloor ← checkFloor q.accuracyFloor
  require (q.pack.all isFingerprint) "recommendation pack must be an exact sha256 fingerprint"
  return { round := q.roundNumber, pack := q.pack, constraints, objectives, accuracyFloor }

structure Casefold where
  fold : Str → Str
  ascii : ∀ s : Str, (∀ c ∈ s, c.toNat < 128) → fold s = s.map Char.toLower

section Matching
variable (cf : Casefold)

def constraintValue (row : AggregateRow) (key : Str) : Option Setting :=
  if key = "configuration".toList then some (.text row.key.configuration.1)
  else if key = "model".toList then some (.text row.key.model)
  else if key = "os".toList then some (.text row.identity.environment.os)
  else if key = "architecture".toList then some (.text row.identity.environment.architecture)
  else if key = "python".toList then some (.text row.identity.environment.python)
  else if key = "serving_scope".toList then some (.text row.identity.serving.scope)
  else if key = "serving_os".toList then row.identity.serving.os.map .text
  else if key = "serving_architecture".toList then row.identity.serving.architecture.map .text
  else if key = "transport".toList then some (.text row.identity.transport)
  else if inNames parameterConstraints key then row.identity.parameters.get key
  else if inNames maxConstraints key then row.identity.publicMetadata.get (key.drop 4)
  else row.identity.publicMetadata.get key

def Json.comparable : Json → Option ℚ
  | .bool b => some (if b then 1 else 0)
  | .int n => some n
  | .float (.finite q) => some q
  | _ => none

def meetsBound (actual : Setting) (expected : Json) : Bool :=
  match actual, Json.comparable expected with
  | .number n, some bound => decide (n.value ≤ bound)
  | _, _ => false

def meetsValue (actual : Setting) (expected : Json) : Bool :=
  match expected, actual with
  | .str wanted, .text s => cf.fold s == cf.fold wanted
  | .str _, .number _ => false
  | wanted, .number n => decide (Json.comparable wanted = some n.value)
  | _, .text _ => false

def meets (key : Str) (actual : Setting) (expected : Json) : Bool :=
  if inNames maxConstraints key then meetsBound actual expected else meetsValue cf actual expected

def matchesConstraints (row : AggregateRow) (constraints : List (Str × Json)) : Bool :=
  constraints.all fun e =>
    match constraintValue row e.1 with
    | none => false
    | some actual => meets cf e.1 actual e.2

structure CandidateMetrics where
  accuracyLower95 : Option ℚ
  accuracyObserved : Option PyFloat
  completionLower95 : Option ℚ
  completionObserved : Option PyFloat
  latencyP90 : Option PyFloat
  latencyObservedBundles : Nat
  tokensPerSecondP50 : Option PyFloat
  throughputObservedBundles : Nat

def candidateMetrics (row : AggregateRow) : CandidateMetrics where
  accuracyLower95 := row.passInterval.map Interval.low
  accuracyObserved := row.passInterval.map Interval.estimate
  completionLower95 := row.completionInterval.map Interval.low
  completionObserved := row.completionInterval.map Interval.estimate
  latencyP90 := if minBaselineSubmissions ≤ row.itemWallObserved then row.itemWallP90 else none
  latencyObservedBundles := row.itemWallObserved
  tokensPerSecondP50 :=
    if minBaselineSubmissions ≤ row.tokenRateObserved then row.tokensPerSecondP50 else none
  throughputObservedBundles := row.tokenRateObserved

def objectiveValue (m : CandidateMetrics) : Objective → Option PyFloat
  | .accuracy => m.accuracyLower95.map .finite
  | .completion => m.completionLower95.map .finite
  | .latency => m.latencyP90
  | .throughput => m.tokensPerSecondP50

structure Candidate where
  row : AggregateRow
  metrics : CandidateMetrics

/-- `left` is no worse than `right`, and whether it is better. -/
def compareObjective (left right : CandidateMetrics) (o : Objective) : Option (Bool × Bool) :=
  match objectiveValue left o, objectiveValue right o with
  | some l, some r =>
      some (if o = .latency then (l.le r, l.le r && !r.le l) else (r.le l, r.le l && !l.le r))
  | _, _ => none

def dominates (left right : CandidateMetrics) (objectives : List Objective) : Bool :=
  match objectives.mapM (compareObjective left right) with
  | none => false
  | some comparisons => comparisons.all Prod.fst && comparisons.any Prod.snd

inductive RecommendStatus where
  | insufficientEvidence | packRequired | noMatch | singleEligible | descriptiveCandidates
  deriving DecidableEq, Repr

structure Excluded where
  constraints : Nat := 0
  insufficientBundles : Nat := 0
  missingObjective : Nat := 0
  accuracyFloor : Nat := 0
  dominated : Nat := 0

structure Recommendation where
  round : Int
  pack : Option Str
  availablePacks : List Str
  constraints : List (Str × Json)
  objectives : List Objective
  accuracyFloor : Option ℚ
  status : RecommendStatus
  reason : Str
  matchedConfigurations : Nat
  eligibleConfigurations : Nat
  candidates : List Candidate
  excluded : Excluded

def roundRows (rows : List AggregateRow) (round : Int) : List AggregateRow :=
  rows.filter fun row => decide ((row.key.round.1 : Int) = round)

def availablePacks (rows : List AggregateRow) (round : Int) : List Str :=
  sortedNames ((roundRows rows round).map fun row => row.key.pack.1)

def selectedPack (rows : List AggregateRow) (c : Checked) : Option Str :=
  match c.pack with
  | some pack => some pack
  | none =>
      match availablePacks rows c.round with
      | [pack] => some pack
      | _ => none

def matchedRows (rows : List AggregateRow) (round : Int) (pack : Str)
    (constraints : List (Str × Json)) : List AggregateRow :=
  (roundRows rows round).filter fun row =>
    decide (row.key.pack.1 = pack) && matchesConstraints cf row constraints

inductive Gate where
  | insufficientBundles | missingObjective | accuracyFloor | eligible
  deriving DecidableEq

def gate (objectives : List Objective) (floor : Option ℚ) (row : AggregateRow) : Gate :=
  match row.passInterval with
  | none => .insufficientBundles
  | some interval =>
      if objectives.any fun o => (objectiveValue (candidateMetrics row) o).isNone then
        .missingObjective
      else if floor.any fun f => decide (interval.low < f) then .accuracyFloor
      else .eligible

def eligibleRows (c : Checked) (matched : List AggregateRow) : List AggregateRow :=
  matched.filter fun row => gate c.objectives c.accuracyFloor row = .eligible

/-- The candidates that no other eligible one dominates; `before` and the rest are the others. -/
def undominated (objectives : List Objective) (before : List Candidate) :
    List Candidate → List Candidate
  | [] => []
  | x :: rest =>
      if (before ++ rest).any fun other => dominates other.metrics x.metrics objectives then
        undominated objectives (before ++ [x]) rest
      else x :: undominated objectives (before ++ [x]) rest

def dominatedCount (objectives : List Objective) (before : List Candidate) : List Candidate → Nat
  | [] => 0
  | x :: rest =>
      if (before ++ rest).any fun other => dominates other.metrics x.metrics objectives then
        dominatedCount objectives (before ++ [x]) rest + 1
      else dominatedCount objectives (before ++ [x]) rest

def nameLe (a b : AggregateRow) : Prop :=
  cf.fold a.key.model < cf.fold b.key.model ∨ cf.fold a.key.model = cf.fold b.key.model ∧
    a.key.configuration.1 ≤ b.key.configuration.1

instance : DecidableRel (nameLe cf) := fun _ _ => inferInstanceAs (Decidable (_ ∨ _))

def emptyRecommendation (rows : List AggregateRow) (c : Checked) : Recommendation where
  round := c.round
  pack := selectedPack rows c
  availablePacks := availablePacks rows c.round
  constraints := c.constraints
  objectives := c.objectives
  accuracyFloor := c.accuracyFloor
  status := .insufficientEvidence
  reason := "no observations match the requested round and pack".toList
  matchedConfigurations := 0
  eligibleConfigurations := 0
  candidates := []
  excluded := {}

def gateCount (c : Checked) (matched : List AggregateRow) (g : Gate) : Nat :=
  matched.countP fun row => gate c.objectives c.accuracyFloor row = g

def verdict (matched eligible : Nat) : RecommendStatus × String :=
  if matched = 0 then (.noMatch, "no exact public configuration matches every constraint")
  else if eligible = 0 then
    (.insufficientEvidence, "matching configurations do not meet the independent-bundle, " ++
      "objective, and conservative accuracy gates")
  else if eligible = 1 then
    (.singleEligible, "one eligible observed configuration exists; no comparison is possible")
  else (.descriptiveCandidates, "non-dominated observed configurations; this is not a prediction " ++
    "for untested hardware or settings")

def recommendPack (rows : List AggregateRow) (c : Checked) (pack : Str) : Recommendation :=
  let matched := matchedRows cf rows c.round pack c.constraints
  let eligible := eligibleRows c matched
  let candidates := eligible.map fun row => (⟨row, candidateMetrics row⟩ : Candidate)
  { emptyRecommendation rows c with
    status := (verdict matched.length eligible.length).1
    reason := (verdict matched.length eligible.length).2.toList
    matchedConfigurations := matched.length
    eligibleConfigurations := eligible.length
    candidates := (undominated c.objectives [] candidates).insertionSort fun a b =>
      nameLe cf a.row b.row
    excluded := {
      constraints := (roundRows rows c.round).countP fun row =>
        decide (row.key.pack.1 = pack) && !matchesConstraints cf row c.constraints
      insufficientBundles := gateCount c matched .insufficientBundles
      missingObjective := gateCount c matched .missingObjective
      accuracyFloor := gateCount c matched .accuracyFloor
      dominated := dominatedCount c.objectives [] candidates } }

def recommendChecked (rows : List AggregateRow) (c : Checked) : Recommendation :=
  if c.pack.isNone && decide (1 < (availablePacks rows c.round).length) then
    { emptyRecommendation rows c with
      status := .packRequired
      reason := "multiple pack fingerprints exist; select one exact pack".toList }
  else
    match selectedPack rows c with
    | none => emptyRecommendation rows c
    | some pack =>
        if pack ∈ availablePacks rows c.round then recommendPack cf rows c pack
        else emptyRecommendation rows c

def recommendAggregateRows (rows : List AggregateRow) (q : Query) : Outcome Recommendation := do
  let c ← checkQuery q
  return recommendChecked cf rows c

end Matching

end Community
