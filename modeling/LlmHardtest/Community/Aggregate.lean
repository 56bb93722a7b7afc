import LlmHardtest.Community.Bundle
import LlmHardtest.Library.GroupBy
set_option autoImplicit false

/-! The aggregate rows of a list of bundles: one row for each round, pack and configuration. -/

namespace Community
open Python

def minBaselineSubmissions : Nat := 5

structure Interval where
  estimate : PyFloat
  low : ℚ
  high : ℚ
  observedSubmissions : Nat
  deriving Repr

def quantile : ℚ := 49 / 25

def clusterInterval (sq : SquareRoot) (rates : List PyFloat) : Outcome (Option Interval) :=
  if rates.length < minBaselineSubmissions then .ok none
  else
    match PyFloat.mean rates with
    | .finite estimate =>
        let n : ℚ := rates.length
        let denominator := 1 + quantile ^ 2 / n
        let center := (estimate + quantile ^ 2 / (2 * n)) / denominator
        let radicand := estimate * (1 - estimate) / n + quantile ^ 2 / (4 * n ^ 2)
        if radicand < 0 then .error (.valueError "math domain error".toList)
        else
          let margin := quantile / denominator * sq.sqrt radicand
          .ok (some {
            estimate := .finite (roundDigits 6 estimate)
            low := roundDigits 6 (max 0 (center - margin))
            high := roundDigits 6 (min 1 (center + margin))
            observedSubmissions := rates.length })
    | .inf _ => .error (.valueError "math domain error".toList)
    -- Comparisons with NaN are false, so both clamps keep their bound.
    | .nan => .ok (some { estimate := .nan, low := 0, high := 1, observedSubmissions := rates.length })

def percentile (values : List PyFloat) (p : ℚ) : Option PyFloat :=
  let ordered := values.insertionSort fun a b => a.le b = true
  (ordered[(⌈p * ordered.length⌉ - 1).toNat]?).map (PyFloat.roundTo 3)

structure Key where
  round : RoundNumber
  pack : Fingerprint
  model : Str
  configuration : ConfigurationId
  deriving DecidableEq

structure Entry where
  configuration : ConfigurationId
  identity : Identity
  model : Model

structure Cell where
  key : Key
  result : RoundResult

def identityOf (b : Bundle) (m : Model) : Outcome Identity := do
  let serving ← normalizedServing b m
  return { environment := b.environment, serving, model := m.publicName, transport := m.transport
           parameters := m.parameters, publicMetadata := m.publicMetadata }

def entries (h : Hashing) (b : Bundle) : Outcome (List Entry) :=
  b.models.mapM fun m => do
    let configuration ← configurationId h b m
    let identity ← identityOf b m
    return { configuration, identity, model := m }

/-- The configurations seen so far; a later identity under a known id must be the same. -/
def register (known : List (ConfigurationId × Identity)) :
    List Entry → Outcome (List (ConfigurationId × Identity))
  | [] => .ok known
  | e :: es =>
      match known.lookup e.configuration with
      | none => register (known ++ [(e.configuration, e.identity)]) es
      | some previous =>
          if previous.same e.identity then register known es
          else .error (.valueError "public configuration ID collision".toList)

def cells (b : Bundle) (es : List Entry) : Outcome (List Cell) := do
  let perEntry ← es.mapM fun e => e.model.rounds.mapM fun r => do
    let pack ← ofKey (b.packs.lookup r.1)
    return { key := ⟨r.1, pack, e.model.publicName, e.configuration⟩, result := r.2 }
  return perEntry.flatten

def scoreFields (round : RoundNumber) : String × String :=
  if round.1 = 4 then ("release_ready", "attempts") else ("passed", "total")

/-- What a bundle adds to a group. -/
structure Local where
  runs : Nat
  passed : PyNum
  total : PyNum
  incomplete : PyNum
  manualReview : PyNum
  infrastructureErrors : PyNum
  attempted : PyNum
  itemWalls : List PyFloat
  tokenRates : List PyFloat

def itemOutcomes (cs : List Cell) : List ItemOutcome := cs.flatMap fun c => c.result.items.getD []

def sumMetric (cs : List Cell) (field : Cell → String) : Outcome PyNum :=
  PyNum.sum (cs.filterMap fun c => (c.result.metric (field c)).map FiniteNum.num)

def itemWalls (items : List ItemOutcome) : Outcome (List PyFloat) :=
  (items.filterMap ItemOutcome.wallSeconds).mapM fun wall => wall.num.toFloat

def ratePairs (items : List ItemOutcome) : List (Int × FiniteNum) :=
  items.filterMap fun item =>
    match item.wallSeconds, item.tokens with
    | some wall, some tokens => if 0 < wall.value then some (tokens, wall) else none
    | _, _ => none

def tokenRates (items : List ItemOutcome) : Outcome (List PyFloat) :=
  (ratePairs items).mapM fun p => (PyNum.int p.1).div p.2.num

/-- The accumulators of one group of a bundle, and the attempts they count. -/
def localOf (cs : List Cell) : Outcome Local := do
  let passed ← sumMetric cs fun c => (scoreFields c.key.round).1
  let total ← sumMetric cs fun c => (scoreFields c.key.round).2
  let incomplete ← sumMetric cs fun _ => "incomplete"
  let manualReview ← sumMetric cs fun _ => "manual_review"
  let infrastructureErrors ← sumMetric cs fun _ => "infrastructure_errors"
  let walls ← itemWalls (itemOutcomes cs)
  let rates ← tokenRates (itemOutcomes cs)
  let attempted ← (← (← total.add incomplete).add manualReview).add infrastructureErrors
  return { runs := cs.length, passed, total, incomplete, manualReview, infrastructureErrors
           attempted, itemWalls := walls, tokenRates := rates }

def bundleGroups (b : Bundle) (es : List Entry) : Outcome (List (Key × Local)) := do
  let cs ← cells b es
  (GroupBy.groupBy Cell.key cs).mapM fun g => do
    let l ← localOf g.2
    return (g.1, l)

def passRates (locals : List Local) : Outcome (List PyFloat) :=
  (locals.filter fun l => l.total.positive).mapM fun l => l.passed.div l.total

def completionRates (locals : List Local) : Outcome (List PyFloat) :=
  (locals.filter fun l => l.attempted.positive).mapM fun l => l.total.div l.attempted

def meanWalls (locals : List Local) : List PyFloat :=
  (locals.filter fun l => !l.itemWalls.isEmpty).map fun l => PyFloat.mean l.itemWalls

def meanTokenRates (locals : List Local) : List PyFloat :=
  (locals.filter fun l => !l.tokenRates.isEmpty).map fun l => PyFloat.mean l.tokenRates

/-- An aggregate row. A statistic is present exactly when enough bundles were observed. -/
structure AggregateRow where
  key : Key
  identity : Identity
  submissions : Nat
  runs : Nat
  passed : PyNum
  total : PyNum
  incomplete : PyNum
  manualReview : PyNum
  infrastructureErrors : PyNum
  observedSubmissions : Nat
  passInterval : Option Interval
  completionObserved : Nat
  completionInterval : Option Interval
  itemWallP50 : Option PyFloat
  itemWallP90 : Option PyFloat
  itemWallObserved : Nat
  tokensPerSecondP50 : Option PyFloat
  tokenRateObserved : Nat
  pass_gated : passInterval.isSome = decide (minBaselineSubmissions ≤ observedSubmissions)
  completion_gated : completionInterval.isSome = decide (minBaselineSubmissions ≤ completionObserved)
  wall_measured : itemWallP90.isSome = decide (0 < itemWallObserved)
  tokenRate_measured : tokensPerSecondP50.isSome = decide (0 < tokenRateObserved)

theorem clusterInterval_isSome {sq : SquareRoot} {rates : List PyFloat} {interval : Option Interval}
    (h : clusterInterval sq rates = .ok interval) :
    interval.isSome = decide (minBaselineSubmissions ≤ rates.length) := by
  unfold clusterInterval at h
  by_cases hlt : rates.length < minBaselineSubmissions
  · rw [if_pos hlt] at h
    injection h with h
    rw [← h]
    simpa using hlt
  · rw [if_neg hlt] at h
    have hle : minBaselineSubmissions ≤ rates.length := by omega
    rw [decide_eq_true hle]
    cases hm : PyFloat.mean rates with
    | finite estimate =>
      rw [hm] at h
      dsimp only at h
      split at h
      · cases h
      · injection h with h
        rw [← h]
        rfl
    | inf negative =>
      rw [hm] at h
      cases h
    | nan =>
      rw [hm] at h
      injection h with h
      rw [← h]
      rfl

theorem percentile_isSome {values : List PyFloat} {p : ℚ} (hp : p ≤ 1) :
    (percentile values p).isSome = decide (0 < values.length) := by
  unfold percentile
  dsimp only
  rw [Option.isSome_map, List.length_insertionSort]
  by_cases hpos : 0 < values.length
  · have hceil : ⌈p * (values.length : ℚ)⌉ ≤ (values.length : ℤ) := by
      rw [Int.ceil_le]
      have hlen : (0 : ℚ) ≤ values.length := by positivity
      push_cast
      nlinarith
    rw [decide_eq_true hpos, List.getElem?_eq_getElem (by rw [List.length_insertionSort]; omega)]
    rfl
  · have hnil : values = [] := List.length_eq_zero_iff.mp (by omega)
    subst hnil
    simp

def rowOf (sq : SquareRoot) (configurations : List (ConfigurationId × Identity))
    (g : Key × List (Key × Local)) : Outcome AggregateRow := do
  let locals := g.2.map Prod.snd
  let identity ← ofKey (configurations.lookup g.1.configuration)
  let passed ← PyNum.sum (locals.map Local.passed)
  let total ← PyNum.sum (locals.map Local.total)
  let incomplete ← PyNum.sum (locals.map Local.incomplete)
  let manualReview ← PyNum.sum (locals.map Local.manualReview)
  let infrastructureErrors ← PyNum.sum (locals.map Local.infrastructureErrors)
  let rates ← passRates locals
  let completions ← completionRates locals
  match hp : clusterInterval sq rates, hc : clusterInterval sq completions with
  | .ok passInterval, .ok completionInterval =>
      return {
        key := g.1, identity, submissions := locals.length, runs := (locals.map Local.runs).sum
        passed, total, incomplete, manualReview, infrastructureErrors
        observedSubmissions := rates.length, passInterval
        completionObserved := completions.length, completionInterval
        itemWallP50 := percentile (meanWalls locals) (1 / 2)
        itemWallP90 := percentile (meanWalls locals) (9 / 10)
        itemWallObserved := (meanWalls locals).length
        tokensPerSecondP50 := percentile (meanTokenRates locals) (1 / 2)
        tokenRateObserved := (meanTokenRates locals).length
        pass_gated := clusterInterval_isSome hp
        completion_gated := clusterInterval_isSome hc
        wall_measured := percentile_isSome (by norm_num)
        tokenRate_measured := percentile_isSome (by norm_num) }
  | .error e, _ => .error e
  | _, .error e => .error e

def rowLe (u : UnicodeData) (a b : AggregateRow) : Prop :=
  a.key.round < b.key.round ∨ a.key.round = b.key.round ∧
    (u.lowerStr a.key.model < u.lowerStr b.key.model ∨
      u.lowerStr a.key.model = u.lowerStr b.key.model ∧
        a.key.configuration.1 ≤ b.key.configuration.1)

instance (u : UnicodeData) : DecidableRel (rowLe u) := fun _ _ => inferInstanceAs (Decidable (_ ∨ _))

def contribution (h : Hashing) (b : Bundle) : Outcome (List (Key × Local)) := do
  let es ← entries h b
  bundleGroups b es

def submissionGroups (h : Hashing) (submissions : List Bundle) :
    Outcome (List (ConfigurationId × Identity) × List (Key × List (Key × Local))) := do
  let es ← submissions.mapM (entries h)
  let configurations ← register [] es.flatten
  let groups ← submissions.mapM (contribution h)
  return (configurations, GroupBy.groupBy Prod.fst groups.flatten)

def aggregateSubmissions (h : Hashing) (u : UnicodeData) (sq : SquareRoot)
    (submissions : List Bundle) : Outcome (List AggregateRow) := do
  let p ← submissionGroups h submissions
  let rows ← p.2.mapM (rowOf sq p.1)
  return rows.insertionSort (rowLe u)

end Community
