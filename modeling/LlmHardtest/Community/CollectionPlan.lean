import LlmHardtest.Community.Recommend
set_option autoImplicit false

/-! The collection planner, and the readiness that the serving catalog shows. -/

namespace Community
open Python
open Round5 (require)

def objectiveCount (row : AggregateRow) : Objective → Nat
  | .accuracy => row.observedSubmissions
  | .completion => row.completionObserved
  | .latency => row.itemWallObserved
  | .throughput => row.tokenRateObserved

/-- What is planned for a configuration; `accuracyDeficit` is that of the prerequisite. -/
structure Planned where
  row : AggregateRow
  observed : List (Objective × Nat)
  deficits : List (Objective × Nat)
  accuracyObserved : Nat
  accuracyDeficit : Nat
  additional : Nat
  ready : Bool

def planRow (objectives : List Objective) (target : Nat) (row : AggregateRow) : Planned :=
  let deficits := objectives.map fun o => (o, target - objectiveCount row o)
  let accuracyDeficit := minBaselineSubmissions - objectiveCount row .accuracy
  let additional := (deficits.map Prod.snd ++ [accuracyDeficit]).foldr max 0
  { row, observed := objectives.map fun o => (o, objectiveCount row o), deficits
    accuracyObserved := objectiveCount row .accuracy, accuracyDeficit, additional
    ready := decide (additional = 0) }

inductive PlanStatus where
  | noObservations | packRequired | noMatch | targetMet | collectionNeeded
  deriving DecidableEq, Repr

structure Plan where
  round : Int
  pack : Option Str
  availablePacks : List Str
  constraints : List (Str × Json)
  objectives : List Objective
  target : Nat
  status : PlanStatus
  reason : Str
  matchedConfigurations : Nat
  readyConfigurations : Nat
  needingCollection : Nat
  minimumAdditional : Nat
  configurations : List Planned

def emptyPlan (q : Recommendation) (target : Nat) : Plan where
  round := q.round
  pack := q.pack
  availablePacks := q.availablePacks
  constraints := q.constraints
  objectives := q.objectives
  target := target
  status := .noObservations
  reason := "no observations exist for the requested round and pack".toList
  matchedConfigurations := 0
  readyConfigurations := 0
  needingCollection := 0
  minimumAdditional := 0
  configurations := []

variable (cf : Casefold)

def planLe (a b : Planned) : Prop :=
  b.additional < a.additional ∨ a.additional = b.additional ∧ nameLe cf a.row b.row

instance : DecidableRel (planLe cf) := fun _ _ => inferInstanceAs (Decidable (_ ∨ _))

def planRows (q : Recommendation) (target : Nat) (matched : List AggregateRow) : Plan :=
  let planned := (matched.insertionSort (nameLe cf)).map (planRow q.objectives target)
  let ready := planned.countP Planned.ready
  { emptyPlan q target with
    status := if ready = planned.length then .targetMet else .collectionNeeded
    reason :=
      if ready = planned.length then
        "every matching configuration meets the target for every selected objective".toList
      else "collect complete independent bundles for the listed exact configurations".toList
    matchedConfigurations := planned.length
    readyConfigurations := ready
    needingCollection := planned.length - ready
    minimumAdditional := (planned.map Planned.additional).sum
    configurations := planned.insertionSort (planLe cf) }

def planQuery (rows : List AggregateRow) (q : Recommendation) (target : Nat) : Plan :=
  if q.status = .packRequired then
    { emptyPlan q target with status := .packRequired, reason := q.reason }
  else
    match q.pack with
    | none => emptyPlan q target
    | some pack =>
        if pack ∈ q.availablePacks then
          let matched := matchedRows cf rows q.round pack q.constraints
          if matched.isEmpty then
            { emptyPlan q target with
              status := .noMatch
              reason := "no exact public configuration matches every constraint".toList }
          else planRows cf q target matched
        else emptyPlan q target

def buildCollectionPlan (rows : List AggregateRow) (q : Query) (target : Int) : Outcome Plan := do
  require (decide (minBaselineSubmissions ≤ target) && decide (target ≤ 1000))
    "target bundles must be an integer from 5 to 1000"
  let recommendation ← recommendAggregateRows cf rows { q with accuracyFloor := none }
  return planQuery cf rows recommendation target.toNat

end Community
