import LlmHardtest.Round5.NextEvidence
set_option autoImplicit false

/-! The evidence collection plan: what each configuration still has to collect at each pilot, and
which pilots give most for it. -/

namespace Round5
open Python

inductive PilotStatus where
  | packAmbiguous | missing | freshCohortRequired | repeatDeficit | ready | versionAlignmentRequired
  deriving DecidableEq, Repr

structure PilotState where
  status : PilotStatus
  additionalCompleteAttempts : Option Nat
  packs : List Str
  deriving DecidableEq, Repr

/-- `rows_by_pilot[pilot_id]` -/
def Configuration.rowsOf (c : Configuration) (pilotId : PilotId) : List ScenarioRow :=
  c.scenarioResults.filter fun row => row.pilotId = pilotId

def ScenarioRow.state (row : ScenarioRow) : PilotState :=
  if 0 < row.summary.incomplete ∨ 0 < row.summary.authorityViolations then
    ⟨.freshCohortRequired, some minCompleteRepeats, [row.pack]⟩
  else if row.summary.complete < minCompleteRepeats then
    ⟨.repeatDeficit, some (minCompleteRepeats - row.summary.complete), [row.pack]⟩
  else ⟨.ready, some 0, [row.pack]⟩

/-- The first loop: the state of a configuration on its own. -/
def Configuration.localState (c : Configuration) (pilotId : PilotId) : PilotState :=
  if pilotId ∈ c.packAmbiguousPilots then
    ⟨.packAmbiguous, none, ((c.rowsOf pilotId).map (·.pack)).insertionSort (· ≤ ·)⟩
  else
    match c.rowsOf pilotId with
    | [] => ⟨.missing, some minCompleteRepeats, []⟩
    | row :: _ => row.state

def globalPacks (configurations : List Configuration) (pilotId : PilotId) : List Str :=
  (configurations.flatMap fun c => (c.localState pilotId).packs).dedup

/-- The second loop: where several packs are in use, every observed state asks for alignment. The
aliases of the configurations are distinct, so each has its own states. -/
def pilotState (configurations : List Configuration) (c : Configuration) (pilotId : PilotId) :
    PilotState :=
  let state := c.localState pilotId
  if 1 < (globalPacks configurations pilotId).length ∧ state.packs ≠ [] then
    ⟨.versionAlignmentRequired, none, state.packs⟩
  else state

/-- `state["status"] in {"PACK_AMBIGUOUS", "VERSION_ALIGNMENT_REQUIRED"}` -/
def PilotStatus.needsAlignment : PilotStatus → Bool
  | .packAmbiguous | .versionAlignmentRequired => true
  | _ => false

/-- The sum of numbers of attempts, unless one of them is not known. -/
def totalAttempts (values : List (Option Nat)) : Option Nat :=
  if values.any Option.isNone then none else some (values.filterMap id).sum

structure ScenarioPriority where
  pilotId : PilotId
  readyConfigurations : Nat
  totalConfigurations : Nat
  additionalCompleteAttempts : Option Nat
  potentialPairCoverageGain : Nat
  pairGainPerAttempt : Option ℚ
  versionAlignmentConfigurations : List Str
  deriving DecidableEq, Repr

def scenarioPriority (configurations : List Configuration) (pilotId : PilotId) :
    ScenarioPriority :=
  let states := configurations.map fun c => (c.configuration, pilotState configurations c pilotId)
  let total := configurations.length
  let ready := states.countP fun s => s.2.status = .ready
  let additional := totalAttempts (states.map fun s => s.2.additionalCompleteAttempts)
  let pairGain := total * (total - 1) / 2 - ready * (ready - 1) / 2
  { pilotId
    readyConfigurations := ready
    totalConfigurations := total
    additionalCompleteAttempts := additional
    potentialPairCoverageGain := pairGain
    pairGainPerAttempt :=
      match additional with
      | none | some 0 => none
      | some n => some (roundDigits 6 (pairGain / n))
    versionAlignmentConfigurations :=
      (states.filter fun s => s.2.status.needsAlignment).map Prod.fst }

/-- The sort key: alignment first, then the gain for each attempt, the cost, and the pilot. -/
def priorityOrder (a b : ScenarioPriority) : Prop :=
  let aligns (p : ScenarioPriority) : Nat := if p.versionAlignmentConfigurations.isEmpty then 1 else 0
  let gain (p : ScenarioPriority) : ℚ := -(p.pairGainPerAttempt.getD 0)
  let cost (p : ScenarioPriority) : Nat := p.additionalCompleteAttempts.getD (10 ^ 9)
  aligns a < aligns b ∨ (aligns a = aligns b ∧ (gain a < gain b ∨ (gain a = gain b ∧
    (cost a < cost b ∨ (cost a = cost b ∧
      pilotIds.idxOf a.pilotId ≤ pilotIds.idxOf b.pilotId)))))

instance : DecidableRel priorityOrder :=
  fun _ _ => inferInstanceAs (Decidable (_ ∨ (_ ∧ (_ ∨ (_ ∧ (_ ∨ (_ ∧ _)))))))

def scenarioPriorities (configurations : List Configuration) : List ScenarioPriority :=
  (pilotIds.map (scenarioPriority configurations)).insertionSort priorityOrder

/-- `ranks[pilot_id]` -/
def priorityRank (configurations : List Configuration) (pilotId : PilotId) : Nat :=
  ((scenarioPriorities configurations).map (·.pilotId)).idxOf pilotId + 1

inductive PlanAction where
  | alignScenarioVersion | collectMissingScenario | recollectCleanCohort | collectRepeat
  deriving DecidableEq, Repr

def PilotStatus.action : PilotStatus → PlanAction
  | .packAmbiguous | .versionAlignmentRequired => .alignScenarioVersion
  | .missing => .collectMissingScenario
  | .freshCohortRequired => .recollectCleanCohort
  | .repeatDeficit | .ready => .collectRepeat

structure PlannedAction where
  priorityRank : Nat
  pilotId : PilotId
  additionalCompleteAttempts : Option Nat
  currentPacks : List Str
  action : PlanAction
  deriving DecidableEq, Repr

def actionOrder (a b : PlannedAction) : Prop :=
  let later (x : PlannedAction) : Nat := if x.action = .alignScenarioVersion then 0 else 1
  later a < later b ∨ (later a = later b ∧ (a.priorityRank < b.priorityRank ∨
    (a.priorityRank = b.priorityRank ∧ a.pilotId.text ≤ b.pilotId.text)))

instance : DecidableRel actionOrder :=
  fun _ _ => inferInstanceAs (Decidable (_ ∨ (_ ∧ (_ ∨ (_ ∧ _)))))

inductive PlanStatus where
  | ready | alignmentRequired | collectionNeeded
  deriving DecidableEq, Repr

structure ConfigurationPlan where
  configuration : Str
  status : PlanStatus
  additionalCompleteAttempts : Option Nat
  manualAlignmentRequired : Bool
  actions : List PlannedAction
  deriving DecidableEq, Repr

def plannedActions (configurations : List Configuration) (c : Configuration) :
    List PlannedAction :=
  ((pilotIds.filter fun p => (pilotState configurations c p).status ≠ .ready).map fun p =>
    let state := pilotState configurations c p
    ⟨priorityRank configurations p, p, state.additionalCompleteAttempts, state.packs,
      state.status.action⟩).insertionSort actionOrder

def configurationPlan (configurations : List Configuration) (c : Configuration) :
    ConfigurationPlan :=
  let actions := plannedActions configurations c
  let alignmentRequired := actions.any fun a => a.action = .alignScenarioVersion
  { configuration := c.configuration
    status :=
      if actions.isEmpty then .ready
      else if alignmentRequired then .alignmentRequired else .collectionNeeded
    additionalCompleteAttempts := totalAttempts (actions.map (·.additionalCompleteAttempts))
    manualAlignmentRequired := alignmentRequired
    actions }

structure PlanSummary where
  configurations : Nat
  readyConfigurations : Nat
  configurationsRequiringManualAlignment : Nat
  minimumAdditionalCompleteAttempts : Option Nat
  deriving DecidableEq, Repr

structure EvidencePlan where
  scenarioPriorities : List ScenarioPriority
  configurations : List ConfigurationPlan
  summary : PlanSummary
  deriving DecidableEq, Repr

def evidenceCollectionPlan (configurations : List Configuration) : EvidencePlan :=
  let plans := configurations.map (configurationPlan configurations)
  let manual := plans.countP (·.manualAlignmentRequired)
  { scenarioPriorities := scenarioPriorities configurations
    configurations := plans
    summary := {
      configurations := configurations.length
      readyConfigurations := plans.countP fun p => p.status = .ready
      configurationsRequiringManualAlignment := manual
      minimumAdditionalCompleteAttempts :=
        if manual ≠ 0 then none
        else some (plans.filterMap (·.additionalCompleteAttempts)).sum } }

structure Portfolio where
  configurations : List Configuration
  pairwise : List Comparison
  evidenceCollectionPlan : EvidencePlan

def portfolioConfigurations (includeModelLabels : Bool) (attempts : List PilotAttempt) :
    Outcome (List Configuration) :=
  (identities attempts).mapM fun identity =>
    configuration includeModelLabels (aliasOf attempts identity) (ofIdentity attempts identity)

def portfolio (rng : Generator) (includeModelLabels : Bool) (attempts : List PilotAttempt) :
    Outcome Portfolio := do
  let configurations ← portfolioConfigurations includeModelLabels attempts
  return {
    configurations
    pairwise := comparisons rng attempts
    evidenceCollectionPlan := evidenceCollectionPlan configurations }

end Round5
