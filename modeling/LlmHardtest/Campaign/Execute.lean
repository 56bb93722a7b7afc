import LlmHardtest.Campaign.TextRounds
import LlmHardtest.Campaign.RepoRound
set_option autoImplicit false

/-! The campaign loop: which saved attempts a run skips, which it executes, and what it leaves on
disk. -/

namespace Campaign
open Python Round4

def canonicalTasks : List TaskKey :=
  [.q26HiddenTests, .q27Race, .q28FalseHypothesis, .q29Multiturn, .q30v2PolicyConflict,
    .q31ApprovalFollowup]

structure ModelConfig where
  key : Str
  rounds : Option (List Nat) := none
  itemFilters : List (Nat × List Nat) := []
  taskFilter : Option (List TaskKey) := none
  agentBackend : AgentBackend := .codexCli

structure Config where
  models : List ModelConfig
  repetitions : Nat
  rounds : List Nat
  timeout : Nat := 3600
  round4Tasks : Option (List TaskKey) := none

def modelRounds (c : Config) (m : ModelConfig) : List Nat := m.rounds.getD c.rounds

def itemFilter (m : ModelConfig) (round : Nat) : Option (List Nat) := m.itemFilters.lookup round

def tasksOf (c : Config) (m : ModelConfig) : List TaskKey :=
  match m.taskFilter with
  | some (t :: ts) => t :: ts
  | _ => match c.round4Tasks with
    | some (t :: ts) => t :: ts
    | _ => canonicalTasks

def validateConfig (c : Config) : Bool :=
  decide (c.models ≠ []) && decide (c.models.map ModelConfig.key).Nodup &&
  c.models.all (fun m => decide (m.key ≠ [])) && decide (1 ≤ c.repetitions) &&
  decide (1 ≤ c.timeout) && decide (c.rounds ≠ []) && c.rounds.all (fun r => decide (r ∈ [1, 2, 3, 4])) &&
  decide c.rounds.Nodup &&
  c.models.all (fun m =>
    decide (modelRounds c m ≠ []) && (modelRounds c m).all (fun r => decide (r ∈ c.rounds)) &&
    decide (modelRounds c m).Nodup &&
    m.itemFilters.all (fun f => decide (f.1 ∈ modelRounds c m) && decide (f.2 ≠ []) &&
      decide f.2.Nodup && f.2.all fun id => decide (id ∈ (questions f.1).map Question.id)) &&
    m.taskFilter.all (fun tasks => decide (4 ∈ modelRounds c m) && decide (tasks ≠ []) &&
      decide tasks.Nodup && tasks.all fun t => decide (t ∈ canonicalTasks))) &&
  c.round4Tasks.all (fun tasks => decide (tasks ≠ []) && decide tasks.Nodup &&
    tasks.all fun t => decide (t ∈ canonicalTasks))

structure ValidConfig extends Config where
  valid : validateConfig toConfig = true

/-- The saved files of a run directory: `result.json` of a model, round and attempt, and `run.json`
of a model. -/
inductive Slot where
  | result (key : Str) (round attempt : Nat)
  | run (key : Str)
  deriving DecidableEq

def Saved : Slot → Type
  | .result _ _ _ => Payload
  | .run _ => RunFile

abbrev Store : Type := (i : Slot) → Option (Saved i)

inductive Job where
  | text (m : ModelConfig) (round attempt : Nat)
  | repo (m : ModelConfig)

def Job.slot : Job → Slot
  | .text m round attempt => .result m.key round attempt
  | .repo m => .run m.key

/-- An attempt: that of a round from 1 to 3, or that of a Round 4 task. -/
inductive AttemptId where
  | text (key : Str) (round attempt : Nat)
  | repo (key : Str) (task : TaskKey) (attempt : Nat)
  deriving DecidableEq

def AttemptId.slot : AttemptId → Slot
  | .text key round attempt => .result key round attempt
  | .repo key _ _ => .run key

/-- What the dashboard shows: an attempt starts, or a saved file's items count as resumed. -/
inductive Event where
  | start (id : AttemptId)
  | skip (count : Nat) (file : Slot)
  deriving DecidableEq

/-- The outside of a campaign run. A saved text attempt may also be lost while it is written. -/
structure World where
  replies : Str → Nat → Nat → Replies
  saves : Str → Nat → Nat → Bool
  repo : Str → RepoWorld

/-- The order of the loops: each model's rounds 1 to 3 and then its Round 4. -/
def jobs (c : Config) : List Job :=
  c.models.flatMap fun m =>
    ((modelRounds c m).filter fun r => decide (r ∈ [1, 2, 3])).flatMap
      (fun round => (List.range' 1 c.repetitions).map fun attempt => .text m round attempt) ++
    if 4 ∈ modelRounds c m then [.repo m] else []

def Job.ids (c : Config) : Job → List AttemptId
  | .text m round attempt => [.text m.key round attempt]
  | .repo m => (pairs (tasksOf c m) c.repetitions).map fun p => .repo m.key p.1 p.2

section Loop
variable (u : UnicodeData) (g : Graders) (c : Config) (dryRun : Bool) (w : World)

/-- What executing a text attempt saves; nothing when the run is stopped first. -/
def textResult (m : ModelConfig) (round attempt : Nat) : Option Payload :=
  let replies := w.replies m.key round attempt
  let result :=
    if round = 3 then round3 g attempt (itemFilter m 3) replies
    else round12 u g round attempt (itemFilter m round) replies
  if w.saves m.key round attempt then result else none

def repoRun (m : ModelConfig) : List (TaskKey × Nat) × Option RunJson :=
  runPairs c.timeout m.agentBackend (w.repo m.key) (tasksOf c m) c.repetitions

def executeText (m : ModelConfig) (round attempt : Nat) (saved : Option Payload) :
    JobLoop.Verdict Payload Event :=
  if dryRun then ⟨saved, [], true⟩
  else
    let start := Event.start (.text m.key round attempt)
    match textResult u g w m round attempt with
    | some p => ⟨some p, [start], true⟩
    | none => ⟨saved, [start], false⟩

def executeRepo (m : ModelConfig) (saved : Option RunFile) : JobLoop.Verdict RunFile Event :=
  if dryRun then ⟨saved, [], true⟩
  else if (w.repo m.key).ready then
    let starts := (repoRun c w m).1.map fun p => Event.start (.repo m.key p.1 p.2)
    match (repoRun c w m).2, (w.repo m.key).written with
    | some run, .whole => ⟨some (.whole run), starts, decide (run.errors = [])⟩
    | some _, .torn => ⟨some .torn, starts, false⟩
    | _, _ => ⟨saved, starts, false⟩
  else ⟨saved, [], false⟩

def textJob (m : ModelConfig) (round attempt : Nat) :
    Option Payload → JobLoop.Verdict Payload Event
  | some p =>
      if p.infrastructureErrors ≠ 0 ∨ p.incomplete.getD 0 ≠ 0 then
        executeText u g dryRun w m round attempt (some p)
      else ⟨some p, [.skip p.planned (.result m.key round attempt)], true⟩
  | none => executeText u g dryRun w m round attempt none

def repoJob (m : ModelConfig) : Option RunFile → JobLoop.Verdict RunFile Event
  -- `load_json` raises on a torn file.
  | some .torn => ⟨some .torn, [], false⟩
  | some (.whole run) =>
      if run.errors = [] then
        ⟨some (.whole run), [.skip (run.attempts * run.tasks.length) (.run m.key)], true⟩
      else executeRepo c dryRun w m (some (.whole run))
  | none => executeRepo c dryRun w m none

def executeJob : (j : Job) → Option (Saved j.slot) → JobLoop.Verdict (Saved j.slot) Event
  | .text m round attempt => textJob u g dryRun w m round attempt
  | .repo m => repoJob c dryRun w m

def execute (s : Store) : Store × List Event :=
  JobLoop.run Job.slot (executeJob u g c dryRun w) (jobs c) s

end Loop

/-- What is on disk after some runs of the campaign, each in its own world and each perhaps stopped
or dry. -/
inductive Reachable (u : UnicodeData) (g : Graders) (c : ValidConfig) : Store → Prop where
  | empty : Reachable u g c fun _ => none
  | run {s : Store} (h : Reachable u g c s) (dryRun : Bool) (w : World) :
      Reachable u g c (execute u g c.toConfig dryRun w s).1

end Campaign
