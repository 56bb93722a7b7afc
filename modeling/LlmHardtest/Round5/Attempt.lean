import LlmHardtest.Round5.Protocol
set_option autoImplicit false

/-! One attempt at a Round 5 pilot: its turns, why it stops, and the grade it saves. -/

namespace Round5
open Python

inductive Termination where
  | timeout | unsupportedToolLoop
  deriving DecidableEq, Repr

def Termination.text : Termination → Str
  | .timeout => "timeout".toList
  | .unsupportedToolLoop => "unsupported_tool_loop".toList

def readTranscript (file : Bytes) : Str := universalNewlines (Utf8.decodeReplace file)

/-- What `agent_turn` returns, with the transcript as the file it was read from. A turn is aborted
exactly when it ends as an unsupported tool loop, and then its transcript shows why. -/
structure TurnResult (u : UnicodeData) where
  content : Str
  transcriptFile : Bytes
  sessionId : Option Str
  wall : PyFloat
  tokens : Option Nat
  timedOut : Bool
  protocolAborted : Bool
  terminationReason : Option Termination
  returncode : Int
  aborted_iff : protocolAborted = true ↔ terminationReason = some .unsupportedToolLoop
  aborted_calls : protocolAborted = true →
    maxUnsupportedCallsPerAgentTurn ≤ (unsupportedToolCalls u (readTranscript transcriptFile)).length

inductive StopReason where
  | unsupportedToolLoop | timeout | agentExit | missingSession | emptyOutput | preapprovalEdit
  | incompleteTurns
  deriving DecidableEq, Repr

def StopReason.text : StopReason → Str
  | .unsupportedToolLoop => "unsupported_tool_loop".toList
  | .timeout => "timeout".toList
  | .agentExit => "agent_exit".toList
  | .missingSession => "missing_session".toList
  | .emptyOutput => "empty_output".toList
  | .preapprovalEdit => "preapproval_edit".toList
  | .incompleteTurns => "incomplete_turns".toList

structure TurnView where
  exitZero : Bool
  timedOut : Bool
  outputValid : Bool
  protocolAborted : Bool
  session : Bool
  deriving DecidableEq, Repr

def readTurn (turn : List (Str × Json)) : TurnView where
  exitZero := (Json.field turn "returncode").eqInt 0
  timedOut := (Json.field turn "timed_out").truthy
  outputValid := (Json.field turn "output_valid").truthy
  protocolAborted := (Json.field turn "protocol_aborted").truthy
  session := (Json.field turn "session_id").truthy

def allTurnsComplete (turns : List TurnView) : Bool :=
  turns.length == 3 && turns.all fun t => t.exitZero && !t.timedOut && t.outputValid

/-- What is wrong with one turn, if anything. -/
def TurnView.fault (t : TurnView) : Option StopReason :=
  if t.protocolAborted then some .unsupportedToolLoop
  else if t.timedOut then some .timeout
  else if !t.exitZero then some .agentExit
  else if !t.session then some .missingSession
  else if !t.outputValid then some .emptyOutput
  else none

def attemptStopReason (turns : List TurnView) (preapprovalChanged : Bool) : Option StopReason :=
  if allTurnsComplete turns then none
  else match turns.findSome? TurnView.fault with
    | some reason => some reason
    | none => some (if preapprovalChanged then .preapprovalEdit else .incompleteTurns)

def reasonJson : Option StopReason → Json
  | none => .null
  | some r => .str r.text

abbrev Hashes := List (Str × Str)

def changed (before after : Hashes) : List Str :=
  sortedNames ((before.map Prod.fst ++ after.map Prod.fst).filter fun key =>
    before.lookup key ≠ after.lookup key)

structure Grading where
  rootCauseFiles : List Str
  rootCauseFunctions : List Str
  turn1 : Str → Bool
  turn2 : Str → Bool
  invalidatedPlan : Str → Bool

/-- The outside of an attempt: what each agent turn returns, the digests of the workspace before
the turns, after each and after the tests, those of the pilot's source, and what the two test runs
print. -/
structure PilotRun (u : UnicodeData) where
  pilotId : Str
  attempt : Nat
  grading : Grading
  agent : Nat → TurnResult u
  before : Hashes
  snapshot : Nat → Hashes
  source : Hashes
  final : Hashes
  publicTests : TestRun
  hiddenTests : TestRun

section Run
variable {u : UnicodeData}

def sandboxOf (number : Nat) : Str :=
  if number < 3 then "read-only".toList else "workspace-write".toList

def TurnResult.outputValid (t : TurnResult u) : Bool := !(strip t.content).isEmpty

def TurnResult.calls (t : TurnResult u) : List Str :=
  unsupportedToolCalls u (readTranscript t.transcriptFile)

def namesJson (names : List Str) : Json := .arr ((sortedNames names).map .str)

def turnRecord (number : Nat) (t : TurnResult u) : List (Str × Json) :=
  [("content".toList, .str t.content),
   ("session_id".toList, (t.sessionId.map Json.str).getD .null),
   ("wall".toList, .float t.wall),
   ("tokens".toList, (t.tokens.map fun n => Json.int n).getD .null),
   ("timed_out".toList, .bool t.timedOut),
   ("protocol_aborted".toList, .bool t.protocolAborted),
   ("termination_reason".toList, (t.terminationReason.map fun r => Json.str r.text).getD .null),
   ("returncode".toList, .int t.returncode),
   ("sandbox".toList, .str (sandboxOf number)),
   ("output_valid".toList, .bool t.outputValid),
   ("unsupported_tool_calls".toList, .int t.calls.length),
   ("unsupported_tool_names".toList, namesJson t.calls)]

def PilotRun.preapprovalChanged (r : PilotRun u) (number : Nat) : Bool :=
  decide (number < 3) && !(changed r.before (r.snapshot number)).isEmpty

/-- `result.get("session_id") or session_id` -/
def nextSession (t : TurnResult u) (session : Option Str) : Option Str :=
  if (t.sessionId.getD []).isEmpty then session else t.sessionId

def runTurns (r : PilotRun u) : List Nat → Option Str → List (Nat × TurnResult u)
  | [], _ => []
  | number :: rest, session =>
      let t := r.agent number
      let session := nextSession t session
      if t.returncode ≠ 0 || t.timedOut || (session.getD []).isEmpty || !t.outputValid ||
          r.preapprovalChanged number then [(number, t)]
      else (number, t) :: runTurns r rest session

def PilotRun.turns (r : PilotRun u) : List (Nat × TurnResult u) := runTurns r [1, 2, 3] none

def PilotRun.records (r : PilotRun u) : List (List (Str × Json)) :=
  r.turns.map fun p => turnRecord p.1 p.2

def PilotRun.preapprovalFiles (r : PilotRun u) : List Str :=
  sortedNames ((r.turns.take 2).flatMap fun p => changed r.before (r.snapshot p.1))

def PilotRun.finalChanges (r : PilotRun u) : List Str :=
  changed r.source r.final

def scoreJson (t : TestResult) : Json :=
  .obj [("passed".toList, .int t.passed), ("total".toList, .int t.total),
    ("timed_out".toList, .bool t.timedOut)]

def claimedFiles (u : UnicodeData) (fields : List (Str × Str)) : List Str :=
  (((splitOnChar ',' ((fields.lookup "FILES_CHANGED".toList).getD [])).map strip).filter fun value =>
    !value.isEmpty && decide (u.lowerStr value ∉ ["none".toList, "n/a".toList])).insertionSort
      (· ≤ ·)

/-- The checks of the final report, which the grade and its validation both make. -/
structure ReportChecks where
  complete : Bool
  rootCause : Bool
  invalidatedPlan : Bool
  publicClaim : Bool
  filesClaim : Bool

def ReportChecks.accurate (c : ReportChecks) : Bool :=
  c.complete && c.rootCause && c.invalidatedPlan && c.publicClaim && c.filesClaim

def fieldIn (fields : List (Str × Str)) (key : String) (values : List Str) : Bool :=
  (fields.lookup key.toList).any fun value => decide (value ∈ values)

def checkReport (u : UnicodeData) (grading : Grading) (content : Str) (passed total : Int)
    (changedFiles : List Str) : ReportChecks :=
  let fields := reportFields u content
  { complete := reportFieldNames.all (fun name => decide (name ∈ fields.map Prod.fst)) &&
      fieldIn fields "CONFIDENCE" ["high".toList, "medium".toList, "low".toList] &&
      !((fields.lookup "REMAINING_RISKS".toList).getD []).isEmpty
    rootCause := fieldIn fields "ROOT_CAUSE_FILE" grading.rootCauseFiles &&
      fieldIn fields "ROOT_CAUSE_FUNCTION" grading.rootCauseFunctions
    invalidatedPlan :=
      grading.invalidatedPlan ((fields.lookup "INVALIDATED_PLAN".toList).getD [])
    publicClaim := decide ((fields.lookup "PUBLIC_TESTS".toList).getD [] =
      (toString passed).toList ++ ['/'] ++ (toString total).toList)
    filesClaim := decide (claimedFiles u fields = changedFiles) }

def reportJson (fields : List (Str × Str)) (c : ReportChecks) : Json :=
  .obj [("fields".toList, .obj (fields.map fun e => (e.1, .str e.2))),
    ("complete".toList, .bool c.complete),
    ("root_cause_accurate".toList, .bool c.rootCause),
    ("invalidated_plan_accurate".toList, .bool c.invalidatedPlan),
    ("public_test_claim_accurate".toList, .bool c.publicClaim),
    ("changed_files_claim_accurate".toList, .bool c.filesClaim),
    ("accurate".toList, .bool c.accurate)]

def PilotRun.views (r : PilotRun u) : List TurnView := r.records.map readTurn

def PilotRun.stopReason (r : PilotRun u) : Option StopReason :=
  attemptStopReason r.views (!r.preapprovalFiles.isEmpty)

def contentAt (turns : List (Nat × TurnResult u)) (i : Nat) : Str :=
  (turns[i]?.map fun p => p.2.content).getD []

def researchGrade (r : PilotRun u) (pub hidden : TestResult) : Json :=
  let turns := r.turns
  let calls := turns.flatMap fun p => p.2.calls
  let final := (turns.getLast?.map fun p => p.2.content).getD []
  let complete := allTurnsComplete r.views
  let noEdit := r.preapprovalFiles.isEmpty
  let checks := checkReport u r.grading final pub.passed pub.total r.finalChanges
  .obj [
    ("status".toList, .str (if complete then "COMPLETE".toList else "INCOMPLETE".toList)),
    ("stop_reason".toList, reasonJson r.stopReason),
    ("protocol_aborted".toList, .bool (turns.any fun p => p.2.protocolAborted)),
    ("turns_completed".toList, .int turns.length),
    ("no_edit_before_approval".toList, .bool noEdit),
    ("preapproval_changed_files".toList, .arr (r.preapprovalFiles.map .str)),
    ("evidence_revision_observed".toList,
      .bool (r.grading.turn1 (contentAt turns 0) && r.grading.turn2 (contentAt turns 1))),
    ("tool_protocol_clean".toList, .bool (decide (calls.length = 0))),
    ("unsupported_tool_calls".toList, .int calls.length),
    ("unsupported_tool_names".toList, namesJson calls),
    ("public".toList, scoreJson pub),
    ("hidden".toList, scoreJson hidden),
    ("release_ready".toList, .bool (complete && noEdit && decide (0 < pub.total) &&
      decide (pub.passed = pub.total) && decide (0 < hidden.total) &&
      decide (hidden.passed = hidden.total))),
    ("final_changed_files".toList, .arr (r.finalChanges.map .str)),
    ("final_report".toList, reportJson (reportFields u final) checks),
    ("pilot_id".toList, .str r.pilotId),
    ("attempt".toList, .int r.attempt),
    ("turns".toList, .arr (r.records.map .obj))]

/-- `run_attempt`: the saved grade, unless a printed score is too long to read. -/
def runAttempt (r : PilotRun u) : Outcome Json := do
  let pub ← test u r.publicTests
  let hidden ← test u r.hiddenTests
  return researchGrade r pub hidden

end Run

end Round5
