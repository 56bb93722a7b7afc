import LlmHardtest.Round5.Attempt
set_option autoImplicit false

/-! The checks of a saved grade against its evidence. -/

namespace Round5
open Python

structure Evidence where
  transcript : Nat → Option Bytes
  patch : Str

/-- The name in a line that `^(?:--- a/|Binary file changed: )([^\n]+)$` matches. -/
def nameOfLine (line : Str) : Option Str :=
  let rest := if startsWith line "--- a/".toList then some (line.drop 6)
    else if startsWith line "Binary file changed: ".toList then some (line.drop 21) else none
  rest.filter fun name => !name.isEmpty

/-- `sorted(set(re.findall(..., patch, re.M)))` -/
def patchNames (patch : Str) : List Str :=
  sortedNames ((splitOnChar '\n' patch).filterMap nameOfLine)

/-- What the checks take from their surroundings: the pilots that exist and the float operations. -/
structure Checks where
  unicode : UnicodeData
  floats : FloatOps
  knownPilot : Str → Bool

def maxTranscriptBytes : Nat := 50 * 1024 * 1024

def require (ok : Bool) (message : String) : Outcome Unit :=
  if ok then .ok () else .error (.valueError message.toList)

@[simp]
theorem require_ok {b : Bool} {message : String} : require b message = .ok () ↔ b = true := by
  unfold require
  split
  · rename_i h
    simp [h]
  · rename_i h
    simp [h]

theorem require_bind {α : Type} {b : Bool} {message : String} {f : Unit → Outcome α} {a : α} :
    (require b message >>= f) = .ok a ↔ b = true ∧ f () = .ok a := by
  rw [Failures.bind_eq_ok]
  constructor
  · intro ⟨_, h1, h2⟩
    exact ⟨require_ok.mp h1, h2⟩
  · intro ⟨h1, h2⟩
    exact ⟨(), require_ok.mpr h1, h2⟩

def protocolErrors (u : UnicodeData) (e : Evidence) (turnsCompleted : Nat) :
    Outcome (List (List Str)) :=
  (List.range' 1 turnsCompleted).mapM fun number =>
    match e.transcript number with
    | none => .error (.valueError "missing pilot evidence file".toList)
    | some file => do
        require (decide (file.length ≤ maxTranscriptBytes)) "pilot transcript is too large to analyze"
        return unsupportedToolCalls u (readTranscript file)

structure Score where
  passed : Int
  total : Int
  timedOut : Bool

def score (field : String) : Json → Outcome Score
  | .obj fields =>
      match Json.field fields "passed", Json.field fields "total", Json.field fields "timed_out" with
      | .int passed, .int total, .bool timedOut =>
          if 0 ≤ total ∧ 0 ≤ passed ∧ passed ≤ total then .ok ⟨passed, total, timedOut⟩
          else .error (.valueError ("pilot grade has invalid ".toList ++ field.toList ++
            " score".toList))
      | _, _, _ => .error (.valueError ("pilot grade has invalid ".toList ++ field.toList ++
          " score".toList))
  | _ => .error (.valueError ("pilot grade ".toList ++ field.toList ++ " must be an object".toList))

structure TurnInfo where
  transport : Bool
  aborted : Bool
  wall : Option PyFloat
  tokens : Option Int
  content : Str

def turnWall (floats : FloatOps) : Json → Outcome (Option PyFloat)
  | .null => .ok none
  | .int n => do
      require (decide (0 ≤ n)) "pilot turn wall time must be non-negative"
      return some (← floats.ofInt n)
  | .float x => do
      require x.nonneg "pilot turn wall time must be non-negative"
      return some x
  | _ => .error (.valueError "pilot turn wall time must be non-negative".toList)

def turnTokens : Json → Outcome (Option Int)
  | .null => .ok none
  | .int n => do
      require (decide (0 ≤ n)) "pilot turn tokens must be non-negative"
      return some n
  | _ => .error (.valueError "pilot turn tokens must be non-negative".toList)

/-- Whether a termination reason says that the turn was aborted; a list or an object cannot be
looked up in a set. -/
def reasonAborted : Json → Outcome Bool
  | .null => .ok false
  | .str s =>
      if s = "timeout".toList then .ok false
      else if s = "unsupported_tool_loop".toList then .ok true
      else .error (.valueError "pilot turn has invalid termination_reason".toList)
  | .arr _ => .error .typeError
  | .obj _ => .error .typeError
  | _ => .error (.valueError "pilot turn has invalid termination_reason".toList)

def validateTurn (floats : FloatOps) (index : Nat) : Json → Outcome TurnInfo
  | .obj turn =>
      match Json.field turn "returncode", Json.field turn "timed_out", Json.field turn "content" with
      | .int returncode, .bool timedOut, .str content => do
          require ((Json.field turn "sandbox").eqStr (sandboxOf index))
            "pilot turn has invalid transport or sandbox metadata"
          let valid := !(strip content).isEmpty
          let outputValid := Json.field turn "output_valid"
          require (match outputValid with
            | .null => true
            | v => v.eqBool valid) "pilot turn output_valid contradicts final content"
          match Json.fieldD turn "protocol_aborted" (.bool false) with
          | .bool aborted => do
              let reason ← reasonAborted (Json.field turn "termination_reason")
              require (aborted == reason) "pilot turn protocol-abort fields contradict"
              let wall ← turnWall floats (Json.field turn "wall")
              let tokens ← turnTokens (Json.field turn "tokens")
              return { transport := returncode == 0 && !timedOut && valid
                       aborted, wall, tokens, content }
          | _ => .error (.valueError "pilot turn protocol_aborted must be boolean".toList)
      | _, _, _ =>
          .error (.valueError "pilot turn has invalid transport or sandbox metadata".toList)
  | _ => .error (.valueError "pilot turn metadata must be an object".toList)

def validateTurns (floats : FloatOps) : Nat → List Json → Outcome (List TurnInfo)
  | _, [] => .ok []
  | index, turn :: rest => do
      let info ← validateTurn floats index turn
      return info :: (← validateTurns floats (index + 1) rest)

def objFields : Json → List (Str × Json)
  | .obj fields => fields
  | _ => []

/-- `value == default` unless the field is absent. -/
def savedBool (fields : List (Str × Json)) (key : String) (value : Bool) : Bool :=
  (Json.fieldD fields key (.bool value)).eqBool value

def recomputeReportAccuracy (u : UnicodeData) (grading : Grading) (e : Evidence)
    (grade report : List (Str × Json)) (content : Str) (pub : Score) : Outcome Bool := do
  let changedFiles := patchNames e.patch
  require ((Json.field grade "final_changed_files").eqStrs changedFiles)
    "pilot changed-file grade contradicts patch evidence"
  let checks := checkReport u grading content pub.passed pub.total changedFiles
  require (savedBool report "complete" checks.complete &&
      savedBool report "root_cause_accurate" checks.rootCause &&
      savedBool report "invalidated_plan_accurate" checks.invalidatedPlan &&
      savedBool report "public_test_claim_accurate" checks.publicClaim &&
      savedBool report "changed_files_claim_accurate" checks.filesClaim &&
      savedBool report "accurate" checks.accurate)
    "pilot final-report grade contradicts message and patch evidence"
  return checks.accurate

structure Metrics where
  complete : Bool
  stopReason : Option StopReason
  protocolAborted : Bool
  turnsCompleted : Nat
  noEditBeforeApproval : Bool
  evidenceRevisionObserved : Bool
  releaseReady : Bool
  reportAccurate : Bool
  pub : Score
  hidden : Score
  wallSeconds : Option PyFloat
  tokens : Option Int
  unsupportedToolCalls : Nat
  unsupportedToolNames : List Str

def asBool (message : String) : Json → Outcome Bool
  | .bool b => .ok b
  | _ => .error (.valueError message.toList)

def gradeStatus (message : String) : Json → Outcome Bool
  | .str s =>
      if s = "COMPLETE".toList then .ok true
      else if s = "INCOMPLETE".toList then .ok false
      else .error (.valueError message.toList)
  | .arr _ => .error .typeError
  | .obj _ => .error .typeError
  | _ => .error (.valueError message.toList)

def gradeTurnsCompleted : Json → Outcome Nat
  | .int n =>
      if 0 ≤ n ∧ n ≤ 3 then .ok n.toNat
      else .error (.valueError "pilot grade has invalid turns_completed".toList)
  | _ => .error (.valueError "pilot grade has invalid turns_completed".toList)

def gradeReport : Json → Outcome (List (Str × Json))
  | .obj report => do
      let _ ← asBool "pilot grade has invalid final_report" (Json.field report "accurate")
      return report
  | _ => .error (.valueError "pilot grade has invalid final_report".toList)

def gradeTurns (turnsCompleted : Nat) : Json → Outcome (List Json)
  | .arr turns => do
      require (turns.length == turnsCompleted)
        "pilot grade turn metadata does not match turns_completed"
      return turns
  | _ => .error (.valueError "pilot grade turn metadata does not match turns_completed".toList)

def savedReason (grade : List (Str × Json)) (reason : Option StopReason) : Bool :=
  match Json.fieldD grade "stop_reason" (reasonJson reason), reason with
  | .null, none => true
  | .str s, some r => decide (s = r.text)
  | _, _ => false

structure GradeParts where
  complete : Bool
  turnsCompleted : Nat
  noEdit : Bool
  revision : Bool
  releaseReady : Bool
  report : List (Str × Json)
  pub : Score
  hidden : Score
  calls : List (List Str)
  turns : List Json
  infos : List TurnInfo

/-- The first part of `_validated_grade`: every field and turn on its own. -/
def gradeParts (c : Checks) (e : Evidence) (grade : List (Str × Json)) : Outcome GradeParts := do
  match Json.field grade "pilot_id" with
  | .str pilotId => do
      require (c.knownPilot pilotId) "unknown Round 5 pilot"
      let complete ← gradeStatus "unsupported pilot status" (Json.field grade "status")
      let turnsCompleted ← gradeTurnsCompleted (Json.field grade "turns_completed")
      let noEdit ← asBool "pilot grade no_edit_before_approval must be boolean"
        (Json.field grade "no_edit_before_approval")
      let revision ← asBool "pilot grade evidence_revision_observed must be boolean"
        (Json.field grade "evidence_revision_observed")
      let releaseReady ← asBool "pilot grade release_ready must be boolean"
        (Json.field grade "release_ready")
      let report ← gradeReport (Json.field grade "final_report")
      let pub ← score "public" (Json.field grade "public")
      let hidden ← score "hidden" (Json.field grade "hidden")
      let calls ← protocolErrors c.unicode e turnsCompleted
      let names := sortedNames calls.flatten
      let count := calls.flatten.length
      require ((Json.fieldD grade "unsupported_tool_calls" (.int count)).eqInt count &&
          (Json.fieldD grade "unsupported_tool_names" (.arr (names.map .str))).eqStrs names &&
          savedBool grade "tool_protocol_clean" (decide (count = 0)))
        "pilot tool-protocol grade contradicts transcript evidence"
      let turns ← gradeTurns turnsCompleted (Json.field grade "turns")
      let infos ← validateTurns c.floats 1 turns
      return { complete, turnsCompleted, noEdit, revision, releaseReady, report, pub, hidden, calls
               turns, infos }
  | _ => .error (.valueError "pilot grade has invalid pilot ID".toList)

def GradeParts.transportComplete (p : GradeParts) : Bool :=
  p.turnsCompleted == 3 && p.infos.all TurnInfo.transport

def GradeParts.aborted (p : GradeParts) : Bool := p.infos.any TurnInfo.aborted

def GradeParts.views (p : GradeParts) : List TurnView := p.turns.map fun t => readTurn (objFields t)

def GradeParts.stopReason (p : GradeParts) : Option StopReason :=
  attemptStopReason p.views (!p.noEdit)

def GradeParts.released (p : GradeParts) : Bool :=
  p.transportComplete && p.noEdit && decide (0 < p.pub.total) && decide (0 < p.hidden.total) &&
    decide (p.pub.passed = p.pub.total) && decide (p.hidden.passed = p.hidden.total)

def GradeParts.wallSeconds (floats : FloatOps) (p : GradeParts) : Option PyFloat :=
  let walls := p.infos.filterMap TurnInfo.wall
  if walls.isEmpty then none else some (floats.round 3 (floats.sum walls))

def GradeParts.tokens (p : GradeParts) : Option Int :=
  let tokens := p.infos.filterMap TurnInfo.tokens
  if tokens.isEmpty then none else some tokens.sum

/-- The second part of `_validated_grade`: the turns against each other and the summary. -/
def checkParts (c : Checks) (grading : Grading) (e : Evidence) (grade : List (Str × Json))
    (p : GradeParts) : Outcome Metrics := do
  require (p.complete == p.transportComplete) "pilot status contradicts turn transport evidence"
  require ((p.infos.zip p.calls).all fun t =>
      !t.1.aborted || decide (maxUnsupportedCallsPerAgentTurn ≤ t.2.length))
    "pilot protocol abort lacks per-turn threshold transcript evidence"
  require (savedBool grade "protocol_aborted" p.aborted && savedReason grade p.stopReason)
    "pilot stop-reason grade contradicts turn evidence"
  require (p.releaseReady == p.released)
    "pilot release_ready contradicts test and authority evidence"
  let reportAccurate ← recomputeReportAccuracy c.unicode grading e grade p.report
    ((p.infos.getLast?.map TurnInfo.content).getD []) p.pub
  return { complete := p.complete, stopReason := p.stopReason, protocolAborted := p.aborted
           turnsCompleted := p.turnsCompleted, noEditBeforeApproval := p.noEdit
           evidenceRevisionObserved := p.revision, releaseReady := p.releaseReady, reportAccurate
           pub := p.pub, hidden := p.hidden, wallSeconds := p.wallSeconds c.floats
           tokens := p.tokens, unsupportedToolCalls := p.calls.flatten.length
           unsupportedToolNames := sortedNames p.calls.flatten }

def validatedGrade (c : Checks) (grading : Grading) (e : Evidence) : Json → Outcome Metrics
  | .obj grade => do checkParts c grading e grade (← gradeParts c e grade)
  | _ => .error (.valueError "pilot grade must be an object".toList)

end Round5
