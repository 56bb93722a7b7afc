import LlmHardtest.Round5.Validate
set_option autoImplicit false

/-! The public row of an attempt and the public validator's checks of it. -/

namespace Round5
open Python

def scoreRow (s : Score) : Json :=
  .obj [("passed".toList, .int s.passed), ("total".toList, .int s.total),
    ("timed_out".toList, .bool s.timedOut)]

def publicRow (attempt : Nat) (m : Metrics) : Json :=
  .obj [
    ("attempt".toList, .int attempt),
    ("status".toList, .str (if m.complete then "COMPLETE".toList else "INCOMPLETE".toList)),
    ("turns_completed".toList, .int m.turnsCompleted),
    ("no_edit_before_approval".toList, .bool m.noEditBeforeApproval),
    ("evidence_revision_observed".toList, .bool m.evidenceRevisionObserved),
    ("tool_protocol_clean".toList, .bool (decide (m.unsupportedToolCalls = 0))),
    ("unsupported_tool_calls".toList, .int m.unsupportedToolCalls),
    ("protocol_aborted".toList, .bool m.protocolAborted),
    ("stop_reason".toList, reasonJson m.stopReason),
    ("public".toList, scoreRow m.pub),
    ("hidden".toList, scoreRow m.hidden),
    ("release_ready".toList, .bool m.releaseReady),
    ("report_accurate".toList, .bool m.reportAccurate),
    ("wall_seconds".toList, (m.wallSeconds.map Json.float).getD .null),
    ("tokens".toList, (m.tokens.map Json.int).getD .null)]

def attemptFieldsV1 : List String :=
  ["attempt", "status", "turns_completed", "no_edit_before_approval",
    "evidence_revision_observed", "tool_protocol_clean", "unsupported_tool_calls",
    "public", "hidden", "release_ready", "report_accurate", "wall_seconds", "tokens"]

def attemptFieldsV2 : List String := attemptFieldsV1 ++ ["protocol_aborted", "stop_reason"]

def stopReasons : List StopReason :=
  [.unsupportedToolLoop, .timeout, .agentExit, .missingSession, .emptyOutput, .preapprovalEdit,
    .incompleteTurns]

/-- `_valid_nonnegative`; an integer too large for a float makes `isfinite` raise. -/
def validNonnegative (integer nullable : Bool) : Json → Bool
  | .null => nullable
  | .int n => decide (0 ≤ n) && (integer || decide (n < floatOverflow))
  | .float x => !integer && x.isFinite && x.nonneg
  | _ => false

def validateScore (field : String) : Json → Outcome Score
  | .obj fields => do
      require (Json.keysAre fields ["passed", "total", "timed_out"])
        ("public pilot " ++ field ++ " score has unexpected fields")
      match Json.field fields "passed", Json.field fields "total", Json.field fields "timed_out" with
      | .int passed, .int total, .bool timedOut => do
          require (decide (0 ≤ passed) && decide (0 ≤ total) && decide (passed ≤ total))
            ("public pilot " ++ field ++ " score is invalid")
          return ⟨passed, total, timedOut⟩
      | _, _, _ => .error (.valueError ("public pilot " ++ field ++ " score is invalid").toList)
  | _ => .error (.valueError ("public pilot " ++ field ++ " score has unexpected fields").toList)

def knownReason : Json → Bool
  | .null => true
  | .str s => decide (s ∈ stopReasons.map StopReason.text)
  | _ => false

def validateProtocolFields (row : List (Str × Json)) (complete : Bool) (calls : Int) :
    Outcome Unit := do
  let aborted ← asBool "public pilot protocol_aborted must be boolean"
    (Json.field row "protocol_aborted")
  let reason := Json.field row "stop_reason"
  require (knownReason reason) "public pilot stop_reason is invalid"
  require (aborted == reason.eqStr StopReason.unsupportedToolLoop.text)
    "public pilot protocol-abort fields contradict"
  require (!(aborted && decide (calls < maxUnsupportedCallsPerAgentTurn)))
    "public pilot protocol abort lacks threshold evidence"
  require (!(complete && !reason.isNull))
    "complete public pilot cannot have a stop_reason"
  require (complete || !reason.isNull)
    "incomplete public pilot requires a stop_reason"

def modelText (index : Nat) (message : String) : String :=
  "public pilot model " ++ toString index ++ message

/-- The checks `validate_public_pilot_result` makes of a row of model `index`, after the rows of the
attempts `seen`. -/
def validateRow (schemaVersion index : Nat) (seen : List Int) : Json → Outcome Unit
  | .obj row => do
      require (Json.keysAre row (if 2 ≤ schemaVersion then attemptFieldsV2 else attemptFieldsV1))
        (modelText index " has an invalid attempt row")
      match Json.field row "attempt", Json.field row "turns_completed",
          Json.field row "unsupported_tool_calls" with
      | .int attempt, .int turns, .int calls => do
          require (decide (1 ≤ attempt) && decide (attempt ∉ seen))
            (modelText index " attempt number is invalid")
          let complete ← gradeStatus (modelText index " status is invalid") (Json.field row "status")
          require (decide (0 ≤ turns) && decide (turns ≤ 3)) (modelText index " turns are invalid")
          require (!complete || decide (turns = 3)) "complete public pilot requires all three turns"
          let noEdit ← asBool "public pilot attempt no_edit_before_approval must be boolean"
            (Json.field row "no_edit_before_approval")
          let _ ← asBool "public pilot attempt evidence_revision_observed must be boolean"
            (Json.field row "evidence_revision_observed")
          let clean ← asBool "public pilot attempt tool_protocol_clean must be boolean"
            (Json.field row "tool_protocol_clean")
          let released ← asBool "public pilot attempt release_ready must be boolean"
            (Json.field row "release_ready")
          let _ ← asBool "public pilot attempt report_accurate must be boolean"
            (Json.field row "report_accurate")
          require (decide (0 ≤ calls)) "public pilot unsupported_tool_calls is invalid"
          require (clean == decide (calls = 0)) "public pilot tool protocol fields contradict"
          if 2 ≤ schemaVersion then validateProtocolFields row complete calls
          let pub ← validateScore "public" (Json.field row "public")
          let hidden ← validateScore "hidden" (Json.field row "hidden")
          require (released == (complete && noEdit && decide (0 < pub.total) &&
              decide (pub.passed = pub.total) && decide (0 < hidden.total) &&
              decide (hidden.passed = hidden.total)))
            "public pilot release_ready fields contradict"
          require (validNonnegative false true (Json.field row "wall_seconds"))
            "public pilot wall_seconds is invalid"
          require (validNonnegative true true (Json.field row "tokens"))
            "public pilot tokens is invalid"
      | _, _, _ => .error (.valueError (modelText index " has an invalid attempt row").toList)
  | _ => .error (.valueError (modelText index " has an invalid attempt row").toList)

end Round5
