import LlmHardtest.Python.Number
import LlmHardtest.Python.Utf8
set_option autoImplicit false

/-! Unsupported tool calls in an agent transcript, the final report block, and the scores that test
runs print. -/

namespace Round5
open Python Python.Regex

def maxUnsupportedCallsPerAgentTurn : Nat := 3

/-- `[A-Za-z0-9_.-]+` under `re.I` -/
def toolName : Re :=
  .some (.classI "abcdefghijklmnopqrstuvwxyz0123456789_.-")

def routerError : Re :=
  .cat [.litI "ERROR", .some .space, .litI "codex_core::tools::router:", .some .space,
    .litI "error="]

def unsupportedCallPattern : Re :=
  .cat [.bol, .many .any, .wordBoundary,
    .alt routerError (.seq (.litI "tool router error:") (.many .space)),
    .litI "unsupported call:", .many .space, .group 1 toolName]

def unavailableToolPattern : Re :=
  .cat [.bol, .many .any, .wordBoundary, routerError, .group 1 toolName, .some .space,
    .litI "is unavailable in ", .many (.noneOf "\r\n"), .litI " mode", .wordBoundary]

def unsupportedToolCalls (u : UnicodeData) (transcript : Str) : List Str :=
  ((findIter u unsupportedCallPattern transcript).map (·.group 1) ++
    (findIter u unavailableToolPattern transcript).map (·.group 1)).map u.lowerStr

def reportFieldNames : List Str :=
  ["ROOT_CAUSE_FILE".toList, "ROOT_CAUSE_FUNCTION".toList, "INVALIDATED_PLAN".toList,
    "FILES_CHANGED".toList, "PUBLIC_TESTS".toList, "CONFIDENCE".toList, "REMAINING_RISKS".toList]

def pilotReportMarker : Str := "=== PILOT REPORT ===".toList

/-- The text from the last occurrence of the marker on, as `rfind` finds it. -/
def fromLastMarker (marker : Str) : Str → Option Str
  | [] => none
  | c :: cs =>
      match fromLastMarker marker cs with
      | some t => some t
      | none => if startsWith (c :: cs) marker then some (c :: cs) else none

def splitColon : Str → Option (Str × Str)
  | [] => none
  | c :: cs => if c = ':' then some ([], cs) else (splitColon cs).map fun p => (c :: p.1, p.2)

def reportFields (u : UnicodeData) (text : Str) : List (Str × Str) :=
  match fromLastMarker pilotReportMarker text with
  | none => []
  | some block => ((splitlines block).drop 1).foldl (fun fields line =>
      match splitColon line with
      | none => fields
      | some (key, value) =>
          let key := u.upperStr (strip key)
          if key ∈ reportFieldNames then dictSet key (strip value) fields else fields) []

inductive TestRun where
  | finished (returncode : Int) (output : Str)
  | timedOut

structure TestResult where
  returncode : Option Int
  passed : Nat
  total : Nat
  timedOut : Bool

def scorePattern : Re :=
  .cat [.alt (.lit "PUBLIC") (.lit "HIDDEN"), .chr ':', .many .space,
    .group 1 (.some .digit), .chr '/', .group 2 (.some .digit)]

/-- `_test`; a printed number too long for `int` raises. -/
def test (u : UnicodeData) : TestRun → Outcome TestResult
  | .timedOut => .ok ⟨none, 0, 0, true⟩
  | .finished returncode output =>
      match (findIter u scorePattern output).head? with
      | none => .ok ⟨returncode, 0, 0, false⟩
      | some hit => do
          let passed ← pyInt u (hit.group 1)
          let total ← pyInt u (hit.group 2)
          return ⟨returncode, passed, total, false⟩

example : test asciiData (.finished 0 "HIDDEN: 9/3".toList) =
    .ok ⟨some 0, 9, 3, false⟩ := by rfl

end Round5
