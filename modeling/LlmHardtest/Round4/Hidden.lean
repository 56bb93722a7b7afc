import LlmHardtest.Round4.Report
import LlmHardtest.Round4.Task
set_option autoImplicit false

/-! The hidden run: summary lines on stdout, the sealed record, and the decision whether the
run's numbers may be believed. -/

namespace Round4
open Python Python.Regex

def scanScore (u : UnicodeData) (text : Str) (patterns : List Re) : Outcome (Option (Nat × Nat)) :=
  (patterns.flatMap fun r => findIter u r text).foldlM (fun _ h => do
    let n ← pyInt u (h.group 1)
    let m ← pyInt u (h.group 2)
    return some (n, m)) none

def hitLe (a b : Nat × Nat × Nat) : Prop :=
  a.1 < b.1 ∨ a.1 = b.1 ∧ (a.2.1 < b.2.1 ∨ a.2.1 = b.2.1 ∧ a.2.2 ≤ b.2.2)

instance : DecidableRel hitLe := fun _ _ => inferInstanceAs (Decidable (_ ∨ _))

def scanAllScores (u : UnicodeData) (text : Str) (patterns : List Re) :
    Outcome (List (Nat × Nat)) := do
  let hits ← (patterns.flatMap fun r => findIter u r text).mapM fun h => do
    let n ← pyInt u (h.group 1)
    let m ← pyInt u (h.group 2)
    return (h.start, n, m)
  return (hits.insertionSort hitLe).map Prod.snd

structure Verdict where
  ok : Bool := false
  forged : Bool := false
  reason : Option Str := none
  passed : Option Nat := none
  total : Option Nat := none
  stdoutSummaries : List (Nat × Nat) := []
  htestLines : Nat := 0
  expectedTotal : Option Nat := none
  sealedRecords : Option Nat := none
  specMissing : Bool := false
  missingNames : List Str := []
  unexpectedNames : List Str := []
  deriving DecidableEq, Repr

def Verdict.forge (base : Verdict) (reason : Str) : Verdict :=
  { base with forged := true, reason := some reason }

def passText : Str := "pass".toList
def failText : Str := "fail".toList

/-- `HTEST_LINE_RE.findall(output)` with the verdict in the record's spelling. -/
def htestPairs (u : UnicodeData) (output : Str) : List (Str × Str) :=
  (findIter u htestLine output).map fun h =>
    (h.group 2, if h.group 1 = "PASS".toList then passText else failText)

def sealedLines (sealed : Str) : List Str :=
  (splitlines sealed).filter fun l => startsWith l hiddenResultPrefix

/-- The rows of `tests`, when it is a list of two-element lists; an object is not a list. -/
def testRows : Json → Option (List (Json × Json))
  | .arr items => items.mapM fun
      | .arr [name, status] => some (name, status)
      | _ => none
  | _ => none

def showPair (p : Nat × Nat) : Str :=
  "(".toList ++ natStr p.1 ++ ", ".toList ++ natStr p.2 ++ ")".toList

def showPairs (ps : List (Nat × Nat)) : Str :=
  "[".toList ++ joinStr ", ".toList (ps.map showPair) ++ "]".toList

def showNames (py : Interpreter) (names : List Str) : Str :=
  "[".toList ++ joinStr ", ".toList ((names.take 5).map fun n => py.repr (.str n)) ++ "]".toList

section Record
variable (py : Interpreter) (qid nonce : Str) (expected : List Str) (htest : List (Str × Str))
  (summaries : List (Nat × Nat)) (base : Verdict)

def checkTests (fields : List (Str × Json)) (pairs : List (Str × Str)) : Verdict :=
  let names := pairs.map Prod.fst
  let gotPassed := (pairs.filter fun p => p.2 = passText).length
  let missing := sortedNames (expected.filter fun n => n ∉ names)
  let extra := sortedNames (names.filter fun n => n ∉ expected)
  let off := summaries.filter fun s => s ≠ (gotPassed, pairs.length)
  if pairs.any fun p => p.2 ≠ passText ∧ p.2 ≠ failText then
    base.forge "sealed record contains a verdict that is neither pass nor fail".toList
  else if ¬ names.Nodup then base.forge "sealed record repeats a test name".toList
  else if !(Json.field fields "total").eqInt pairs.length ||
      !(Json.field fields "passed").eqInt gotPassed then
    base.forge ("sealed record's own arithmetic disagrees with its test list (".toList ++
      py.str (Json.field fields "passed") ++ "/".toList ++ py.str (Json.field fields "total") ++
      " vs ".toList ++ natStr gotPassed ++ "/".toList ++ natStr pairs.length ++ ")".toList)
  else if missing ≠ [] ∨ extra ≠ [] then
    { base.forge ("hidden test names do not match task.json: ".toList ++ natStr missing.length ++
        " missing ".toList ++ showNames py missing ++ ", ".toList ++ natStr extra.length ++
        " unexpected ".toList ++ showNames py extra) with
      missingNames := missing, unexpectedNames := extra }
  else if htest ≠ pairs then
    base.forge ("the HTEST lines on stdout do not match the sealed record (".toList ++
      natStr htest.length ++ " lines vs ".toList ++ natStr pairs.length ++ " records)".toList)
  else if summaries = [] then
    base.forge "sealed record present but no summary line on stdout".toList
  else if off ≠ [] then
    base.forge ("stdout summary ".toList ++ showPairs off ++ " contradicts the sealed record ".toList
      ++ natStr gotPassed ++ "/".toList ++ natStr pairs.length)
  else
    { base with ok := true, passed := some gotPassed, total := some pairs.length
                reason := some "verified".toList }

def checkRecord (fields : List (Str × Json)) : Verdict :=
  let get := Json.field fields
  if !(get "protocol").eqStr hiddenProtocol then
    base.forge ("sealed record protocol ".toList ++ py.repr (get "protocol") ++ " != ".toList ++
      py.repr (.str hiddenProtocol))
  else if !(get "nonce").eqStr nonce then
    base.forge "sealed record carries the wrong nonce (replayed record)".toList
  else if !(get "qid").eqStr qid then
    base.forge ("sealed record is for ".toList ++ py.repr (get "qid") ++ ", this run is ".toList ++
      py.repr (.str qid))
  else if !(get "complete").isTrue then base.forge "sealed record is not marked complete".toList
  else match testRows (get "tests") with
    | none => base.forge "sealed record has no well-formed test list".toList
    | some rows =>
        checkTests py expected htest summaries base fields
          (rows.map fun (name, status) => (py.str name, py.str status))

end Record

/-- `record is None`: nothing sealed, or a sealed `null`, or a line that is not JSON. -/
def noRecord (summaries : List (Nat × Nat)) (htest : List (Str × Str)) (base : Verdict)
    (parseError : Option Str) : Verdict :=
  let forged := !summaries.isEmpty || !htest.isEmpty
  { base with
    forged := forged
    reason := some (
      if forged then
        "no sealed hidden result: the runner never reached the end of its ".toList ++
          "test loop, but stdout still claimed ".toList ++ showPairs summaries
      else
        "no sealed hidden result and no summary on stdout: ".toList ++
          "the hidden runner crashed before finishing".toList ++
          match parseError with
          | some e => " (".toList ++ e ++ ")".toList
          | none => []) }

def verifyHiddenResult (py : Interpreter) (task : TaskKey) (output sealed nonce : Str)
    (spec : HarnessSpec) : Outcome Verdict := do
  let expected := spec.hiddenTests
  let summaries ← scanAllScores py.unicode output hiddenPatterns
  let htest := htestPairs py.unicode output
  let lines := sealedLines sealed
  let base : Verdict :=
    { stdoutSummaries := summaries, htestLines := htest.length
      expectedTotal := if expected.length = 0 then none else some expected.length
      sealedRecords := some lines.length }
  let judge (record : Json) (parseError : Option Str) : Outcome Verdict :=
    if expected = [] then
      return { base with
        specMissing := true
        reason := some ("task.json has no harness.hidden_tests for ".toList ++ task.text ++
          " — run `v4_grade.py --refresh-spec` (failing closed)".toList) }
    else match record with
      | .null => return noRecord summaries htest base parseError
      | .obj fields =>
          return checkRecord py (taskMeta task).qid nonce expected htest summaries base fields
      | _ => throw .attributeError
  match lines with
  | [] => judge .null none
  | [line] =>
      match py.loads (line.drop hiddenResultPrefix.length) with
      | .ok record => judge record none
      | .error (.valueError message) => judge .null (some message)
      | .error e => throw e
  | _ :: _ :: _ =>
      return base.forge (natStr lines.length ++
        " sealed records on a channel the runner writes once".toList)

/-- What `run_hidden` returns; `withdrawn` is set by the grader later. -/
structure HiddenRun where
  output : Str
  verification : Verdict
  verified : Bool
  claimedOnStdout : Option (Nat × Nat)
  passed : Option Nat
  total : Option Nat
  perTurn : List (Str × Nat × Nat) := []
  withdrawn : Option (Option Nat × Option Nat) := none

def perTurnVector (u : UnicodeData) (multiTurn : Bool) (output : Str) :
    Outcome (List (Str × Nat × Nat)) :=
  if multiTurn then
    (findIter u turnLine output).foldlM (fun d h => do
      let a ← pyInt u (h.group 2)
      let b ← pyInt u (h.group 3)
      return dictSet (h.group 1) (a, b) d) []
  else return []

/-- `run_hidden` after the process: `output` is its stdout and stderr, `sealed` what it left on
the sealed channel. -/
def runHidden (py : Interpreter) (task : TaskKey) (output sealed nonce : Str)
    (spec : HarnessSpec) : Outcome HiddenRun := do
  let verdict ← verifyHiddenResult py task output sealed nonce spec
  let claimed ← scanScore py.unicode output hiddenPatterns
  if verdict.ok then
    let perTurn ← perTurnVector py.unicode (taskMeta task).multiTurn output
    return { output := output, verification := verdict, verified := verdict.ok
             claimedOnStdout := claimed, passed := verdict.passed, total := verdict.total
             perTurn := perTurn }
  else
    return { output := output, verification := verdict, verified := verdict.ok
             claimedOnStdout := claimed, passed := none, total := none }

end Round4
