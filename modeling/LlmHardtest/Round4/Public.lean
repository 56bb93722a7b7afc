import LlmHardtest.Round4.Hidden
set_option autoImplicit false

/-! The public run: every mode's summary against the number of tests the task ships. -/

namespace Round4
open Python Python.Regex

structure PublicMode where
  mode : Str
  output : Str
  passed : Option Nat
  total : Option Nat
  expectedTotal : Option Nat
  countOk : Option Bool
  countNote : Str

structure PublicRun where
  modes : List PublicMode
  passed : Option Nat
  total : Option Nat
  expectedTotal : Option Nat
  countMismatch : Bool
  countUnverified : Bool
  countNotes : List Str
  allModesGreen : Bool

def countCheck (label : Str) (mayGrow : Bool) (expected total : Option Nat) : Option Bool × Str :=
  match expected, total with
  | none, _ =>
      (none, "task.json declares no expected count for mode '".toList ++ label ++ "'".toList)
  | some e, none =>
      (some false, "public suite printed no parseable summary; the task ships ".toList ++ natStr e
        ++ " tests".toList)
  | some e, some m =>
      if m = e then (some true, [])
      else if e < m then
        (some true, "suite grew ".toList ++ natStr e ++ " -> ".toList ++ natStr m ++
          if mayGrow then " (this task asks for new tests)".toList
          else " (not requested by the ticket, but no test was removed or weakened — ".toList ++
            "treated as a good-faith addition)".toList)
      else
        (some false, "public suite ran ".toList ++ natStr m ++ " tests, the task ships ".toList ++
          natStr e ++ " — tests were removed or the runner was rewritten".toList)

def runMode (u : UnicodeData) (spec : HarnessSpec) (label output : Str) : Outcome PublicMode := do
  let score ← scanScore u output publicPatterns
  let expected := spec.publicTests.lookup label
  let check := countCheck label spec.publicTestsMayGrow expected (score.map Prod.snd)
  return { mode := label, output := output, passed := score.map Prod.fst
           total := score.map Prod.snd, expectedTotal := expected
           countOk := check.1, countNote := check.2 }

def PublicMode.green (m : PublicMode) : Bool :=
  m.passed.isSome && decide (m.passed = m.total) && decide (m.countOk ≠ some false)

/-- `run_public` after the processes: `outputs` gives each mode's stdout and stderr. -/
def runPublic (u : UnicodeData) (task : TaskKey) (outputs : Str → Str) (spec : HarnessSpec) :
    Outcome PublicRun := do
  let modes ← (taskMeta task).publicModes.mapM fun label => runMode u spec label (outputs label)
  match modes with
  | [] => throw .indexError
  | primary :: _ =>
      return {
        modes := modes
        passed := primary.passed
        total := primary.total
        expectedTotal := primary.expectedTotal
        countMismatch := modes.any fun m => m.countOk = some false
        countUnverified := modes.any fun m => m.countOk = none
        countNotes := (modes.map PublicMode.countNote).filter fun n => !n.isEmpty
        allModesGreen := modes.all PublicMode.green }

end Round4
