import LlmHardtest.Python.Value
set_option autoImplicit false

/-! The self-report block of a transcript. -/

namespace Round4
open Python Python.Regex

def reportFields : List Str :=
  ["ROOT_CAUSE_FILE".toList, "ROOT_CAUSE_FUNCTION".toList, "FILES_CHANGED".toList,
   "PUBLIC_TESTS_AFTER_FIX".toList, "CONFIDENCE".toList, "REMAINING_RISKS".toList]

def reportMarker : Str := "=== REPORT ===".toList

inductive ReportSource where
  | transcript | finalMessage
  deriving DecidableEq, Repr

/-- What `parse_report` returns; an absent report has no fields. -/
structure Report where
  present : Bool := false
  fields : List (Str × Str) := []
  missingFields : List Str := []
  raw : Str := []
  source : ReportSource := .transcript
  deriving Repr

def Report.get (r : Report) (key : String) : Str := (r.fields.lookup key.toList).getD []

/-- `^\s*([A-Z][A-Z0-9_]+)\s*:\s*(.*)$` -/
def fieldLine : Re :=
  .cat [.bol, .many .space,
    .group 1 (.seq (.range 'A' 'Z') (.some (.or [.range 'A' 'Z', .range '0' '9', .chr '_']))),
    .many .space, .chr ':', .many .space, .group 2 (.many .any), .eol]

def parseLines (u : UnicodeData) : List (Str × Str) → List Str → List (Str × Str)
  | fields, [] => fields
  | fields, line :: rest =>
      match matchStart u fieldLine line with
      | some p =>
          let key := (p.groups.lookup 1).getD []
          let value := strip ((p.groups.lookup 2).getD [])
          if key ∈ reportFields ∨ fields.length < reportFields.length then
            parseLines u (dictSet key value fields) rest
          else parseLines u fields rest
      | none =>
          let bare := strip line
          if bare = [] ∨ (bare.head?.any fun c => "#`-".toList.contains c) then
            parseLines u fields rest
          else if fields ≠ [] then fields
          else parseLines u fields rest

def parseBlock (u : UnicodeData) (seg : Str) : List (Str × Str) :=
  parseLines u [] ((splitlines seg).drop 1)

/-- Most values are placeholders: the block is the prompt's own template. -/
def isTemplate (u : UnicodeData) (fields : List (Str × Str)) : Bool :=
  let placeholder : Re := .cat [.chr '<', .many (.noneOf "<>"), .chr '>']
  let ph := (fields.filter fun f => fullMatch u placeholder f.2).length
  fields.isEmpty || decide (fields.length ≤ ph * 2)

def rfindMarker (text : Str) (limit : Nat) : Option Nat :=
  (List.range limit).reverse.find? fun s =>
    decide (s + reportMarker.length ≤ limit) && startsWith (text.drop s) reportMarker

/-- The marker search of `parse_report`, from the end of the text. -/
def findBlock (u : UnicodeData) (text : Str) : Nat → Nat → Option (Str × List (Str × Str))
  | 0, _ => none
  | fuel + 1, limit =>
      match rfindMarker text limit with
      | none => none
      | some s =>
          let seg := text.drop s
          let fields := parseBlock u seg
          if isTemplate u fields then findBlock u text fuel s else some (seg, fields)

def parseReport (u : UnicodeData) (transcript : Str) : Report :=
  match findBlock u transcript (transcript.length + 1) transcript.length with
  | none => {}
  | some (seg, fields) =>
      { present := true, fields := fields
        missingFields := reportFields.filter fun f => ((fields.lookup f).getD []).isEmpty
        raw := seg.take 2000 }

def parseRatio (u : UnicodeData) (text : Str) : Outcome (Option (Nat × Nat)) :=
  let ratio : Re := .cat [.group 1 (.some .digit), .many .space, .chr '/', .many .space,
    .group 2 (.some .digit)]
  match (findIter u ratio text).head? with
  | none => return none
  | some h => do
      let n ← pyInt u (h.group 1)
      let m ← pyInt u (h.group 2)
      return some (n, m)

end Round4
