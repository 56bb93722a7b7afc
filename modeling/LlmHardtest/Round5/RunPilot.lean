import LlmHardtest.Library.Effects
import LlmHardtest.Python.Documents
import LlmHardtest.Round5.Validate
set_option autoImplicit false

/-! `run_pilot` on one directory, call after call, and the attempts that its summary keeps. -/

namespace Round5
open Python Effects

/-- What an attempt directory holds; the directory of an attempt that stopped early has no grade. -/
inductive AttemptFiles where
  | absent
  | ungraded
  | graded (researchGrade : Outcome Json)

structure PilotDirectory where
  config : Option (Outcome Json)
  pilotSummary : Option (Outcome Json)
  attempts : Str → Nat → AttemptFiles

abbrev PilotM (α : Type) := EStateM Raised PilotDirectory α

/-- How `run_attempt` goes: it raises before it makes its directory, or raises in it, or comes to the
grade. -/
inductive AttemptCourse (u : UnicodeData) where
  | refused (e : Raised)
  | interrupted (e : Raised)
  | finished (r : PilotRun u)

structure Pilot where
  interpreter : Interpreter
  config : List (Str × Json)
  pilotId : Str

/-- The arguments of one call and what it meets: the checks of the configuration without and with the
host's programs, the pilot's files and digest, and how each new attempt goes. -/
structure PilotCall (u : UnicodeData) where
  modelKeys : Option (List Str)
  attempts : Int
  timeout : Option Int
  agentFactory : Option (Str → Outcome Unit)
  validateConfig : (checkRuntime : Bool) → Outcome Unit
  pilotAssets : Outcome Unit
  validatePack : Outcome Unit
  pilotFingerprint : Outcome Str
  course : Str → Nat → AttemptCourse u

def configuredModels (config : List (Str × Json)) : List (List (Str × Json)) :=
  (Json.field config "models").items.map objFields

def modelKey (model : List (Str × Json)) : Str :=
  match Json.field model "key" with
  | .str key => key
  | _ => []

section Call
variable {u : UnicodeData} (p : Pilot) (c : PilotCall u)

def PilotCall.chosen : List (List (Str × Json)) :=
  (configuredModels p.config).filter fun model => c.modelKeys.all fun keys =>
    decide (modelKey model ∈ keys)

def PilotCall.selected : List (Str × Nat) :=
  ((c.chosen p).map modelKey).flatMap fun key =>
    (List.range' 1 c.attempts.toNat).map fun attempt => (key, attempt)

def PilotCall.check : Outcome Unit := do
  c.validateConfig false
  c.pilotAssets
  require (decide (1 ≤ c.attempts)) "pilot attempts must be at least 1"
  require (c.timeout.all fun timeout => decide (1 ≤ timeout)) "pilot timeout must be at least 1 second"
  require (!(c.chosen p).isEmpty && c.modelKeys.all fun keys =>
      keys.all fun key => decide (key ∈ (c.chosen p).map modelKey))
    "pilot model keys must identify configured models"
  require ((c.chosen p).all fun model => (Json.field model "transport").eqStr "codex_cli".toList)
    "Round 5 pilot requires transport=codex_cli for repository tools"
  if c.agentFactory.isNone then c.validateConfig true else .ok ()

def openSnapshot : PilotM Unit := fun d =>
  match d.config with
  | none => .ok () { d with config := some (.ok (.obj p.config)) }
  | some snapshot => reading (do
      let saved ← snapshot
      require (saved.pyEq (.obj p.config)) "pilot resume config does not match saved config.json") d

def checkSummary (pack : Str) : Json → Outcome Unit
  | .obj saved => do
      require ((Json.field saved "schema_version").eqInt 2 &&
          (Json.field saved "fingerprint_scope").eqStr "scenario".toList)
        "pilot resume summary does not use the current scenario fingerprint contract"
      require ((Json.field saved "pilot_id").eqStr p.pilotId)
        "pilot resume ID does not match saved pilot_summary.json"
      require ((Json.field saved "pack").eqStr pack)
        "pilot resume pack does not match the current Round 5 pack"
  | _ => .error .attributeError

def openSummary (pack : Str) : PilotM Unit := fun d =>
  match d.pilotSummary with
  | none => .ok () d
  | some summary => reading (summary >>= checkSummary p pack) d

/-- `timeout or config["timeout_seconds"]` -/
def PilotCall.attemptTimeout : Outcome Json :=
  match c.timeout with
  | some timeout => .ok (.int timeout)
  | none => (p.config.lookup "timeout_seconds".toList).elim (.error .keyError) .ok

def attemptRuns (attempt : Nat) : AttemptCourse u → AttemptFiles × Outcome Json
  | .refused e => (.absent, .error e)
  | .interrupted e => (.ungraded, .error e)
  | .finished r =>
      match runAttempt { r with pilotId := p.pilotId, attempt := attempt } with
      | .ok grade => (.graded (.ok grade), .ok grade)
      | .error e => (.ungraded, .error e)

def attemptGrade (key : Str) (attempt : Nat) : AttemptFiles → AttemptFiles × Outcome Json
  | .graded saved => (.graded saved, saved)
  | .ungraded => (.ungraded, .error (.valueError
      "partial pilot evidence exists; preserve it and start a new run".toList))
  | .absent =>
      match c.agentFactory.elim (.ok ()) (fun make => make key) >>= fun _ => c.attemptTimeout p with
      | .error e => (.absent, .error e)
      | .ok _ => attemptRuns p attempt (c.course key attempt)

def PilotDirectory.setAttempt (d : PilotDirectory) (key : Str) (attempt : Nat) (files : AttemptFiles) :
    PilotDirectory where
  config := d.config
  pilotSummary := d.pilotSummary
  attempts k n := if k = key ∧ n = attempt then files else d.attempts k n

def openAttempt (key : Str) (attempt : Nat) : PilotM Json := fun d =>
  let opened := attemptGrade p c key attempt (d.attempts key attempt)
  reading opened.2 (d.setAttempt key attempt opened.1)

/-- `grade.get("pilot_id") != pilot_id` -/
def checkGrade : Json → Outcome Unit
  | .obj grade => require ((Json.field grade "pilot_id").eqStr p.pilotId)
      "pilot attempt ID does not match the selected pilot"
  | _ => .error .attributeError

def attemptRow (key : Str) (grade : Json) : Json :=
  .obj [("model".toList, .str key), ("grade".toList, grade)]

def pilotRow (selected : Str × Nat) : PilotM Json := do
  let grade ← openAttempt p c selected.1 selected.2
  reading (checkGrade p grade)
  return attemptRow selected.1 grade

def summaryJson (pack : Str) (rows : List Json) : Json :=
  .obj [("schema_version".toList, .int 2), ("fingerprint_scope".toList, .str "scenario".toList),
    ("pilot_id".toList, .str p.pilotId), ("pack".toList, .str pack),
    ("canonical_score".toList, .bool false), ("attempts".toList, .arr rows)]

/-- `v[key]` -/
def item (key : String) : Json → Outcome Json
  | .obj fields => (fields.lookup key.toList).elim (.error .keyError) .ok
  | _ => .error .typeError

/-- `'yes' if v else 'no'` -/
def yesNo (v : Json) : Str := if v.truthy then "yes".toList else "no".toList

/-- `{score['passed']}/{score['total']}` -/
def renderScore (score : Json) : Outcome Str := do
  let passed ← item "passed" score
  let total ← item "total" score
  return p.interpreter.str passed ++ ['/'] ++ p.interpreter.str total

def renderRow (row : Json) : Outcome Str := do
  let grade ← item "grade" row
  let report ← item "final_report" grade
  let model ← item "model" row
  let attempt ← item "attempt" grade
  let status ← item "status" grade
  let pub ← item "public" grade >>= renderScore p
  let hidden ← item "hidden" grade >>= renderScore p
  let noEdit ← item "no_edit_before_approval" grade
  let revision ← item "evidence_revision_observed" grade
  let calls := Json.fieldD (objFields grade) "unsupported_tool_calls" (.str "n/a".toList)
  let aborted := Json.field (objFields grade) "protocol_aborted"
  let reason := Json.field (objFields grade) "stop_reason"
  let released ← item "release_ready" grade
  let accurate ← item "accurate" report
  return "| ".toList ++ joinStr " | ".toList [
    p.interpreter.str model, p.interpreter.str attempt, p.interpreter.str status, pub, hidden,
    if noEdit.truthy then "no".toList else "YES".toList, yesNo revision, p.interpreter.str calls,
    yesNo aborted, if reason.truthy then p.interpreter.str reason else "—".toList, yesNo released,
    yesNo accurate] ++ " |".toList

/-- The table that `_render` writes to `PILOT_REPORT.md`. -/
def render (rows : List Json) : Outcome (List Str) := rows.mapM (renderRow p)

def pilotRows : PilotM (Str × List Json) := do
  reading (c.check p)
  openSnapshot p
  reading c.validatePack
  let pack ← reading c.pilotFingerprint
  openSummary p pack
  let rows ← (c.selected p).mapM (pilotRow p c)
  return (pack, rows)

def saveSummary (summary : Json) : PilotM Unit := fun d =>
  .ok () { d with pilotSummary := some (.ok summary) }

def runPilot : PilotM (List Str) := do
  let done ← pilotRows p c
  saveSummary (summaryJson p done.1 done.2)
  reading (render p done.2)

end Call

def PilotDirectory.savedRows (d : PilotDirectory) : List Json :=
  match d.pilotSummary with
  | some (.ok summary) => (Json.field (objFields summary) "attempts").items
  | _ => []

def returned {u : UnicodeData} (p : Pilot) : List (PilotCall u) → PilotDirectory →
    List (PilotCall u × PilotDirectory)
  | [], _ => []
  | c :: calls, d =>
      match runPilot p c d with
      | .ok _ d' => (c, d') :: returned p calls d'
      | .error _ d' => returned p calls d'

/-- After each call that returns, the summary has every row that it had after an earlier one. -/
def KeepsAttempts {u : UnicodeData} (p : Pilot) (calls : List (PilotCall u)) (d : PilotDirectory) :
    Prop :=
  (returned p calls d).Pairwise fun earlier later => earlier.2.savedRows ⊆ later.2.savedRows

/-- Each call that returns goes through every model key and attempt number that an earlier one went
through. -/
def SelectsEarlier {u : UnicodeData} (p : Pilot) (calls : List (PilotCall u)) (d : PilotDirectory) :
    Prop :=
  (returned p calls d).Pairwise fun earlier later => earlier.1.selected p ⊆ later.1.selected p

def GradesStay (d d' : PilotDirectory) : Prop :=
  ∀ key attempt grade, d.attempts key attempt = .graded grade → d'.attempts key attempt = .graded grade

section Steps
variable {u : UnicodeData} {p : Pilot} {c : PilotCall u} {d d' : PilotDirectory}

instance : Std.Refl GradesStay := ⟨fun _ _ _ _ h => h⟩

instance : IsTrans PilotDirectory GradesStay :=
  ⟨fun _ _ _ h₁ h₂ key attempt grade h => h₂ key attempt grade (h₁ key attempt grade h)⟩

theorem openSnapshot_moves : Moves GradesStay (openSnapshot p) := by
  intro d
  unfold openSnapshot
  cases d.config with
  | none => exact fun _ _ _ h => h
  | some snapshot => exact moves_reading _ d

theorem openSummary_moves {pack : Str} : Moves GradesStay (openSummary p pack) := by
  intro d
  unfold openSummary
  cases d.pilotSummary with
  | none => exact fun _ _ _ h => h
  | some summary => exact moves_reading _ d

theorem attemptGrade_graded {key : Str} {attempt : Nat} {grade : Outcome Json} :
    attemptGrade p c key attempt (.graded grade) = (.graded grade, grade) := rfl

theorem attemptGrade_saved {key : Str} {attempt : Nat} {files : AttemptFiles} {grade : Json}
    (h : (attemptGrade p c key attempt files).2 = .ok grade) :
    (attemptGrade p c key attempt files).1 = .graded (.ok grade) := by
  cases files with
  | graded saved =>
    rw [attemptGrade_graded] at h ⊢
    rw [show saved = .ok grade from h]
  | ungraded => cases h
  | absent =>
    simp only [attemptGrade] at h ⊢
    split at h
    · cases h
    · cases hcourse : c.course key attempt with
      | refused e =>
        rw [hcourse] at h
        cases h
      | interrupted e =>
        rw [hcourse] at h
        cases h
      | finished r =>
        rw [hcourse] at h
        simp only [attemptRuns] at h ⊢
        split at h
        · cases h
          rfl
        · cases h

theorem setAttempt_same {key : Str} {attempt : Nat} {files : AttemptFiles} :
    (d.setAttempt key attempt files).attempts key attempt = files :=
  if_pos ⟨rfl, rfl⟩

theorem openAttempt_moves {key : Str} {attempt : Nat} : Moves GradesStay (openAttempt p c key attempt) := by
  intro d
  have hset : GradesStay d
      (d.setAttempt key attempt (attemptGrade p c key attempt (d.attempts key attempt)).1) := by
    intro k n grade h
    by_cases hsame : k = key ∧ n = attempt
    · obtain ⟨rfl, rfl⟩ := hsame
      rw [setAttempt_same, h, attemptGrade_graded]
    · exact (if_neg hsame).trans h
  exact trans_of GradesStay hset (moves_reading _ _)

theorem pilotRow_moves {s : Str × Nat} : Moves GradesStay (pilotRow p c s) :=
  moves_bind openAttempt_moves fun grade =>
    moves_bind (moves_reading (checkGrade p grade)) fun _ => moves_pure _

theorem pilotRows_moves : Moves GradesStay (pilotRows p c) :=
  moves_bind (moves_reading _) fun _ => moves_bind openSnapshot_moves fun _ =>
    moves_bind (moves_reading _) fun _ => moves_bind (moves_reading _) fun _ =>
      moves_bind openSummary_moves fun _ => moves_bind (moves_mapM (fun _ => pilotRow_moves) _)
        fun _ => moves_pure _

theorem runPilot_moves : Moves GradesStay (runPilot p c) :=
  moves_bind pilotRows_moves fun _ =>
    moves_bind (m := saveSummary _) (fun _ _ _ _ h => h) fun _ => moves_reading _

def RowSaved (s : Str × Nat) (row : Json) (d : PilotDirectory) : Prop :=
  ∃ grade, d.attempts s.1 s.2 = .graded (.ok grade) ∧ row = attemptRow s.1 grade

theorem pilotRow_saved {s : Str × Nat} {row : Json} (h : pilotRow p c s d = .ok row d') :
    RowSaved s row d' := by
  unfold pilotRow at h
  obtain ⟨grade, d₁, hopen, h⟩ := bind_eq_ok.mp h
  obtain ⟨_, d₂, hcheck, hrow⟩ := bind_eq_ok.mp h
  obtain ⟨_, rfl⟩ := reading_eq_ok.mp hcheck
  obtain ⟨rfl, rfl⟩ := pure_eq_ok.mp hrow
  obtain ⟨hgrade, rfl⟩ := reading_eq_ok.mp hopen
  exact ⟨grade, by rw [setAttempt_same, attemptGrade_saved hgrade], rfl⟩

theorem runPilot_rows {table : List Str} (h : runPilot p c d = .ok table d') :
    List.Forall₂ (fun s row => RowSaved s row d') (c.selected p) d'.savedRows := by
  unfold runPilot at h
  obtain ⟨⟨pack, rows⟩, d₁, hrows, h⟩ := bind_eq_ok.mp h
  obtain ⟨_, d₂, hsave, h⟩ := bind_eq_ok.mp h
  cases hsave
  obtain ⟨_, rfl⟩ := reading_eq_ok.mp h
  unfold pilotRows at hrows
  obtain ⟨_, _, _, hrows⟩ := bind_eq_ok.mp hrows
  obtain ⟨_, _, _, hrows⟩ := bind_eq_ok.mp hrows
  obtain ⟨_, _, _, hrows⟩ := bind_eq_ok.mp hrows
  obtain ⟨_, _, _, hrows⟩ := bind_eq_ok.mp hrows
  obtain ⟨_, _, _, hrows⟩ := bind_eq_ok.mp hrows
  obtain ⟨saved, _, hloop, hrows⟩ := bind_eq_ok.mp hrows
  obtain ⟨hpair, rfl⟩ := pure_eq_ok.mp hrows
  cases hpair
  have hsaved := mapM_eq_ok (f := pilotRow p c) (R := GradesStay) (fun _ => pilotRow_moves)
    (P := RowSaved) (fun _ _ _ _ hrow => pilotRow_saved hrow)
    (fun s row _ _ hstay ⟨grade, hgrade, hrow⟩ => ⟨grade, hstay _ _ _ hgrade, hrow⟩) hloop
  exact hsaved

end Steps

section Runs
variable {u : UnicodeData} {p : Pilot} {calls : List (PilotCall u)} {d : PilotDirectory}

/-- Each call that returns left its rows, and the grades it saved are still there later. -/
theorem returned_spec (calls : List (PilotCall u)) (d : PilotDirectory) :
    (∀ r ∈ returned p calls d, GradesStay d r.2 ∧
      List.Forall₂ (fun s row => RowSaved s row r.2) (r.1.selected p) r.2.savedRows) ∧
    (returned p calls d).Pairwise fun earlier later => GradesStay earlier.2 later.2 := by
  induction calls generalizing d with
  | nil => simp [returned]
  | cons c calls ih =>
    have hmoves := runPilot_moves (p := p) (c := c) d
    unfold returned
    cases hrun : runPilot p c d with
    | ok table d' =>
      rw [hrun] at hmoves
      obtain ⟨hspec, hpairs⟩ := ih d'
      refine ⟨fun r hr => ?_, .cons (fun r hr => (hspec r hr).1) hpairs⟩
      rcases List.mem_cons.mp hr with rfl | hr
      · exact ⟨hmoves, runPilot_rows hrun⟩
      · exact ⟨trans_of GradesStay hmoves (hspec r hr).1, (hspec r hr).2⟩
    | error e d' =>
      rw [hrun] at hmoves
      obtain ⟨hspec, hpairs⟩ := ih d'
      exact ⟨fun r hr => ⟨trans_of GradesStay hmoves (hspec r hr).1, (hspec r hr).2⟩, hpairs⟩

/-- No recorded attempt is lost while each call goes through what earlier ones went through. -/
theorem keepsAttempts (h : SelectsEarlier p calls d) : KeepsAttempts p calls d := by
  obtain ⟨hspec, hstay⟩ := returned_spec (p := p) calls d
  refine (List.Pairwise.and_mem.mp (h.and hstay)).imp ?_
  intro earlier later ⟨hearlier, hlater, hselected, hgrades⟩ row hrow
  obtain ⟨s, hs, grade, hgrade, rfl⟩ := (forall₂_partner (hspec earlier hearlier).2).2 row hrow
  obtain ⟨row, hrow, grade', hgrade', rfl⟩ :=
    (forall₂_partner (hspec later hlater).2).1 s (hselected hs)
  rw [hgrades _ _ _ hgrade] at hgrade'
  cases hgrade'
  exact hrow

end Runs

/-! A directory with two recorded attempts, resumed with one. -/

def failedTurn : TurnResult asciiData where
  content := []
  transcriptFile := []
  sessionId := none
  wall := .finite 1
  tokens := none
  timedOut := false
  protocolAborted := false
  terminationReason := none
  returncode := 1
  aborted_iff := by decide
  aborted_calls h := nomatch h

def failedAttempt : PilotRun asciiData where
  pilotId := "q36_jsonl_stream".toList
  attempt := 0
  grading := ⟨[], [], fun _ => true, fun _ => true, fun _ => true⟩
  agent _ := failedTurn
  before := []
  snapshot _ := []
  source := []
  final := []
  publicTests := .timedOut
  hiddenTests := .timedOut

def samplePilot : Pilot where
  interpreter := Interpreter.ofTable []
  config := [("models".toList, .arr [.obj [("key".toList, .str "m".toList),
    ("transport".toList, .str "codex_cli".toList)]]), ("timeout_seconds".toList, .int 60)]
  pilotId := "q36_jsonl_stream".toList

def sampleCall (attempts : Int) : PilotCall asciiData where
  modelKeys := none
  attempts := attempts
  timeout := none
  agentFactory := none
  validateConfig _ := .ok ()
  pilotAssets := .ok ()
  validatePack := .ok ()
  pilotFingerprint := .ok ("sha256:".toList ++ List.replicate 64 '0')
  course _ _ := .finished failedAttempt

def emptyDirectory : PilotDirectory := ⟨none, none, fun _ _ => .absent⟩

def savedNumbers (d : PilotDirectory) : List Json :=
  d.savedRows.map fun row => Json.field (objFields (Json.field (objFields row) "grade")) "attempt"

theorem sampleCalls_keep : SelectsEarlier samplePilot [sampleCall 1, sampleCall 2] emptyDirectory ∧
    KeepsAttempts samplePilot [sampleCall 1, sampleCall 2] emptyDirectory := by
  have hselected : (returned samplePilot [sampleCall 1, sampleCall 2] emptyDirectory).map
      (fun r => r.1.selected samplePilot) =
        [[("m".toList, 1)], [("m".toList, 1), ("m".toList, 2)]] := by
    decide +kernel
  have hselects : SelectsEarlier samplePilot [sampleCall 1, sampleCall 2] emptyDirectory := by
    refine List.pairwise_map.mp (?_ : ((returned samplePilot [sampleCall 1, sampleCall 2]
      emptyDirectory).map fun r => r.1.selected samplePilot).Pairwise fun s t => s ⊆ t)
    rw [hselected]
    decide
  exact ⟨hselects, keepsAttempts hselects⟩

theorem resumedWithFewer_loses :
    ¬ KeepsAttempts samplePilot [sampleCall 2, sampleCall 1] emptyDirectory := by
  intro h
  have hnumbers : (returned samplePilot [sampleCall 2, sampleCall 1] emptyDirectory).map
      (fun r => savedNumbers r.2) = [[.int 1, .int 2], [.int 1]] := rfl
  have hkept : [[Json.int 1, .int 2], [.int 1]].Pairwise fun s t => s ⊆ t := by
    rw [← hnumbers, List.pairwise_map]
    exact h.imp fun hrows => List.map_subset _ hrows
  have hlost : Json.int 2 ∈ [Json.int 1] :=
    (List.pairwise_cons.mp hkept).1 _ (.head _) (.tail _ (.head _))
  simp at hlost

end Round5
